import PackageDepot.Proofs.Traffic.Basic

/-!
# What calls have behind them

`At.rec_run` is the induction over a run for the calls in it: a call is begun, makes a step, or stands
while others do something. `run_follows` is its form for calls that follow a protocol: what is known of
a phase may speak of moments in the past, so a fact about an answer, or about a lease, is carried from
the step that it comes from. `At.began` and `At.ends` find the first and the last step of a call.
-/

namespace PackageDepot.Traffic

open Package Backend

variable {e : Engine} {m : Moment} {git : GitHost} {images : ImageHost} {secrets : Dict Credential}
  {es : Nat → Event}

theorem run_change (e : Engine) (x : Traffic) (es : Nat → Event) (n : Nat) :
    Change e (run e x es n) (es n) (run e x es (n + 1)) :=
  next_change e _ _

theorem not_at_opening {i : Nat} {q : Request} {p : Routine Depot Answer} :
    ¬ (opening m git images secrets).At i q p := by
  intro h
  cases h

theorem begin_isDone (e : Engine) (q : Request) : (q.begin e).isDone = false := by
  cases q <;> rfl

/-- **The induction over a run for its calls.** -/
theorem At.rec_run {C : Nat → Nat → Request → Routine Depot Answer → Prop}
    (start : ∀ n i q, es n = .start q → C (n + 1) i q (q.begin e))
    (move : ∀ n i q p, es n = .move i → (run e (opening m git images secrets) es n).At i q p →
      (run e (opening m git images secrets) es (n + 1)).depot =
        (p.move (run e (opening m git images secrets) es n).moment
          (run e (opening m git images secrets) es n).depot).2 → C n i q p →
      C (n + 1) i q (p.move (run e (opening m git images secrets) es n).moment
        (run e (opening m git images secrets) es n).depot).1)
    (keep : ∀ n i q p, C n i q p → C (n + 1) i q p) {n i : Nat} {q : Request}
    {p : Routine Depot Answer} (h : (run e (opening m git images secrets) es n).At i q p) :
    C n i q p := by
  induction n generalizing i q p with
  | zero => exact (not_at_opening h).elim
  | succ n ih =>
    have hc := run_change e (opening m git images secrets) es n
    generalize hev : es n = ev at hc
    cases hc with
    | start r depot calls stay =>
      obtain hx | ⟨rfl, rfl, rfl⟩ := calls i q p h
      · exact keep _ _ _ _ (ih hx)
      · exact start n _ _ hev
    | move j r p' stands depot moved others =>
      by_cases hij : i = j
      · subst hij
        obtain ⟨rfl, rfl⟩ := moved.unique h
        exact move n i _ p' hev stands depot (ih stands)
      · exact keep _ _ _ _ (ih ((others i q p hij).1 h))
    | drop j r p' stands going depot dropped others =>
      by_cases hij : i = j
      · subst hij
        exact (dropped q p h).elim
      · exact keep _ _ _ _ (ih ((others i q p hij).1 h))
    | other ev registry store calls =>
      rw [At, calls] at h
      exact keep _ _ _ _ (ih h)

/-- **The run lemma of protocols.** Each call of a request is in a phase that it came to by the steps of
a protocol; `H n i t` is what is then known of the call `i` at the time `n`. -/
theorem run_follows {q : Request} {P : Protocol Depot Answer} {opens : P.Phase}
    (begins : (q.begin e).Follows P opens) {H : Nat → Nat → P.Phase → Prop}
    (start : ∀ n i, es n = .start q → H (n + 1) i opens)
    (keep : ∀ n i t, H n i t → H (n + 1) i t)
    (step : ∀ n i p t u, es n = .move i →
      (run e (opening m git images secrets) es n).At i q p → p.Follows P t → H n i t →
      P.Step t (run e (opening m git images secrets) es n).moment
        (run e (opening m git images secrets) es n).depot
        (run e (opening m git images secrets) es (n + 1)).depot u → H (n + 1) i u)
    (n : Nat) {i : Nat} {p : Routine Depot Answer}
    (h : (run e (opening m git images secrets) es n).At i q p) : ∃ t, p.Follows P t ∧ H n i t := by
  have known : ∀ {r}, r = q → (run e (opening m git images secrets) es n).At i r p →
      ∃ t, p.Follows P t ∧ H n i t := by
    intro r hr h
    refine h.rec_run (C := fun n i r p => r = q → ∃ t, p.Follows P t ∧ H n i t) ?_ ?_ ?_ hr
    · rintro n i r hev rfl
      exact ⟨opens, begins, start n i hev⟩
    · rintro n i r p hev stands depot ih rfl
      obtain ⟨t, hf, ht⟩ := ih rfl
      obtain stay | ⟨-, u, hs, hu⟩ := hf.move (run e (opening m git images secrets) es n).moment
        (run e (opening m git images secrets) es n).depot
      · rw [stay]
        exact ⟨t, hf, keep n i t ht⟩
      · rw [← depot] at hs
        exact ⟨u, hu, step n i p t u hev stands hf ht hs⟩
    · rintro n i r p ih hr
      obtain ⟨t, hf, ht⟩ := ih hr
      exact ⟨t, hf, keep n i t ht⟩
  exact known rfl h

/-- A call that is under way once made its first step. -/
theorem At.began {n i : Nat} {q : Request} {p : Routine Depot Answer}
    (h : (run e (opening m git images secrets) es n).At i q p) : p = q.begin e ∨
      ∃ a < n, es a = .move i ∧
        (run e (opening m git images secrets) es a).At i q (q.begin e) := by
  refine h.rec_run (C := fun n i q p => p = q.begin e ∨ ∃ a < n, es a = .move i ∧
    (run e (opening m git images secrets) es a).At i q (q.begin e)) ?_ ?_ ?_
  · intro n i q _
    exact .inl rfl
  · rintro n i q p hev stands - (rfl | ⟨a, ha, moved⟩)
    · exact .inr ⟨n, by omega, hev, stands⟩
    · exact .inr ⟨a, by omega, moved⟩
  · rintro n i q p (rfl | ⟨a, ha, moved⟩)
    · exact .inl rfl
    · exact .inr ⟨a, by omega, moved⟩

/-- A call that has ended once made its last step. -/
theorem At.ends {n i : Nat} {q : Request} {a : Answer}
    (h : (run e (opening m git images secrets) es n).At i q (.done a)) :
    ∃ b < n, es b = .move i ∧ (run e (opening m git images secrets) es b).Ends i q a := by
  refine h.rec_run (C := fun n i q p => p = .done a → ∃ b < n, es b = .move i ∧
    (run e (opening m git images secrets) es b).Ends i q a) ?_ ?_ ?_ rfl
  · intro n i q _ hp
    have going := begin_isDone e q
    rw [hp] at going
    cases going
  · intro n i q p hev stands _ ih last
    cases going : p.isDone with
    | false => exact ⟨n, by omega, hev, p, stands, going, last⟩
    | true =>
      cases p with
      | done b =>
        obtain ⟨b, hb, ends⟩ := ih last
        exact ⟨b, by omega, ends⟩
      | step _ _ _ => cases going
      | wait _ _ _ _ => cases going
  · intro n i q p ih last
    obtain ⟨b, hb, ends⟩ := ih last
    exact ⟨b, by omega, ends⟩

/-- An answer stays. -/
theorem At.done_next {x : Traffic} {i : Nat} {q : Request} {a : Answer} (h : x.At i q (.done a))
    (e : Engine) (ev : Event) : (x.next e ev).At i q (.done a) := by
  have hc := next_change e x ev
  generalize x.next e ev = y at hc
  cases hc with
  | start r depot calls stay => exact stay i q _ h
  | move j r p stands depot moved others =>
    by_cases hij : i = j
    · subst hij
      obtain ⟨rfl, rfl⟩ := stands.unique h
      exact moved
    · exact (others i q _ hij).2 h
  | drop j r p stands going depot dropped others =>
    by_cases hij : i = j
    · subst hij
      obtain ⟨rfl, rfl⟩ := stands.unique h
      cases going
    · exact (others i q _ hij).2 h
  | other ev registry store calls => rwa [At, calls]

theorem At.done_run {x : Traffic} {a b i : Nat} {q : Request} {r : Answer} (hab : a ≤ b)
    (h : (run e x es a).At i q (.done r)) : (run e x es b).At i q (.done r) := by
  induction hab with
  | refl => exact h
  | step _ ih => exact ih.done_next e _

/-- A call that stands behind an event was begun before, or by this event. -/
theorem At.asked_or_begun {x : Traffic} {i : Nat} {q : Request} {p : Routine Depot Answer} {ev : Event}
    (h : (x.next e ev).At i q p) : x.Asked i q ∨ ev = .start q ∧ i = x.calls.length := by
  have hc := next_change e x ev
  generalize x.next e ev = y at hc h
  cases hc with
  | start r depot calls stay =>
    obtain before | ⟨rfl, rfl, -⟩ := calls i q p h
    · exact .inl before.asked
    · exact .inr ⟨rfl, rfl⟩
  | move j r p' stands depot moved others =>
    by_cases hij : i = j
    · subst hij
      obtain ⟨rfl, -⟩ := h.unique moved
      exact .inl stands.asked
    · exact .inl ((others i q p hij).1 h).asked
  | drop j r p' stands going depot dropped others =>
    by_cases hij : i = j
    · subst hij
      exact (dropped q p h).elim
    · exact .inl ((others i q p hij).1 h).asked
  | other ev registry store calls =>
    rw [At, calls] at h
    exact .inl ⟨some p, h⟩

/-- A call that was asked for behind an event was asked for before, or by this event. -/
theorem Asked.before {x : Traffic} {i : Nat} {q : Request} {ev : Event}
    (h : (x.next e ev).Asked i q) : x.Asked i q ∨ ev = .start q := by
  obtain ⟨p, hp⟩ := h
  cases hx : x.calls[i]? with
  | some c =>
    have asked : x.Asked i c.1 := ⟨c.2, hx⟩
    rw [Asked.unique ⟨p, hp⟩ (asked.next e ev)]
    exact .inl asked
  | none =>
    have beyond : x.calls.length ≤ i := List.getElem?_eq_none_iff.1 hx
    -- No other event makes the list of the calls longer.
    have same : ∀ {y : Traffic}, y.calls.length = x.calls.length → y.calls[i]? ≠ some (q, p) := by
      intro y lengths there
      have lt := (List.getElem?_eq_some_iff.1 there).1
      omega
    cases ev with
    | start r =>
      rw [Traffic.next, List.getElem?_append_right beyond, List.getElem?_singleton] at hp
      split at hp
      · cases hp
        exact .inr rfl
      · cases hp
    | move j =>
      refine (same ?_ hp).elim
      rw [Traffic.next]
      split
      · exact List.length_set
      · rfl
    | drop j =>
      refine (same ?_ hp).elim
      rw [Traffic.next]
      split
      · split
        · rfl
        · exact List.length_set
      · rfl
    | pass time scopes => exact (same (by rfl) hp).elim
    | outside git images secrets => exact (same (by rfl) hp).elim

/-- Each call of a run was begun. -/
theorem Asked.begun {n i : Nat} {q : Request}
    (h : (Traffic.run e (opening m git images secrets) es n).Asked i q) : ∃ a < n, es a = .start q := by
  induction n with
  | zero =>
    obtain ⟨p, hp⟩ := h
    cases hp
  | succ n ih =>
    obtain before | hev := h.before
    · obtain ⟨a, ha, hev⟩ := ih before
      exact ⟨a, by omega, hev⟩
    · exact ⟨n, by omega, hev⟩

/-- A call that was begun before an event, and is under way behind it, was under way before. -/
theorem At.undone_before {x : Traffic} {i : Nat} {q r : Request} {p : Routine Depot Answer} {ev : Event}
    (h : (x.next e ev).At i q p) (asked : x.Asked i r) (going : p.isDone = false) :
    ∃ p', x.At i q p' ∧ p'.isDone = false := by
  have hc := next_change e x ev
  generalize x.next e ev = y at hc h
  cases hc with
  | start q' depot calls stay =>
    obtain before | ⟨rfl, -, -⟩ := calls i q p h
    · exact ⟨p, before, going⟩
    · obtain ⟨_, hx⟩ := asked
      simp at hx
  | move j q' p' stands depot moved others =>
    by_cases hij : i = j
    · subst hij
      obtain ⟨rfl, rfl⟩ := h.unique moved
      refine ⟨p', stands, ?_⟩
      cases p' with
      | done a => cases going
      | step _ _ _ => rfl
      | wait _ _ _ _ => rfl
    · exact ⟨p, (others i q p hij).1 h, going⟩
  | drop j q' p' stands going' depot dropped others =>
    by_cases hij : i = j
    · subst hij
      exact (dropped q p h).elim
    · exact ⟨p, (others i q p hij).1 h, going⟩
  | other ev registry store calls =>
    rw [At, calls] at h
    exact ⟨p, h, going⟩

/-- A call that is under way was under way at all times since it was begun. -/
theorem At.undone_since {x : Traffic} {a n i : Nat} {q r : Request} {p : Routine Depot Answer}
    (han : a ≤ n) (h : (run e x es n).At i q p) (asked : (run e x es a).Asked i r)
    (going : p.isDone = false) : ∃ p', (run e x es a).At i q p' ∧ p'.isDone = false := by
  induction han generalizing p with
  | refl => exact ⟨p, h, going⟩
  | step hab ih =>
    obtain ⟨p', before, going'⟩ := h.undone_before (asked.run hab) going
    exact ih before going'

end PackageDepot.Traffic
