import PackageDepot.Proofs.Traffic.Commits
import PackageDepot.Proofs.Traffic.Reads

/-!
# One writer for each key

`SingleWriter` is what leases are for, said of a run of a depot from its opening on: leases and keys in
flight agree; a write takes effect only on what it expects, and no other one takes effect on its key
while it holds the lease; what is read is what the last effect left; and a conflict is reported only
while another call holds the lease. `single_writer` proves it of all runs, so of all interleavings of any
calls, with calls dropped at any point.
-/

namespace PackageDepot.Traffic

open Package Call Backend

/-- A key has one writer at a time. `x n` is the state in which the event `es n` happens. -/
structure SingleWriter (e : Engine) (es : Nat → Event) (x : Nat → Traffic) : Prop where
  /-- The keys in flight are those of the leases that are held. -/
  inFlight : ∀ n k, k ∈ (x n).depot.store.inFlight ↔ ∃ i, (x n).Holds i k
  nodup : ∀ n, (x n).depot.store.inFlight.Nodup
  holder : ∀ n i j k, (x n).Holds i k → (x n).Holds j k → i = j
  /-- What is created was not there. -/
  create : ∀ n i r c f, (x n).Settles i (.create r c) (.ok (.files f)) → (x n).content r.key = none
  /-- What is built anew was there. -/
  update : ∀ n i r c f, (x n).Settles i (.update r c) (.ok (.files f)) → (x n).content r.key ≠ none
  /-- A write that is to be answered with success takes effect, with the files that it answers. -/
  commits : ∀ n i q intent r c f, q.write? = some (intent, r, c) → (x n).Settles i q (.ok (.files f)) →
    ∃ kptfile, (x n).Effect (.move i) r.key (some ⟨r, f.files, kptfile⟩)
  /-- Whoever takes effect on a key holds its lease, unless it purges the repository. -/
  held : ∀ n k v, (x n).Effect (es n) k v → (∃ i, es n = .move i ∧ (x n).Holds i k) ∨
    ∃ j, es n = .move j ∧ (x n).Ends j (.unregister k.repository) (.ok .done)
  /-- While a lease is held, only its holder takes effect on the key, or a purge. -/
  exclusive : ∀ n i k v, (x n).Holds i k → (x n).Effect (es n) k v → es n = .move i ∨
    ∃ j, es n = .move j ∧ (x n).Ends j (.unregister k.repository) (.ok .done)
  /-- A replacement whose key was purged under its lease never takes effect. It fails because the key is
  not found, or because it cannot be built. -/
  purged : ∀ n i r c p, (x n).At i (.update r c) p → (∀ a, ¬ p.Decided (.ok a)) →
    (x n).Holds i r.key → (x n).content r.key = none → ∀ b, n ≤ b →
      (∀ v, es b = .move i → ¬ (x b).Effect (.move i) r.key v) ∧
      ∀ q a, (x b).At i q (.done a) → a = .error (.notFound (.revision r.key)) ∨
        ∃ err, a = .error err ∧ (Pipeline.execute e r c).run.Returns (.error err)
  /-- An effect leaves what it says, and nothing is there to begin with. -/
  effect : ∀ n k v, (x n).Effect (es n) k v → (x (n + 1)).content k = v
  /-- What a write leaves, the manifest included, is what its own build came to, by steps that it made. -/
  built : ∀ n k v, (x n).Effect (es n) k (some v) → ∃ i q intent c d t, es n = .move i ∧
    (x n).Asked i q ∧ q.write? = some (intent, v.spec, c) ∧
    Routine.Within (Stepped es x i (n + 1)) (Pipeline.execute e v.spec c).run d
      (.ok ⟨v.files, v.kptfile⟩) t
  opening : ∀ k, (x 0).content k = none
  /-- From one effect to the next the revision under a key stays as it is. -/
  stays : ∀ a n k, a ≤ n → (∀ b v, a ≤ b → b < n → ¬ (x b).Effect (es b) k v) →
    (x n).depot.store.get? k = (x a).depot.store.get? k
  /-- A reader answers by what is there at one of its steps. The manifest is the one that is stored, unless the
  reader missed the key before; then it is read from the files. -/
  get : ∀ n i k c a, (x n).At i (.get k c) (.done a) → ∃ b < n, es b = .move i ∧
    match (x b).depot.store.get? k with
    | some s => ∃ missed, Request.Shows e k missed s a ∧ (missed = true → Looked es x i k none b)
    | none => (Request.published e k c).run.Returns a
  spec : ∀ n i k a, (x n).At i (.spec k) (.done a) → ∃ b < n, es b = .move i ∧
    match (x b).depot.store.get? k with
    | some s => a = .ok (.spec s.spec)
    | none => a = .error (.notFound (.revision k))
  /-- A conflict is about the key of a call, and at the step that reports it another call holds the
  lease; but an evaluator may report conflicts of its own, as errors of a task. -/
  conflict : ∀ n i q err, (x n).At i q (.done (.error err)) → err.kind = .conflict →
    (∃ k b, q.key? = some k ∧ err = .conflict k ∧ b < n ∧ es b = .move i ∧
      (x b).Ends i q (.error err) ∧ ∃ j, j ≠ i ∧ (x b).Holds j k) ∨
    ∃ index kind cause, err = .task index kind cause ∧ e.Reports cause

variable {e : Engine} {x : Traffic} {m : Moment} {git : GitHost} {images : ImageHost}
  {secrets : Dict Credential} {es : Nat → Event} {i : Nat}

/-- Whoever takes effect on a key holds its lease, unless it purges the repository. -/
theorem Effect.held (orderly : x.Orderly e) {ev : Event} {k : Key} {v : Option Substance}
    (h : x.Effect ev k v) : (∃ i, ev = .move i ∧ x.Holds i k) ∨
      ∃ j, ev = .move j ∧ x.Ends j (.unregister k.repository) (.ok .done) := by
  cases h with
  | create h => exact .inl ⟨_, rfl, (h.outcome orderly rfl).1⟩
  | update h => exact .inl ⟨_, rfl, (h.outcome orderly rfl).1⟩
  | delete h => exact .inl ⟨_, rfl, (h.outcome orderly rfl).1⟩
  | @purge j n _ h hk =>
    subst hk
    exact .inr ⟨j, rfl, h⟩

/-- While a lease is held, only its holder takes effect on the key, or a purge. -/
theorem Effect.exclusive (orderly : x.Orderly e) (leased : Leased x.Holds x.depot.store.inFlight)
    {ev : Event} {k : Key} {v : Option Substance} (hi : x.Holds i k)
    (h : x.Effect ev k v) : ev = .move i ∨
      ∃ j, ev = .move j ∧ x.Ends j (.unregister k.repository) (.ok .done) := by
  obtain ⟨j, rfl, hj⟩ | purge := h.held orderly
  · rw [leased.unique _ _ _ hi hj]
    exact .inl rfl
  · exact .inr purge

/-- Between effects on a key the revision under it stays. -/
theorem run_stays {a n : Nat} {k : Key} (han : a ≤ n)
    (h : ∀ b v, a ≤ b → b < n → ¬ (run e (opening m git images secrets) es b).Effect (es b) k v) :
    (run e (opening m git images secrets) es n).depot.store.get? k =
      (run e (opening m git images secrets) es a).depot.store.get? k := by
  induction n with
  | zero =>
    have ha : a = 0 := by omega
    rw [ha]
  | succ n ih =>
    by_cases ha : a = n + 1
    · rw [ha]
    · have same := (run_change e (opening m git images secrets) es n).get?_or_effect
        (run_orderly n) k
      obtain same | effect := same
      · exact same.trans (ih (by omega) fun b v hab hbn => h b v hab (by omega))
      · exact (h n _ (by omega) (by omega) effect).elim

/-- The last step of a call that reports a conflict. -/
theorem Ends.conflict (orderly : x.Orderly e) (leased : Leased x.Holds x.depot.store.inFlight)
    {q : Request} {err : Error} (h : x.Ends i q (.error err)) (hc : err.kind = .conflict) :
    (∃ k, q.key? = some k ∧ err = .conflict k ∧ ∃ j, j ≠ i ∧ x.Holds j k) ∨
      ∃ index kind cause, err = .task index kind cause ∧ e.Reports cause := by
  obtain ⟨p, stands, going, last⟩ := h
  obtain ⟨t, hf⟩ := orderly i q p stands
  have tense : ¬ err.Calm := by simp [Error.Calm, Error.isConflict, hc]
  obtain stay | ⟨-, u, hs, hu⟩ := hf.move x.moment x.depot
  · rw [stay] at last
    subst last
    cases going
  · rw [last] at hu
    generalize (p.move x.moment x.depot).2 = d' at hs
    cases hs with
    | quiet _ _ h =>
      obtain rfl | rfl | rfl := h
      · exact (tense (hu.1 err rfl)).elim
      · exact hu.elim
      · obtain ⟨_, he, calm⟩ := hu
        cases he
        exact (tense calm).elim
    | conflict hk busy =>
      cases hu
      have mem := (leased.mem_iff _).1 (List.contains_iff_mem.1 busy)
      obtain ⟨j, hj⟩ := mem
      refine .inl ⟨_, hk, rfl, j, ?_, hj⟩
      rintro rfl
      have held := (holds_iff stands hf _).1 hj
      cases held
    | fail hq h =>
      cases hu
      obtain calm | report := h.1
      · exact (tense calm).elim
      · exact .inr report
    | register => cases hu
    | remove => exact hu.elim
    | purge => cases hu
    | approve => exact hu.elim
    | acquire => exact hu.elim
    | commit => exact hu.elim
    | erase => exact hu.elim
    | finish => cases hu
    | miss =>
      obtain ⟨_, he, calm⟩ := hu
      cases he
      exact (tense calm).elim

/-- A replacement that cannot succeed: under its lease nothing is there, or it has failed. -/
def Lost (e : Engine) (x : Traffic) (i : Nat) (r : Revision) (c : Context) : Prop :=
  ∀ p, x.At i (.update r c) p → ∃ t, p.Follows ((Request.update r c).protocol e) t ∧
    (t = Phase.leased ∧ x.depot.store.get? r.key = none ∨
      ∃ err, t = Phase.answered (.error err) ∧ r.Fails e .replace c err)

/-- While a lease is held and nothing is there, others put nothing there. -/
theorem stays_absent (orderly : x.Orderly e) (leased : Leased x.Holds x.depot.store.inFlight)
    {k : Key} (hi : x.Holds i k) (absent : x.depot.store.get? k = none) {ev : Event}
    (other : ev ≠ .move i) : (x.next e ev).depot.store.get? k = none := by
  obtain same | effect := (next_change e x ev).get?_or_effect orderly k
  · exact same.trans absent
  · obtain own | ⟨j, rfl, h⟩ := effect.exclusive orderly leased hi
    · exact (other own).elim
    · exact h.purged orderly rfl

/-- A replacement that is lost stays lost. -/
theorem Lost.next (orderly : x.Orderly e) (leased : Leased x.Holds x.depot.store.inFlight)
    {r : Revision} {c : Context} (asked : x.Asked i (.update r c)) (h : Lost e x i r c)
    (ev : Event) : Lost e (x.next e ev) i r c := by
  intro p hp
  have kept : ev ≠ .move i → x.At i (.update r c) p → ∃ t,
      p.Follows ((Request.update r c).protocol e) t ∧
      (t = Phase.leased ∧ (x.next e ev).depot.store.get? r.key = none ∨
        ∃ err, t = Phase.answered (.error err) ∧ r.Fails e .replace c err) := by
    intro other hx
    obtain ⟨t, hf, ⟨rfl, absent⟩ | failed⟩ := h p hx
    · have hi : x.Holds i r.key := (holds_iff hx hf _).2 rfl
      exact ⟨_, hf, .inl ⟨rfl, stays_absent orderly leased hi absent other⟩⟩
    · exact ⟨t, hf, .inr failed⟩
  have hc := next_change e x ev
  generalize x.next e ev = y at *
  cases hc with
  | start q depot calls stay =>
    obtain hx | ⟨rfl, -, -⟩ := calls i _ p hp
    · exact kept nofun hx
    · obtain ⟨o, ho⟩ := asked
      simp at ho
  | move j q p' stands depot moved others =>
    by_cases hij : i = j
    · subst hij
      obtain ⟨rfl, rfl⟩ := moved.unique hp
      obtain ⟨t, hf, ht⟩ := h p' stands
      obtain stay | ⟨-, u, hs, hu⟩ := hf.move x.moment x.depot
      · rw [depot, stay]
        exact ⟨t, hf, ht⟩
      · rw [← depot] at hs
        generalize y.depot = d' at hs ⊢
        refine ⟨u, hu, ?_⟩
        obtain ⟨rfl, absent⟩ | ⟨err, rfl, -⟩ := ht
        · cases hs with
          | quiet => exact .inl ⟨rfl, absent⟩
          | commit hq hcommit =>
            cases hq
            have present := ((Store.commit_ok hcommit).replaced rfl).1
            simp [absent] at present
          | erase hq => cases hq
          | fail hq failed =>
            cases hq
            exact .inr ⟨_, rfl, failed⟩
          | miss hq => cases hq
        · cases hs with
          | quiet _ _ hq => simp at hq
    · exact kept (fun hm => hij (Event.move.inj hm).symm) ((others i _ p hij).1 hp)
  | drop j q p' stands going depot dropped others =>
    by_cases hij : i = j
    · subst hij
      exact (dropped _ p hp).elim
    · exact kept nofun ((others i _ p hij).1 hp)
  | other ev registry store calls =>
    rw [At, calls] at hp
    rw [store]
    exact h p hp

/-- A replacement under its lease, before its commit, where nothing is there. -/
theorem lost_of_holds (orderly : x.Orderly e) {r : Revision} {c : Context}
    {p : Routine Depot Answer} (hp : x.At i (.update r c) p) (open_ : ∀ a, ¬ p.Decided (.ok a))
    (hi : x.Holds i r.key) (absent : x.depot.store.get? r.key = none) : Lost e x i r c := by
  intro p' hp'
  obtain ⟨-, rfl⟩ := hp.unique hp'
  obtain ⟨t, hf⟩ := orderly i _ p hp
  have held := (holds_iff hp hf _).1 hi
  cases t with
  | leased => exact ⟨_, hf, .inl ⟨rfl, absent⟩⟩
  | wrote a => exact (open_ a (Request.decided_of_wrote hf)).elim
  | _ => cases held

theorem run_lost {n b : Nat} {r : Revision} {c : Context} (hb : n ≤ b)
    (asked : (run e (opening m git images secrets) es n).Asked i (.update r c))
    (h : Lost e (run e (opening m git images secrets) es n) i r c) :
    Lost e (run e (opening m git images secrets) es b) i r c := by
  induction hb with
  | refl => exact h
  | @step b hb ih => exact ih.next (run_orderly b) (run_leased b) (asked.run hb) _

/-- A replacement that is lost takes no effect. -/
theorem Lost.no_effect (orderly : x.Orderly e) {r : Revision} {c : Context}
    (asked : x.Asked i (.update r c)) (h : Lost e x i r c) (v : Option Substance) :
    ¬ x.Effect (.move i) r.key v := by
  have settles : ∀ a, ¬ x.Settles i (.update r c) (.ok a) := by
    intro a hs
    have ho := (hs.outcome orderly rfl).2
    obtain ⟨p, hp, undecided, -⟩ := hs
    obtain ⟨t, hf, ⟨rfl, absent⟩ | ⟨err, rfl, -⟩⟩ := h p hp
    · cases ho with
      | update _ present => simp [absent] at present
    · have ended := Request.eq_done_of_answered hf
      subst ended
      exact undecided (.error err) rfl
  intro effect
  generalize r.key = k at effect
  cases effect with
  | create hs =>
    obtain ⟨p, hp, -⟩ := hs
    cases asked.unique hp.asked
  | update hs =>
    have hq := asked.unique (hs.choose_spec.1.asked)
    cases hq
    exact settles _ hs
  | delete hs =>
    obtain ⟨p, hp, -⟩ := hs
    cases asked.unique hp.asked
  | purge hs =>
    obtain ⟨p, hp, -⟩ := hs
    cases asked.unique hp.asked

/-- A replacement that is lost ends with the failure to find its key, or with one of building. -/
theorem Lost.answer {r : Revision} {c : Context} (h : Lost e x i r c) {a : Answer}
    (ha : x.At i (.update r c) (.done a)) : a = .error (.notFound (.revision r.key)) ∨
      ∃ err, a = .error err ∧ (Pipeline.execute e r c).run.Returns (.error err) := by
  obtain ⟨t, hf, ⟨rfl, -⟩ | ⟨err, rfl, -, replaces⟩⟩ := h _ ha
  · exact hf.elim
  · cases hf
    obtain rfl | built := replaces rfl
    · exact .inl rfl
    · exact .inr ⟨err, rfl, built⟩

/-- **A key has one writer at a time**, in every run of every depot. -/
theorem single_writer (e : Engine) (m : Moment) (git : GitHost) (images : ImageHost)
    (secrets : Dict Credential) (es : Nat → Event) :
    SingleWriter e es (run e (opening m git images secrets) es) where
  inFlight n k := (run_leased n).mem_iff k
  nodup n := (run_leased n).nodup
  holder n i j k := (run_leased n).unique i j k
  create n i r c f h := by
    have ho := (h.outcome (run_orderly n) rfl).2
    cases ho with
    | create _ absent => simp [content, absent]
  update n i r c f h := by
    have ho := (h.outcome (run_orderly n) rfl).2
    cases ho with
    | update _ present =>
      intro absent
      rw [content, Option.map_eq_none_iff] at absent
      simp [absent] at present
  commits n i q intent r c f hq h := h.takes_effect (run_orderly n) hq
  held n k v h := h.held (run_orderly n)
  exclusive n i k v hi h := h.exclusive (run_orderly n) (run_leased n) hi
  purged n i r c p hp open_ hi absent b hb := by
    have none : (run e (opening m git images secrets) es n).depot.store.get? r.key = none := by
      simpa [content] using absent
    have asked := hp.asked.run hb
    have lost := run_lost hb hp.asked (lost_of_holds (run_orderly n) hp open_ hi none)
    refine ⟨fun v _ => lost.no_effect (run_orderly b) asked v, fun q a ha => ?_⟩
    have hq := asked.unique ha.asked
    subst hq
    exact lost.answer ha
  effect n k v h := h.content (run_orderly n)
  built n k v h := h.built
  opening k := rfl
  stays a n k han h := run_stays han h
  get n i k c a h := h.read (Request.get_follows e k c)
  spec n i k a h := by
    obtain ⟨b, hb, hev, found⟩ := h.read (Request.spec_follows e k)
    refine ⟨b, hb, hev, ?_⟩
    cases hs : (run e (opening m git images secrets) es b).depot.store.get? k with
    | some s =>
      rw [hs] at found
      obtain ⟨-, answered, -⟩ := found
      exact answered
    | none =>
      rw [hs] at found
      exact found
  conflict n i q err h hc := by
    obtain ⟨b, hb, hev, ends⟩ := h.ends
    obtain ⟨k, hk, he, held⟩ | report := ends.conflict (run_orderly b) (run_leased b) hc
    · exact .inl ⟨k, b, hk, he, hb, hev, ends, held⟩
    · exact .inr report

end PackageDepot.Traffic
