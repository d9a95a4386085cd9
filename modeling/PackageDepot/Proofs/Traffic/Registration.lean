import PackageDepot.Proofs.Traffic.Effects

/-!
# Repositories that come and go

A name is registered for packages (`Registers`) until the removal step of a call that takes it out, which
is the step that makes the success of this call certain; from then on the call purges (`Purging`) until
it ends, and behind its end nothing of the repository is stored. Only a registration brings the name
back.
-/

namespace PackageDepot

open Package Call Backend

/-- A repository of packages in git is registered under a name. -/
def Depot.Registers (d : Depot) (name : String) : Prop :=
  ∃ r, d.registry.get? name = some r ∧ r.holdsPackages = true

/-- A call that takes a repository out may still fail. -/
def Phase.Unsettled : Phase → Prop
  | .removed | .answered (.ok _) => False
  | _ => True

namespace Traffic

/-- A call takes a repository out and is between its two steps: it will succeed, but has not ended. -/
def Purging (x : Traffic) (i : Nat) (name : String) : Prop :=
  ∃ p, x.At i (.unregister name) p ∧ p.isDone = false ∧ p.Decided (.ok .done)

variable {e : Engine} {x : Traffic} {i : Nat} {name : String} {p : Routine Depot Answer}

/-- Before its removal step, the name may still turn out not to be registered. -/
theorem unregister_undecided {t : Phase} (hf : p.Follows ((Request.unregister name).protocol e) t)
    (ht : t.Unsettled) (r : Reply) : ¬ p.Decided (.ok r) := by
  apply hf.undecided (T := Phase.Unsettled) ht
  · rintro u hu he
    cases u with
    | fresh =>
      obtain ⟨err, h⟩ := he.2 rfl
      cases h
    | missed =>
      obtain ⟨err, h, -⟩ := he
      cases h
    | answered a =>
      cases he
      exact hu
    | _ => exact he
  · rintro u hu
    refine ⟨{}, {}, ?_⟩
    intro d' v hs
    cases hs with
    | quiet => exact hu
    | register hq => cases hq
    | remove hq h => cases h
    | purge => exact hu.elim
    | approve hq => cases hq
    | acquire hk => cases hk
    | conflict hk => cases hk
    | commit hq => cases hq
    | erase hq => cases hq
    | finish hk => cases hk
    | fail hq => cases hq
    | miss hq => cases hq

/-- Between its two steps a call will succeed. -/
theorem removed_decided
    (hf : p.Follows ((Request.unregister name).protocol e) Phase.removed) :
    p.isDone = false ∧ p.Decided (.ok .done) := by
  constructor
  · cases p with
    | done a => exact hf.elim
    | step _ _ _ => rfl
    | wait _ _ _ _ => rfl
  · apply hf.decided (T := fun u => u = Phase.removed ∨ u = Phase.answered (.ok .done)) (.inl rfl)
    · rintro u b (rfl | rfl) he
      · exact he.elim
      · exact he
    · rintro u m s s' v (rfl | rfl) hs
      · cases hs with
        | quiet _ _ h => simp at h
        | purge => exact .inr rfl
      · cases hs with
        | quiet _ _ h => simp at h

theorem purging_iff (orderly : x.Orderly e) : x.Purging i name ↔ ∃ p,
    x.At i (.unregister name) p ∧ p.Follows ((Request.unregister name).protocol e) Phase.removed := by
  constructor
  · rintro ⟨p, hp, going, hd⟩
    obtain ⟨t, hf⟩ := orderly i _ p hp
    refine ⟨p, hp, ?_⟩
    cases t with
    | removed => exact hf
    | answered a =>
      rw [Request.eq_done_of_answered hf] at going
      cases going
    | _ => exact (unregister_undecided hf trivial _ hd).elim
  · rintro ⟨p, hp, hf⟩
    exact ⟨p, hp, removed_decided hf⟩

/-- **The removal step** is the one that makes the success certain. -/
theorem settles_unregister_iff (orderly : x.Orderly e) :
    x.Settles i (.unregister name) (.ok .done) ↔ ∃ p r, x.At i (.unregister name) p ∧
      p.Follows ((Request.unregister name).protocol e) Phase.fresh ∧
      x.depot.registry.unregister name = .ok (r, (p.move x.moment x.depot).2.registry) ∧
      (p.move x.moment x.depot).1.Follows ((Request.unregister name).protocol e) Phase.removed := by
  constructor
  · rintro ⟨p, hp, before, after⟩
    obtain ⟨t, hf⟩ := orderly i _ p hp
    refine ⟨p, ?_⟩
    obtain stay | ⟨-, u, hs, hu⟩ := hf.move x.moment x.depot
    · rw [stay] at after
      exact (before _ after).elim
    · generalize (p.move x.moment x.depot).2 = d' at hs ⊢
      cases hs with
      | quiet _ _ h =>
        obtain rfl | rfl | rfl := h <;> exact (unregister_undecided hu trivial _ after).elim
      | register hq => cases hq
      | @remove _ _ _ r registry hq h =>
        cases hq
        exact ⟨r, hp, hf, h, hu⟩
      | purge => exact (before _ (removed_decided hf).2).elim
      | approve hq => cases hq
      | acquire hk => cases hk
      | conflict hk => cases hk
      | commit hq => cases hq
      | erase hq => cases hq
      | finish hk => cases hk
      | fail hq => cases hq
      | miss hq => cases hq
  · rintro ⟨p, r, hp, hf, -, hu⟩
    refine ⟨p, hp, ?_, (removed_decided hu).2⟩
    intro b hb
    have same := (hb.move x.moment x.depot).unique (removed_decided hu).2
    subst same
    exact unregister_undecided hf trivial _ hb

/-- What a step does to the registry. -/
theorem registry_of_advance {q : Request} {t u : Phase} {m : Moment} {d d' : Depot}
    (h : Advance e q t m d d' u) : d'.registry = d.registry ∨
      (∃ r, q = .register r ∧ u = .answered (.ok .done) ∧ d.registry.register r = .ok d'.registry) ∨
      ∃ n r, q = .unregister n ∧ t = .fresh ∧ u = .removed ∧
        d.registry.unregister n = .ok (r, d'.registry) := by
  cases h with
  | register hq h => exact .inr (.inl ⟨_, hq, rfl, h⟩)
  | remove hq h => exact .inr (.inr ⟨_, _, hq, rfl, rfl, h⟩)
  | quiet | purge | approve | acquire | conflict | commit | erase | finish | fail | miss =>
    exact .inl rfl

variable {y : Traffic} {ev : Event}

/-- What an event does to the registry. -/
theorem Change.registry (hc : Change e x ev y) (orderly : x.Orderly e) :
    y.depot.registry = x.depot.registry ∨
      (∃ i r, ev = .move i ∧ x.Ends i (.register r) (.ok .done) ∧
        x.depot.registry.register r = .ok y.depot.registry) ∨
      ∃ i n, ev = .move i ∧ x.Settles i (.unregister n) (.ok .done) ∧
        y.depot.registry = x.depot.registry.erase n := by
  cases hc with
  | start q depot calls stay =>
    rw [depot]
    exact .inl rfl
  | move i q p stands depot moved others =>
    obtain ⟨t, hf⟩ := orderly i q p stands
    obtain stay | ⟨going, u, hs, hu⟩ := hf.move x.moment x.depot
    · rw [depot, stay]
      exact .inl rfl
    · rw [← depot] at hs
      obtain same | ⟨r, rfl, rfl, h⟩ | ⟨n, r, rfl, rfl, rfl, h⟩ := registry_of_advance hs
      · exact .inl same
      · exact .inr (.inl ⟨i, r, rfl, ⟨p, stands, going, Request.eq_done_of_answered hu⟩, h⟩)
      · refine .inr (.inr ⟨i, n, rfl, ?_, Registry.unregister_ok h⟩)
        rw [depot] at h
        exact (settles_unregister_iff orderly).2 ⟨p, r, stands, hf, h, hu⟩
  | drop i q p stands going depot dropped others =>
    obtain ⟨t, hf⟩ := orderly i q p stands
    rw [depot, hf.abandon going, (Request.release_kept e q t _).1]
    exact .inl rfl
  | other ev registry store calls => exact .inl registry

/-- A name is lost only by a removal. -/
theorem Change.registers_lost (hc : Change e x ev y) (orderly : x.Orderly e)
    (h : x.depot.Registers name) (lost : ¬ y.depot.Registers name) :
    ∃ j, ev = .move j ∧ x.Settles j (.unregister name) (.ok .done) := by
  obtain ⟨g, found, holds⟩ := h
  obtain same | ⟨i, r, -, -, hr⟩ | ⟨j, n, rfl, hs, erased⟩ := hc.registry orderly
  · exact (lost ⟨g, by rw [same, found], holds⟩).elim
  · obtain ⟨free, inserted⟩ := Registry.register_ok hr
    have hn : name ≠ r.name := by
      rintro rfl
      simp [free] at found
    exact (lost ⟨g, by simp [inserted, hn, found], holds⟩).elim
  · by_cases hn : name = n
    · subst hn
      exact ⟨j, rfl, hs⟩
    · exact (lost ⟨g, by simp [erased, hn, found], holds⟩).elim

/-- A name is gained only by a registration. -/
theorem Change.registers_gained (hc : Change e x ev y) (orderly : x.Orderly e)
    (h : ¬ x.depot.Registers name) (gained : y.depot.Registers name) :
    ∃ j r, ev = .move j ∧ r.name = name ∧ x.Ends j (.register r) (.ok .done) := by
  obtain ⟨g, found, holds⟩ := gained
  obtain same | ⟨j, r, rfl, ends, hr⟩ | ⟨j, n, -, -, erased⟩ := hc.registry orderly
  · rw [same] at found
    exact (h ⟨g, found, holds⟩).elim
  · by_cases hn : name = r.name
    · exact ⟨j, r, rfl, hn.symm, ends⟩
    · rw [(Registry.register_ok hr).2, Dict.get?_insert, if_neg hn] at found
      exact (h ⟨g, found, holds⟩).elim
  · rw [erased, Dict.get?_erase] at found
    split at found
    · cases found
    · exact (h ⟨g, found, holds⟩).elim

/-- Behind a removal the name is not registered, and the purge is still to come. -/
theorem Settles.removed (orderly : x.Orderly e)
    (h : x.Settles i (.unregister name) (.ok .done)) :
    ¬ (x.next e (.move i)).depot.Registers name ∧ (x.next e (.move i)).Purging i name := by
  obtain ⟨p, r, stands, -, hr, hu⟩ := (settles_unregister_iff orderly).1 h
  refine ⟨?_, _, stands.moved e, removed_decided hu⟩
  rw [next_move stands]
  rintro ⟨g, found, -⟩
  simp [Registry.unregister_ok hr] at found

/-- A call goes on purging until it ends, or is dropped. -/
theorem Purging.next (orderly : x.Orderly e) (h : x.Purging i name) (ev : Event) :
    (x.next e ev).Purging i name ∨
      ev = .move i ∧ x.Ends i (.unregister name) (.ok .done) ∨ ev = .drop i := by
  obtain ⟨p, hp, hf⟩ := (purging_iff orderly).1 h
  have hc := next_change e x ev
  generalize x.next e ev = y at hc
  cases hc with
  | start q depot calls stay => exact .inl ⟨p, stay i _ p hp, removed_decided hf⟩
  | move j q p' stands depot moved others =>
    by_cases hij : i = j
    · subst hij
      obtain ⟨rfl, rfl⟩ := hp.unique stands
      obtain stay | ⟨going, u, hs, hu⟩ := hf.move x.moment x.depot
      · rw [stay] at moved
        exact .inl ⟨p, moved, removed_decided hf⟩
      · generalize (p.move x.moment x.depot).2 = d' at hs
        cases hs with
        | quiet _ _ h => simp at h
        | purge => exact .inr (.inl ⟨rfl, p, hp, going, Request.eq_done_of_answered hu⟩)
    · exact .inl ⟨p, (others i _ p hij).2 hp, removed_decided hf⟩
  | drop j q p' stands going depot dropped others =>
    by_cases hij : i = j
    · subst hij
      exact .inr (.inr rfl)
    · exact .inl ⟨p, (others i _ p hij).2 hp, removed_decided hf⟩
  | other ev registry store calls =>
    refine .inl ⟨p, ?_, removed_decided hf⟩
    rwa [At, calls]

/-- A call comes to purge only by its removal step. -/
theorem Purging.before (h : (x.next e ev).Purging i name) :
    x.Purging i name ∨ ev = .move i ∧ x.Settles i (.unregister name) (.ok .done) := by
  obtain ⟨p, hp, going, hd⟩ := h
  have hc := next_change e x ev
  generalize x.next e ev = y at hc hp
  cases hc with
  | start q depot calls stay =>
    obtain hx | ⟨rfl, rfl, rfl⟩ := calls i _ p hp
    · exact .inl ⟨p, hx, going, hd⟩
    · exact (unregister_undecided (Request.follows e _) trivial _ hd).elim
  | move j q p' stands depot moved others =>
    by_cases hij : i = j
    · subst hij
      obtain ⟨rfl, rfl⟩ := hp.unique moved
      by_cases hd' : p'.Decided (.ok .done)
      · refine .inl ⟨p', stands, ?_, hd'⟩
        cases p' with
        | done a => exact going
        | step _ _ _ => rfl
        | wait _ _ _ _ => rfl
      · refine .inr ⟨rfl, p', stands, ?_, hd⟩
        intro b hb
        rw [(hb.move x.moment x.depot).unique hd] at hb
        exact hd' hb
    · exact .inl ⟨p, (others i _ p hij).1 hp, going, hd⟩
  | drop j q p' stands going' depot dropped others =>
    by_cases hij : i = j
    · subst hij
      exact (dropped _ p hp).elim
    · exact .inl ⟨p, (others i _ p hij).1 hp, going, hd⟩
  | other ev registry store calls =>
    rw [At, calls] at hp
    exact .inl ⟨p, hp, going, hd⟩

/-- A write whose repository is not registered for packages ends at its first step. -/
theorem create_refused {r : Revision} {c : Context} {m : Moment} {d : Depot}
    (h : ¬ d.Registers r.repository) :
    ∃ err, (((Request.create r c).begin e).move m d).1 = .done (.error err) := by
  rw [Request.begin, Request.call, Service.create, Service.write, bind_assoc, Service.repository,
    query_run]
  simp only [Routine.move]
  rw [Registry.find]
  cases hg : d.registry.get? r.repository with
  | none => exact ⟨_, rfl⟩
  | some g =>
    cases hp : g.holdsPackages with
    | true => exact (h ⟨g, hg, hp⟩).elim
    | false => exact ⟨_, by simp [hp]; rfl⟩

end Traffic

end PackageDepot
