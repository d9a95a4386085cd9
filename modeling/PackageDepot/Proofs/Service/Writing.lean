import PackageDepot.Proofs.Service.Runs
import PackageDepot.Proofs.Store.Lookup

/-!
# What a write does

A write asks for the repository, takes the lease of its key, prepares the snapshot without changing
anything, and commits it. `alone_write` says what a write that runs alone leaves: everything as it was,
or the revision that it built in the store and nothing else changed.
-/

namespace PackageDepot

open Package Call

/-- How a write may fail under its lease. The failure of a replacement is that the key is gone, or one
that building can come to. -/
def Package.Revision.Fails (e : Engine) (r : Revision) (intent : Intent) (c : Context) (err : Error) :
    Prop :=
  Pipeline.Fails e err ∧ (intent = .replace → err = .notFound (.revision r.key) ∨
    (Pipeline.execute e r c).run.Returns (.error err))

namespace Service

variable (e : Engine)

/-- What a write does between taking the lease and committing. -/
def prepare (r : Revision) (intent : Intent) (c : Context) : Call Snapshot := do
  permit ⟨r.key, intent⟩
  if intent = .create then
    if ← Index.isDiscovered e r.key c then throw (.alreadyExists (.revision r.key))
  Pipeline.execute e r c

theorem write_eq (r : Revision) (intent : Intent) (c : Context) :
    write e r intent c = (do
      let repository ← repository r.repository
      if !repository.holdsPackages then throw (.validation (.notPackageRepository repository.name))
      withLease r.key do
        let stored ← prepare e r intent c >>= commit ⟨r.key, intent⟩ r
        return .ofKey r.key stored.files) := by
  unfold write prepare
  apply bind_congr
  intro repository
  dsimp only
  cases repository.holdsPackages with
  | false => rfl
  | true =>
    simp only [Bool.not_true, Bool.false_eq_true, if_false]
    congr 1
    simp only [bind_assoc]
    apply bind_congr
    intro _
    split
    · rw [bind_assoc]
      apply bind_congr
      intro found
      cases found with
      | true => rfl
      | false => rfl
    · rfl

theorem prepare_quiet (r : Revision) (intent : Intent) (c : Context) :
    Call.Quiet (r.Fails e intent c) (prepare e r intent c) := by
  have execute : Call.Quiet (r.Fails e intent c) (Pipeline.execute e r c) := by
    apply Routine.Quiet.mono (Pipeline.execute_quiet e r c).returns
    intro a ha err he
    subst he
    exact ⟨ha.1 err rfl, fun _ => .inr ha.2⟩
  refine Quiet.bind (quiet_query ?_) ?_
  · intro d err h
    unfold Store.permit at h
    dsimp only at h
    split at h
    · cases h
      exact ⟨.inl rfl, nofun⟩
    · cases h
      exact ⟨.inl rfl, fun _ => .inl rfl⟩
    · cases h
  · intro _
    split
    · next hi =>
      subst hi
      refine Quiet.bind (Quiet.mono (Index.isDiscovered_quiet e r.key c) fun err h => ⟨.inl h, nofun⟩)
        fun found => ?_
      cases found with
      | true => exact (quiet_throw ⟨.inl rfl, nofun⟩).bind fun _ => execute
      | false => exact execute
    · exact execute

/-- A commit that runs alone puts the revision into the store, or changes nothing. -/
theorem alone_commit {M : Moment → Prop} {l : Lease} {r : Revision} {snapshot : Snapshot}
    {a : Except Error Stored} {d d' : Depot} (h : Routine.Alone M (commit l r snapshot).run d a d') :
    (∃ err, a = .error err ∧ d' = d) ∨ ∃ b store,
      Store.Committed l r snapshot d.store b store ∧ a = .ok b ∧ d' = { d with store } := by
  obtain ⟨m, -, ⟨b, hf, rfl⟩ | ⟨err, -, rfl, rfl⟩⟩ := alone_update_iff.1 h
  · cases hc : d.store.commit l r snapshot m.now with
    | error err =>
      rw [hc] at hf
      cases hf
    | ok p =>
      rw [hc] at hf
      cases hf
      exact .inr ⟨p.1, p.2, Store.commit_ok hc, rfl, rfl⟩
  · exact .inl ⟨err, rfl, rfl⟩

/-- What is done under the lease of a write that runs alone. -/
theorem alone_leased {M : Moment → Prop} {r : Revision} {intent : Intent} {c : Context}
    {a : Except Error RevisionFiles} {d d' : Depot}
    (h : Routine.Alone M (do
      let stored ← prepare e r intent c >>= commit ⟨r.key, intent⟩ r
      return RevisionFiles.ofKey r.key stored.files : Call RevisionFiles).run d a d') :
    (∃ err, a = .error err ∧ d' = d) ∨ ∃ snapshot b store,
      Store.Committed ⟨r.key, intent⟩ r snapshot d.store b store ∧
      a = .ok (.ofKey r.key b.files) ∧ d' = { d with store } := by
  rw [Routine.Alone, ends_bind_iff] at h
  obtain ⟨b, u, hx, h⟩ | ⟨err, hx, rfl⟩ := h
  · obtain ⟨rfl, rfl⟩ := ends_pure_iff.1 h
    obtain ⟨snapshot, v, hs, hb⟩ | ⟨err, -, hb⟩ := ends_bind_iff.1 hx
    · obtain ⟨rfl, -⟩ := (prepare_quiet e r intent c).ends hs
      obtain ⟨err, hc, -⟩ | ⟨b', store, committed, hc, rfl⟩ := alone_commit hb
      · cases hc
      · cases hc
        exact .inr ⟨snapshot, b, store, committed, rfl, rfl⟩
    · cases hb
  · obtain ⟨snapshot, v, hs, hb⟩ | ⟨err, hs, -⟩ := ends_bind_iff.1 hx
    · obtain ⟨rfl, -⟩ := (prepare_quiet e r intent c).ends hs
      obtain ⟨err, -, rfl⟩ | ⟨b, store, -, hc, -⟩ := alone_commit hb
      · exact .inl ⟨_, rfl, rfl⟩
      · cases hc
    · obtain ⟨rfl, -⟩ := (prepare_quiet e r intent c).ends hs
      exact .inl ⟨_, rfl, rfl⟩

/-- What a write that runs alone answers, and what it leaves. -/
theorem alone_write {M : Moment → Prop} {r : Revision} {intent : Intent} {c : Context}
    {a : Except Error RevisionFiles} {d d' : Depot}
    (h : Routine.Alone M (write e r intent c).run d a d') :
    (∃ err, a = .error err ∧ d' = d) ∨ ∃ g snapshot b store,
      d.registry.get? r.repository = some g ∧ g.holdsPackages = true ∧
      Store.Committed ⟨r.key, intent⟩ r snapshot d.store b store ∧
      a = .ok (.ofKey r.key b.files) ∧ d' = { d with store } := by
  rw [write_eq, Routine.Alone, ends_bind_iff] at h
  obtain ⟨g, u, hg, h⟩ | ⟨err, hg, rfl⟩ := h
  · obtain ⟨-, rfl, hg⟩ := ends_query_iff.1 hg
    cases holds : g.holdsPackages with
    | false =>
      simp only [holds, Bool.not_false, if_true] at h
      obtain ⟨_, _, h, -⟩ | ⟨err, h, rfl⟩ := ends_bind_iff.1 h
      · cases (ends_throw_iff.1 h).1
      · exact .inl ⟨_, rfl, (ends_throw_iff.1 h).2⟩
    | true =>
      simp only [holds, Bool.not_true, Bool.false_eq_true, if_false] at h
      obtain ⟨-, ⟨-, rfl, rfl⟩ | ⟨free, v, hx, rfl⟩⟩ := alone_withLease_iff.1 h
      · exact .inl ⟨_, rfl, rfl⟩
      · obtain ⟨err, rfl, rfl⟩ | ⟨snapshot, b, store, committed, rfl, rfl⟩ := alone_leased e hx
        · refine .inl ⟨err, rfl, ?_⟩
          rw [released, Store.release_acquire free]
        · exact .inr ⟨g, snapshot, b, _, Registry.find_ok_iff.1 hg.symm, holds,
            committed.release free, rfl, rfl⟩
  · obtain ⟨-, rfl, -⟩ := ends_query_iff.1 hg
    exact .inl ⟨err, rfl, rfl⟩

end Service

end PackageDepot
