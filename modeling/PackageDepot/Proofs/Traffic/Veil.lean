import PackageDepot.Proofs.Service.Veil
import PackageDepot.Proofs.Traffic.Likewise

/-!
# A protected repository leaks nothing

Two depots differ in the names, the commits and the files of one repository, which asks for a credential
that no registered repository has for it. Then no request tells them apart (`nothing_leaks`), and neither
does any traffic of many clients that registers no repository with the credential (`veiled_run`).
-/

namespace PackageDepot.Traffic

open Package Backend

/-- The same was answered in both, and both have the same registry and the same store. -/
structure SameOutcome (x y : Traffic) : Prop where
  answers : ∀ i a, x.Answered i a ↔ y.Answered i a
  registry : x.depot.registry = y.depot.registry
  store : x.depot.store = y.depot.store

/-- A depot with one call, which was just begun. -/
def asked (e : Engine) (m : Moment) (d : Depot) (q : Request) : Traffic :=
  ⟨m, d, [(q, some (q.begin e))]⟩

/-- Time passes, or something happens to a call that was begun. -/
def IsAlone : Event → Prop
  | .move _ | .drop _ | .pass .. => True
  | _ => False

section

variable {repo : String} {credential : Credential} {J : Depot → Prop} {e : Engine} {x y : Traffic}

/-- Depots that differ behind the credential have the same outcomes. -/
theorem Alike.sameOutcome (h : x.Alike (.veil repo credential J) y) : SameOutcome x y where
  answers := h.answered
  registry := h.depot.1.registry
  store := h.depot.1.store

/-- **A protected repository leaks nothing to traffic** in which no repository is registered with the
credential: at all times the same was answered, and the registries and the stores are the same. -/
theorem veiled_run (m : Moment) {d d' : Depot} (veils : d.Veils repo credential d')
    (keyless : d.Keyless repo credential) {es : Nat → Event}
    (inside : ∀ k git images secrets, es k ≠ .outside git images secrets)
    (keys : ∀ k r g, es k = .start (.register r) → r.git = some g →
      g.Keyless d.secrets repo credential) (n : Nat) :
    SameOutcome (run e ⟨m, d, []⟩ es n) (run e ⟨m, d', []⟩ es n) := by
  have start : (⟨m, d, []⟩ : Traffic).Alike (Veil.like d.secrets repo credential) ⟨m, d', []⟩ :=
    ⟨rfl, ⟨veils, rfl, keyless⟩, .nil⟩
  refine (start.run (fun _ => rfl) n fun k _ => ?_).sameOutcome
  cases hk : es k with
  | start q => exact q.likewise e fun r hq g hg => keys k r g (hq ▸ hk) hg
  | move i => trivial
  | drop i => trivial
  | pass time scopes => trivial
  | outside git images secrets => exact inside k git images secrets hk

/-- **A protected repository leaks nothing.** Whatever is asked of a depot, with any arguments, in
whatever time and whether or not the call is dropped: the answer is the same for all that the repository
may have, and so are the registry and the store after it. -/
theorem nothing_leaks (m : Moment) {d d' : Depot} (veils : d.Veils repo credential d')
    (keyless : d.Keyless repo credential) (q : Request) {es : Nat → Event}
    (alone : ∀ k, IsAlone (es k)) (n : Nat) :
    SameOutcome (run e (asked e m d q) es n) (run e (asked e m d' q) es n) := by
  have keeps : ∀ {L : Likeness Depot} k, (es k).Keeps e L := by
    intro L k
    have alone := alone k
    cases hk : es k with
    | move i => trivial
    | drop i => trivial
    | pass time scopes => trivial
    | start q => exact (hk ▸ alone : IsAlone (.start q)).elim
    | outside git images secrets => exact (hk ▸ alone : IsAlone (.outside ..)).elim
  -- A registration looks at the registry only, whether or not it breaks the likeness.
  by_cases registers : ∃ r, q = .register r
  · obtain ⟨r, rfl⟩ := registers
    have start : (asked e m d (.register r)).Alike (.veil repo credential fun _ => True)
        (asked e m d' (.register r)) :=
      ⟨rfl, ⟨veils, trivial⟩, .cons (.standing (Request.register_likewise e r fun _ _ _ _ => trivial))
        .nil⟩
    exact (start.run (fun _ => rfl) n fun k _ => keeps k).sameOutcome
  · have start : (asked e m d q).Alike (Veil.like d.secrets repo credential) (asked e m d' q) :=
      ⟨rfl, ⟨veils, rfl, keyless⟩, .cons (.standing (q.likewise e fun r hq => (registers ⟨r, hq⟩).elim))
        .nil⟩
    exact (start.run (fun _ => rfl) n fun k _ => keeps k).sameOutcome

end

namespace Locked

/-- The credential that the repository asks for. -/
def credential : Credential := ⟨"ann", "s3cret"⟩

/-- A depot with a locked repository, which is registered without a secret, and these refs in it. -/
def depot (refs : Dict Commit) : Depot where
  git := (∅ : GitHost).insert "host/locked" { refs, credential := some credential }
  registry := (∅ : Registry).insert "team" (.ofGit "team" { repo := "host/locked" })

/-- A commit with one package. -/
def commit : Commit := ⟨"c1", (∅ : Bundle).insert "web/Kptfile" ""⟩

theorem veils (refs refs' : Dict Commit) :
    (depot refs).Veils "host/locked" credential (depot refs') where
  registry := rfl
  store := rfl
  images := rfl
  secrets := rfl
  others other h := by simp [depot, h]
  veiled := ⟨{ refs, credential := some credential }, refs', by simp [depot], by simp [depot], rfl⟩

theorem keyless (refs : Dict Commit) : (depot refs).Keyless "host/locked" credential := by
  intro r hr g hg _ name asks
  obtain ⟨n, there⟩ := Dict.mem_values_iff.1 hr
  have place : g = { repo := "host/locked" } := by
    simp only [depot, Dict.get?_insert, Dict.get?_empty] at there
    split at there
    · cases there
      cases hg
      rfl
    · cases there
  subst place
  cases asks

end Locked

/-- A listing does not show whether the locked repository has the package. -/
theorem nothing_leaks_locked :
    (Locked.depot ∅).Veils "host/locked" Locked.credential
        (Locked.depot ((∅ : Dict Commit).insert "v1" Locked.commit)) ∧
      (Locked.depot ∅).Keyless "host/locked" Locked.credential ∧
      SameOutcome
        (run {} (asked {} {} (Locked.depot ∅) (.list {} ⟨[], none⟩)) (fun _ => .move 0) 4)
        (run {} (asked {} {} (Locked.depot ((∅ : Dict Commit).insert "v1" Locked.commit))
          (.list {} ⟨[], none⟩)) (fun _ => .move 0) 4) :=
  ⟨Locked.veils _ _, Locked.keyless _,
    nothing_leaks {} (Locked.veils _ _) (Locked.keyless _) _ (by exact fun _ => trivial) 4⟩

end PackageDepot.Traffic
