import PackageDepot.Repository.Registry

/-!
# What the registry does when it succeeds
-/

namespace PackageDepot

/-- A repository of packages that has its form has a place in git. -/
theorem Repository.packageSource?_of_holds {r : Repository} (valid : r.validate = .ok ())
    (holds : r.holdsPackages = true) : ∃ source, r.packageSource? = some source := by
  obtain ⟨kind, content⟩ : r.kind = .git ∧ r.content = .package := by
    simpa [holdsPackages] using holds
  simp only [packageSource?, content]
  cases git : r.git with
  | some source => exact ⟨source, rfl⟩
  | none =>
    exfalso
    unfold validate at valid
    rw [kind, git] at valid
    dsimp only at valid
    split at valid
    · cases valid
    split at valid
    · cases valid
    · cases valid

/-- A repository that has its form has a name that can stand in the name of a revision. -/
theorem Repository.name_of_validate {r : Repository} (valid : r.validate = .ok ()) :
    r.name ≠ "" ∧ ':' ∉ r.name.toList := by
  unfold validate at valid
  dsimp only at valid
  split at valid
  · cases valid
  · next full =>
    split at valid
    · cases valid
    · next free =>
      refine ⟨?_, by simpa using free⟩
      intro empty
      rw [empty] at full
      exact full rfl

theorem Repository.git_of_packageSource? {r : Repository} {source : GitSource}
    (h : r.packageSource? = some source) : r.git = some source := by
  unfold packageSource? at h
  split at h
  · exact h
  · cases h

/-- And a repository that has its form and is none of packages in git has no such place. -/
theorem Repository.packageSource?_of_not_holds {r : Repository} (valid : r.validate = .ok ())
    (holds : r.holdsPackages = false) : r.packageSource? = none := by
  unfold packageSource?
  cases content : r.content with
  | function => rfl
  | package =>
    cases kind : r.kind with
    | git => simp [holdsPackages, kind, content] at holds
    | oci =>
      cases git : r.git with
      | none => rfl
      | some source =>
        exfalso
        unfold validate at valid
        rw [kind, git] at valid
        dsimp only at valid
        split at valid
        · cases valid
        split at valid
        · cases valid
        cases oci : r.oci with
        | none =>
          rw [oci] at valid
          cases valid
        | some place =>
          rw [oci] at valid
          dsimp only at valid
          split at valid
          · cases valid
          · cases valid

namespace Registry

theorem find_ok_iff {g : Registry} {name : String} {r : Repository} :
    g.find name = .ok r ↔ g.get? name = some r := by
  unfold find
  cases g.get? name with
  | none => exact ⟨nofun, nofun⟩
  | some q => simp only [Except.ok.injEq, Option.some.injEq]

/-- What is registered is new. -/
theorem register_ok {g g' : Registry} {r : Repository} (h : g.register r = .ok g') :
    g.get? r.name = none ∧ g' = g.insert r.name r := by
  unfold register at h
  cases hv : r.validate with
  | error f =>
    rw [hv] at h
    cases h
  | ok _ =>
    rw [hv] at h
    by_cases hc : g.contains r.name = true
    · simp only [hc, if_true] at h
      cases h
    · simp only [hc] at h
      cases h
      refine ⟨?_, rfl⟩
      simpa [Dict.contains] using hc

/-- What is registered has the form that a repository should have. -/
theorem register_valid {g g' : Registry} {r : Repository} (h : g.register r = .ok g') :
    r.validate = .ok () := by
  unfold register at h
  cases hv : r.validate with
  | error f =>
    rw [hv] at h
    cases h
  | ok _ => rfl

theorem unregister_ok {g g' : Registry} {r : Repository} {name : String}
    (h : g.unregister name = .ok (r, g')) : g' = g.erase name := by
  unfold unregister at h
  cases hf : g.find name with
  | error f =>
    rw [hf] at h
    cases h
  | ok r =>
    rw [hf] at h
    cases h
    rfl

/-- What is found behind a registration was there before, or is new. -/
theorem get?_of_register {g g' : Registry} {r s : Repository} {name : String}
    (h : g.register r = .ok g') (found : g'.get? name = some s) :
    g.get? name = some s ∨ name = r.name ∧ s = r := by
  obtain ⟨-, rfl⟩ := register_ok h
  rw [Dict.get?_insert] at found
  split at found
  · next here =>
    cases found
    exact .inr ⟨here, rfl⟩
  · exact .inl found

theorem get?_of_unregister {g g' : Registry} {r s : Repository} {name other : String}
    (h : g.unregister name = .ok (r, g')) (found : g'.get? other = some s) :
    g.get? other = some s := by
  obtain rfl := unregister_ok h
  rw [Dict.get?_erase] at found
  split at found
  · cases found
  · exact found

end Registry

end PackageDepot
