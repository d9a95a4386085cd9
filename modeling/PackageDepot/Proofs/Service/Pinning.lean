import PackageDepot.Proofs.Backend.Git
import PackageDepot.Proofs.Service.Runs

/-!
# The commit that a lock pins

A clone is resolved while others point refs at new commits. A place in git is fetched once, and its lock
has the commit that was fetched. For a package that was discovered, the lock has the commit of the scan
and the files are fetched afterwards: if the ref was moved in between, the files are not those of the
pinned commit. `resolve_pins` says exactly when they are, and `resolve_drifts` runs two resolutions in
which they are not.
-/

namespace PackageDepot

open Package Backend Call

/-- What others do to a depot meanwhile: they point refs at commits. An id has one tree. -/
inductive Publishes (tree : String → Bundle) (d : Depot) : Depot → Prop
  | none : Publishes tree d d
  | publish {d' : Depot} (before : Publishes tree d d') (repo ref id : String) :
    Publishes tree d { d' with git := d'.git.setRef repo ref ⟨id, tree id⟩ }

namespace Publishes

variable {tree : String → Bundle} {d d' d'' : Depot}

theorem trans (h : Publishes tree d d') (h' : Publishes tree d' d'') : Publishes tree d d'' := by
  induction h' with
  | none => exact h
  | publish _ repo ref id ih => exact ih.publish repo ref id

theorem honest (h : Publishes tree d d') (honest : d.git.Honest tree) : d'.git.Honest tree := by
  induction h with
  | none => exact honest
  | publish _ repo ref id ih => exact ih.setRef repo ref id

theorem store (h : Publishes tree d d') : d'.store = d.store := by
  induction h with
  | none => rfl
  | publish _ _ _ _ ih => exact ih

/-- A quiet call among publications. -/
theorem of_quiet {α : Type} {E : Error → Prop} {M : Moment → Prop} {x : Call α}
    (hx : Call.Quiet E x) {a : Except Error α} (h : Routine.Ends (Publishes tree) M x.run d a d') :
    Publishes tree d d' :=
  (Routine.Quiet.among (@Publishes.none tree) (@Publishes.trans tree) hx h).2

end Publishes

section

variable {e : Engine} {c : Context} {tree : String → Bundle} {M : Moment → Prop} {d t : Depot}

namespace Index

/-- What a scan finds stands in the state in which it is made. -/
theorem ends_discover (honest : d.git.Honest tree) {r : Repository} {ps : List Discovered}
    (h : Routine.Ends (Publishes tree) M (discover e r c).run d (.ok ps) t) :
    ∀ p ∈ ps, t.git.Stands p.location.repo p.location.ref p.commit ∧
      ((tree p.commit).get? (placed p.location.directory.toList e.indexManifest)).isSome := by
  have before := Publishes.of_quiet (discover_quiet e r c) h
  unfold discover at h
  split at h
  · cases (ends_pure_iff.1 h).1
    nofun
  · obtain ⟨credential, u, -, hw⟩ := ends_bind_ok h
    obtain ⟨m, -, -, ⟨i, -, he⟩ | ⟨-, he⟩⟩ := ends_within_iff.1 hw
    · cases he
    · intro p hp
      exact GitHost.discover_ok (before.honest honest) (mapError_eq_ok_iff.1 he.symm) hp

/-- A published package was found by a scan. -/
theorem ends_findDiscovered (honest : d.git.Honest tree) {k : Key} {g : Repository} {p : Discovered}
    (h : Routine.Ends (Publishes tree) M (findDiscovered e k c).run d (.ok (g, p)) t) :
    p.location.ref = k.revision ∧ t.git.Stands p.location.repo p.location.ref p.commit ∧
      ((tree p.commit).get? (placed p.location.directory.toList e.indexManifest)).isSome := by
  unfold findDiscovered at h
  obtain ⟨r, u, hq, hx⟩ := ends_bind_ok h
  obtain ⟨-, moved, -⟩ := ends_query_iff.1 hq
  obtain ⟨ps, v, hs, hy⟩ := ends_bind_ok hx
  have found := ends_discover (moved.honest honest) hs
  split at hy
  · next q hq =>
    obtain ⟨hp, rfl⟩ := ends_pure_iff.1 hy
    cases hp
    have chosen := List.find?_some hq
    rw [Bool.and_eq_true, decide_eq_true_eq, decide_eq_true_eq] at chosen
    exact ⟨chosen.2, found p (List.mem_of_find?_eq_some hq)⟩
  · cases (ends_throw_iff.1 hy).1

/-- What is fetched stands in the state in which it is fetched. -/
theorem ends_fetch (honest : d.git.Honest tree) {location : GitLocation}
    {credential : Option Credential} {f : Fetched}
    (h : Routine.Ends (Publishes tree) M
      (within c fun d => (d.git.fetch location credential).mapError .ofBackend).run d (.ok f) t) :
    Publishes tree d t ∧ t.git.Stands location.repo location.ref f.commit ∧
      f.files = below location.directory (tree f.commit) := by
  obtain ⟨m, -, before, ⟨i, -, he⟩ | ⟨-, he⟩⟩ := ends_within_iff.1 h
  · cases he
  · exact ⟨before, GitHost.fetch_ok (before.honest honest) (mapError_eq_ok_iff.1 he.symm)⟩

end Index

/-- A published package, from the depot `d` to the depot `t`: the scan sees it at one commit, and when its
files are fetched at the end the ref stands at another one, or still at the same. -/
structure Sighted (e : Engine) (tree : String → Bundle) (k : Key) (d t : Depot)
    (location : GitLocation) (scanned fetched : String) : Prop where
  ref_eq : location.ref = k.revision
  scan : ∃ u, Publishes tree d u ∧ Publishes tree u t ∧
    u.git.Stands location.repo location.ref scanned
  /-- The directory is one that holds the manifest in the scanned commit. -/
  manifest : ((tree scanned).get? (placed location.directory.toList e.indexManifest)).isSome
  fetch : t.git.Stands location.repo location.ref fetched

/-- The content of a published package: the lock is from the scan and the files are from the fetch
behind it. -/
theorem Index.ends_lookupDiscovered (honest : d.git.Honest tree) {k : Key} {content : RevisionContent}
    (h : Routine.Ends (Publishes tree) M (lookupDiscovered e k c).run d (.ok content) t) :
    ∃ location scanned fetched, Sighted e tree k d t location scanned fetched ∧
      content = ⟨below location.directory (tree fetched), some (.ofGit ⟨location, scanned⟩)⟩ := by
  unfold lookupDiscovered at h
  obtain ⟨⟨g, p⟩, u, hf, hx⟩ := ends_bind_ok h
  have before := Publishes.of_quiet (findDiscovered_quiet e k c) hf
  obtain ⟨ref, stands, holds⟩ := ends_findDiscovered honest hf
  dsimp only at hx
  split at hx
  · cases (ends_throw_iff.1 hx).1
  · obtain ⟨credential, v, hc, hy⟩ := ends_bind_ok hx
    have between := Publishes.of_quiet (credential_quiet _) hc
    obtain ⟨f, w, hw, hz⟩ := ends_bind_ok hy
    obtain ⟨after, fetched, files⟩ := ends_fetch ((before.trans between).honest honest) hw
    obtain ⟨hc, rfl⟩ := ends_pure_iff.1 hz
    cases hc
    rw [files]
    exact ⟨p.location, p.commit, f.commit,
      ⟨ref, ⟨u, before, between.trans after, stands⟩, holds, fetched⟩, rfl⟩

/-- What was moved before does not matter to what is seen behind it. -/
theorem Sighted.of_publishes {k : Key} {d' : Depot} {location : GitLocation}
    {scanned fetched : String} (moved : Publishes tree d d')
    (h : Sighted e tree k d' t location scanned fetched) :
    Sighted e tree k d t location scanned fetched := by
  obtain ⟨u, before, after, stands⟩ := h.scan
  exact { h with scan := ⟨u, moved.trans before, after, stands⟩ }

/-- The files of a package that was resolved are those that the pinned commit has below the directory of
the lock. -/
def Resolved.Pinned (r : Resolved) (tree : String → Bundle) : Prop :=
  ∃ location commit, r.lock = .ofGit ⟨location, commit⟩ ∧
    ∀ p, r.files.get? p = (tree commit).get? (placed location.directory.toList p)

/-- No slashes stand around the name of the directory. -/
def Package.GitLocation.Plain (l : GitLocation) : Prop :=
  Text.trim '/' l.directory.toList = l.directory.toList

/-- How resolving goes among publications. -/
structure Pins (e : Engine) (s : CloneSource) (c : Context) : Prop where
  /-- A place in git is pinned to the commit at which its ref stood when it was fetched. -/
  explicit : ∀ tree M d r t location, d.git.Honest tree → s.git = some location →
    Routine.Ends (Publishes tree) M (Resolve.source e s c).run d (.ok r) t →
    ∃ commit, r.lock = .ofGit ⟨location, commit⟩ ∧
      t.git.Stands location.repo location.ref commit ∧
      (∀ p, r.files.get? p =
        (tree commit).get? (placed (Text.trim '/' location.directory.toList) p)) ∧
      (location.Plain → r.Pinned tree)
  /-- A package that was discovered is pinned to the commit of the scan, and its files are those of the
  commit at which the ref stands when they are fetched. -/
  discovered : ∀ tree M d r t ref k, d.git.Honest tree → s.git = none → s.revision = some ref →
    Key.parse? ref.name = some k → d.store.get? k = none →
    Routine.Ends (Publishes tree) M (Resolve.source e s c).run d (.ok r) t →
    ∃ location scanned fetched, Sighted e tree k d t location scanned fetched ∧
      r.lock = .ofGit ⟨location, scanned⟩ ∧
      (∀ p, r.files.get? p =
        (tree fetched).get? (placed (Text.trim '/' location.directory.toList) p)) ∧
      (r.Pinned tree ↔ ∀ p,
        (tree fetched).get? (placed (Text.trim '/' location.directory.toList) p) =
          (tree scanned).get? (placed location.directory.toList p)) ∧
      (location.Plain → fetched = scanned → r.Pinned tree)

namespace Resolve

/-- A place in git. -/
theorem ends_git (honest : d.git.Honest tree) {location : GitLocation} {r : Resolved}
    (h : Routine.Ends (Publishes tree) M (git location c).run d (.ok r) t) :
    ∃ commit, t.git.Stands location.repo location.ref commit ∧
      r = ⟨.ofGit ⟨location, commit⟩, below location.directory (tree commit)⟩ := by
  unfold git at h
  obtain ⟨credential, u, hc, hx⟩ := ends_bind_ok h
  have before := Publishes.of_quiet (credentialFor_quiet _) hc
  obtain ⟨f, v, hw, hy⟩ := ends_bind_ok hx
  obtain ⟨-, stands, files⟩ := Index.ends_fetch (before.honest honest) hw
  split at hy
  · obtain ⟨_, _, ht, -⟩ := ends_bind_ok hy
    cases (ends_throw_iff.1 ht).1
  · obtain ⟨hr, rfl⟩ := ends_pure_iff.1 hy
    cases hr
    rw [files]
    exact ⟨f.commit, stands, rfl⟩

/-- Another revision that nobody created here. -/
theorem ends_revision (honest : d.git.Honest tree) {k : Key} (absent : d.store.get? k = none)
    {r : Resolved} (h : Routine.Ends (Publishes tree) M (revision e k c).run d (.ok r) t) :
    ∃ location scanned fetched, Sighted e tree k d t location scanned fetched ∧
      r = ⟨.ofGit ⟨location, scanned⟩, below location.directory (tree fetched)⟩ := by
  unfold revision at h
  obtain ⟨content, u, hl, hx⟩ := ends_bind_ok h
  obtain ⟨outcome, hl, ho⟩ := ends_mapError_iff.1 hl
  have found := mapError_eq_ok_iff.1 ho.symm
  subst found
  unfold Index.lookup at hl
  obtain ⟨stored, v, hr, hl⟩ := ends_bind_ok hl
  obtain ⟨-, moved, hr⟩ := ends_read_iff.1 hr
  rw [moved.store, absent] at hr
  cases hr
  obtain ⟨location, scanned, fetched, sighted, hc⟩ :=
    Index.ends_lookupDiscovered (moved.honest honest) hl
  subst hc
  dsimp only at hx
  split at hx
  · obtain ⟨_, _, ht, -⟩ := ends_bind_ok hx
    cases (ends_throw_iff.1 ht).1
  · obtain ⟨hr, rfl⟩ := ends_pure_iff.1 hx
    cases hr
    exact ⟨location, scanned, fetched, sighted.of_publishes moved, rfl⟩

end Resolve

/-- **When a lock pins its files.** -/
theorem resolve_pins (e : Engine) (s : CloneSource) (c : Context) : Pins e s c := by
  constructor
  · intro tree M d r t location honest hg h
    have pinned : ∃ commit, t.git.Stands location.repo location.ref commit ∧
        r = ⟨.ofGit ⟨location, commit⟩, below location.directory (tree commit)⟩ := by
      unfold Resolve.source at h
      rw [hg] at h
      cases hr : s.revision with
      | none =>
        rw [hr] at h
        exact Resolve.ends_git honest h
      | some ref =>
        rw [hr] at h
        cases (ends_throw_iff.1 h).1
    obtain ⟨commit, stands, rfl⟩ := pinned
    have files := get?_below location.directory (tree commit)
    refine ⟨commit, rfl, stands, files, fun plain => ⟨location, commit, rfl, ?_⟩⟩
    intro p
    rw [files, plain]
  · intro tree M d r t ref k honest hg hr hk absent h
    unfold Resolve.source at h
    rw [hg, hr] at h
    dsimp only at h
    rw [hk] at h
    obtain ⟨location, scanned, fetched, sighted, rfl⟩ := Resolve.ends_revision honest absent h
    have files := get?_below location.directory (tree fetched)
    have exact_iff : Resolved.Pinned ⟨.ofGit ⟨location, scanned⟩,
        below location.directory (tree fetched)⟩ tree ↔ ∀ p,
          (tree fetched).get? (placed (Text.trim '/' location.directory.toList) p) =
            (tree scanned).get? (placed location.directory.toList p) := by
      constructor
      · rintro ⟨l, commit, hl, hp⟩ p
        cases hl
        rw [← files]
        exact hp p
      · intro same
        refine ⟨location, scanned, rfl, ?_⟩
        intro p
        rw [← same]
        exact files p
    refine ⟨location, scanned, fetched, sighted, rfl, files, exact_iff, fun plain same => ?_⟩
    apply exact_iff.2
    intro p
    rw [plain, same]

/-- One file is enough to tell that a lock does not pin the files. -/
theorem Resolved.not_pinned {r : Resolved} {location : GitLocation} {commit p : String}
    (lock : r.lock = .ofGit ⟨location, commit⟩)
    (differs : r.files.get? p ≠ (tree commit).get? (placed location.directory.toList p)) :
    ¬ r.Pinned tree := by
  rintro ⟨l, id, hl, hp⟩
  have same := lock.symm.trans hl
  cases same
  exact differs (hp p)

end

namespace Drift

def repo : String := "https://example.com/r.git"

/-- Two commits of a package, and a commit where a package has a slash in front of its name. -/
def tree (id : String) : Bundle :=
  if id = "c1" then .ofList [("x/Kptfile", "first")]
  else if id = "c2" then .ofList [("x/Kptfile", "second")]
  else if id = "c3" then .ofList [("/x/Kptfile", "manifest"), ("x/f", "other")]
  else ∅

/-- A depot where a repository is registered whose ref stands at a commit. -/
def depot (id : String) : Depot where
  git := GitHost.setRef ∅ repo "v1" ⟨id, tree id⟩
  registry := (∅ : Registry).insert "r" (.ofGit "r" { repo })

/-- The ref is moved in front of the fourth step, which is the fetch. -/
def others (n : Nat) (d : Depot) : Depot :=
  if n = 3 then { d with git := d.git.setRef repo "v1" ⟨"c2", tree "c2"⟩ } else d

def resolve (name : String) : Call Resolved := Resolve.source {} (.ofRevision name) ⟨[], none⟩

theorem honest (id : String) : (depot id).git.Honest tree :=
  GitHost.Honest.setRef (fun _ _ _ _ h => by cases h) repo "v1" id

theorem publishes_others (n : Nat) (d : Depot) : Publishes tree d (others n d) := by
  unfold others
  split
  · exact .publish .none repo "v1" "c2"
  · exact .none

end Drift

/-- A ref that is moved between scan and fetch leaves the lock at the old commit with the files of the
new one. And without any publication, a directory that was discovered with a slash in front of its name is
fetched as the directory without the slash. -/
theorem resolve_drifts : (∀ id, (Drift.depot id).git.Honest Drift.tree) ∧
    (∃ r t, Routine.Ends (Publishes Drift.tree) (fun _ => True) (Drift.resolve "r:x:v1").run
      (Drift.depot "c1") (.ok r) t ∧ r.lock = .ofGit ⟨⟨Drift.repo, "v1", "x"⟩, "c1"⟩ ∧
      r.files.get? "Kptfile" = some "second" ∧ ¬ r.Pinned Drift.tree) ∧
    ∃ r, Routine.Alone (fun _ => True) (Drift.resolve "r:/x:v1").run
      (Drift.depot "c3") (.ok r) (Drift.depot "c3") ∧
      r.lock = .ofGit ⟨⟨Drift.repo, "v1", "/x"⟩, "c3"⟩ ∧
      r.files.get? "Kptfile" = none ∧ r.files.get? "f" = some "other" ∧ ¬ r.Pinned Drift.tree := by
  refine ⟨Drift.honest, ?_, ?_⟩
  · have run := Routine.ends_play (m := {}) (M := fun _ => True) trivial Drift.publishes_others 0
      (Drift.resolve "r:x:v1").run (Drift.depot "c1")
    refine ⟨_, _, run, rfl, rfl, Resolved.not_pinned rfl (p := "Kptfile") ?_⟩
    show some "second" ≠ some "first"
    decide
  · have run := Routine.ends_play (m := {}) (M := fun _ => True) trivial
      (fun _ (d : Depot) => Eq.refl d) 0 (Drift.resolve "r:/x:v1").run (Drift.depot "c3")
    refine ⟨_, run, rfl, rfl, rfl, Resolved.not_pinned rfl (p := "Kptfile") ?_⟩
    show none ≠ some "manifest"
    decide

end PackageDepot
