import PackageDepot.Proofs.Pipeline.Manifest

/-!
# What becomes of the lineage of a clone

A clone of a place in git writes into the manifest where the package comes from and at which commit
(`ends_step_clone`). The tasks behind it read the manifest from the bundle again and compare nothing but
its name, so they may well rewrite the lineage. `Trail.tells_or_rewrites` finds the task that did: it left
another text in the place of the manifest.
-/

namespace PackageDepot

open Package Call Backend

/-- The manifest tells that its package was cloned from a place, at a commit. -/
structure Package.Kptfile.Tells (k : Kptfile) (l : GitLocation) (commit : String) : Prop where
  lineage : k.lineage = some ⟨.git, some l⟩
  lock : k.lock = some ⟨.git, some ⟨l, commit⟩⟩

/-- A place in git that is fetched under a lock has the commit that git reported. -/
theorem Resolve.ends_git_ok {env : Depot → Depot → Prop} {M : Moment → Prop} {d d' : Depot}
    {l : GitLocation} {c : Context} {r : Resolved}
    (h : Routine.Ends env M (git l c).run d (.ok r) d') :
    ∃ u credential f, env u d' ∧ d'.git.fetch l credential = .ok f ∧ f.commit ≠ "" ∧
      r = ⟨.ofGit ⟨l, f.commit⟩, f.files⟩ := by
  obtain ⟨credential, u, -, hx⟩ := ends_bind_ok h
  obtain ⟨f, v, hw, hy⟩ := ends_bind_ok hx
  obtain ⟨m, -, sees, ⟨i, -, he⟩ | ⟨-, he⟩⟩ := ends_within_iff.1 hw
  · cases he
  dsimp only at hy
  split at hy
  · obtain ⟨_, w, hz, -⟩ := ends_bind_ok hy
    cases (ends_throw_iff.1 hz).1
  · next named =>
    obtain ⟨hr, rfl⟩ := ends_pure_iff.1 hy
    cases hr
    refine ⟨u, credential, f, sees, mapError_eq_ok_iff.1 he.symm, ?_, rfl⟩
    rintro none
    rw [none] at named
    exact named rfl

namespace Pipeline

open Package.Snapshot

variable {e : Engine} {r : Revision} {c : Context} {env : Depot → Depot → Prop} {M : Moment → Prop}
  {d d' : Depot} {name : String}

/-- A task that does not begin a package reads its manifest from the bundle that it leaves. -/
theorem Makes.read {current : Option Snapshot} {t : Task} {after : Snapshot}
    (h : Makes e name current t after) (seed : t.isSeed = false) :
    Kptfile.ofBundle e.config.manifestFile after.files = .ok after.kptfile := by
  cases h with
  | clone kind cloned => simp [Task.isSeed, kind] at seed
  | init kind payload => simp [Task.isSeed, kind] at seed
  | eval kind payload result evaluated => exact (evaluated_ok evaluated).2.1
  | edit kind payload edited => exact (edited_ok edited).2.1

/-- Such a task keeps the manifest if it leaves its text as it is. -/
theorem Makes.kept {before after : Snapshot} {t : Task} (h : Makes e name (some before) t after)
    (seed : t.isSeed = false) (coherent : before.Coherent e.config.manifestFile name)
    (back : before.kptfile.ReadsBack)
    (same : after.files.get? e.config.manifestFile = before.files.get? e.config.manifestFile) :
    after.kptfile = before.kptfile := by
  have read := h.read seed
  rw [Kptfile.ofBundle, same] at read
  exact Except.ok.inj (read.symm.trans (coherent.ofBundle back))

/-- An eval or an edit that takes another lineage from a text of its own. -/
structure Rewrites (e : Engine) (name : String) (l : GitLocation) (commit : String)
    (before : Snapshot) (t : Task) (after : Snapshot) : Prop where
  kind : t.kind = .eval ∨ t.kind = .edit
  makes : Makes e name (some before) t after
  told : before.kptfile.Tells l commit
  lost : ¬ after.kptfile.Tells l commit
  /-- What the manifest tells now is what stands in the bundle. -/
  read : Kptfile.ofBundle e.config.manifestFile after.files = .ok after.kptfile
  text : before.kptfile.ReadsBack →
    after.files.get? e.config.manifestFile ≠ before.files.get? e.config.manifestFile

end Pipeline

end PackageDepot
