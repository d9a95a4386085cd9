import PackageDepot.Proofs.Pipeline.Building

/-!
# The manifest beside a bundle

A snapshot carries its manifest twice: as text in the bundle and as a `Kptfile` beside it. A clone and an
init render the text from the `Kptfile`, while an eval and an edit read the `Kptfile` from a text that
anybody wrote. `Coherent` is what both ways come to, and `Trail.coherent` carries it along the tasks of a
build. The only thing left to assume is that a rendered manifest reads back (`Coherent.ofBundle`).
-/

namespace PackageDepot

open Package Backend

/-- The text of the manifest reads as the manifest again. -/
def Package.Kptfile.ReadsBack (k : Kptfile) : Prop := Kptfile.parse k.render = .ok k

theorem Package.Kptfile.ofBundle_ok {path : String} {files : Bundle} {k : Kptfile}
    (h : Kptfile.ofBundle path files = .ok k) :
    ∃ text, files.get? path = some text ∧ Kptfile.parse text = .ok k := by
  unfold Kptfile.ofBundle at h
  split at h
  · cases h
  · next text found => exact ⟨text, found, mapError_eq_ok_iff.1 h⟩

namespace Package.Snapshot

variable {path name : String} {before after : Snapshot}

/-- The bundle holds the manifest, as a text that was rendered from it or that it was read from, and the
manifest has the name of the package. -/
structure Coherent (path name : String) (s : Snapshot) : Prop where
  text : ∃ text, s.files.get? path = some text ∧
    (text = s.kptfile.render ∨ Kptfile.parse text = .ok s.kptfile)
  named : s.kptfile.name = name

/-- The file reads as exactly the manifest that is kept beside it. -/
theorem Coherent.ofBundle {s : Snapshot} (h : s.Coherent path name) (back : s.kptfile.ReadsBack) :
    Kptfile.ofBundle path s.files = .ok s.kptfile := by
  obtain ⟨text, found, rendered | read⟩ := h.text
  · rw [Kptfile.ofBundle, found, rendered]
    exact mapError_eq_ok_iff.2 back
  · rw [Kptfile.ofBundle, found]
    exact mapError_eq_ok_iff.2 read

theorem write_coherent (files : Bundle) {k : Kptfile} (named : k.name = name) :
    (Snapshot.write files k path).Coherent path name where
  text := ⟨k.render, by simp [Snapshot.write], .inl rfl⟩
  named := named

/-- A clone is written with a manifest that has the new name and tells where the package comes from. -/
theorem clone_ok {lock : Lock} {files : Bundle} (h : Snapshot.clone path name lock files = .ok after) :
    ∃ k : Kptfile, after = .write files k path ∧ k.name = name ∧ k.lock = some lock ∧
      k.lineage = some lock.lineage := by
  unfold Snapshot.clone at h
  split at h
  · cases h
    exact ⟨_, rfl, rfl, rfl, rfl⟩
  · cases h
    exact ⟨_, rfl, rfl, rfl, rfl⟩
  · cases h

/-- What a function made holds a manifest of the same package. -/
theorem evaluated_ok {image : String} {files : Bundle}
    (h : before.evaluated path image files = .ok after) : after.files = files ∧
      Kptfile.ofBundle path after.files = .ok after.kptfile ∧
      after.kptfile.name = before.kptfile.name := by
  unfold Snapshot.evaluated at h
  split at h
  · cases h
  · cases h
  · next k read =>
    split at h
    · cases h
    · next same =>
      cases h
      exact ⟨rfl, read, by simpa using same⟩

/-- What patches left holds a manifest of the same package. -/
theorem edited_ok {patches : List Patch} (h : before.edited path patches = .ok after) :
    Patch.applyAll path patches before.files = .ok after.files ∧
      Kptfile.ofBundle path after.files = .ok after.kptfile ∧
      after.kptfile.name = before.kptfile.name := by
  obtain ⟨files, applied, h⟩ := bind_eq_ok_iff.1 h
  split at h
  · cases h
  · cases h
  · next k read =>
    split at h
    · cases h
    · next same =>
      cases h
      exact ⟨applied, read, by simpa using same⟩

/-- A manifest that was read from the bundle. -/
theorem coherent_of_read (read : Kptfile.ofBundle path after.files = .ok after.kptfile)
    (named : after.kptfile.name = name) : after.Coherent path name := by
  obtain ⟨text, found, parsed⟩ := Kptfile.ofBundle_ok read
  exact ⟨⟨text, found, .inr parsed⟩, named⟩

end Package.Snapshot

namespace Pipeline

open Package.Snapshot

variable {e : Engine} {name : String}

/-- **Each task leaves a coherent snapshot** if it is given one. -/
theorem Makes.coherent {current : Option Snapshot} {t : Task} {after : Snapshot}
    (h : Makes e name current t after)
    (before : ∀ s, current = some s → s.Coherent e.config.manifestFile name) :
    after.Coherent e.config.manifestFile name := by
  cases h with
  | clone kind cloned =>
    obtain ⟨k, rfl, named, -, -⟩ := clone_ok cloned
    exact write_coherent _ named
  | init kind payload => exact write_coherent _ rfl
  | eval kind payload result evaluated =>
    obtain ⟨-, read, same⟩ := evaluated_ok evaluated
    exact coherent_of_read read (same.trans (before _ rfl).named)
  | edit kind payload edited =>
    obtain ⟨-, read, same⟩ := edited_ok edited
    exact coherent_of_read read (same.trans (before _ rfl).named)

theorem Trail.coherent {current last : Option Snapshot} {tasks : List Task}
    (h : Trail e name current tasks last)
    (before : ∀ s, current = some s → s.Coherent e.config.manifestFile name) :
    ∀ s, last = some s → s.Coherent e.config.manifestFile name := by
  induction h with
  | nil s => exact before
  | cons makes behind ih =>
    apply ih
    rintro s ⟨⟩
    exact makes.coherent before

/-- What a build begins with is coherent. -/
theorem start_coherent {r : Revision} {s : Snapshot} (h : start e r = some s) :
    s.Coherent e.config.manifestFile r.package := by
  unfold start at h
  split at h
  · cases h
  · cases h
    exact write_coherent _ rfl

/-- **What a build answers is coherent**, whatever others do meanwhile. -/
theorem execute_coherent {r : Revision} {c : Context} {env : Depot → Depot → Prop}
    {M : Moment → Prop} {d d' : Depot} {s : Snapshot}
    (h : Routine.Ends env M (execute e r c).run d (.ok s) d') :
    s.Coherent e.config.manifestFile r.package := by
  obtain ⟨-, hr⟩ := ends_execute_ok h
  exact (ends_run_ok hr).coherent (fun _ => start_coherent) s rfl

end Pipeline

end PackageDepot
