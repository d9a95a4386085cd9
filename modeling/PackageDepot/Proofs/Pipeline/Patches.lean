import PackageDepot.Proofs.Pipeline.Manifest

/-!
# Patches one after the other

What patches leave at a path is told by the last one that names it (`Patch.left`), and a patch can be made if
what the patches before it left at its path suits its kind (`Patch.Fits`). `applyAll_eq_ok_iff` says that these
two are all there is to a list of patches. What an edit task makes of a snapshot follows (`edits`): it can be
split anywhere, also where the request is checked before the run, it leaves all other paths alone, and the
manifest that it leaves is one of the same package.
-/

namespace PackageDepot

open Package
open Backend (bind_eq_ok_iff mapError_eq_ok_iff)

namespace Package.Patch

variable {manifest path : String} {files files' : Bundle} {p : Patch} {ps : List Patch}

/-! ## What is left at a path -/

/-- What a patch leaves at its path. -/
def outcome (p : Patch) : Option String :=
  match p.kind with
  | .createFile | .replaceFile => some p.contents
  | .deleteFile => none

/-- The last patch that names a path. -/
def last? (ps : List Patch) (path : String) : Option Patch := (ps.filter (·.file = path)).getLast?

/-- What patches leave at a path of a bundle. -/
def left (files : Bundle) (ps : List Patch) (path : String) : Option String :=
  match last? ps path with
  | some p => p.outcome
  | none => files.get? path

theorem last?_append (ps qs : List Patch) (path : String) :
    last? (ps ++ qs) path = (last? qs path).or (last? ps path) := by
  rw [last?, List.filter_append, List.getLast?_append]
  rfl

theorem last?_singleton (p : Patch) (path : String) :
    last? [p] path = if p.file = path then some p else none := by
  by_cases named : p.file = path <;> simp [last?, named]

theorem last?_eq_none_iff : last? ps path = none ↔ ∀ p ∈ ps, p.file ≠ path := by
  simp [last?]

theorem last?_of_split {front back : List Patch} (last : ∀ q ∈ back, q.file ≠ p.file) :
    last? (front ++ p :: back) p.file = some p := by
  rw [← List.singleton_append, last?_append, last?_append, last?_eq_none_iff.2 last, last?_singleton,
    if_pos rfl]
  rfl

/-- Patches go on from what the patches before them left. -/
theorem left_append (made : ∀ path, files'.get? path = left files ps path) (qs : List Patch)
    (path : String) : left files (ps ++ qs) path = left files' qs path := by
  rw [left, last?_append, left, made]
  cases last? qs path with
  | some q => rfl
  | none => rfl

/-! ## What can be made -/

/-- The patch can be made where this is at its path. The manifest cannot be deleted. -/
def Fits (manifest : String) (p : Patch) (there : Option String) : Prop :=
  match p.kind with
  | .createFile => there = none
  | .replaceFile => there ≠ none
  | .deleteFile => there ≠ none ∧ p.file ≠ manifest

/-- Each patch can be made after the ones before it. -/
def Fit (manifest : String) (files : Bundle) (ps : List Patch) : Prop :=
  ∀ front p back, ps = front ++ p :: back → p.Fits manifest (left files front p.file)

/-- The bundle with a patch. -/
def made (p : Patch) (files : Bundle) : Bundle :=
  match p.kind with
  | .createFile | .replaceFile => files.insert p.file p.contents
  | .deleteFile => files.erase p.file

theorem get?_made (p : Patch) (files : Bundle) (path : String) :
    (p.made files).get? path = left files [p] path := by
  have set (h : p.made files = files.insert p.file p.contents) (h' : p.outcome = some p.contents) :
      (p.made files).get? path = left files [p] path := by
    rw [h, left, last?_singleton, Dict.get?_insert]
    by_cases named : p.file = path
    · rw [if_pos named.symm, if_pos named]
      exact h'.symm
    · rw [if_neg (Ne.symm named), if_neg named]
  cases kind : p.kind with
  | createFile => exact set (by rw [made, kind]) (by rw [outcome, kind])
  | replaceFile => exact set (by rw [made, kind]) (by rw [outcome, kind])
  | deleteFile =>
    rw [made, left, last?_singleton, kind]
    by_cases named : p.file = path
    · simp [named, outcome, kind]
    · simp [named, Ne.symm named]

/-- **One patch** is made if it fits. -/
theorem apply_eq_ok_iff : p.apply manifest files = .ok files' ↔
    p.Fits manifest (files.get? p.file) ∧ p.made files = files' := by
  unfold apply Fits made Dict.contains
  cases p.kind with
  | createFile => cases files.get? p.file <;> simp
  | replaceFile => cases files.get? p.file <;> simp
  | deleteFile =>
    cases files.get? p.file with
    | none => simp
    | some text => by_cases kept : p.file = manifest <;> simp [kept]

/-- The first patch can be made, and the others after it. -/
theorem fit_cons_iff : Fit manifest files (p :: ps) ↔
    p.Fits manifest (files.get? p.file) ∧ Fit manifest (p.made files) ps := by
  constructor
  · intro fit
    refine ⟨fit [] p ps rfl, fun front q back parts => ?_⟩
    rw [← left_append (get?_made p files), List.singleton_append]
    exact fit (p :: front) q back (by rw [parts, List.cons_append])
  · rintro ⟨first, fit⟩ front q back parts
    cases front with
    | nil =>
      obtain ⟨rfl, rfl⟩ := List.cons.inj parts
      exact first
    | cons _ front =>
      obtain ⟨rfl, rest⟩ := List.cons.inj parts
      rw [← List.singleton_append, left_append (get?_made p files)]
      exact fit front q back rest

/-- **Patches in order** are made if each one fits, and the last one that names a path tells what is there. -/
theorem applyAll_eq_ok_iff : applyAll manifest ps files = .ok files' ↔
    Fit manifest files ps ∧ ∀ path, files'.get? path = left files ps path := by
  induction ps generalizing files with
  | nil =>
    constructor
    · rintro ⟨⟩
      exact ⟨fun front p back split => by simp at split, fun path => rfl⟩
    · rintro ⟨-, same⟩
      exact congrArg Except.ok (Dict.ext same).symm
  | cons p rest ih =>
    have others (path : String) : left files (p :: rest) path = left (p.made files) rest path :=
      left_append (get?_made p files) rest path
    simp only [applyAll, bind_eq_ok_iff, apply_eq_ok_iff, fit_cons_iff, others, and_assoc]
    constructor
    · rintro ⟨_, fits, rfl, applied⟩
      exact ⟨fits, ih.1 applied⟩
    · rintro ⟨fits, applied⟩
      exact ⟨_, fits, rfl, ih.2 applied⟩

theorem exists_left (files : Bundle) (ps : List Patch) :
    ∃ files', ∀ path, Dict.get? files' path = left files ps path := by
  induction ps generalizing files with
  | nil => exact ⟨files, fun path => rfl⟩
  | cons p rest ih =>
    obtain ⟨files', made⟩ := ih (p.made files)
    refine ⟨files', fun path => ?_⟩
    rw [made, ← left_append (get?_made p files), List.singleton_append]

theorem applyAll_append (ps qs : List Patch) (files : Bundle) :
    applyAll manifest (ps ++ qs) files = applyAll manifest ps files >>= applyAll manifest qs := by
  induction ps generalizing files with
  | nil => rfl
  | cons p rest ih =>
    rw [List.cons_append, applyAll, applyAll, bind_assoc]
    exact bind_congr fun between => ih between

end Package.Patch

/-! ## Edit tasks -/

namespace Package

variable {ps : List Patch}

theorem EditSpec.validate_eq_ok_iff : EditSpec.validate ⟨ps⟩ = .ok () ↔ ∀ p ∈ ps, p.file ≠ "" := by
  unfold validate
  cases unnamed : ps.find? fun p => p.file.isEmpty with
  | none => simpa [String.isEmpty_iff] using unnamed
  | some p =>
    have empty : p.file.isEmpty = true := List.find?_some (p := fun q : Patch => q.file.isEmpty) unnamed
    simpa using ⟨p, List.mem_of_find?_eq_some unnamed, String.isEmpty_iff.1 empty⟩

/-- The first patch that names no file is found among the first ones, or else among the others. -/
theorem EditSpec.validate_append (ps qs : List Patch) :
    EditSpec.validate ⟨ps ++ qs⟩ = EditSpec.validate ⟨ps⟩ >>= fun _ => EditSpec.validate ⟨qs⟩ := by
  unfold validate
  rw [List.find?_append]
  cases ps.find? fun p => p.file.isEmpty <;> rfl

/-- Only the patches of an edit task are checked, wherever it stands. -/
theorem Task.validate_editing (i : Nat) (ps : List Patch) :
    (editing ps).validate i = EditSpec.validate ⟨ps⟩ := rfl

end Package

namespace Package.Snapshot

open Patch

variable {path : String} {before middle after : Snapshot} {ps qs : List Patch}

/-- Patches make a snapshot if they can be made and what they leave has a manifest of the same package. -/
theorem edited_eq_ok_iff : before.edited path ps = .ok after ↔
    applyAll path ps before.files = .ok after.files ∧
      Kptfile.ofBundle path after.files = .ok after.kptfile ∧
      after.kptfile.name = before.kptfile.name := by
  refine ⟨edited_ok, ?_⟩
  rintro ⟨applied, read, named⟩
  rw [edited, bind_eq_ok_iff]
  refine ⟨after.files, applied, ?_⟩
  rw [read]
  exact if_neg fun other => other named

/-- **Patches go on where others ended**, with the same result and the same errors. -/
theorem edited_append (first : before.edited path ps = .ok middle) (qs : List Patch) :
    before.edited path (ps ++ qs) = middle.edited path qs := by
  obtain ⟨applied, -, named⟩ := edited_ok first
  rw [edited, applyAll_append, applied, edited, ← named]
  rfl

end Package.Snapshot

namespace Pipeline

open Package.Snapshot Package.Patch

/-- What edit tasks make of a snapshot. -/
structure Edits (e : Engine) (r : Revision) (c : Context) (before : Snapshot) : Prop where
  /-- The task makes the patches, and is valid if they can be made. -/
  task : ∀ ps, apply e r (some before) (.editing ps) c = valid (before.edited e.config.manifestFile ps)
  /-- Before a run, the task is refused if a patch names no file, and for nothing else. -/
  wellFormed : ∀ ps i, (Task.editing ps).validate i = .ok () ↔ ∀ p ∈ ps, p.file ≠ ""
  /-- What two tasks are refused for, one after the other, both of them are refused for as one. -/
  checked : ∀ ps qs i j, (Task.editing (ps ++ qs)).validate i =
    (Task.editing ps).validate i >>= fun _ => (Task.editing qs).validate j
  /-- After a task that succeeds, another one does what both of them would do as one. -/
  split : ∀ ps qs middle, before.edited e.config.manifestFile ps = .ok middle →
    before.edited e.config.manifestFile (ps ++ qs) = middle.edited e.config.manifestFile qs
  /-- The task succeeds if each patch fits after the ones before it and what they leave at the path of the
  manifest is a manifest of the same package. -/
  succeeds : ∀ ps, (∃ after, before.edited e.config.manifestFile ps = .ok after) ↔
    Fit e.config.manifestFile before.files ps ∧
      ∃ text k, left before.files ps e.config.manifestFile = some text ∧ Kptfile.parse text = .ok k ∧
        k.name = before.kptfile.name
  /-- A path that no patch names holds what it held. -/
  others : ∀ ps after path, before.edited e.config.manifestFile ps = .ok after →
    (∀ p ∈ ps, p.file ≠ path) → after.files.get? path = before.files.get? path
  /-- A path that patches name is as the last one of them leaves it. -/
  named : ∀ front p back after, before.edited e.config.manifestFile (front ++ p :: back) = .ok after →
    (∀ q ∈ back, q.file ≠ p.file) → after.files.get? p.file = p.outcome
  /-- The manifest is there, and it is the one that is kept beside the bundle. -/
  manifest : ∀ ps after, before.edited e.config.manifestFile ps = .ok after →
    ∃ text, after.files.get? e.config.manifestFile = some text ∧ Kptfile.parse text = .ok after.kptfile
  /-- The package keeps its name. -/
  name : ∀ ps after, before.edited e.config.manifestFile ps = .ok after →
    after.kptfile.name = before.kptfile.name

/-- **Edit tasks** can be split, and tell of each path what it holds after them. -/
theorem edits (e : Engine) (r : Revision) (c : Context) (before : Snapshot) : Edits e r c before where
  task ps := rfl
  wellFormed ps i := by
    rw [Task.validate_editing]
    exact EditSpec.validate_eq_ok_iff
  checked ps qs i j := by
    rw [Task.validate_editing, Task.validate_editing, Task.validate_editing, EditSpec.validate_append]
  split ps qs middle first := edited_append first qs
  succeeds ps := by
    constructor
    · rintro ⟨after, edited⟩
      obtain ⟨applied, read, named⟩ := edited_ok edited
      obtain ⟨fit, there⟩ := applyAll_eq_ok_iff.1 applied
      obtain ⟨text, found, parsed⟩ := Kptfile.ofBundle_ok read
      exact ⟨fit, text, after.kptfile, (there _).symm.trans found, parsed, named⟩
    · rintro ⟨fit, text, k, found, parsed, named⟩
      obtain ⟨files, there⟩ := exists_left before.files ps
      refine ⟨⟨files, k⟩, edited_eq_ok_iff.2 ⟨applyAll_eq_ok_iff.2 ⟨fit, there⟩, ?_, named⟩⟩
      show Kptfile.ofBundle e.config.manifestFile files = .ok k
      rw [Kptfile.ofBundle, there, found]
      exact mapError_eq_ok_iff.2 parsed
  others ps after path edited spared := by
    rw [(applyAll_eq_ok_iff.1 (edited_ok edited).1).2, left, last?_eq_none_iff.2 spared]
  named front p back after edited last := by
    rw [(applyAll_eq_ok_iff.1 (edited_ok edited).1).2, left, last?_of_split last]
  manifest ps after edited := Kptfile.ofBundle_ok (edited_ok edited).2.1
  name ps after edited := (edited_ok edited).2.2

end Pipeline

end PackageDepot
