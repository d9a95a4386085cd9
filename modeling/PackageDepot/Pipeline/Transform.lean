import PackageDepot.Pipeline.Snapshot

/-!
# What tasks make of a package

Each task makes a snapshot: an empty package, a clone of another one, what a function answered, or the
package with patches. What a function or a patch leaves has to hold a manifest of the same package.
-/

namespace PackageDepot.Package

namespace Snapshot

/-- An empty package. -/
def initial (path name : String) (spec : InitSpec) : Snapshot :=
  let info : Info := ⟨spec.site, spec.description, spec.keywords⟩
  let kptfile := { Kptfile.named name with info := if info.isEmpty then none else some info }
  .write ∅ kptfile path

/-- A clone of a package under a new name, which records where it comes from. A package without a
manifest gets one. -/
def clone (path name : String) (lock : Lock) (files : Bundle) : Except Error Snapshot := do
  let kptfile ← match Kptfile.ofBundle path files with
    | .ok k => .ok k
    | .error .missing => .ok (Kptfile.named name)
    | .error refusal => .error (.resolution (.manifestUnusable refusal))
  let metadata := { kptfile.metadata with name }
  return .write files
    { kptfile with metadata, lineage := some lock.lineage, lock := some lock } path

/-- What a function made of a package. -/
def evaluated (path image : String) (before : Snapshot) (files : Bundle) :
    Except FunctionFault Snapshot :=
  match Kptfile.ofBundle path files with
  | .error .missing => .error (.manifestRemoved image path)
  | .error refusal => .error (.manifestUnusable image refusal)
  | .ok kptfile =>
    if kptfile.name ≠ before.kptfile.name then
      .error (.renamed image before.kptfile.name kptfile.name)
    else .ok ⟨files, kptfile⟩

end Snapshot

namespace Patch

/-- Change one file. The manifest at `path` cannot be deleted. -/
def apply (path : String) (p : Patch) (files : Bundle) : Except ValidationFault Bundle :=
  match p.kind, files.contains p.file with
  | .createFile, true => .error (.fileExists p.file)
  | .replaceFile, false | .deleteFile, false => .error (.fileMissing p.file)
  | .deleteFile, true =>
    if p.file = path then .error (.undeletable path) else .ok (files.erase p.file)
  | .createFile, false | .replaceFile, true => .ok (files.insert p.file p.contents)

/-- Change files in order. -/
def applyAll (path : String) : List Patch → Bundle → Except ValidationFault Bundle
  | [], files => .ok files
  | p :: rest, files => do applyAll path rest (← p.apply path files)

end Patch

namespace Snapshot

/-- A package with patches. -/
def edited (path : String) (before : Snapshot) (patches : List Patch) :
    Except ValidationFault Snapshot := do
  let files ← Patch.applyAll path patches before.files
  match Kptfile.ofBundle path files with
  | .error .missing => throw (.manifestMissing path)
  | .error refusal => throw (.manifestUnusable refusal)
  | .ok kptfile =>
    if kptfile.name ≠ before.kptfile.name then throw (.renamedByEdit before.kptfile.name)
    return ⟨files, kptfile⟩

end Snapshot

end PackageDepot.Package
