import PackageDepot.Error

/-!
# Well-formed requests

`Revision.validate` checks the shape of a request before any of its tasks runs: the parts of its name
are not empty and hold no colon, each task has the payload of its kind and no other, and only the
first task may begin a package.
-/

namespace PackageDepot.Package

/-- A part of a name is not empty and holds no colon. -/
def checkName (field value : String) : Except ValidationFault Unit := do
  if value.isEmpty then throw (.emptyField field)
  if value.toList.contains ':' then throw (.colonInField field value)

namespace CloneSource

/-- A clone task names a repository and a ref, or another revision. -/
def validate (s : CloneSource) : Except ValidationFault Unit :=
  match s.git, s.revision with
  | some git, none => if git.repo.isEmpty || git.ref.isEmpty then .error .incompleteGit else .ok ()
  | none, some revision =>
    match Key.parse? revision.name with
    | some _ => .ok ()
    | none => .error (.badRevisionName revision.name)
  | _, _ => .error .ambiguousClone

end CloneSource

namespace EditSpec

/-- Every patch names a file. -/
def validate (s : EditSpec) : Except ValidationFault Unit :=
  match s.patches.find? fun p => p.file.isEmpty with
  | some patch => .error (.unnamedPatch patch.kind)
  | none => .ok ()

end EditSpec

namespace Task

/-- Check the task at a position. -/
def validate (index : Nat) (t : Task) : Except ValidationFault Unit := do
  if t.payloads ≠ 1 || !t.hasOwnPayload then throw (.payloadMismatch t.kind)
  if t.isSeed && index ≠ 0 then throw (.notFirst t.kind)
  if let some clone := t.clone then clone.source.validate
  if let some eval := t.eval then if eval.image.isEmpty then throw .noImage
  if let some edit := t.edit then edit.validate

end Task

/-- Check the tasks from a position on. -/
def validateTasks (index : Nat) : List Task → Except Error Unit
  | [] => .ok ()
  | t :: rest => do
    (t.validate index).mapError fun f => .task index t.kind (.validation f)
    validateTasks (index + 1) rest

namespace Revision

/-- Check a request. -/
def validate (r : Revision) : Except Error Unit := do
  (checkName "packageName" r.package).mapError .validation
  (checkName "revision" r.revision).mapError .validation
  (checkName "repositoryName" r.repository).mapError .validation
  validateTasks 0 r.tasks

end Revision

end PackageDepot.Package
