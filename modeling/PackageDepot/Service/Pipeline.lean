import PackageDepot.Pipeline.Transform
import PackageDepot.Pipeline.Validation
import PackageDepot.Service.Resolve

/-!
# Building a revision

The tasks of a request are carried out from left to right, each on the snapshot that the one before it
made. A request whose first task neither clones nor starts a package begins with an empty one. An error
tells the task at which it arose, and no task behind it is begun.
-/

namespace PackageDepot

open Package

namespace Pipeline

/-- What a task needs from before it. -/
def given (t : Task) (current : Option Snapshot) : Except ValidationFault Snapshot :=
  match current with
  | some s => .ok s
  | none => .error (.noPackage t.kind)

/-- The payload of a task. -/
def payload {α : Type} (t : Task) (spec : Option α) : Except ValidationFault α :=
  match spec with
  | some spec => .ok spec
  | none => .error (.noPayload t.kind)

/-- A check of the request that fails the call. -/
def valid {α : Type} (r : Except ValidationFault α) : Call α := Call.ofExcept (r.mapError .validation)

/-- Run a function on a snapshot. -/
def evaluate (e : Engine) (spec : EvalSpec) (before : Snapshot) (c : Context) : Call Snapshot := do
  let image := e.config.expandImage spec.image
  let evaluation := e.evaluator image spec.config before.files
  let files ← Call.work c evaluation.duration evaluation.result
  Call.ofExcept ((before.evaluated e.config.manifestFile image files).mapError .function)

/-- Carry out one task. -/
def apply (e : Engine) (r : Revision) (current : Option Snapshot) (t : Task) (c : Context) :
    Call Snapshot := do
  let path := e.config.manifestFile
  match t.kind with
  | .clone =>
    let spec ← valid (payload t t.clone)
    let resolved ← Resolve.source e spec.source c
    Call.ofExcept (Snapshot.clone path r.package resolved.lock resolved.files)
  | .init =>
    let spec ← valid (payload t t.init)
    return Snapshot.initial path r.package spec
  | .eval =>
    let before ← valid (given t current)
    let spec ← valid (payload t t.eval)
    evaluate e spec before c
  | .edit =>
    let before ← valid (given t current)
    let spec ← valid (payload t t.edit)
    valid (before.edited path spec.patches)

/-- Carry out the task at a position in a context of its own. -/
def step (e : Engine) (r : Revision) (c : Context) (index : Nat) (current : Option Snapshot)
    (t : Task) : Call Snapshot :=
  Call.mapError (.task index t.kind) do
    apply e r current t (← Call.enter c index e.config.taskMilliseconds)

/-- Carry out the tasks from a position on. -/
def run (e : Engine) (r : Revision) (c : Context) (index : Nat) (current : Option Snapshot) :
    List Task → Call (Option Snapshot)
  | [] => return current
  | t :: rest => do
    let next ← step e r c index current t
    run e r c (index + 1) (some next) rest

/-- The snapshot before the first task: none if that task begins a package itself. -/
def start (e : Engine) (r : Revision) : Option Snapshot :=
  if r.tasks.head?.any Task.isSeed then none
  else some (Snapshot.initial e.config.manifestFile r.package {})

/-- Build a revision. -/
def execute (e : Engine) (r : Revision) (c : Context) : Call Snapshot := do
  Call.ofExcept r.validate
  match ← run e r c 0 (start e r) r.tasks with
  | some s => return s
  | none => throw (.validation (.nothingBuilt r.key))

end Pipeline

end PackageDepot
