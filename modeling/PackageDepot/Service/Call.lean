import PackageDepot.Clock.Routine
import PackageDepot.Depot

/-!
# Calls to a depot

A `Call` is a routine over the state of a depot that may fail with an error. Work on the places that
hold packages is done within a context: it is not begun if the context is interrupted.
-/

namespace PackageDepot

/-- A call to a depot. -/
abbrev Call (α : Type) := ExceptT Error (Routine Depot) α

namespace Call

variable {α : Type}

/-- One step that reads the state. -/
def read (f : Depot → α) : Call α := ExceptT.lift (Routine.read fun _ d => f d)

/-- One step that reads the state and may fail. -/
def query (f : Depot → Except Error α) : Call α := ExceptT.mk (Routine.read fun _ d => f d)

/-- One step that changes the state, unless it fails. -/
def update (f : Moment → Depot → Except Error (α × Depot)) : Call α :=
  ExceptT.mk (Routine.act fun m d =>
    match f m d with
    | .ok (a, d') => (.ok a, d')
    | .error e => (.error e, d))

/-- One step of work in a context. -/
def within (c : Context) (f : Depot → Except Error α) : Call α :=
  ExceptT.mk (Routine.read fun m d =>
    match c.interrupt? m with
    | some i => .error (.cancelled i)
    | none => f d)

/-- Work in a context that takes a time, or for ever. -/
def work (c : Context) (duration : Option Nat) (result : Except Error α) : Call α := do
  within c fun _ => .ok ()
  match duration with
  | some 0 => ExceptT.mk (pure result)
  | _ =>
    match ← ExceptT.lift (Routine.await c duration) with
    | some i => throw (.cancelled i)
    | none => ExceptT.mk (pure result)

/-- The context of a task: a context of its own with the time that a task may take. It must not be
interrupted already. -/
def enter (c : Context) (label : Nat) (timeout : Option Nat) : Call Context :=
  ExceptT.mk (Routine.read fun m _ =>
    let inner := match timeout with
      | some ms => (c.child label).withTimeout m.now ms
      | none => c
    match inner.interrupt? m with
    | some i => .error (.cancelled i)
    | none => .ok inner)

/-- The outcome of a call, which may be an error. -/
def attempt (x : Call α) : Call (Except Error α) := ExceptT.lift x.run

/-- Say more about an error. -/
def mapError (f : Error → Error) (x : Call α) : Call α := ExceptT.adapt f x

/-- What is given, or else a failure. -/
def ofExcept (r : Except Error α) : Call α := ExceptT.mk (pure r)

/-- Take the lease of a key. -/
def acquire (k : Package.Key) : Call Unit :=
  ExceptT.mk (Routine.act fun _ d =>
    if d.store.isBusy k then (.error (.conflict k), d)
    else (.ok (), { d with store := d.store.acquire k }))

/-- The state with the lease of a key given back. -/
def released (k : Package.Key) (d : Depot) : Depot := { d with store := d.store.release k }

/-- Give the lease of a key back. -/
def release (k : Package.Key) : Call Unit :=
  ExceptT.mk (.step (released k) (fun _ => released k) fun _ _ => .done (.ok ()))

/-- Take the lease of a key, carry out a call with it and give it back. The lease is given back on
every way out, also if the call is abandoned. -/
def withLease (k : Package.Key) (x : Call α) : Call α := do
  acquire k
  ExceptT.mk (Routine.holding (released k) x.run)

/-- Take the lease of a key and keep it, unless a call with it fails or is abandoned. -/
def keepLease (k : Package.Key) (x : Call Unit) : Call Unit := do
  acquire k
  match ← ExceptT.lift (Routine.guarded (released k) x.run) with
  | .ok () => return ()
  | .error e =>
    release k
    throw e

end Call

end PackageDepot
