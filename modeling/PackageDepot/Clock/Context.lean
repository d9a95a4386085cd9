/-!
# Contexts: cancellation and deadlines

A call runs in a context, which has a scope and perhaps a deadline. A scope is named by its path: the
labels on the way from the scope to the outermost one around it. Cancelling a scope cancels what is
inside it and nothing else. Times are in milliseconds since the start.
-/

namespace PackageDepot

/-- A moment in time, in milliseconds since the start. -/
abbrev Time := Nat

/-- A cancellation scope: its own label, then the labels of the scopes around it. -/
abbrev Scope := List Nat

/-- What a call runs in. -/
structure Context where
  scope : Scope
  deadline : Option Time := none
  deriving DecidableEq, Repr

/-- Why a call is given up. -/
inductive Interrupt
  | cancelled
  | expired
  deriving DecidableEq, Repr

/-- What is said about it. -/
def Interrupt.message : Interrupt → String
  | .cancelled => "cancelled by caller"
  | .expired => "deadline exceeded"

/-- What a step sees of its surroundings: the time, and the scopes that were cancelled. -/
structure Moment where
  now : Time := 0
  cancelled : List Scope := []
  deriving DecidableEq, Repr

/-- The scope, or one around it, was cancelled. -/
def Moment.isCancelled (m : Moment) (s : Scope) : Bool := m.cancelled.any fun c => c.isSuffixOf s

namespace Context

/-- A context of its own that nothing is around. -/
def background (label : Nat) : Context := { scope := [label] }

/-- A context in a scope that there is. It takes no deadline over. -/
def inScope (s : Scope) : Context := { scope := s }

/-- A context of its own inside another one. -/
def child (c : Context) (label : Nat) : Context := { c with scope := label :: c.scope }

/-- The context with a deadline `duration` from now, unless it has an earlier one. Times have no end here. On the
machine's clock they have one, and no context comes of a deadline that lies behind it (`Instant.narrow`). -/
def withTimeout (c : Context) (now : Time) (duration : Nat) : Context :=
  let candidate := now + duration
  { c with deadline := some (match c.deadline with
    | some d => if d < candidate then d else candidate
    | none => candidate) }

/-- Why a call in this context has to be given up, if it has to. A cancelled call is given up for
that, whatever its deadline. -/
def interrupt? (c : Context) (m : Moment) : Option Interrupt :=
  if m.isCancelled c.scope then some .cancelled
  else if c.deadline.any (· ≤ m.now) then some .expired
  else none

end Context

end PackageDepot
