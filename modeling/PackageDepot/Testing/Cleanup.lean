/-!
# Release actions

While a test case goes on it registers release actions, which undo what it did. They are carried out
last registered first, each one whatever became of those before it. What a case and its release actions
share is a state `σ`.
-/

namespace PackageDepot.Testing

/-- A panic, with what it says if that is a text. -/
structure Panic where
  text : Option String
  deriving DecidableEq, Repr

/-- How a piece of a test ends. -/
inductive Ending
  | passed
  /-- It failed; the texts of the failure and its causes, outermost first. -/
  | failed (chain : List String)
  | panicked (panic : Panic)
  deriving DecidableEq, Repr

/-- The texts of a failure on one line. -/
def chainText (chain : List String) : String := ": ".intercalate chain

/-- What is reported about a panic. -/
def Panic.message (p : Panic) : String :=
  match p.text with
  | some text => "panicked: " ++ text
  | none => "panicked"

/-- What is reported about an ending. There is nothing to report if all went well. -/
def Ending.error? : Ending → Option String
  | .passed => none
  | .failed chain => some (chainText chain)
  | .panicked p => some p.message

variable {σ : Type}

/-- A release action. Preparing it gives what is to be carried out; a panic while it is prepared is not
caught, unlike one while it is carried out. -/
structure Release (σ : Type) where
  label : String
  prepare : σ → Except Panic (σ → Ending × σ) × σ

/-- A release action that needs no preparation. -/
def Release.of (label : String) (run : σ → Ending × σ) : Release σ := ⟨label, fun s => (.ok run, s)⟩

/-- What is reported about a release action, unless it went well. -/
def Release.failure? (label : String) : Ending → Option String
  | .passed => none
  | .failed chain => some (label ++ ": " ++ chainText chain)
  | .panicked _ => some (label ++ ": panicked")

/-- The release actions that are registered, the last one first. -/
abbrev Cleanup (σ : Type) := List (Release σ)

namespace Cleanup

/-- Register a release action. -/
def push (c : Cleanup σ) (r : Release σ) : Cleanup σ := r :: c

/-- Carry out all release actions and collect what is reported about them. If a panic is not caught, the
actions that are left stay registered. -/
def runAll : Cleanup σ → σ → (Except Panic (List String) × Cleanup σ) × σ
  | [], s => ((.ok [], []), s)
  | r :: rest, s =>
    match r.prepare s with
    | (.error p, s) => ((.error p, rest), s)
    | (.ok run, s) =>
      let (ending, s) := run s
      let ((failures, left), s) := runAll rest s
      ((failures.map ((Release.failure? r.label ending).toList ++ ·), left), s)

end Cleanup

end PackageDepot.Testing
