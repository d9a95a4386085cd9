import PackageDepot.Json.Value
import PackageDepot.Testing.Cleanup
import PackageDepot.Text.Cut

/-!
# Suites of test cases

A suite is a table of named cases. Each selected case is run on a state that is made for it, behind the
set-up and before the release actions that it registered, however it ends. The next state is made when these
have been carried out, and may share with them what they changed.
-/

namespace PackageDepot.Testing

/-- What a case works on: the state and the release actions that it registered. -/
structure CaseState (σ : Type) where
  state : σ
  cleanup : Cleanup σ := []

/-- A test case. -/
abbrev Case (σ : Type) := CaseState σ → Ending × CaseState σ

/-- A suite. -/
structure Suite (σ : Type) where
  name : String
  /-- Is run before each case. -/
  setup : Option (σ → Ending × σ) := none
  /-- A text that stands in the names of the cases to be run. -/
  filter : Option String := none
  cases : List (String × Case σ) := []

/-- What is reported about a case. -/
structure CaseReport where
  name : String
  error : Option String
  cleanupFailures : List String
  deriving DecidableEq, Repr

/-- What is reported about a suite. -/
structure SuiteReport where
  suite : String
  cases : List CaseReport
  deriving DecidableEq, Repr

namespace CaseReport

/-- The case and its release actions went well. -/
def passed (r : CaseReport) : Bool := r.error.isNone && r.cleanupFailures.isEmpty

/-- The lines that report a case. -/
def lines (r : CaseReport) : List String :=
  (r.error.map fun e => "  " ++ r.name ++ ": " ++ e).toList ++
    r.cleanupFailures.map fun f => "  " ++ r.name ++ " (cleanup): " ++ f

/-- The report as a JSON value. -/
def toJson (r : CaseReport) : Json :=
  .obj [("name", .str r.name), ("error", match r.error with
    | some e => .str e
    | none => .null),
    ("cleanup_failures", .arr (r.cleanupFailures.map .str))]

end CaseReport

namespace SuiteReport

/-- The cases that did not pass. -/
def failures (r : SuiteReport) : List CaseReport := r.cases.filter fun c => !c.passed

/-- The report as text, each line of it ended by a line break. -/
def text (r : SuiteReport) : String :=
  let head := "suite " ++ r.suite ++ ": " ++ toString r.cases.length ++ " case(s), " ++
    toString r.failures.length ++ " failed"
  String.join ((head :: r.failures.flatMap CaseReport.lines).map (· ++ "\n"))

/-- The suite went well, or else it failed with its report. -/
def result (r : SuiteReport) : Except String Unit :=
  if r.failures.isEmpty then .ok () else .error r.text

/-- The report as a JSON value. -/
def toJson (r : SuiteReport) : Json :=
  .obj [("suite", .str r.suite), ("cases", .arr (r.cases.map CaseReport.toJson))]

end SuiteReport

namespace Suite

variable {σ : Type}

/-- A case is run if the filter's text stands in its name. -/
def selects (s : Suite σ) (name : String) : Bool :=
  match s.filter with
  | none => true
  | some part => Text.occurs part.toList name.toList

/-- The cases that are run, in order. -/
def selected (s : Suite σ) : List (String × Case σ) := s.cases.filter fun c => s.selects c.1

/-- The names of the cases that are run, in order. -/
def caseNames (s : Suite σ) : List String := s.selected.map (·.1)

/-- Run the set-up and, if that passes, a case. -/
def runBody (s : Suite σ) (case : Case σ) (start : σ) : Ending × CaseState σ :=
  match s.setup with
  | none => case { state := start }
  | some setup =>
    match setup start with
    | (.passed, state) => case { state }
    | (ending, state) => (ending, { state })

/-- Run a case and then its release actions. -/
def runOne (s : Suite σ) (name : String) (case : Case σ) (start : σ) :
    Except Panic CaseReport × σ :=
  let (ending, x) := s.runBody case start
  let ((failures, _), state) := x.cleanup.runAll x.state
  (failures.map fun cleanupFailures => { name, error := ending.error?, cleanupFailures }, state)

/-- Run cases one after the other, up to a panic that is not caught, and give the states that they leave.
`makeState` makes the state of each case, which may hold something of what the cases before it left. -/
def runCases (s : Suite σ) (makeState : List σ → σ) :
    List σ → List (String × Case σ) → Except Panic (List (CaseReport × σ))
  | _, [] => .ok []
  | before, (name, case) :: rest => do
    let (report, state) := s.runOne name case (makeState before)
    let report ← report
    return (report, state) :: (← s.runCases makeState (before ++ [state]) rest)

/-- Run all selected cases, and give the report with the states that the cases leave. -/
def run (s : Suite σ) (makeState : List σ → σ) : Except Panic (SuiteReport × List σ) := do
  let results ← s.runCases makeState [] s.selected
  return (⟨s.name, results.map (·.1)⟩, results.map (·.2))

/-- Run the first case of a name, whatever the filter says. -/
def runCase (s : Suite σ) (name : String) (start : σ) : Option (Except Panic CaseReport × σ) :=
  (s.cases.find? fun c => c.1 == name).map fun c => s.runOne c.1 c.2 start

end Suite

end PackageDepot.Testing
