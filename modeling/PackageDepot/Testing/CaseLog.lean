import PackageDepot.File.Path
import PackageDepot.Json.Value

/-!
# Logs of test cases

Each test case has a log file of its own, in a directory for the day. Dates, times, ids and durations are
given as the texts in which they are written.
-/

namespace PackageDepot.Testing

/-- When and by whom a log is begun. -/
structure Stamp where
  date : String
  time : String
  /-- Differs from log to log. -/
  id : String
  /-- Date and time. -/
  moment : String
  process : String
  deriving DecidableEq, Repr

/-- The log of a case. -/
structure CaseLog where
  name : String
  path : String
  text : String
  deriving DecidableEq, Repr

namespace CaseLog

/-- The greatest number of bytes in the name of a case. -/
def maxName : Nat := 200

/-- A case is named, and not by too long a name. -/
def isName (name : String) : Bool := !name.isEmpty && name.utf8ByteSize ≤ maxName

/-- What is said about a name that is refused, of which only the beginning is shown. -/
def refusal (name : String) : String := "invalid test name: " ++ String.ofList (name.toList.take 40)

/-- A character that stays as it is in the name of a file. -/
def staysInFileName (c : Char) : Bool := c.isAlphanum || c = '_' || c = '-'

/-- The name of a case as a part of the name of a file. -/
def fileName (name : String) : String := name.map fun c => if staysInFileName c then c else '_'

/-- The path of a log. -/
def pathOf (root name : String) (stamp : Stamp) : String :=
  File.Path.join (File.Path.join root stamp.date)
    (fileName name ++ "-" ++ stamp.time ++ "-" ++ stamp.id ++ ".log")

/-- The lines at the head of a log. -/
def header (name : String) (stamp : Stamp) : String :=
  "=== Package Harbor Test Log ===\nTest: " ++ name ++ "\nStarted: " ++ stamp.moment ++
    "\nProcess: " ++ stamp.process ++ "\n=== Log Output ===\n\n"

/-- Begin a log below a directory. -/
def start? (root name : String) (stamp : Stamp) : Option CaseLog :=
  if isName name then some ⟨name, pathOf root name stamp, header name stamp⟩ else none

/-- Add a message. -/
def add (l : CaseLog) (time message : String) : CaseLog :=
  { l with text := l.text ++ "[" ++ time ++ "] " ++ message ++ "\n" }

/-- Add a value under a label. -/
def addJson (l : CaseLog) (time label : String) (v : Json) : CaseLog :=
  l.add time (label ++ ": " ++ v.pretty)

/-- End the log of a case that passed, and give the line that is shown. -/
def pass (l : CaseLog) (time elapsed : String) : CaseLog × String :=
  (l.add time ("passed in " ++ elapsed), "✅ " ++ l.name ++ " passed\n")

/-- End the log of a case that failed, and give the line that is shown, which has the size of the log. -/
def fail (l : CaseLog) (time elapsed message : String) : CaseLog × String :=
  let l := l.add time ("failed after " ++ elapsed ++ ": " ++ message)
  (l, "❌ " ++ l.name ++ " failed - Log: " ++ l.path ++ " (" ++ toString l.text.utf8ByteSize ++
    " bytes)\n")

end CaseLog

end PackageDepot.Testing
