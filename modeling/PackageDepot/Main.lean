import PackageDepot.CommandLine.Command

/-!
The program: it reads its arguments, prepares the log and carries out the command on the files of the
machine.
-/

namespace PackageDepot

/-- What a failed access to a file comes to. -/
def File.Fault.ofSystem : IO.Error → File.Fault
  | .noFileOrDirectory .. => .notFound
  | .alreadyExists .. => .alreadyThere
  | e => .other (toString e)

/-- Access to the files of the machine. -/
def File.attempt {α : Type} (x : IO α) : IO (Except File.Fault α) := do
  try return .ok (← x)
  catch e => return .error (.ofSystem e)

instance : File.Access IO where
  read path := File.attempt (IO.FS.readFile path)
  write path text := File.attempt (IO.FS.writeFile path text)
  touch path := File.attempt (IO.FS.withFile path .append fun _ => pure ())
  ensureDirectories path := File.attempt (do if !path.isEmpty then IO.FS.createDirAll path)

/-- The text that a refusal is reported with. -/
def CommandLine.Refusal.message : CommandLine.Refusal → String
  | .help | .nothingGiven => "usage: depot [log options] render --fixture FILE [--config FILE] " ++
      "[--output DIRECTORY]\n       depot [log options] functions --fixture FILE"
  | .version => "depot 0.1.0"
  | .missingOption name => "error: the option --" ++ name ++ " is missing"
  | .missingCommand => "error: a command is missing"
  | .badValue option => "error: the option --" ++ option ++ " has no value that it takes"
  | .unknownCommand word => "error: there is no command '" ++ word ++ "'"
  | .unknownArgument word => "error: the argument '" ++ word ++ "' was not expected"
  | .repeated option => "error: the option --" ++ option ++ " is given twice"
  | .needlessValue flag => "error: --" ++ flag ++ " takes no value"

/-- Hexadecimal digits of a number. -/
def hexDigits (n : UInt64) : String :=
  let digits := Nat.toDigits 16 n.toNat
  String.ofList (List.replicate (16 - digits.length) '0' ++ digits)

/-- Ids of commits that differ from run to run. -/
def commitId (salt : UInt64) (repo ref : String) : String :=
  let h := mixHash salt (mixHash (hash repo) (hash ref))
  hexDigits h ++ hexDigits (mixHash h salt)

/-- The lines that report a failure: the outermost text, and then the causes. -/
def report : List String → String
  | [] => "Error"
  | [text] => "Error: " ++ text
  | text :: causes => "Error: " ++ text ++ "\n\nCaused by:\n" ++
      "\n".intercalate (causes.map ("    " ++ ·))

/-- Carry out an invocation. -/
def invoke (i : CommandLine.Invocation) : IO UInt32 := do
  match ← (i.logging.prepare "depot" (m := IO)).run with
  | .error e =>
    IO.eprintln (report [e.message])
    return 1
  | .ok () =>
    let salt ← IO.rand 0 (Nat.pow 2 62)
    match ← (i.command.run (commitId salt.toUInt64) (m := IO)).run with
    | .ok text =>
      IO.print text
      return 0
    | .error failure =>
      IO.eprintln (report failure.chain)
      return 1

end PackageDepot

def main (args : List String) : IO UInt32 := do
  match PackageDepot.CommandLine.Invocation.parse args with
  | .ok i => PackageDepot.invoke i
  | .error r =>
    if r.exitCode = 0 then IO.println r.message else IO.eprintln r.message
    return r.exitCode.toUInt32
