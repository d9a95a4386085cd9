import PackageDepot.CommandLine.Arguments
import PackageDepot.CommandLine.Render
import PackageDepot.Logging

/-!
# Commands

The program renders the revisions of a fixture or lists its functions. `Invocation.parse` reads the
arguments, and `Command.run` carries a command out and gives the text that is shown.
-/

namespace PackageDepot.CommandLine

/-- What is to be done. -/
inductive Command
  | render (fixture : String) (config output : Option String)
  | functions (fixture : String)
  deriving DecidableEq, Repr

/-- The name of a command. -/
def Command.name : Command → String
  | .render .. => "render"
  | .functions _ => "functions"

/-- The arguments of the program. -/
structure Invocation where
  logging : LogOptions := {}
  command : Command
  deriving DecidableEq, Repr

/-! ## Arguments -/

/-- A path is not empty. -/
def isPath (s : String) : Bool := !s.isEmpty

/-- The options in front of the command. -/
def outerGrammar : Grammar where
  options := [("log-level", fun s => (LogLevel.all.map LogLevel.text).contains s),
    ("log-format", fun s => (LogFormat.all.map LogFormat.text).contains s),
    ("log-dir", fun _ => true), ("log-file", fun _ => true)]
  commands := ["render", "functions", "help"]

def renderGrammar : Grammar where
  options := [("fixture", isPath), ("config", isPath), ("output", isPath)]

def functionsGrammar : Grammar where
  options := [("fixture", isPath)]

/-- What the log options ask for. -/
def logOptions (r : Reading) : LogOptions where
  level := (r.get? "log-level").bind fun s => LogLevel.all.find? (·.text == s)
  format := (r.get? "log-format").bind fun s => LogFormat.all.find? (·.text == s)
  directory := r.get? "log-dir"
  file := r.get? "log-file"

/-- Read all arguments of a command. -/
def readAll (g : Grammar) (args : List String) : Except Refusal Reading := do
  let (r, _) ← g.read args {}
  r.settle g

/-- An option that has to be there. -/
def need (r : Reading) (option : String) : Except Refusal String :=
  match r.get? option with
  | some v => .ok v
  | none => .error (.missingOption option)

/-- The help for a command, which is the last of some names. Only the first name can be that of a command,
since commands have none of their own. -/
def helpOn : List String → Refusal
  | [] => .help
  | name :: rest =>
    if outerGrammar.commands.contains name then
      match rest with
      | [] => .help
      | next :: _ => .unknownCommand next
    else .unknownCommand name

/-- Read a command with its arguments. -/
def Command.parse (name : String) (args : List String) : Except Refusal Command :=
  match name with
  | "render" => do
    let r ← readAll renderGrammar args
    return .render (← need r "fixture") (r.get? "config") (r.get? "output")
  | "functions" => do
    let r ← readAll functionsGrammar args
    return .functions (← need r "fixture")
  | _ => .error (helpOn args)

/-- Read the arguments of the program, without its name. A fault of the command's own arguments is
reported before one of the options in front of it. -/
def Invocation.parse (args : List String) : Except Refusal Invocation := do
  match ← outerGrammar.read args {} with
  | (r, some (name, rest)) =>
    let command ← Command.parse name rest
    return { logging := logOptions (← r.settle outerGrammar), command }
  | (r, none) =>
    let r ← r.settle outerGrammar
    throw (if r.values.isEmpty then .nothingGiven else .missingCommand)

/-! ## Carrying out -/

section Running

variable {m : Type → Type} [Monad m] [File.Access m]

/-- Read a configuration from a file; without a file it is the default. -/
def loadConfig (path : Option String) : ExceptT Failure m Config := do
  match path with
  | none => return {}
  | some path =>
    let text ← ExceptT.adapt (fun (e : File.Fault) => Failure.config (.unreadable path e.message))
      (ExceptT.mk (File.Access.read (m := m) path))
    match Config.parse text with
    | .ok config => return config
    | .error e => throw (.config e)

/-- Read a fixture from a file. -/
def loadFixture (path : String) : ExceptT Failure m Fixture := do
  let text ← ExceptT.adapt (Failure.unreadableFixture path)
    (ExceptT.mk (File.Access.read (m := m) path))
  match Fixture.parse text with
  | .ok fixture => return fixture
  | .error e => throw (.fixtureFile path e)

/-- The outcome of work on the depot of a fixture, in a context that nothing interrupts. -/
def onFixture {α : Type} (newId : String → String → String) (f : Fixture) (w : Context → Work α) :
    ExceptT Failure m α :=
  ExceptT.mk (pure ((w { scope := [] }).perform {} (f.depot newId)))

/-- Carry out a command, and give the text that it shows. -/
def Command.run (newId : String → String → String) : Command → ExceptT Failure m String
  | .render path configPath output => do
    let config ← loadConfig configPath
    let fixture ← loadFixture path
    let revisions ← onFixture newId fixture (buildAll fixture config)
    match output with
    | some root =>
      revisions.forM (writeRevision root)
      return ""
    | none => return stream revisions
  | .functions path => do
    let fixture ← loadFixture path
    return table (← onFixture newId fixture (listFunctions fixture))

end Running

end PackageDepot.CommandLine
