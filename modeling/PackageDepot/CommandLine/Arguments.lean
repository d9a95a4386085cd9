import PackageDepot.Text.Cut

/-!
# Arguments

Arguments are read from left to right under a `Grammar`, which has options that each take one value and
the names of commands. `--name value` and `--name=value` give a value to an option; behind `--` there are
no options. A value that follows its option as an argument of its own is looked at only when the next
option is met or the reading ends, so faults further on may be noticed before it.
-/

namespace PackageDepot.CommandLine

/-- Why no command is carried out: something is shown instead, or an argument is refused. -/
inductive Refusal
  | help
  | version
  /-- There is no argument at all. -/
  | nothingGiven
  | missingOption (name : String)
  | missingCommand
  /-- An option has no value, or one that it does not take. -/
  | badValue (option : String)
  | unknownCommand (word : String)
  | unknownArgument (word : String)
  | repeated (option : String)
  /-- A value is given to what takes none. -/
  | needlessValue (flag : String)
  deriving DecidableEq, Repr

/-- The code that a program ends with. -/
def Refusal.exitCode : Refusal → Nat
  | .help | .version => 0
  | _ => 2

/-- The options that there are, with the values that they take, and the names of commands. -/
structure Grammar where
  options : List (String × (String → Bool))
  commands : List String := []

/-- What an argument looks like. -/
inductive Word
  /-- Two dashes alone. -/
  | escape
  | long (name : String) (value : Option String)
  /-- A dash with single letters, of which the first one is given. -/
  | short (letter : Char)
  | plain
  deriving DecidableEq, Repr

/-- See what an argument looks like. A dash alone is plain. -/
def Word.ofString (s : String) : Word :=
  match s.toList with
  | ['-', '-'] => .escape
  | '-' :: '-' :: rest =>
    match Text.cut '=' rest with
    | some (name, value) => .long (String.ofList name) (some (String.ofList value))
    | none => .long (String.ofList rest) none
  | '-' :: letter :: _ => .short letter
  | _ => .plain

/-- What was read so far: values of options, and an option that was named, with the argument that
followed it. -/
structure Reading where
  values : List (String × String) := []
  pending : Option (String × Option String) := none
  deriving DecidableEq, Repr

namespace Reading

/-- The value of an option. -/
def get? (r : Reading) (option : String) : Option String := r.values.lookup option

/-- The next argument is the value of an option. -/
def awaitsValue (r : Reading) : Bool :=
  match r.pending with
  | some (_, none) => true
  | _ => false

/-- Give a value to an option. -/
def give (g : Grammar) (r : Reading) (option : String) (value : Option String) :
    Except Refusal Reading :=
  match value with
  | none => .error (.badValue option)
  | some v =>
    if (r.get? option).isSome then .error (.repeated option)
    else if ((g.options.lookup option).map (· v)).getD false then
      .ok { r with values := r.values ++ [(option, v)] }
    else .error (.badValue option)

/-- Look at the option that was named last. -/
def settle (g : Grammar) (r : Reading) : Except Refusal Reading :=
  match r.pending with
  | none => .ok r
  | some (option, value) => { r with pending := none }.give g option value

/-- What is shown at once, once what stands in front of it is in order. -/
def stop (g : Grammar) (r : Reading) (shown : Refusal) : Except Refusal Reading := do
  let _ ← r.settle g
  throw shown

/-- Read an argument that begins with two dashes. -/
def readLong (g : Grammar) (r : Reading) (name : String) (value : Option String) :
    Except Refusal Reading :=
  if name = "help" || name = "version" then
    if value.isSome then .error (.needlessValue name)
    else r.stop g (if name = "help" then .help else .version)
  else if (g.options.lookup name).isSome then do
    let r ← r.settle g
    match value with
    | some v => r.give g name (some v)
    | none => return { r with pending := some (name, none) }
  else .error (.unknownArgument ("--" ++ name))

/-- Read an argument that begins with a single dash. -/
def readShort (g : Grammar) (r : Reading) (letter : Char) : Except Refusal Reading :=
  match letter with
  | 'h' => r.stop g .help
  | 'V' => r.stop g .version
  | c => .error (.unknownArgument (String.ofList ['-', c]))

end Reading

namespace Grammar

/-- Why an argument that is neither an option nor a value is refused. -/
def refuse (g : Grammar) (word : String) : Refusal :=
  if g.commands.isEmpty || g.commands.contains word then .unknownArgument word
  else .unknownCommand word

/-- Read arguments up to the name of a command, which is given back with the arguments behind it. -/
def read (g : Grammar) : List String → Reading → Except Refusal (Reading × Option (String × List String))
  | [], r => .ok (r, none)
  | word :: rest, r =>
    if !r.awaitsValue && g.commands.contains word then .ok (r, some (word, rest))
    else
      match Word.ofString word with
      | .escape =>
        match rest with
        | [] => .ok (r, none)
        | next :: _ => .error (g.refuse next)
      | .long name value => do g.read rest (← r.readLong g name value)
      | .short letter => do g.read rest (← r.readShort g letter)
      | .plain =>
        match r.pending with
        | some (option, none) => g.read rest { r with pending := some (option, some word) }
        | _ => .error (g.refuse word)

end Grammar

end PackageDepot.CommandLine
