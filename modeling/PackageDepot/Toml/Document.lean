import PackageDepot.Toml.Scalar

/-!
# TOML documents

A document is a list of statements: headers of tables and values under keys. `Table.ofString?` reads
them and carries them out. Arrays and tables in line may be nested in each other up to 79 levels.
-/

namespace PackageDepot.Toml

/-- Keys without quotes are made of these. -/
def isKeyChar (c : Char) : Bool := c.isAlphanum || c == '_' || c == '-'

/-- Read one part of a key, with the blanks around it. -/
def readKeyPart (cs : List Char) : Option (String × List Char) :=
  let cs := skipBlanks cs
  match cs with
  | '"' :: rest => (readLine '"' cs.length [] rest).map fun (s, r) => (s, skipBlanks r)
  | '\'' :: rest => (readLine '\'' cs.length [] rest).map fun (s, r) => (s, skipBlanks r)
  | cs =>
    let name := cs.takeWhile isKeyChar
    if name.isEmpty then none
    else some (String.ofList name, skipBlanks (cs.dropWhile isKeyChar))

/-- A dotted key: the steps of its path, and the key at the end. -/
abbrev Key := List String × String

/-- Read a key. -/
def readKey : Nat → List String → List Char → Option (Key × List Char)
  | 0, _, _ => none
  | fuel + 1, path, cs =>
    match readKeyPart cs with
    | none => none
    | some (part, '.' :: rest) => readKey fuel (path ++ [part]) rest
    | some (part, rest) => some ((path, part), rest)

/-- Leave out a comment, up to the end of its line. -/
def skipComment : List Char → List Char
  | '#' :: rest => rest.dropWhile isPrintable
  | cs => cs

/-- Leave out blanks, line ends and comments. -/
def skipFiller : Nat → List Char → List Char
  | 0, cs => cs
  | fuel + 1, cs =>
    match skipLines cs with
    | '#' :: rest => skipFiller fuel (skipComment ('#' :: rest))
    | cs => cs

/-- Read the end of a statement: blanks, perhaps a comment, and the end of the line or text. -/
def readEnd (cs : List Char) : Option (List Char) :=
  match skipComment (skipBlanks cs) with
  | [] => some []
  | cs => readNewline cs

/-- Number of levels that may be nested. -/
def maxDepth : Nat := 79

mutual

/-- Read a value; `depth` more levels may be nested in it. -/
def readValue : Nat → Nat → List Char → Option (Value × List Char)
  | 0, _, _ => none
  | fuel + 1, depth, cs =>
    match cs with
    | '[' :: rest =>
      match depth with
      | 0 => none
      | depth + 1 => (readItems fuel depth rest).map fun (vs, rest) => (.array vs, rest)
    | '\x7b' :: rest =>
      match depth with
      | 0 => none
      | depth + 1 =>
        match skipBlanks rest with
        | '\x7d' :: rest => some (.table .inline [], rest)
        | rest => (readFields fuel depth [] rest).map fun (t, rest) => (.table .inline t, rest)
    | 't' :: 'r' :: 'u' :: 'e' :: rest => some (.bool true, rest)
    | 'f' :: 'a' :: 'l' :: 's' :: 'e' :: rest => some (.bool false, rest)
    | c :: rest =>
      if c == '"' || c == '\'' then (readText (c :: rest)).map fun (s, rest) => (.text s, rest)
      else readNumber (c :: rest)
    | [] => none

/-- Read the items of an array and its end. -/
def readItems : Nat → Nat → List Char → Option (List Value × List Char)
  | 0, _, _ => none
  | fuel + 1, depth, cs =>
    match skipFiller cs.length cs with
    | ']' :: rest => some ([], rest)
    | cs =>
      match readValue fuel depth cs with
      | none => none
      | some (v, rest) =>
        match skipFiller rest.length rest with
        | ',' :: rest => (readItems fuel depth rest).map fun (vs, rest) => (v :: vs, rest)
        | ']' :: rest => some ([v], rest)
        | _ => none

/-- Read the entries of a table in line and its end. -/
def readFields : Nat → Nat → Table → List Char → Option (Table × List Char)
  | 0, _, _, _ => none
  | fuel + 1, depth, t, cs =>
    match readKey (cs.length + 1) [] cs with
    | some ((path, key), '=' :: rest) =>
      match readValue fuel depth (skipBlanks rest) with
      | none => none
      | some (v, rest) =>
        match t.set? path key v with
        | none => none
        | some t =>
          match skipBlanks rest with
          | ',' :: rest => readFields fuel depth t rest
          | '\x7d' :: rest => some (t, rest)
          | _ => none
    | _ => none

end

/-- A document while it is read: its tables, and the header under which entries stand. -/
structure Draft where
  table : Table := []
  header : List String := []

/-- Read one statement and carry it out. -/
def Draft.step (d : Draft) (cs : List Char) : Option (Draft × List Char) := do
  match cs with
  | '[' :: '[' :: rest =>
    let ((path, key), rest) ← readKey (rest.length + 1) [] rest
    let rest ← readEnd (← readMark ']' (← readMark ']' rest))
    return (⟨← d.table.extend? path key, path ++ [key]⟩, rest)
  | '[' :: rest =>
    let ((path, key), rest) ← readKey (rest.length + 1) [] rest
    let rest ← readEnd (← readMark ']' rest)
    return (⟨← d.table.open? path key, path ++ [key]⟩, rest)
  | cs =>
    let ((path, key), rest) ← readKey (cs.length + 1) [] cs
    let (v, rest) ← readValue (2 * rest.length + 2) maxDepth (skipBlanks (← readMark '=' rest))
    let rest ← readEnd rest
    return ({ d with table := ← d.table.within? (Table.set? path key v) d.header }, rest)

/-- Read statements up to the end of a text. -/
def readStatements : Nat → Draft → List Char → Option Table
  | 0, _, _ => none
  | fuel + 1, d, cs =>
    match skipBlanks cs with
    | [] => some d.table
    | '#' :: rest => (readEnd ('#' :: rest)).bind (readStatements fuel d)
    | cs =>
      match readNewline cs with
      | some rest => readStatements fuel d rest
      | none =>
        match d.step cs with
        | some (d, rest) => readStatements fuel d rest
        | none => none

/-- Read a document. -/
def Table.ofString? (text : String) : Option Table :=
  let cs := match text.toList with
    | '\ufeff' :: rest => rest
    | cs => cs
  readStatements (cs.length + 1) {} cs

end PackageDepot.Toml
