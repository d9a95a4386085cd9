import PackageDepot.Text.Digits
import PackageDepot.Yaml.Cursor

/-!
# Scalars as they are written: plain, quoted and block text

Each reader takes the cursor at the start of a scalar and gives the text it stands for with the
cursor behind it, or `none` where the text is malformed. A `Gap` is what stands between two words:
blanks on one line, or line breaks, which fold to a space or to the breaks after the first one.
Readers recurse on fuel; every round consumes a character, so the number of unread characters is
enough.
-/

namespace PackageDepot.Yaml

/-- What stands between two words of a scalar. -/
structure Gap where
  /-- Blanks in front of the first line break. -/
  blanks : List Char := []
  /-- The first line break. -/
  first : List Char := []
  /-- Further line breaks. -/
  further : List Char := []
  /-- A line break was met: blanks no longer count. -/
  broken : Bool := false

namespace Gap

/-- A first line feed folds: to a space if it stands alone, to the breaks behind it otherwise. -/
def fold (first further : List Char) : List Char :=
  if first.head? == some '\n' then if further.isEmpty then [' '] else further
  else first ++ further

/-- The text a gap contributes when another word follows. -/
def text (g : Gap) : List Char := if g.broken then fold g.first g.further else g.blanks

/-- Read blanks and line breaks. A tab in front of column `indent` of a continuation line is
malformed. -/
def read (indent : Int) : Nat → Gap → Cursor → Option (Gap × Cursor)
  | 0, g, c => some (g, c)
  | fuel + 1, g, c =>
    match c.peek? with
    | none => some (g, c)
    | some x =>
      if isBlank x then
        if g.broken then
          if x == '\t' && (c.column : Int) < indent then none else read indent fuel g (c.skip)
        else read indent fuel { g with blanks := g.blanks ++ [x] } (c.skip)
      else
        match c.readBreak? with
        | none => some (g, c)
        | some (b, c) =>
          if g.broken then read indent fuel { g with further := g.further ++ [b] } c
          else read indent fuel { g with blanks := [], first := [b], broken := true } c

end Gap

/-! ## Quoted scalars -/

/-- The character that a one-letter escape stands for. -/
def escapedChar? : Char → Option Char
  | '0' => some '\x00'
  | 'a' => some '\x07'
  | 'b' => some '\x08'
  | 't' | '\t' => some '\t'
  | 'n' => some '\n'
  | 'v' => some '\x0b'
  | 'f' => some '\x0c'
  | 'r' => some '\r'
  | 'e' => some '\x1b'
  | ' ' => some ' '
  | '"' => some '"'
  | '/' => some '/'
  | '\\' => some '\\'
  | 'N' => some '\u0085'
  | '_' => some '\u00a0'
  | 'L' => some '\u2028'
  | 'P' => some '\u2029'
  | _ => none

/-- Number of hexadecimal digits behind a numeric escape. -/
def escapeWidth? : Char → Option Nat
  | 'x' => some 2
  | 'u' => some 4
  | 'U' => some 8
  | _ => none

/-- Read an escape sequence, the cursor being at its backslash. -/
def readEscape (c : Cursor) : Option (Char × Cursor) := do
  let kind ← c.peekAt? 1
  match escapedChar? kind with
  | some x => return (x, c.skip 2)
  | none =>
    let width ← escapeWidth? kind
    let digits := (c.rest.drop 2).take width
    if digits.length < width then none
    return (← Text.charOfCode? (← Text.number? 16 digits), c.skip (2 + width))

/-- Read the word in front of the next gap or the closing quote. The flag tells that the word ends
in an escaped line break, which joins the lines. -/
def readQuotedWord (single : Bool) :
    Nat → List Char → Cursor → Option (List Char × Bool × Cursor)
  | 0, word, c => some (word.reverse, false, c)
  | fuel + 1, word, c =>
    if c.gapAt 0 then some (word.reverse, false, c)
    else if single then
      if c.next '\'' then
        if c.peekAt? 1 == some '\'' then readQuotedWord single fuel ('\'' :: word) (c.skip 2)
        else some (word.reverse, false, c)
      else readQuotedWord single fuel (c.rest.headD ' ' :: word) (c.skip)
    else if c.next '"' then some (word.reverse, false, c)
    else if c.next '\\' then
      if c.aheadIs 1 isBreak then some (word.reverse, true, (c.skip).skipBreak)
      else
        match readEscape c with
        | none => none
        | some (x, c) => readQuotedWord single fuel (x :: word) c
    else readQuotedWord single fuel (c.rest.headD ' ' :: word) (c.skip)

/-- Read words and gaps up to the closing quote. -/
def readQuotedWords (single : Bool) : Nat → List Char → Cursor → Option (List Char × Cursor)
  | 0, _, _ => none
  | fuel + 1, text, c => do
    if c.atDocumentMarker || c.atEnd then none
    let (word, joined, c) ← readQuotedWord single (c.rest.length + 1) [] c
    let text := text ++ word
    if c.next (if single then '\'' else '"') then return (text, c.skip)
    let (gap, c) ← Gap.read 0 (c.rest.length + 1) { broken := joined } c
    readQuotedWords single fuel (text ++ gap.text) c

/-- Read a quoted scalar, the cursor being at its opening quote. -/
def readQuoted (single : Bool) (c : Cursor) : Option (String × Cursor) := do
  let (text, c) ← readQuotedWords single (c.rest.length + 1) [] (c.skip)
  return (String.ofList text, c)

/-! ## Plain scalars -/

/-- Read a word of a plain scalar. Inside flow collections a colon directly in front of a flow
indicator or a question mark is malformed. -/
def readPlainWord (flow : Bool) : Nat → List Char → Cursor → Option (List Char × Cursor)
  | 0, word, c => some (word.reverse, c)
  | fuel + 1, word, c =>
    match c.peek? with
    | none => some (word.reverse, c)
    | some x =>
      if isBlank x || isBreak x then some (word.reverse, c)
      else if flow && x == ':' && c.aheadIs 1 (fun y => isFlowIndicator y || y == '?') then none
      else if x == ':' && c.gapAt 1 || flow && isFlowIndicator x then some (word.reverse, c)
      else readPlainWord flow fuel (x :: word) (c.skip)

/-- Read words and gaps of a plain scalar; the flag tells that it ends behind a line break. A
continuation line of block content has to start at column `indent` or behind it. -/
def readPlainWords (flow : Bool) (indent : Int) :
    Nat → List Char → Gap → Cursor → Option (List Char × Bool × Cursor)
  | 0, text, gap, c => some (text, gap.broken, c)
  | fuel + 1, text, gap, c => do
    if c.atDocumentMarker || c.next '#' then return (text, gap.broken, c)
    let (word, c) ← readPlainWord flow (c.rest.length + 1) [] c
    let (text, gap) := if word.isEmpty then (text, gap) else (text ++ gap.text ++ word, {})
    if !(c.aheadIs 0 fun x => isBlank x || isBreak x) then return (text, gap.broken, c)
    let (gap, c) ← Gap.read indent (c.rest.length + 1) gap c
    if !flow && (c.column : Int) < indent then return (text, gap.broken, c)
    readPlainWords flow indent fuel text gap c

/-- Read a plain scalar; the flag tells that it ends behind a line break. -/
def readPlain (flow : Bool) (indent : Int) (c : Cursor) : Option (String × Bool × Cursor) := do
  let (text, broken, c) ← readPlainWords flow indent (c.rest.length + 1) [] {} c
  return (String.ofList text, broken, c)

/-! ## Block scalars -/

/-- What happens to the line breaks at the end of a block scalar. -/
inductive Chomping
  | strip
  | clip
  | keep

/-- Read the chomping mark. -/
def readChomping (c : Cursor) : Option Chomping × Cursor :=
  if c.next '+' then (some .keep, c.skip)
  else if c.next '-' then (some .strip, c.skip)
  else (none, c)

/-- Read the indentation digit; zero is malformed. -/
def readIndentDigit (c : Cursor) : Option (Option Nat × Cursor) :=
  match c.peek? with
  | some x =>
    if x == '0' then none
    else if x.isDigit then some (some (x.toNat - '0'.toNat), c.skip)
    else some (none, c)
  | none => some (none, c)

/-- Read the header of a block scalar: both marks in either order, then the rest of the line. -/
def readBlockHeader (c : Cursor) : Option (Chomping × Option Nat × Cursor) := do
  let (chomping, c) := readChomping (c.skip)
  let (digit, c) ← readIndentDigit c
  let (chomping, c) :=
    if chomping.isNone && digit.isSome then readChomping c else (chomping, c)
  let c := c.skipRemark
  if !c.atLineEnd then none
  return (chomping.getD .clip, digit, c.skipBreak)

/-- Read blank lines and the indentation of the next content line. The indentation is unknown
(`none`) until the first content line shows it; `widest` is the widest one met so far. -/
def readBlockBreaks (indent : Option Nat) :
    Nat → Nat → List Char → Cursor → Option (Nat × List Char × Cursor)
  | 0, widest, breaks, c => some (widest, breaks, c)
  | fuel + 1, widest, breaks, c =>
    let spaces := (c.rest.takeWhile (· == ' ')).length
    let c := c.skip (match indent with
      | none => spaces
      | some i => min spaces (i - c.column))
    let widest := max widest c.column
    if indent.all (c.column < ·) && c.next '\t' then none
    else
      match c.readBreak? with
      | none => some (widest, breaks, c)
      | some (b, c) => readBlockBreaks indent fuel widest (breaks ++ [b]) c

/-- Lines of a block scalar that were read, with the breaks behind them still open. -/
structure BlockLines where
  text : List Char := []
  /-- The break behind the last content line. -/
  last : List Char := []
  /-- Breaks of the blank lines behind it. -/
  blank : List Char := []
  /-- The last content line starts with a blank. -/
  indented : Bool := false

/-- Read content lines that start at column `indent`. -/
def readBlockLines (literal : Bool) (indent : Nat) :
    Nat → BlockLines → Cursor → Option (BlockLines × Cursor)
  | 0, b, c => some (b, c)
  | fuel + 1, b, c => do
    if c.column != indent || c.atEnd then return (b, c)
    let indented := c.aheadIs 0 isBlank
    let joint :=
      if !literal && b.last.head? == some '\n' && !b.indented && !indented then
        if b.blank.isEmpty then [' '] else b.blank
      else b.last ++ b.blank
    let (line, c) := c.span fun x => !isBreak x
    let (last, c) := match c.readBreak? with
      | some (x, c) => ([x], c)
      | none => ([], c)
    let (_, blank, c) ← readBlockBreaks (some indent) (c.rest.length + 1) 0 [] c
    readBlockLines literal indent fuel { text := b.text ++ joint ++ line, last, blank, indented } c

/-- Read a block scalar, the cursor being at its indicator; `parent` is the indentation of the
block around it. -/
def readBlock (literal : Bool) (parent : Int) (c : Cursor) : Option (String × Cursor) := do
  let (chomping, digit, c) ← readBlockHeader c
  let given := digit.map fun d => if 0 ≤ parent then parent.toNat + d else d
  let (widest, blank, c) ← readBlockBreaks given (c.rest.length + 1) 0 [] c
  let indent := given.getD (max (max widest (parent + 1).toNat) 1)
  let (b, c) ← readBlockLines literal indent (c.rest.length + 1) { blank } c
  let tail := match chomping with
    | .strip => []
    | .clip => b.last
    | .keep => b.last ++ b.blank
  return (String.ofList (b.text ++ tail), c)

end PackageDepot.Yaml
