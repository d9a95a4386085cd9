import PackageDepot.Yaml.ScalarText

/-!
# Tokens of a YAML text

`Token.ofString` cuts a text into tokens. Indentation becomes `blockSequence`, `blockMapping` and
`blockEnd`; a mapping key needs no mark, so a `key` token is spliced in front of it once its colon is
met. A text that is malformed gives the tokens read before the fault: a list that does not end in
`streamEnd`. Tokens that might still turn out to be part of a key when the fault is met are not
among them.
-/

namespace PackageDepot.Yaml

/-- A piece of a YAML text. -/
inductive Token
  | version (major minor : Nat)
  | tagHandle (handle expansion : String)
  | documentStart
  | documentEnd
  | streamEnd
  | blockSequence
  | blockMapping
  | blockEnd
  | flowSequence
  | flowSequenceEnd
  | flowMapping
  | flowMappingEnd
  /-- The dash in front of an item. -/
  | item
  /-- The comma between entries. -/
  | comma
  | key
  | value
  | anchor (name : String)
  | alias (name : String)
  /-- A tag; the suffix is missing where its escapes encode no text. -/
  | tag (handle : String) (suffix : Option String)
  | scalar (text : String) (plain : Bool)
  deriving DecidableEq

/-! ## Tags, anchors and directives -/

/-- Characters of a tag that stand for themselves. -/
def isTagChar (verbatim : Bool) (c : Char) : Bool :=
  isWord c || ";/?:@&=+$.!~*'()".toList.contains c || verbatim && ",[]".toList.contains c

/-- Read one percent-encoded octet. -/
def readOctet (c : Cursor) : Option (Nat × Cursor) := do
  let digits := (c.rest.drop 1).take 2
  if !c.next '%' || digits.length < 2 then none
  return (← Text.number? 16 digits, c.skip 3)

/-- Number of octets and payload of a leading octet. -/
def leadingOctet? (n : Nat) : Option (Nat × Nat) :=
  if n < 0x80 then some (1, n)
  else if n / 0x20 == 0b110 then some (2, n % 0x20)
  else if n / 0x10 == 0b1110 then some (3, n % 0x10)
  else if n / 0x08 == 0b11110 then some (4, n % 0x08)
  else none

/-- Read continuation octets into a code point. -/
def readContinuation : Nat → Nat → Cursor → Option (Nat × Cursor)
  | 0, code, c => some (code, c)
  | n + 1, code, c => do
    let (octet, c) ← readOctet c
    if octet / 0x40 != 0b10 then none
    readContinuation n (code * 0x40 + octet % 0x40) c

/-- Read a percent-encoded character. The character is missing where the octets are not its
shortest encoding or encode no character. -/
def readEncodedChar (c : Cursor) : Option (Option Char × Cursor) := do
  let (octet, c) ← readOctet c
  let (width, payload) ← leadingOctet? octet
  let (code, c) ← readContinuation (width - 1) payload c
  return ((Text.charOfCode? code).filter (·.utf8Size == width), c)

/-- Read tag characters into `text`. -/
def readTagChars (verbatim : Bool) : Nat → List (Option Char) → Cursor →
    Option (List (Option Char) × Cursor)
  | 0, text, c => some (text.reverse, c)
  | fuel + 1, text, c => do
    match c.peek? with
    | none => return (text.reverse, c)
    | some x =>
      if x == '%' then
        let (y, c) ← readEncodedChar c
        readTagChars verbatim fuel (y :: text) c
      else if isTagChar verbatim x then
        readTagChars verbatim fuel (some x :: text) (c.skip)
      else return (text.reverse, c)

/-- Read a non-empty run of tag characters. -/
def readTagText (verbatim : Bool) (c : Cursor) : Option (Option String × Cursor) := do
  let (text, c) ← readTagChars verbatim (c.rest.length + 1) [] c
  if text.isEmpty then none
  return ((text.mapM id).map String.ofList, c)

/-- Read a tag handle: an exclamation mark, a word, and a second exclamation mark if there is one. -/
def readHandle (c : Cursor) : Option (String × Cursor) := do
  if !c.next '!' then none
  let (word, c) := (c.skip).span isWord
  if c.next '!' then return (String.ofList ('!' :: word ++ ['!']), c.skip)
  return (String.ofList ('!' :: word), c)

/-- A handle names a namespace: it has a second exclamation mark. -/
def isNamedHandle (handle : String) : Bool := 1 < handle.length && handle.endsWith "!"

/-- Read a tag between angle brackets, the cursor being behind the opening one. -/
def readVerbatimTag (c : Cursor) : Option (Token × Cursor) := do
  let (suffix, c) ← readTagText true c
  if !c.next '>' then none
  return (.tag "" suffix, c.skip)

/-- Read a tag with a handle. A lone exclamation mark is a tag of its own. -/
def readShortTag (c : Cursor) : Option (Token × Cursor) := do
  let (handle, c) ← readHandle c
  if isNamedHandle handle then
    let (suffix, c) ← readTagText false c
    return (.tag handle suffix, c)
  let (more, c) ← readTagChars false (c.rest.length + 1) [] c
  let suffix := (more.mapM id).map fun more => String.ofList (handle.toList.tail ++ more)
  if suffix == some "" then return (.tag "" (some "!"), c)
  return (.tag "!" suffix, c)

/-- Read the tag of a node. -/
def readTag (flow : Bool) (c : Cursor) : Option (Token × Cursor) := do
  let (token, c) ←
    if c.peekAt? 1 == some '<' then readVerbatimTag (c.skip 2) else readShortTag c
  if !c.gapAt 0 && !(flow && c.next ',') then none
  return (token, c)

/-- Read the name of an anchor or an alias, the cursor being at its indicator. -/
def readAnchorName (c : Cursor) : Option (String × Cursor) := do
  let (name, c) := (c.skip).span isWord
  if name.isEmpty then none
  if !c.gapAt 0 && !(c.aheadIs 0 fun x => "?:,]\x7d%@\x60".toList.contains x) then none
  return (String.ofList name, c)

/-- Read a number of at most nine digits. -/
def readVersionNumber (c : Cursor) : Option (Nat × Cursor) := do
  let (digits, c) := c.span Char.isDigit
  if digits.isEmpty || 9 < digits.length then none
  return (← Text.number? 10 digits, c)

/-- Read the value of a version directive. -/
def readVersion (c : Cursor) : Option (Token × Cursor) := do
  let (major, c) ← readVersionNumber (c.skipWhile isBlank)
  if !c.next '.' then none
  let (minor, c) ← readVersionNumber (c.skip)
  return (.version major minor, c)

/-- Read the value of a tag directive. -/
def readTagHandle (c : Cursor) : Option (Token × Cursor) := do
  let (handle, c) ← readHandle (c.skipWhile isBlank)
  if !handle.endsWith "!" || !c.aheadIs 0 isBlank then none
  let (expansion, c) ← readTagText true (c.skipWhile isBlank)
  if !c.gapAt 0 then none
  return (.tagHandle handle (expansion.getD ""), c)

/-- Read a directive, the cursor being at its percent sign. -/
def readDirective (c : Cursor) : Option (Token × Cursor) := do
  let (name, c) := (c.skip).span isWord
  if name.isEmpty || !c.gapAt 0 then none
  let (token, c) ←
    if name == "YAML".toList then readVersion c
    else if name == "TAG".toList then readTagHandle c
    else none
  let c := c.skipRemark
  if !c.atLineEnd then none
  return (token, c.skipBreak)

/-! ## The scanner -/

/-- A place where a mapping key without a mark may start. -/
structure KeyCandidate where
  /-- Number of tokens in front of it. -/
  position : Nat
  /-- Only a key can stand here. -/
  required : Bool
  index : Nat
  line : Nat
  column : Nat

/-- The scanner's state. -/
structure Scanner where
  cursor : Cursor
  tokens : Array Token := #[]
  /-- Indentation of the innermost block, `-1` outside all blocks. -/
  indent : Int := -1
  /-- Indentations of the blocks around it. -/
  outer : List Int := []
  /-- A key without a mark may start here. -/
  keyAllowed : Bool := true
  /-- The last key candidate of every open flow collection, innermost first, and of the block
  around them. -/
  candidates : List (Option KeyCandidate) := [none]
  finished : Bool := false

namespace Scanner

/-- Inside a flow collection. -/
def inFlow (s : Scanner) : Bool := 1 < s.candidates.length

/-- Add a token. -/
def push (s : Scanner) (t : Token) : Scanner := { s with tokens := s.tokens.push t }

/-- Put a token in front of the token at `position`. -/
def splice (s : Scanner) (position : Nat) (t : Token) : Scanner :=
  { s with tokens := s.tokens.extract 0 position ++ #[t] ++ s.tokens.extract position s.tokens.size }

/-- Step over `n` characters and add a token for them. -/
def take (s : Scanner) (n : Nat) (t : Token) : Scanner :=
  { s.push t with cursor := s.cursor.skip n }

/-- Step over blanks, comments and line breaks. Tabs count as blanks unless a key may start here. -/
def toNextToken : Nat → Scanner → Scanner
  | 0, s => s
  | fuel + 1, s =>
    let c := s.cursor
    let c := if c.column == 0 && c.next '\ufeff' then c.skip else c
    let c := c.skipWhile fun x => x == ' ' || (s.inFlow || !s.keyAllowed) && x == '\t'
    let c := if c.next '#' then c.skipWhile fun x => !isBreak x else c
    match c.readBreak? with
    | none => { s with cursor := c }
    | some (_, c) => toNextToken fuel { s with cursor := c, keyAllowed := s.keyAllowed || !s.inFlow }

/-- Forget key candidates of earlier lines and those too far back; a key is at most 1024 characters
long. -/
def expireCandidates (s : Scanner) : Option Scanner := do
  let candidates ← s.candidates.mapM fun
    | none => some none
    | some k =>
      if k.line < s.cursor.line || k.index + 1024 < s.cursor.index then
        if k.required then none else some none
      else some (some k)
  return { s with candidates }

/-- Forget the innermost key candidate. -/
def dropCandidate (s : Scanner) : Option Scanner :=
  match s.candidates with
  | some k :: rest => if k.required then none else some { s with candidates := none :: rest }
  | _ => some s

/-- Remember that a key may start here, if it may. -/
def saveCandidate (s : Scanner) : Option Scanner := do
  if !s.keyAllowed then return s
  let s ← s.dropCandidate
  let k : KeyCandidate := {
    position := s.tokens.size, required := !s.inFlow && s.indent == s.cursor.column,
    index := s.cursor.index, line := s.cursor.line, column := s.cursor.column }
  return { s with candidates := some k :: s.candidates.tail }

/-- Open a block at a column behind the current indentation. -/
def openBlock (s : Scanner) (column : Nat) (position : Nat) (t : Token) : Scanner :=
  if !s.inFlow && s.indent < column then
    { s.splice position t with indent := column, outer := s.indent :: s.outer }
  else s

/-- Close the blocks of the list `outer` that a token at `column` ends. -/
def closeBlocksFrom (column : Int) : List Int → Scanner → Scanner
  | [], s => s
  | i :: rest, s =>
    if column < s.indent then
      closeBlocksFrom column rest { s.push .blockEnd with indent := i, outer := rest }
    else s

/-- Close the blocks that a token at `column` ends. -/
def closeBlocks (s : Scanner) (column : Int) : Scanner :=
  if s.inFlow then s else closeBlocksFrom column s.outer s

/-- A line-wide token: it closes all blocks and no key may follow. -/
def scanMarker (s : Scanner) : Option Scanner := do
  let s ← (s.closeBlocks (-1)).dropCandidate
  return { s with keyAllowed := false }

/-- A node that may be a key starts here; read it with `read`. -/
def scanNode (s : Scanner) (read : Cursor → Option (Token × Cursor)) : Option Scanner := do
  let s ← s.saveCandidate
  let (token, cursor) ← read s.cursor
  return { s.push token with cursor, keyAllowed := false }

/-- Open a flow collection. -/
def scanFlowStart (s : Scanner) (t : Token) : Option Scanner := do
  let s ← s.saveCandidate
  return { s.take 1 t with candidates := none :: s.candidates, keyAllowed := true }

/-- Close a flow collection. -/
def scanFlowEnd (s : Scanner) (t : Token) : Option Scanner := do
  let s ← s.dropCandidate
  return { s.take 1 t with
    candidates := if s.inFlow then s.candidates.tail else s.candidates, keyAllowed := false }

/-- A mark that opens a block where it stands; it is malformed where no key may start. -/
def scanMark (s : Scanner) (block mark : Token) (keyFollows : Bool) : Option Scanner := do
  if !s.inFlow && !s.keyAllowed then none
  let s ← (s.openBlock s.cursor.column s.tokens.size block).dropCandidate
  return { s.take 1 mark with keyAllowed := keyFollows }

/-- The colon behind a key. -/
def scanValue (s : Scanner) : Option Scanner :=
  match s.candidates with
  | some k :: rest =>
    let s := (s.splice k.position .key).openBlock k.column k.position .blockMapping
    some { s.take 1 .value with candidates := none :: rest, keyAllowed := false }
  | _ =>
    if !s.inFlow && !s.keyAllowed then none
    else
      let s := s.openBlock s.cursor.column s.tokens.size .blockMapping
      some { s.take 1 .value with keyAllowed := !s.inFlow }

/-- A block scalar. -/
def scanBlockScalar (s : Scanner) (literal : Bool) : Option Scanner := do
  let s ← s.dropCandidate
  let (text, cursor) ← readBlock literal s.indent s.cursor
  return { s.push (.scalar text false) with cursor, keyAllowed := true }

/-- A plain scalar. A line break behind it allows a key. -/
def scanPlain (s : Scanner) : Option Scanner := do
  let s ← s.saveCandidate
  let (text, broken, cursor) ← readPlain s.inFlow (s.indent + 1) s.cursor
  return { s.push (.scalar text true) with cursor, keyAllowed := broken }

/-- A plain scalar may start here. -/
def startsPlain (s : Scanner) (x : Char) : Bool :=
  let c := s.cursor
  !(c.gapAt 0 || "-?:,[]\x7b\x7d#&*!|>'\"%@\x60".toList.contains x) ||
  x == '-' && !c.aheadIs 1 isBlank ||
  !s.inFlow && (x == '?' || x == ':') && !c.gapAt 1

/-- Read the token whose first character is `x`. -/
def scanToken (s : Scanner) (x : Char) : Option Scanner := do
  let c := s.cursor
  let gapped := s.inFlow || c.gapAt 1
  if c.column == 0 && x == '%' then
    let s ← s.scanMarker
    let (token, cursor) ← readDirective c
    return { s.push token with cursor }
  else if c.atMarker '-' then return (← s.scanMarker).take 3 .documentStart
  else if c.atMarker '.' then return (← s.scanMarker).take 3 .documentEnd
  else if x == '[' then s.scanFlowStart .flowSequence
  else if x == '\x7b' then s.scanFlowStart .flowMapping
  else if x == ']' then s.scanFlowEnd .flowSequenceEnd
  else if x == '\x7d' then s.scanFlowEnd .flowMappingEnd
  else if x == ',' then
    let s ← s.dropCandidate
    return { s.take 1 .comma with keyAllowed := true }
  else if x == '-' && c.gapAt 1 then s.scanMark .blockSequence .item true
  else if x == '?' && gapped then s.scanMark .blockMapping .key (!s.inFlow)
  else if x == ':' && gapped then s.scanValue
  else if x == '*' then
    s.scanNode fun c => (readAnchorName c).map fun (name, c) => (.alias name, c)
  else if x == '&' then
    s.scanNode fun c => (readAnchorName c).map fun (name, c) => (.anchor name, c)
  else if x == '!' then s.scanNode (readTag s.inFlow)
  else if x == '|' && !s.inFlow then s.scanBlockScalar true
  else if x == '>' && !s.inFlow then s.scanBlockScalar false
  else if x == '\'' || x == '"' then
    s.scanNode fun c => (readQuoted (x == '\'') c).map fun (text, c) => (.scalar text false, c)
  else if s.startsPlain x then s.scanPlain
  else none

/-- Read the next token. -/
def step (s : Scanner) : Option Scanner := do
  let s ← (s.toNextToken (s.cursor.rest.length + 1)).expireCandidates
  let s := s.closeBlocks s.cursor.column
  match s.cursor.peek? with
  | none =>
    let s ← s.scanMarker
    return { s.push .streamEnd with finished := true }
  | some x => s.scanToken x

/-- The tokens that cannot become part of a key any more. -/
def settled (s : Scanner) : List Token :=
  let stop := s.candidates.foldl (fun n k => (k.map (·.position)).elim n (min n)) s.tokens.size
  s.tokens.toList.take stop

/-- Read tokens to the end of the text or to a fault. -/
def run : Nat → Scanner → List Token
  | 0, s => s.settled
  | fuel + 1, s =>
    match s.step with
    | none => s.settled
    | some t => if t.finished then t.tokens.toList else run fuel t

end Scanner

/-- The tokens of a text, or those in front of its first fault. A character that YAML does not allow
anywhere makes the whole text unreadable. -/
def Token.ofString (text : String) : List Token :=
  if text.toList.all isAllowed then
    Scanner.run (text.length + 2) { cursor := .ofString text }
  else []

end PackageDepot.Yaml
