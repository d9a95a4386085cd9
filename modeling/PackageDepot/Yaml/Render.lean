import PackageDepot.Yaml.Value
import PackageDepot.Yaml.Cursor

/-!
# Writing YAML

`Value.render` writes a value as a document in block style: two blanks for each level, sequences not
indented under their key, `[]` and `{}` for empty collections. A string is written plain where it
reads back as itself, as a literal block if it holds a line feed, in single quotes otherwise, and in
double quotes where those cannot hold it. Every node ends its last line.
-/

namespace PackageDepot.Yaml

/-! ## Text of scalars -/

/-- Characters that are written as they are. -/
def isPrintable (c : Char) : Bool :=
  c == '\n' || (' ' ≤ c && c ≤ '~') || ('\u00a0' ≤ c && c ≤ '\ufffd' && c != '\ufeff') ||
  0x10000 ≤ c.toNat

/-- What decides how a text can be written. -/
structure TextTraits where
  /-- It would be taken for an indicator or a comment. -/
  indicator : Bool
  /-- It holds a line break. -/
  multiline : Bool
  /-- It starts or ends with a blank or a line break. -/
  ragged : Bool
  /-- It ends with a space. -/
  trailingSpace : Bool
  /-- A space stands behind a line break. -/
  spaceAfterBreak : Bool
  /-- A space stands in front of a line break, or a character cannot be printed. -/
  special : Bool

namespace TextTraits

/-- A character at the start of a text that is an indicator. -/
def startsIndicator (text : List Char) : Bool :=
  match text with
  | c :: rest =>
    "#,[]\x7b\x7d&*!|>'\"%@\x60".toList.contains c ||
    (c == '?' || c == ':' || c == '-') && rest.head?.all (fun d => isBlank d || isBreak d)
  | [] => false

/-- A character behind another one that is an indicator: a colon in front of a gap, or a number sign
behind one. -/
def innerIndicator : List Char → Bool
  | c :: d :: rest =>
    d == ':' && rest.head?.all (fun e => isBlank e || isBreak e) ||
    d == '#' && (isBlank c || isBreak c) || innerIndicator (d :: rest)
  | _ => false

/-- Two classes hold of neighbouring characters. -/
def neighbours (p q : Char → Bool) : List Char → Bool
  | c :: d :: rest => p c && q d || neighbours p q (d :: rest)
  | _ => false

/-- The traits of a text. -/
def of (text : List Char) : TextTraits where
  indicator := startsIndicator text || innerIndicator text ||
    text.take 3 == ['-', '-', '-'] || text.take 3 == ['.', '.', '.']
  multiline := text.any isBreak
  ragged := (text.head?.any fun c => c == ' ' || isBreak c) ||
    text.getLast?.any fun c => c == ' ' || isBreak c
  trailingSpace := text.getLast? == some ' '
  spaceAfterBreak := neighbours isBreak (· == ' ') text
  special := neighbours (· == ' ') isBreak text || !text.all isPrintable

/-- The text may be written plain. -/
def allowsPlain (t : TextTraits) : Bool :=
  !t.indicator && !t.multiline && !t.ragged && !t.spaceAfterBreak && !t.special

/-- The text may be written in single quotes. -/
def allowsSingle (t : TextTraits) : Bool := !t.spaceAfterBreak && !t.special

/-- The text may be written as a block. -/
def allowsBlock (t : TextTraits) : Bool := !t.trailingSpace && !t.special

end TextTraits

/-- Hexadecimal digits of a number, in capitals, at least `width` of them. -/
def hexDigits (width n : Nat) : String :=
  let digits := (Nat.toDigits 16 n).map Char.toUpper
  "".pushn '0' (width - digits.length) ++ String.ofList digits

/-- A character inside double quotes. -/
def escapeChar (c : Char) : String :=
  match c with
  | '\x00' => "\\0"
  | '\x07' => "\\a"
  | '\x08' => "\\b"
  | '\t' => "\\t"
  | '\n' => "\\n"
  | '\x0b' => "\\v"
  | '\x0c' => "\\f"
  | '\r' => "\\r"
  | '\x1b' => "\\e"
  | '"' => "\\\""
  | '\\' => "\\\\"
  | '\u0085' => "\\N"
  | '\u2028' => "\\L"
  | '\u2029' => "\\P"
  | c =>
    if isPrintable c then c.toString
    else if c.toNat ≤ 0xff then "\\x" ++ hexDigits 2 c.toNat
    else if c.toNat ≤ 0xffff then "\\u" ++ hexDigits 4 c.toNat
    else "\\U" ++ hexDigits 8 c.toNat

/-- A text in double quotes. -/
def doubleQuoted (text : List Char) : String :=
  "\"" ++ String.join (text.map escapeChar) ++ "\""

/-- A text in single quotes; a line of it starts at column `indent`. -/
def singleQuoted (indent : Nat) (text : List Char) : String :=
  "'" ++ go false text
where
  /-- The rest of the text and the closing quote; `fresh` tells that a line starts here. -/
  go (fresh : Bool) : List Char → String
    | [] => (if fresh then "".pushn ' ' indent else "") ++ "'"
    | c :: rest =>
      if isBreak c then c.toString ++ go true rest
      else
        (if fresh && c != ' ' then "".pushn ' ' indent else "") ++
        (if c == '\'' then "''" else c.toString) ++ go (fresh && c == ' ') rest

/-- The header of a literal block: an indentation mark if the text starts with a blank or a line
break, and a chomping mark that says how it ends. -/
def literalHeader (text : List Char) : String :=
  let indentation := if text.head?.any fun c => c == ' ' || isBreak c then "2" else ""
  let chomping := match text.reverse with
    | [] => "-"
    | c :: rest => if !isBreak c then "-" else if rest.head?.all isBreak then "+" else ""
  "|" ++ indentation ++ chomping

/-- A text as a literal block whose lines start at column `indent`. -/
def literal (indent : Nat) (text : List Char) : String :=
  literalHeader text ++ "\n" ++ go true text
where
  /-- The lines of the text; the last one is ended. -/
  go (fresh : Bool) : List Char → String
    | [] => if fresh then "" else "\n"
    | c :: rest =>
      if isBreak c then c.toString ++ go true rest
      else (if fresh then "".pushn ' ' indent else "") ++ c.toString ++ go false rest

/-- How a text is written. -/
inductive ScalarStyle
  | plain
  | single
  | double
  | literal
  deriving DecidableEq

/-- The style of a string. -/
def styleOf (s : String) : ScalarStyle :=
  let t := TextTraits.of s.toList
  if s.toList.contains '\n' then if t.allowsBlock then .literal else .double
  else
    let quoted := Plain.resolve s != .text || Plain.isZeroPadded s || !t.allowsPlain
    if !quoted then .plain else if t.allowsSingle then .single else .double

/-- The line of a string, or its literal block, with the line ended. -/
def renderText (style : ScalarStyle) (indent : Nat) (s : String) : String :=
  match style with
  | .plain => s ++ "\n"
  | .single => singleQuoted indent s.toList ++ "\n"
  | .double => doubleQuoted s.toList ++ "\n"
  | .literal => literal indent s.toList

/-- The text of a number. -/
def floatText (x : Binary64) : String :=
  if x.isNaN then ".nan"
  else if x.isFinite then x.text
  else if x.isNegative then "-.inf" else ".inf"

/-! ## Tags -/

/-- Characters of a tag that are written as they are. -/
def isPlainTagChar (c : Char) : Bool :=
  isWord c || ";/?:@&=+$,.~*'()[]".toList.contains c

/-- A tag name with the octets of other characters percent-encoded. -/
def encodeTag (name : String) : String :=
  String.join (name.toList.map fun c =>
    if isPlainTagChar c then c.toString
    else String.join (c.toString.toUTF8.toList.map fun b => "%" ++ hexDigits 2 b.toNat))

/-- A tag in front of a node. A lone exclamation mark has to be written in full. -/
def renderTag (name : String) : String :=
  let full := if name.startsWith "!" then name else "!" ++ name
  if full == "!" then "!<%21>" else "!" ++ encodeTag (full.drop 1).toString

/-! ## Nodes -/

/-- Where a node is written. -/
structure Place where
  /-- Indentation of the collection around it; none at the root. -/
  indent : Option Nat := none
  /-- A blank is due in front of it. -/
  spaced : Bool := false
  /-- A collection has to start on a line of its own. -/
  ownLine : Bool := false
  /-- It is a key or a value of a mapping. -/
  inMapping : Bool := false

namespace Place

/-- Indentation of a collection or the lines of a scalar in this place. -/
def inner (p : Place) : Nat := (p.indent.map (· + 2)).getD 0

/-- Indentation of the lines of a scalar. -/
def scalarIndent (p : Place) : Nat := (p.indent.map (· + 2)).getD 2

/-- Indentation of a sequence: none of its own where it starts on a line of its own in a mapping. -/
def seqIndent (p : Place) : Nat :=
  if p.inMapping && p.ownLine then p.indent.getD 0 else p.inner

/-- A blank if one is due. -/
def space (p : Place) : String := if p.spaced then " " else ""

/-- What stands in front of the first line of a collection indented by `indent`. -/
def lead (p : Place) (indent : Nat) : String :=
  if p.ownLine then "\n".pushn ' ' indent else p.space

end Place

/-- Octets of a scalar key, its tag included. -/
def keySize (tag : Option String) (text : String) : Nat :=
  (tag.map fun t => (if t.startsWith "!" then t else "!" ++ t).utf8ByteSize).getD 0 +
  text.utf8ByteSize

/-- A key that can stand in front of its colon: a scalar of one line and at most 128 octets, or an
empty collection. Gives its text. -/
def simpleKey? (tag : Option String) : Value → Option String
  | .null => scalar "null" "null"
  | .bool b => scalar (toString b) (toString b)
  | .int i => scalar (toString i) (toString i)
  | .float x => scalar (floatText x) (floatText x)
  | .str s =>
    if (TextTraits.of s.toList).multiline then none
    else scalar s ((renderText (styleOf s) 0 s).dropEnd 1).toString
  | .seq [] => scalar "" "[]"
  | .map [] => scalar "" "\x7b\x7d"
  | .tagged t v => if tag.isSome then none else simpleKey? (some t) v
  | _ => none
where
  /-- A key with its tag, unless it is too long. -/
  scalar (text written : String) : Option String :=
    if 128 < keySize tag text then none
    else some ((tag.map fun t => renderTag t ++ " ").getD "" ++ written)

mutual

/-- Write a node with its line ended. -/
def renderNode (p : Place) : Value → String
  | .null => p.space ++ "null\n"
  | .bool b => p.space ++ toString b ++ "\n"
  | .int i => p.space ++ toString i ++ "\n"
  | .float x => p.space ++ floatText x ++ "\n"
  | .str s => p.space ++ renderText (styleOf s) p.scalarIndent s
  | .seq [] => p.space ++ "[]\n"
  | .seq items => p.lead p.seqIndent ++ renderItems p.seqIndent true items
  | .map [] => p.space ++ "\x7b\x7d\n"
  | .map entries => p.lead p.inner ++ renderEntries p.inner true entries
  | .tagged t v => p.space ++ renderTag t ++ renderNode { p with spaced := true, ownLine := true } v

/-- Write the items of a sequence. -/
def renderItems (indent : Nat) (first : Bool) : List Value → String
  | [] => ""
  | v :: rest =>
    (if first then "" else "".pushn ' ' indent) ++ "-" ++
    renderNode { indent := some indent, spaced := true } v ++ renderItems indent false rest

/-- Write the entries of a mapping. -/
def renderEntries (indent : Nat) (first : Bool) : List (Value × Value) → String
  | [] => ""
  | (k, v) :: rest =>
    let margin := "".pushn ' ' indent
    let p : Place := { indent := some indent, spaced := true, inMapping := true }
    (if first then "" else margin) ++
    (match simpleKey? none k with
      | some key => key ++ ":" ++ renderNode { p with ownLine := true } v
      | none => "?" ++ renderNode p k ++ margin ++ ":" ++ renderNode p v) ++
    renderEntries indent false rest

end

/-- Write a value as a document. -/
def Value.render (v : Value) : String := renderNode {} v

end PackageDepot.Yaml
