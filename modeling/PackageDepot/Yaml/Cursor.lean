/-!
# Reading position in a YAML text

Character classes of YAML and a `Cursor`: the unread characters with the place they start at.
Columns and indices count characters; a carriage return followed by a line feed is one line break.
-/

namespace PackageDepot.Yaml

/-- Line breaks: line feed, carriage return, next line, line and paragraph separator. -/
def isBreak (c : Char) : Bool :=
  c == '\n' || c == '\r' || c == '\u0085' || c == '\u2028' || c == '\u2029'

/-- Blanks: space and tab. -/
def isBlank (c : Char) : Bool := c == ' ' || c == '\t'

/-- Characters of anchor names, tag handles and directive names. -/
def isWord (c : Char) : Bool := c.isAlphanum || c == '_' || c == '-'

/-- Characters that may stand in a YAML text at all. -/
def isAllowed (c : Char) : Bool :=
  c == '\t' || c == '\n' || c == '\r' || (' ' ≤ c && c ≤ '~') || c == '\u0085' ||
  ('\u00a0' ≤ c && c ≤ '\ufffd') || 0x10000 ≤ c.toNat

/-- Characters that have a meaning inside flow collections. -/
def isFlowIndicator (c : Char) : Bool :=
  c == ',' || c == '[' || c == ']' || c == '{' || c == '}'

/-- The unread characters and the place where they start. -/
structure Cursor where
  rest : List Char
  index : Nat := 0
  line : Nat := 0
  column : Nat := 0

namespace Cursor

/-- The start of a text. -/
def ofString (text : String) : Cursor := { rest := text.toList }

/-- The next character. -/
def peek? (c : Cursor) : Option Char := c.rest.head?

/-- The character `n` places ahead. -/
def peekAt? (c : Cursor) (n : Nat) : Option Char := c.rest[n]?

/-- The text is used up. -/
def atEnd (c : Cursor) : Bool := c.rest.isEmpty

/-- The next character is `x`. -/
def next (c : Cursor) (x : Char) : Bool := c.peek? == some x

/-- A class holds of the character `n` places ahead. -/
def aheadIs (c : Cursor) (n : Nat) (p : Char → Bool) : Bool := (c.peekAt? n).any p

/-- A blank, a line break or the end is `n` places ahead. -/
def gapAt (c : Cursor) (n : Nat) : Bool :=
  (c.peekAt? n).all fun x => isBlank x || isBreak x

/-- A line break or the end comes next. -/
def atLineEnd (c : Cursor) : Bool := c.peek?.all isBreak

/-- Step over `n` characters of the same line. -/
def skip (c : Cursor) (n : Nat := 1) : Cursor :=
  { c with rest := c.rest.drop n, index := c.index + n, column := c.column + n }

/-- The longest run of characters in a class, and the place behind it. -/
def span (c : Cursor) (p : Char → Bool) : List Char × Cursor :=
  let run := c.rest.takeWhile p
  (run, c.skip run.length)

/-- Step over the longest run of characters in a class. -/
def skipWhile (c : Cursor) (p : Char → Bool) : Cursor := (c.span p).2

/-- The start of the next line, behind a break of `width` characters. -/
def newLine (c : Cursor) (rest : List Char) (width : Nat) : Cursor :=
  { rest, index := c.index + width, line := c.line + 1, column := 0 }

/-- Step over a line break. A separator counts as itself, every other break as a line feed. -/
def readBreak? (c : Cursor) : Option (Char × Cursor) :=
  match c.rest with
  | '\r' :: '\n' :: rest => some ('\n', c.newLine rest 2)
  | x :: rest =>
    if x == '\u2028' || x == '\u2029' then some (x, c.newLine rest 1)
    else if isBreak x then some ('\n', c.newLine rest 1)
    else none
  | [] => none

/-- Step over a line break if one comes next. -/
def skipBreak (c : Cursor) : Cursor := (c.readBreak?.map (·.2)).getD c

/-- Step over blanks and a comment. -/
def skipRemark (c : Cursor) : Cursor :=
  let c := c.skipWhile isBlank
  if c.next '#' then c.skipWhile fun x => !isBreak x else c

/-- Three equal marks at the start of a line, with a gap behind them. -/
def atMarker (c : Cursor) (mark : Char) : Bool :=
  c.column == 0 && c.next mark && c.peekAt? 1 == some mark && c.peekAt? 2 == some mark &&
  c.gapAt 3

/-- The start or the end of a document is marked here. -/
def atDocumentMarker (c : Cursor) : Bool := c.atMarker '-' || c.atMarker '.'

end Cursor

end PackageDepot.Yaml
