import PackageDepot.Json.Value
import PackageDepot.Text.Digits

/-!
# JSON texts as they are read

`Json.Node.ofString` reads a text into a tree. Where the text is malformed the tree ends in `broken`,
so that a reader can use what stands in front of the fault. What is well-formed but has no value, such
as half of a surrogate pair or a number beyond all bounds, is `unreadable`: a fault only where it is
read. Readers recurse on fuel; every round consumes a character.
-/

namespace PackageDepot.Json

/-- A JSON text as it is read. -/
inductive Node
  | null
  | bool (b : Bool)
  | int (i : Int)
  | float (x : Binary64)
  | str (s : String)
  | arr (items : List Node)
  /-- An object; a key without a text is unreadable. -/
  | obj (entries : List (Option String × Node))
  | unreadable
  | broken
  deriving Inhabited

/-- Leave out white space. -/
def skipSpace (cs : List Char) : List Char :=
  cs.dropWhile fun c => c == ' ' || c == '\n' || c == '\t' || c == '\r'

/-! ## Strings -/

/-- Four hexadecimal digits at the start of a text. -/
def readHex4 : List Char → Option (Nat × List Char)
  | a :: b :: c :: d :: rest => do return (← Text.number? 16 [a, b, c, d], rest)
  | _ => none

/-- The character that a one-letter escape stands for. -/
def escapedChar? : Char → Option Char
  | '"' => some '"'
  | '\\' => some '\\'
  | '/' => some '/'
  | 'b' => some '\x08'
  | 'f' => some '\x0c'
  | 'n' => some '\n'
  | 'r' => some '\r'
  | 't' => some '\t'
  | _ => none

/-- A code unit behind its mark, with the second half of a surrogate pair. The character is missing
where a half stands alone. -/
def readUnit (cs : List Char) : Option (Option Char × List Char) := do
  let (n, rest) ← readHex4 cs
  if 0xd800 ≤ n ∧ n < 0xdc00 then
    match rest with
    | '\\' :: 'u' :: more =>
      let (m, more) ← readHex4 more
      if 0xdc00 ≤ m ∧ m < 0xe000 then
        return (some (Char.ofNat (0x10000 + (n - 0xd800) * 0x400 + (m - 0xdc00))), more)
      return (none, rest)
    | _ => return (none, rest)
  if 0xdc00 ≤ n ∧ n < 0xe000 then return (none, rest)
  return (some (Char.ofNat n), rest)

/-- Read a string behind its opening quote. The text is missing where it is unreadable. -/
def readString : Nat → Option (List Char) → List Char → Option (Option String × List Char)
  | 0, _, _ => none
  | fuel + 1, text, cs =>
    match cs with
    | [] => none
    | '"' :: rest => some (text.map fun t => String.ofList t.reverse, rest)
    | '\\' :: 'u' :: rest =>
      match readUnit rest with
      | none => none
      | some (c, rest) => readString fuel (do return (← c) :: (← text)) rest
    | '\\' :: kind :: rest =>
      match escapedChar? kind with
      | none => none
      | some c => readString fuel (text.map (c :: ·)) rest
    | c :: rest => if c.toNat < 0x20 then none else readString fuel (text.map (c :: ·)) rest

/-! ## Numbers -/

/-- Digits of a number as they are written. -/
structure NumberText where
  negative : Bool
  whole : List Char
  places : List Char
  exponent : Option Int

/-- Digits at the start of a text; none are malformed. -/
def readDigits (cs : List Char) : Option (List Char × List Char) :=
  let digits := cs.takeWhile Char.isDigit
  if digits.isEmpty then none else some (digits, cs.dropWhile Char.isDigit)

/-- Read the exponent of a number, if there is one. -/
def readExponent (cs : List Char) : Option (Option Int × List Char) :=
  match cs with
  | c :: rest =>
    if c != 'e' && c != 'E' then some (none, cs)
    else
      match rest with
      | '-' :: r => (readDigits r).map fun (ds, r) => (some (-(Decimal.digitsValue ds : Int)), r)
      | '+' :: r => (readDigits r).map fun (ds, r) => (some (Decimal.digitsValue ds : Int), r)
      | r => (readDigits r).map fun (ds, r) => (some (Decimal.digitsValue ds : Int), r)
  | [] => some (none, cs)

/-- Read a number. A zero has no further digit in front of the point. -/
def readNumber (cs : List Char) : Option (NumberText × List Char) := do
  let (negative, cs) := match cs with
    | '-' :: r => (true, r)
    | r => (false, r)
  let (whole, cs) ← readDigits cs
  if whole.head? == some '0' && 1 < whole.length then none
  let (places, cs) ← match cs with
    | '.' :: r => readDigits r
    | r => some ([], r)
  let (exponent, cs) ← readExponent cs
  return (⟨negative, whole, places, exponent⟩, cs)

/-- The part of a list of digits that fits 64 bits, and the number of digits left over. -/
def significand (start : Nat) : List Char → Nat × Nat
  | [] => (start, 0)
  | d :: rest =>
    let n := start * 10 + (d.toNat - '0'.toNat)
    if n < Nat.pow 2 64 then significand n rest else (start, rest.length + 1)

/-- `m * 10 ^ e` by one rounding of `m`, one of each power and one of each step; beyond all bounds
there is no number. -/
def scale : Nat → Float → Int → Option Float
  | 0, x, _ => some x
  | fuel + 1, x, e =>
    if e.natAbs ≤ 308 then
      let power := Float.ofScientific 1 false e.natAbs
      if 0 ≤ e then
        let y := x * power
        if y.isInf then none else some y
      else some (x / power)
    else if x == 0.0 then some x
    else if 0 ≤ e then none
    else scale fuel (x / Float.ofScientific 1 false 308) (e + 308)

/-- The value of a number. Integers are whole numbers of 64 bits; other numbers round. -/
def numberNode (t : NumberText) : Node :=
  let (m, dropped) := significand 0 t.whole
  if t.places.isEmpty && t.exponent.isNone && dropped == 0 then
    if !t.negative then .int m
    else if m == 0 || Nat.pow 2 63 < m then .float (.ofFloat (-(m.toUInt64.toFloat)))
    else .int (-(m : Int))
  else
    let (m, kept) :=
      if dropped == 0 then
        let (m, left) := significand m t.places
        (m, t.places.length - left)
      else (m, 0)
    let e : Int := dropped - kept + t.exponent.getD 0
    match scale (e.natAbs / 308 + 2) m.toUInt64.toFloat (max (-100000) (min e 100000)) with
    | some x => .float (.ofFloat (if t.negative then -x else x))
    | none => .unreadable

/-! ## Values -/

/-- Greatest number of levels that may be nested. -/
def maxDepth : Nat := 127

/-- A node at a depth; one that is too deep is unreadable, but faults in it still count. -/
def atDepth (depth : Nat) (n : Node) : Node := if depth ≤ maxDepth then n else .unreadable

mutual

/-- Read a value. The rest is missing where the text is malformed. -/
def readValue : Nat → Nat → List Char → Node × Option (List Char)
  | 0, _, _ => (.broken, none)
  | fuel + 1, depth, cs =>
    match skipSpace cs with
    | 'n' :: 'u' :: 'l' :: 'l' :: rest => (.null, some rest)
    | 't' :: 'r' :: 'u' :: 'e' :: rest => (.bool true, some rest)
    | 'f' :: 'a' :: 'l' :: 's' :: 'e' :: rest => (.bool false, some rest)
    | '"' :: rest =>
      match readString (rest.length + 1) (some []) rest with
      | some (some s, rest) => (.str s, some rest)
      | some (none, rest) => (.unreadable, some rest)
      | none => (.broken, none)
    | '[' :: rest =>
      let (items, rest) := readItems fuel (depth + 1) true rest
      match rest with
      | some rest => (atDepth (depth + 1) (.arr items), some rest)
      | none => (.arr items, none)
    | '\x7b' :: rest =>
      let (entries, rest) := readEntries fuel (depth + 1) true rest
      match rest with
      | some rest => (atDepth (depth + 1) (.obj entries), some rest)
      | none => (.obj entries, none)
    | c :: rest =>
      if c == '-' || c.isDigit then
        match readNumber (c :: rest) with
        | some (t, rest) => (numberNode t, some rest)
        | none => (.broken, none)
      else (.broken, none)
    | [] => (.broken, none)

/-- Read the items of an array and its end. -/
def readItems : Nat → Nat → Bool → List Char → List Node × Option (List Char)
  | 0, _, _, _ => ([.broken], none)
  | fuel + 1, depth, first, cs =>
    match skipSpace cs with
    | ']' :: rest => ([], some rest)
    | c :: rest =>
      if !first && c != ',' then ([.broken], none)
      else
        match readValue fuel depth (if first then c :: rest else rest) with
        | (v, none) => ([v], none)
        | (v, some rest) => let (vs, rest) := readItems fuel depth false rest; (v :: vs, rest)
    | [] => ([.broken], none)

/-- Read the entries of an object and its end. -/
def readEntries : Nat → Nat → Bool → List Char →
    List (Option String × Node) × Option (List Char)
  | 0, _, _, _ => ([(none, .broken)], none)
  | fuel + 1, depth, first, cs =>
    match skipSpace cs with
    | '\x7d' :: rest => ([], some rest)
    | c :: rest =>
      if !first && c != ',' then ([(none, .broken)], none)
      else
        match if first then c :: rest else skipSpace rest with
        | '"' :: rest =>
          match readString (rest.length + 1) (some []) rest with
          | none => ([(none, .broken)], none)
          | some (key, rest) =>
            match skipSpace rest with
            | ':' :: rest =>
              match readValue fuel depth rest with
              | (v, none) => ([(key, v)], none)
              | (v, some rest) =>
                let (es, rest) := readEntries fuel depth false rest
                ((key, v) :: es, rest)
            | _ => ([(key, .broken)], none)
        | _ => ([(none, .broken)], none)
    | [] => ([(none, .broken)], none)

end

namespace Node

/-- The tree of a text, and whether the text ends behind it. -/
def ofString (text : String) : Node × Bool :=
  match readValue (text.length + 2) 0 text.toList with
  | (v, some rest) => (v, (skipSpace rest).isEmpty)
  | (v, none) => (v, false)

mutual

/-- The text of a node is well-formed. -/
def intact : Node → Bool
  | .broken => false
  | .arr items => intactItems items
  | .obj entries => intactEntries entries
  | _ => true

/-- All items are well-formed. -/
def intactItems : List Node → Bool
  | [] => true
  | v :: rest => intact v && intactItems rest

/-- All entries are well-formed. -/
def intactEntries : List (Option String × Node) → Bool
  | [] => true
  | (_, v) :: rest => intact v && intactEntries rest

end

mutual

/-- The value of a node. -/
def value? : Node → Option Json
  | .null => some .null
  | .bool b => some (.bool b)
  | .int i => some (.int i)
  | .float x => some (.float x)
  | .str s => some (.str s)
  | .arr items => (itemValues? items).map .arr
  | .obj entries => (entryValues? entries).map .obj
  | .unreadable | .broken => none

/-- The values of a list of nodes. -/
def itemValues? : List Node → Option (List Json)
  | [] => some []
  | v :: rest => do return (← value? v) :: (← itemValues? rest)

/-- The values of a list of entries. -/
def entryValues? : List (Option String × Node) → Option (List (String × Json))
  | [] => some []
  | (k, v) :: rest => do
    let k ← k
    let v ← value? v
    return (k, v) :: (← entryValues? rest)

end

mutual

/-- A value as a node. -/
def ofValue : Json → Node
  | .null => .null
  | .bool b => .bool b
  | .int i => .int i
  | .float x => .float x
  | .str s => .str s
  | .arr items => .arr (ofItems items)
  | .obj entries => .obj (ofEntries entries)

/-- Values as nodes. -/
def ofItems : List Json → List Node
  | [] => []
  | v :: rest => ofValue v :: ofItems rest

/-- Entries as nodes. -/
def ofEntries : List (String × Json) → List (Option String × Node)
  | [] => []
  | (k, v) :: rest => (some k, ofValue v) :: ofEntries rest

end

theorem ofItems_eq (vs : List Json) : ofItems vs = vs.map ofValue := by
  induction vs with
  | nil => rfl
  | cons v rest ih => rw [ofItems, ih, List.map_cons]

theorem ofEntries_eq (es : List (String × Json)) :
    ofEntries es = es.map fun e => (some e.1, ofValue e.2) := by
  induction es with
  | nil => rfl
  | cons e rest ih => rw [ofEntries, ih, List.map_cons]

end Node

/-- Read a text that holds one value. -/
def ofString? (text : String) : Option Json :=
  match Node.ofString text with
  | (v, true) => v.value?
  | _ => none

end PackageDepot.Json
