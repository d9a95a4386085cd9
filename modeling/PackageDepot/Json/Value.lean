import PackageDepot.Decimal.Binary64

/-!
# JSON values and their text

`Json.compact` writes a value on one line and `Json.pretty` on several, two blanks for each level.
-/

namespace PackageDepot

/-- A JSON value; objects keep the order of their entries. -/
inductive Json
  | null
  | bool (b : Bool)
  | int (i : Int)
  | float (x : Binary64)
  | str (s : String)
  | arr (items : List Json)
  | obj (entries : List (String × Json))
  deriving Inhabited

namespace Json

/-- A character inside a JSON string. -/
def escapeChar (c : Char) : String :=
  match c with
  | '"' => "\\\""
  | '\\' => "\\\\"
  | '\n' => "\\n"
  | '\r' => "\\r"
  | '\t' => "\\t"
  | '\x08' => "\\b"
  | '\x0c' => "\\f"
  | c =>
    if c.toNat < 0x20 then
      let digits := Nat.toDigits 16 c.toNat
      "\\u" ++ "".pushn '0' (4 - digits.length) ++ String.ofList digits
    else c.toString

/-- A string in quotes. -/
def quote (s : String) : String := "\"" ++ String.join (s.toList.map escapeChar) ++ "\""

/-- The text of a value that holds no others; infinite numbers and NaN are null. -/
def atomText : Json → String
  | .null => "null"
  | .bool b => toString b
  | .int i => toString i
  | .float x => if x.isFinite then x.text else "null"
  | .str s => quote s
  | .arr _ => "[]"
  | .obj _ => "\x7b\x7d"

mutual

/-- Write a value on one line. -/
def compact : Json → String
  | .arr items => "[" ++ ",".intercalate (compactItems items) ++ "]"
  | .obj entries => "\x7b" ++ ",".intercalate (compactEntries entries) ++ "\x7d"
  | v => atomText v

/-- Write the items of an array. -/
def compactItems : List Json → List String
  | [] => []
  | v :: rest => compact v :: compactItems rest

/-- Write the entries of an object. -/
def compactEntries : List (String × Json) → List String
  | [] => []
  | (k, v) :: rest => (quote k ++ ":" ++ compact v) :: compactEntries rest

end

/-- Brackets around lines, each indented by one level more than `level`. -/
def bracket (level : Nat) (opening closing : String) (lines : List String) : String :=
  let margin (n : Nat) := "".pushn ' ' (2 * n)
  opening ++ "\n" ++ ",\n".intercalate (lines.map (margin (level + 1) ++ ·)) ++ "\n" ++
    margin level ++ closing

mutual

/-- Write a value on several lines, at a level of nesting. -/
def prettyAt (level : Nat) : Json → String
  | .arr (v :: rest) => bracket level "[" "]" (prettyItems (level + 1) (v :: rest))
  | .obj (e :: rest) => bracket level "\x7b" "\x7d" (prettyEntries (level + 1) (e :: rest))
  | v => atomText v

/-- Write the items of an array. -/
def prettyItems (level : Nat) : List Json → List String
  | [] => []
  | v :: rest => prettyAt level v :: prettyItems level rest

/-- Write the entries of an object. -/
def prettyEntries (level : Nat) : List (String × Json) → List String
  | [] => []
  | (k, v) :: rest => (quote k ++ ": " ++ prettyAt level v) :: prettyEntries level rest

end

/-- Write a value on several lines. -/
def pretty (v : Json) : String := prettyAt 0 v

mutual

/-- Sort the entries of every object by key; of equal keys the last one stays. -/
def sorted : Json → Json
  | .arr items => .arr (sortedItems items)
  | .obj entries => .obj (sortedEntries entries)
  | v => v

/-- Sort inside the items of an array. -/
def sortedItems : List Json → List Json
  | [] => []
  | v :: rest => sorted v :: sortedItems rest

/-- Sort the entries of an object. -/
def sortedEntries : List (String × Json) → List (String × Json)
  | [] => []
  | (k, v) :: rest =>
    let v := sorted v
    let rest := sortedEntries rest
    if rest.any (·.1 == k) then rest
    else rest.takeWhile (·.1 < k) ++ (k, v) :: rest.dropWhile (·.1 < k)

end

theorem sortedItems_eq (vs : List Json) : sortedItems vs = vs.map sorted := by
  induction vs with
  | nil => rfl
  | cons v rest ih => rw [sortedItems, ih, List.map_cons]

/-- Sorting brings the entries into another order, if their keys are distinct. -/
theorem sortedEntries_perm {es : List (String × Json)} (distinct : (es.map Prod.fst).Nodup) :
    (sortedEntries es).Perm (es.map fun e => (e.1, e.2.sorted)) := by
  induction es with
  | nil => exact .nil
  | cons e rest ih =>
    obtain ⟨new, distinct⟩ := List.nodup_cons.1 distinct
    have ih := ih distinct
    have absent : ¬(sortedEntries rest).any (·.1 == e.1) := by
      intro h
      obtain ⟨d, hd, same⟩ := List.any_eq_true.1 h
      obtain ⟨c, hc, rfl⟩ := List.mem_map.1 (ih.mem_iff.1 hd)
      exact new (List.mem_map.2 ⟨c, hc, eq_of_beq same⟩)
    rw [sortedEntries, if_neg absent, List.map_cons]
    refine List.perm_middle.trans (.cons _ ?_)
    rwa [List.takeWhile_append_dropWhile]

/-- The value under a key; of equal keys the last one counts. -/
def get? (v : Json) (key : String) : Option Json :=
  match v with
  | .obj entries => entries.reverse.lookup key
  | _ => none

/-- The text of a string. -/
def text? : Json → Option String
  | .str s => some s
  | _ => none

/-- The items of an array. -/
def items? : Json → Option (List Json)
  | .arr items => some items
  | _ => none

/-- The entries of an object. -/
def entries? : Json → Option (List (String × Json))
  | .obj entries => some entries
  | _ => none

/-- The number of a non-negative integer. -/
def nat? : Json → Option Nat
  | .int i => if 0 ≤ i then some i.toNat else none
  | _ => none

/-- The truth value. -/
def bool? : Json → Option Bool
  | .bool b => some b
  | _ => none

end Json

end PackageDepot
