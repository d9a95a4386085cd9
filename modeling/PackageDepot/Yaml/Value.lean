import PackageDepot.Yaml.Plain

/-!
# YAML values

A `Value` is what a YAML document says, without anchors, styles and comments. Mappings keep the order
of their entries; `Value.same` is equality as a mapping key, where the order of entries does not
count.
-/

namespace PackageDepot.Yaml

/-- A YAML value. -/
inductive Value
  | null
  | bool (b : Bool)
  | int (i : Int)
  | float (x : Binary64)
  | str (s : String)
  | seq (items : List Value)
  | map (entries : List (Value × Value))
  | tagged (tag : String) (v : Value)
  deriving Inhabited

namespace Value

/-- Mappings are told apart by what stands under their keys, not by the order of entries. -/
def same : Value → Value → Bool
  | .null, .null => true
  | .bool a, .bool b => a == b
  | .int a, .int b => a == b
  | .float a, .float b => a.sameKey b
  | .str a, .str b => a == b
  | .seq a, .seq b => sameItems a b
  | .map a, .map b => a.length == b.length && sameEntries a b
  | .tagged s a, .tagged t b => s == t && same a b
  | _, _ => false
where
  /-- Item by item. -/
  sameItems : List Value → List Value → Bool
    | [], [] => true
    | a :: as, b :: bs => same a b && sameItems as bs
    | _, _ => false
  /-- Every entry of the first list is in the second one. -/
  sameEntries : List (Value × Value) → List (Value × Value) → Bool
    | [], _ => true
    | (k, v) :: rest, entries =>
      entries.any (fun e => same k e.1 && same v e.2) && sameEntries rest entries

/-- The value under a text key of a list of entries. -/
def field? (entries : List (Value × Value)) (name : String) : Option Value :=
  (entries.find? fun e => match e.1 with | .str s => s == name | _ => false).map (·.2)

/-- Put a value under a text key: in place if the key is there, at the end otherwise. -/
def setField (name : String) (v : Value) : List (Value × Value) → List (Value × Value)
  | [] => [(.str name, v)]
  | (k, w) :: rest =>
    match k with
    | .str s => if s == name then (k, v) :: rest else (k, w) :: setField name v rest
    | _ => (k, w) :: setField name v rest

/-- A tag does not hide what it stands in front of. -/
def untagged : Value → Value
  | .tagged _ v => untagged v
  | v => v

/-- The text of a string, also behind a tag. -/
def text? (v : Value) : Option String :=
  match v.untagged with
  | .str s => some s
  | _ => none

/-- The value under a text key of a mapping, also behind a tag. -/
def get? (v : Value) (name : String) : Option Value :=
  match v.untagged with
  | .map entries => field? entries name
  | _ => none

/-- Nothing is there, also behind a tag. -/
def isNull (v : Value) : Bool :=
  match v.untagged with
  | .null => true
  | _ => false

mutual

/-- No mapping in a value has two equal keys. -/
def wellKeyed : Value → Bool
  | .seq items => wellKeyedItems items
  | .map entries => wellKeyedEntries [] entries
  | .tagged _ v => wellKeyed v
  | _ => true

/-- No mapping in a list of values has two equal keys. -/
def wellKeyedItems : List Value → Bool
  | [] => true
  | v :: rest => wellKeyed v && wellKeyedItems rest

/-- No mapping in a list of entries has two equal keys, and no key of the list is in `seen` or
stands there twice. -/
def wellKeyedEntries (seen : List Value) : List (Value × Value) → Bool
  | [] => true
  | (k, v) :: rest =>
    wellKeyed k && wellKeyed v && !seen.any (fun s => s.same k) && wellKeyedEntries (k :: seen) rest

end

end Value

end PackageDepot.Yaml
