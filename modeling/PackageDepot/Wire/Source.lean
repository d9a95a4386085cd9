import PackageDepot.Wire.Fault
import PackageDepot.Yaml.Node
import PackageDepot.Json.Node

/-!
# What a reader of records asks of a document

A `Source` is a kind of document node that texts, lists and records can be read from. The kinds are
YAML nodes, YAML values and JSON nodes. They differ in what passes for a text (in a YAML document any
scalar, elsewhere strings alone), for an empty record (in a YAML document also an empty plain scalar, and
null as a YAML value), and in whether the fields of a record may be given by position (in JSON only).
-/

namespace PackageDepot.Wire

/-- The fields of a record as they are written. -/
inductive Fields (ν : Type)
  /-- Names with values; a name may have a fault. -/
  | named (entries : List (Except Fault String × ν))
  /-- Values alone, in the order of the record's declaration. -/
  | listed (values : List ν)

/-- Document nodes of one kind. -/
class Source (ν : Type) where
  /-- The text of a node. -/
  text : ν → Except Fault String
  /-- Whether an optional value is given. -/
  given : ν → Except Fault Bool
  /-- The items of a list. -/
  items : ν → Except Fault (List ν)
  /-- The fields of a record. -/
  fields : ν → Except Fault (Fields ν)
  /-- The name of one of several alternatives, and whether nothing stands beside it. -/
  variant : ν → Except Fault (String × Except Fault Unit)
  /-- Pass over a value that is not wanted. -/
  skip : ν → Except Fault Unit
  /-- The value of a node, where a mapping may still hold a key twice. -/
  contents : ν → Except Fault Yaml.Value

/-- A condition that is part of the form of a document. -/
def require (b : Bool) : Except Fault Unit := if b then .ok () else .error .malformed

/-- A value that is missing where the form of a document asks for it. -/
def need {α : Type} (a : Option α) : Except Fault α :=
  match a with
  | some a => .ok a
  | none => .error .malformed

end PackageDepot.Wire

/-! ## YAML -/

namespace PackageDepot.Yaml

open PackageDepot.Wire (Fault Fields Source)

namespace Value

mutual

/-- No part of a value carries a tag. -/
def untaggedThroughout : Value → Bool
  | .tagged .. => false
  | .seq items => untaggedItems items
  | .map entries => untaggedEntries entries
  | _ => true

/-- No part of a list of values carries a tag. -/
def untaggedItems : List Value → Bool
  | [] => true
  | v :: rest => untaggedThroughout v && untaggedItems rest

/-- No part of a list of entries carries a tag. -/
def untaggedEntries : List (Value × Value) → Bool
  | [] => true
  | (k, v) :: rest => untaggedThroughout k && untaggedThroughout v && untaggedEntries rest

end

/-- The items of a list, which is empty where there is null. -/
def items (v : Value) : Except Fault (List Value) :=
  match v.untagged with
  | .seq items => .ok items
  | .null => .ok []
  | _ => .error .malformed

/-- The fields of a record, which has none where there is null. -/
def fields (v : Value) : Except Fault (Fields Value) :=
  match v.untagged with
  | .map entries => .ok (.named (entries.map fun e => (Wire.need e.1.text?, e.2)))
  | .null => .ok (.named [])
  | _ => .error .malformed

/-- A tag names the alternative, and otherwise the text does. -/
def variant : Value → Except Fault (String × Except Fault Unit)
  | .str s => .ok (s, .ok ())
  | .tagged tag v => .ok (tag, Wire.require v.isNull)
  | _ => .error .malformed

instance : Source Value where
  text v := Wire.need v.text?
  given v := .ok (match v with | .null => false | _ => true)
  items := items
  fields := fields
  variant := variant
  skip _ := .ok ()
  contents v := Wire.need (if v.untaggedThroughout then some v else none)

end Value

namespace Node

/-- A scalar that stands where nothing is written. -/
def isBlank : Node → Bool
  | .scalar s => s.plain && s.text.isEmpty
  | _ => false

/-- The text of any scalar. -/
def text : Node → Except Fault String
  | .scalar s => .ok s.text
  | _ => .error .malformed

/-- A plain scalar that says null is not given. -/
def given : Node → Except Fault Bool
  | .scalar s =>
    if !s.plain then .ok true
    else
      match s.tag with
      | none => .ok (!(s.text.isEmpty || Plain.isNull s.text))
      | some tag =>
        if schemaKind? tag != some "null" then .ok true
        else if Plain.isNull s.text then .ok false
        else .error .malformed
  | .seq .. | .map .. => .ok true
  | .broken | .endless => .error .malformed

/-- The items of a list, which is empty where nothing is written. -/
def items : Node → Except Fault (List Node)
  | .seq _ items => .ok items
  | n => if n.isBlank then .ok [] else .error .malformed

/-- The fields of a record, which has none where nothing is written. -/
def fields : Node → Except Fault (Fields Node)
  | .map _ entries => .ok (.named (entries.map fun e => (e.1.text, e.2)))
  | n => if n.isBlank then .ok (.named []) else .error .malformed

/-- A local tag names the alternative, and otherwise the text does. -/
def variant : Node → Except Fault (String × Except Fault Unit)
  | .scalar s =>
    match tagName? s.tag with
    | some name => .ok (name, Wire.require (s.plain && (s.text.isEmpty || Plain.isNull s.text)))
    | none => .ok (s.text, .ok ())
  | .seq tag _ | .map tag _ =>
    match tagName? tag with
    | some name => .ok (name, .error .malformed)
    | none => .error .malformed
  | .broken | .endless => .error .malformed

/-- The value of a node without local tags. -/
def contents (n : Node) : Except Fault Value :=
  Wire.need (n.contents?.filter Value.untaggedThroughout)

instance : Source Node where
  text := text
  given := given
  items := items
  fields := fields
  variant := variant
  skip n := Wire.require n.intact
  contents := contents

end Node

end PackageDepot.Yaml

/-! ## JSON -/

namespace PackageDepot.Json

open PackageDepot.Wire (Fault Fields Source)

mutual

/-- A JSON value is a YAML value. -/
def toYaml : Json → Yaml.Value
  | .null => .null
  | .bool b => .bool b
  | .int i => .int i
  | .float x => .float x
  | .str s => .str s
  | .arr items => .seq (itemsToYaml items)
  | .obj entries => .map (entriesToYaml entries)

/-- The items of an array as YAML values. -/
def itemsToYaml : List Json → List Yaml.Value
  | [] => []
  | v :: rest => toYaml v :: itemsToYaml rest

/-- The entries of an object as YAML values. -/
def entriesToYaml : List (String × Json) → List (Yaml.Value × Yaml.Value)
  | [] => []
  | (k, v) :: rest => (.str k, toYaml v) :: entriesToYaml rest

end

namespace Node

/-- The text of a string. -/
def text : Node → Except Fault String
  | .str s => .ok s
  | _ => .error .malformed

/-- Null is not given. -/
def given : Node → Except Fault Bool
  | .null => .ok false
  | _ => .ok true

/-- The items of an array. -/
def items : Node → Except Fault (List Node)
  | .arr items => .ok items
  | _ => .error .malformed

/-- The fields of a record: an object, or an array of the values. -/
def fields : Node → Except Fault (Fields Node)
  | .obj entries => .ok (.named (entries.map fun e => (Wire.need e.1, e.2)))
  | .arr items => .ok (.listed items)
  | _ => .error .malformed

/-- The name of an alternative: a string, or the only key of an object that has null under it. -/
def variant : Node → Except Fault (String × Except Fault Unit)
  | .str s => .ok (s, .ok ())
  | .obj ((some name, v) :: rest) =>
    .ok (name, Wire.require (rest.isEmpty && match v with | .null => true | _ => false))
  | _ => .error .malformed

instance : Source Node where
  text := text
  given := given
  items := items
  fields := fields
  variant := variant
  skip n := Wire.require n.intact
  contents n := (Wire.need n.value?).map toYaml

end Node

end PackageDepot.Json
