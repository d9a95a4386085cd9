import PackageDepot.Yaml.Tree
import PackageDepot.Yaml.Value

/-!
# Documents as they are read

`Node.ofDocument` replaces every alias by what its anchor names, and `Node.value?` gives the value of
a node. Nesting is limited to 128 levels, and the aliases of a document to a hundred for each of its
nodes and ends; a node beyond a limit is `endless`, which is a fault only where it is read.
-/

namespace PackageDepot.Yaml

/-- A node without aliases. -/
inductive Node
  | scalar (s : Scalar)
  | seq (tag : Option String) (items : List Node)
  | map (tag : Option String) (entries : List (Node × Node))
  /-- The text is malformed from here on. -/
  | broken
  /-- Aliases lead too deep or are too many. -/
  | endless

namespace Tree

mutual

/-- The anchored nodes of a tree, outer ones first. -/
def anchored : Tree → List (Nat × Tree)
  | .alias _ | .broken => []
  | t@(.scalar anchor _) => (anchor.map (·, t)).toList
  | t@(.seq anchor _ items) => (anchor.map (·, t)).toList ++ anchoredItems items
  | t@(.map anchor _ entries) => (anchor.map (·, t)).toList ++ anchoredEntries entries

/-- The anchored nodes of a list of items. -/
def anchoredItems : List Tree → List (Nat × Tree)
  | [] => []
  | t :: rest => anchored t ++ anchoredItems rest

/-- The anchored nodes of a list of entries. -/
def anchoredEntries : List (Tree × Tree) → List (Nat × Tree)
  | [] => []
  | (k, v) :: rest => anchored k ++ anchored v ++ anchoredEntries rest

end

mutual

/-- Number of nodes, counting collections twice, once for their ends. -/
def extent : Tree → Nat
  | .alias _ | .scalar .. => 1
  | .seq _ _ items => extentItems items + 2
  | .map _ _ entries => extentEntries entries + 2
  | .broken => 0

/-- Extent of a list of items. -/
def extentItems : List Tree → Nat
  | [] => 0
  | t :: rest => extent t + extentItems rest

/-- Extent of a list of entries. -/
def extentEntries : List (Tree × Tree) → Nat
  | [] => 0
  | (k, v) :: rest => extent k + extent v + extentEntries rest

end

end Tree

namespace Node

/-- Apply a function that spends from a budget to every element of a list. -/
def mapBudget {α β : Type} (f : α → Nat → β × Nat) : List α → Nat → List β × Nat
  | [], b => ([], b)
  | a :: rest, b =>
    let (x, b) := f a b
    let (xs, b) := mapBudget f rest b
    (x :: xs, b)

/-- Follow an alias, at the cost of one, and read what is there with `read`. -/
def follow (anchors : List (Nat × Tree)) (read : Tree → Nat → Node × Nat) :
    Tree → Nat → Node × Nat
  | .alias id, b =>
    match b, anchors.lookup id with
    | b + 1, some t => read t b
    | b, _ => (.endless, b)
  | t, b => read t b

/-- The node of a tree, at most `depth` levels deep, following at most as many aliases as the budget
allows. -/
def expand (anchors : List (Nat × Tree)) : Nat → Tree → Nat → Node × Nat
  | _, .scalar _ s, b => (.scalar s, b)
  | _, .broken, b => (.broken, b)
  | _, .alias _, b => (.endless, b)
  | 0, _, b => (.endless, b)
  | depth + 1, .seq _ tag items, b =>
    let (items, b) := mapBudget (follow anchors (expand anchors depth)) items b
    (.seq tag items, b)
  | depth + 1, .map _ tag entries, b =>
    let visit := follow anchors (expand anchors depth)
    let (entries, b) := mapBudget (fun (e : Tree × Tree) b =>
      let (k, b) := visit e.1 b
      let (v, b) := visit e.2 b
      ((k, v), b)) entries b
    (.map tag entries, b)

/-- Number of levels that may be nested. -/
def maxDepth : Nat := 128

/-- The root node of a document. An anchor number that several nodes have means the last of them. -/
def ofDocument (d : Document) : Node :=
  let anchors := (d.root.anchored).reverse
  (expand anchors maxDepth d.root (100 * d.root.extent)).1

/-! ## Values -/

/-- The name of a local tag: what stands behind its exclamation mark, or the mark if it is alone. -/
def tagName? (tag : Option String) : Option String :=
  match tag.map (·.toList) with
  | some ['!'] => some "!"
  | some ('!' :: name) => some (String.ofList name)
  | _ => none

/-- The value of a plain scalar. -/
def plainValue? (text : String) : Option Value :=
  match Plain.resolve text with
  | .null => some .null
  | .bool b => some (.bool b)
  | .int i => some (.int i)
  | .float x => some (.float x)
  | .text => some (.str text)
  | .wide => none

/-- The value of a scalar with a tag of the standard schema. -/
def schemaValue? (kind text : String) : Option Value :=
  if kind == "bool" then (Plain.bool? text).map .bool
  else if kind == "int" then
    match (Plain.int? text).bind Plain.ofInt with
    | some (.int i) => some (.int i)
    | _ => none
  else if kind == "float" then (Plain.float? text).map .float
  else if kind == "null" then if Plain.isNull text then some .null else none
  else some (.str text)

/-- The kind that a tag of the standard schema names. -/
def schemaKind? (tag : String) : Option String :=
  if tag.startsWith "tag:yaml.org,2002:" then some (tag.drop 18).toString else none

/-- Put a local tag in front of a value. A second exclamation mark is not part of its name. -/
def withTag (tag : Option String) (v : Value) : Value :=
  match tagName? tag with
  | some name =>
    .tagged (if name.startsWith "!" && name != "!" then (name.drop 1).toString else name) v
  | none => v

/-- The value of a scalar. -/
def scalarValue? (s : Scalar) : Option Value :=
  match s.tag with
  | none => content s
  | some tag =>
    if tag.startsWith "!" then (content s).map (withTag tag)
    else schemaValue? ((schemaKind? tag).getD "") s.text
where
  /-- The value without the tag. -/
  content (s : Scalar) : Option Value := if s.plain then plainValue? s.text else some (.str s.text)

mutual

/-- What a node says, where a mapping may still hold a key twice. -/
def contents? : Node → Option Value
  | .scalar s => scalarValue? s
  | .seq tag items => (itemContents? items).map fun vs => withTag tag (.seq vs)
  | .map tag entries => (entryContents? entries).map fun es => withTag tag (.map es)
  | .broken | .endless => none

/-- What a list of nodes says. -/
def itemContents? : List Node → Option (List Value)
  | [] => some []
  | n :: rest => do return (← contents? n) :: (← itemContents? rest)

/-- What a list of entries says. -/
def entryContents? : List (Node × Node) → Option (List (Value × Value))
  | [] => some []
  | (k, v) :: rest => do
    let k ← contents? k
    let v ← contents? v
    return (k, v) :: (← entryContents? rest)

end

/-- The value of a node. Two equal keys in one mapping are a fault. -/
def value? (n : Node) : Option Value := (contents? n).filter Value.wellKeyed

mutual

/-- The node was read without a fault in the text. -/
def intact : Node → Bool
  | .scalar _ | .endless => true
  | .seq _ items => intactItems items
  | .map _ entries => intactEntries entries
  | .broken => false

/-- All items were read without a fault. -/
def intactItems : List Node → Bool
  | [] => true
  | n :: rest => intact n && intactItems rest

/-- All entries were read without a fault. -/
def intactEntries : List (Node × Node) → Bool
  | [] => true
  | (k, v) :: rest => intact k && intact v && intactEntries rest

end

end Node

/-- The values of all documents of a text, or nothing if one of them is malformed. -/
def Value.readAll? (text : String) : Option (List Value) :=
  (Document.all text).mapM fun d =>
    if d.intact then (Node.ofDocument d).value? else none

end PackageDepot.Yaml
