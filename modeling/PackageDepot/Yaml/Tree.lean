import PackageDepot.Yaml.Token

/-!
# Documents as they are written

`Document.all` reads the tokens of a text into documents: trees whose aliases still name anchors.
Where the text is malformed the tree ends in `Tree.broken`, so that a reader can use what stands in
front of the fault. Nodes are read by recursive descent on fuel; a node takes one round more than its
tokens at most, so twice the number of tokens is enough.
-/

namespace PackageDepot.Yaml

/-- A scalar: its text, whether it is written without quotes, and its resolved tag. -/
structure Scalar where
  text : String
  plain : Bool
  tag : Option String := none
  deriving DecidableEq

/-- A node as it is written. Anchors and aliases carry the number of the anchor. -/
inductive Tree
  | alias (id : Nat)
  | scalar (anchor : Option Nat) (s : Scalar)
  | seq (anchor : Option Nat) (tag : Option String) (items : List Tree)
  | map (anchor : Option Nat) (tag : Option String) (entries : List (Tree × Tree))
  /-- The text is malformed from here on. -/
  | broken

/-- The node that stands where nothing is written. -/
def Tree.absent : Tree := .scalar none ⟨"", true, none⟩

/-- Unread tokens, and the anchors met so far with their numbers. A new anchor is numbered by how
many names there are before it, so a name that is used again may shift the numbers of later ones. -/
structure Rest where
  tokens : List Token
  anchors : List (String × Nat) := []

namespace Rest

/-- Leave out the first token. -/
def tail (r : Rest) : Rest := { r with tokens := r.tokens.tail }

/-- Give an anchor its number. -/
def define (r : Rest) (name : String) : Nat × Rest :=
  let id := r.anchors.length
  (id, { r with anchors := (name, id) :: r.anchors.filter (·.1 != name) })

/-- Give the anchor of a node its number, if it has one. -/
def define? (r : Rest) (name : Option String) : Option Nat × Rest :=
  match name with
  | none => (none, r)
  | some name => let (id, r) := r.define name; (some id, r)

end Rest

/-- Handles of tags and what they stand for. -/
abbrev TagHandles := List (String × String)

/-- Handles that every document knows. -/
def standardHandles : TagHandles := [("!", "!"), ("!!", "tag:yaml.org,2002:")]

/-- Anchor and tag in front of a node. -/
structure Properties where
  anchor : Option String := none
  tag : Option (String × Option String) := none

namespace Properties

/-- There is an anchor or a tag. -/
def present (p : Properties) : Bool := p.anchor.isSome || p.tag.isSome

/-- Read an anchor and a tag in either order. -/
def read (tokens : List Token) : Properties × List Token :=
  match tokens with
  | .anchor a :: .tag h s :: rest => (⟨some a, some (h, s)⟩, rest)
  | .tag h s :: .anchor a :: rest => (⟨some a, some (h, s)⟩, rest)
  | .anchor a :: rest => (⟨some a, none⟩, rest)
  | .tag h s :: rest => (⟨none, some (h, s)⟩, rest)
  | _ => ({}, tokens)

/-- The tag in full; an unknown handle is malformed. A tag that is no text is no tag. -/
def resolve (p : Properties) (handles : TagHandles) : Option (Option String) :=
  match p.tag with
  | none => some none
  | some (handle, suffix) =>
    if handle.isEmpty then some suffix
    else (handles.lookup handle).map fun expansion => suffix.map (expansion ++ ·)

end Properties

section Nodes

variable (handles : TagHandles)

/-- Tokens behind which a block node is left out. -/
def endsBlockNode : Token → Bool
  | .key | .value | .blockEnd => true
  | _ => false

/-- Tokens behind which an item of a sequence without indentation of its own is left out. -/
def endsItem : Token → Bool
  | .item | .key | .value | .blockEnd => true
  | _ => false

mutual

/-- Read a node. `block` allows block collections, `flat` a sequence without indentation of its
own. The rest is missing if the text is malformed. -/
def readNode : Nat → Bool → Bool → Rest → Tree × Option Rest
  | 0, _, _, _ => (.broken, none)
  | fuel + 1, block, flat, r =>
    match r.tokens with
    | .alias name :: _ =>
      match r.anchors.lookup name with
      | some id => (.alias id, some r.tail)
      | none => (.broken, none)
    | _ =>
      let (props, tokens) := Properties.read r.tokens
      match props.resolve handles with
      | none => (.broken, none)
      | some tag =>
        let (anchor, r) := Rest.define? { r with tokens } props.anchor
        match tokens with
        | .scalar text plain :: _ => (.scalar anchor ⟨text, plain, tag⟩, some r.tail)
        | .flowSequence :: _ =>
          let (items, r) := readFlowItems fuel true r.tail
          (.seq anchor tag items, r)
        | .flowMapping :: _ =>
          let (entries, r) := readFlowEntries fuel true r.tail
          (.map anchor tag entries, r)
        | t :: _ =>
          if flat && t == .item then
            let (items, r) := readFlatItems fuel r
            (.seq anchor tag items, r)
          else if block && t == .blockSequence then
            let (items, r) := readItems fuel r.tail
            (.seq anchor tag items, r)
          else if block && t == .blockMapping then
            let (entries, r) := readEntries fuel r.tail
            (.map anchor tag entries, r)
          else if props.present then (.scalar anchor ⟨"", true, tag⟩, some r)
          else (.broken, none)
        | [] => (.broken, none)

/-- Read a node that is left out where a token of the class `ends` follows. -/
def readNodeUnless : Nat → (Token → Bool) → Bool → Bool → Rest → Tree × Option Rest
  | 0, _, _, _, _ => (.broken, none)
  | fuel + 1, ends, block, flat, r =>
    match r.tokens with
    | [] => (.broken, none)
    | t :: _ => if ends t then (.absent, some r) else readNode fuel block flat r

/-- Read the items of a block sequence and its end. -/
def readItems : Nat → Rest → List Tree × Option Rest
  | 0, _ => ([.broken], none)
  | fuel + 1, r =>
    match r.tokens with
    | .item :: _ =>
      let ends := fun t => t == .item || t == .blockEnd
      match readNodeUnless fuel ends true false r.tail with
      | (node, none) => ([node], none)
      | (node, some r) => let (items, r) := readItems fuel r; (node :: items, r)
    | .blockEnd :: _ => ([], some r.tail)
    | _ => ([.broken], none)

/-- Read the items of a sequence without indentation of its own; any other token ends it. -/
def readFlatItems : Nat → Rest → List Tree × Option Rest
  | 0, _ => ([.broken], none)
  | fuel + 1, r =>
    match r.tokens with
    | .item :: _ =>
      match readNodeUnless fuel endsItem true false r.tail with
      | (node, none) => ([node], none)
      | (node, some r) => let (items, r) := readFlatItems fuel r; (node :: items, r)
    | [] => ([.broken], none)
    | _ => ([], some r)

/-- Read the entries of a block mapping and its end. -/
def readEntries : Nat → Rest → List (Tree × Tree) × Option Rest
  | 0, _ => ([(.broken, .broken)], none)
  | fuel + 1, r =>
    match r.tokens with
    | .key :: _ =>
      match readNodeUnless fuel endsBlockNode true true r.tail with
      | (key, none) => ([(key, .broken)], none)
      | (key, some r) =>
        let (value, r) : Tree × Option Rest := match r.tokens with
          | .value :: _ => readNodeUnless fuel endsBlockNode true true r.tail
          | [] => (.broken, none)
          | _ => (.absent, some r)
        match r with
        | none => ([(key, value)], none)
        | some r => let (entries, r) := readEntries fuel r; ((key, value) :: entries, r)
    | .blockEnd :: _ => ([], some r.tail)
    | _ => ([(.broken, .broken)], none)

/-- Read the items of a flow sequence and its end. -/
def readFlowItems : Nat → Bool → Rest → List Tree × Option Rest
  | 0, _, _ => ([.broken], none)
  | fuel + 1, first, r =>
    match r.tokens with
    | .flowSequenceEnd :: _ => ([], some r.tail)
    | t :: _ =>
      if !first && t != .comma then ([.broken], none)
      else
        let r := if first then r else r.tail
        match r.tokens with
        | .flowSequenceEnd :: _ => ([], some r.tail)
        | .key :: _ =>
          match readPair fuel r.tail with
          | (entry, none) => ([.map none none [entry]], none)
          | (entry, some r) =>
            let (items, r) := readFlowItems fuel false r
            (.map none none [entry] :: items, r)
        | _ =>
          match readNode fuel false false r with
          | (node, none) => ([node], none)
          | (node, some r) => let (items, r) := readFlowItems fuel false r; (node :: items, r)
    | [] => ([.broken], none)

/-- Read the single pair of a flow sequence, behind its key mark. A token that ends a missing key is
used up. -/
def readPair : Nat → Rest → (Tree × Tree) × Option Rest
  | 0, _ => ((.broken, .broken), none)
  | fuel + 1, r =>
    let (key, r) : Tree × Option Rest := match r.tokens with
      | .value :: _ | .comma :: _ | .flowSequenceEnd :: _ => (.absent, some r.tail)
      | _ => readNode fuel false false r
    match r with
    | none => ((key, .broken), none)
    | some r =>
      let (value, r) : Tree × Option Rest := match r.tokens with
        | .value :: _ =>
          readNodeUnless fuel (fun t => t == .comma || t == .flowSequenceEnd) false false r.tail
        | [] => (.broken, none)
        | _ => (.absent, some r)
      ((key, value), r)

/-- Read the entries of a flow mapping and its end. -/
def readFlowEntries : Nat → Bool → Rest → List (Tree × Tree) × Option Rest
  | 0, _, _ => ([(.broken, .broken)], none)
  | fuel + 1, first, r =>
    match r.tokens with
    | .flowMappingEnd :: _ => ([], some r.tail)
    | t :: _ =>
      if !first && t != .comma then ([(.broken, .broken)], none)
      else
        let r := if first then r else r.tail
        match r.tokens with
        | .flowMappingEnd :: _ => ([], some r.tail)
        | .key :: _ =>
          let ends := fun t => t == .value || t == .comma || t == .flowMappingEnd
          match readNodeUnless fuel ends false false r.tail with
          | (key, none) => ([(key, .broken)], none)
          | (key, some r) =>
            let (value, r) : Tree × Option Rest := match r.tokens with
              | .value :: _ =>
                readNodeUnless fuel (fun t => t == .comma || t == .flowMappingEnd) false false r.tail
              | [] => (.broken, none)
              | _ => (.absent, some r)
            match r with
            | none => ([(key, value)], none)
            | some r => let (entries, r) := readFlowEntries fuel false r; ((key, value) :: entries, r)
        | _ =>
          match readNode fuel false false r with
          | (key, none) => ([(key, .broken)], none)
          | (key, some r) =>
            let (entries, r) := readFlowEntries fuel false r
            ((key, .absent) :: entries, r)
    | [] => ([(.broken, .broken)], none)

end

end Nodes

/-- A document: its root node, and whether it ends well. -/
structure Document where
  root : Tree
  intact : Bool

namespace Document

/-- Read the directives of a document. A version other than 1.1 and 1.2, a second version and a
second meaning of a handle are malformed. -/
def readDirectives (version : Bool) (handles : TagHandles) :
    List Token → Option (TagHandles × List Token)
  | .version major minor :: rest =>
    if version || major != 1 || (minor != 1 && minor != 2) then none
    else readDirectives true handles rest
  | .tagHandle handle expansion :: rest =>
    if (handles.lookup handle).isSome then none
    else readDirectives version (handles ++ [(handle, expansion)]) rest
  | rest => some (handles ++ standardHandles, rest)

/-- A token that stands between documents. -/
def isBoundary : Token → Bool
  | .version .. | .tagHandle .. | .documentStart | .documentEnd | .streamEnd => true
  | _ => false

/-- Read the root node of a document and the mark behind it. -/
def readRoot (handles : TagHandles) (explicit : Bool) (tokens : List Token) :
    Document × Option (List Token) :=
  let absent := explicit && tokens.head?.any isBoundary
  let (root, rest) : Tree × Option Rest :=
    if absent then (.absent, some ⟨tokens, []⟩)
    else readNode handles (2 * tokens.length + 2) true false ⟨tokens, []⟩
  match rest with
  | none => (⟨root, false⟩, none)
  | some r =>
    match r.tokens with
    | [] => (⟨root, false⟩, none)
    | .documentEnd :: rest => (⟨root, true⟩, some rest)
    | rest => (⟨root, true⟩, some rest)

/-- The document of a text that ends before one starts. -/
def malformed : Document := ⟨.broken, false⟩

/-- Read the documents of a list of tokens. Only the first document may start without a mark. -/
def readAll : Nat → Bool → List Token → List Document
  | 0, _, _ => []
  | fuel + 1, first, tokens =>
    let tokens := if first then tokens else tokens.dropWhile (· == .documentEnd)
    match tokens with
    | [] => [malformed]
    | .streamEnd :: _ => if first then [⟨.absent, true⟩] else []
    | t :: _ =>
      if first && (!isBoundary t || t == .documentEnd) then
        next fuel (readRoot standardHandles false tokens)
      else
        match readDirectives false [] tokens with
        | some (handles, .documentStart :: rest) => next fuel (readRoot handles true rest)
        | _ => [malformed]
where
  /-- Go on behind a document. -/
  next (fuel : Nat) : Document × Option (List Token) → List Document
    | (d, none) => [d]
    | (d, some rest) => d :: readAll fuel false rest

/-- The documents of a text. The last one may be malformed; a text without documents holds one that
is empty. -/
def all (text : String) : List Document :=
  let tokens := Token.ofString text
  readAll (tokens.length + 2) true tokens

end Document

end PackageDepot.Yaml
