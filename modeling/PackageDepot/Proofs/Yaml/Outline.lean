import Mathlib.Data.List.MinMax
import Mathlib.Order.Nat
import PackageDepot.Yaml.Node

/-!
# Outlines of documents

Most of what is kept in manifests and resources is words and mappings of words. The tokens, the document and
the value of such an `Outline` are put together of those of its parts (`fold`), and `Value.readAll?_of_tokens`
says that a text with the tokens of outlines is read as their values.
-/

namespace PackageDepot.Yaml

/-! ## The tokens of a text -/

/-- They are those that the scanner finds in its characters. -/
theorem Token.ofString_eq {text : String} {tokens : List Token}
    (allowed : text.toList.all isAllowed = true)
    (scanned : Scanner.run (text.toList.length + 2) { cursor := { rest := text.toList } } = tokens) :
    ofString text = tokens := by
  rw [ofString, Cursor.ofString, ← String.length_toList, scanned, if_pos allowed]

/-- The tokens of a text whose lines are known. -/
theorem Token.ofString_lines {text : String} {lines : List String} {tokens : List Token}
    (same : text = String.join lines) (allowed : (lines.flatMap String.toList).all isAllowed = true)
    (scanned : Scanner.run ((lines.flatMap String.toList).length + 2)
      { cursor := { rest := lines.flatMap String.toList } } = tokens) :
    ofString text = tokens := by
  rw [← String.toList_join] at allowed scanned
  rw [same]
  exact ofString_eq allowed scanned

/-! ## Outlines -/

/-- A document of words and mappings, without anchors, tags and lists. -/
inductive Outline
  /-- A text that stands without quotes. -/
  | word (text : String)
  | quoted (text : String)
  | null
  | mapping (entries : List (String × Outline))

namespace Outline

/-- What the parts of an outline come to, and how they are put together. -/
structure Reading (α : Type) where
  word : String → α
  quoted : String → α
  null : α
  mapping : List (String × α) → α

mutual

/-- What an outline comes to. -/
def fold {α : Type} (r : Reading α) : Outline → α
  | .word s => r.word s
  | .quoted s => r.quoted s
  | .null => r.null
  | .mapping entries => r.mapping (foldEntries r entries)

/-- What the entries of a mapping come to. -/
def foldEntries {α : Type} (r : Reading α) : List (String × Outline) → List (String × α)
  | [] => []
  | (key, o) :: rest => (key, fold r o) :: foldEntries r rest

end

/-- The tokens of an entry. -/
def entryTokens (e : String × List Token) : List Token := [.key, .scalar e.1 true, .value] ++ e.2

def tokens : Outline → List Token := fold {
  word := fun s => [.scalar s true]
  quoted := fun s => [.scalar s false]
  null := [.scalar "null" true]
  mapping := fun entries => .blockMapping :: (entries.flatMap entryTokens ++ [.blockEnd]) }

def tree : Outline → Tree := fold {
  word := fun s => .scalar none ⟨s, true, none⟩
  quoted := fun s => .scalar none ⟨s, false, none⟩
  null := .scalar none ⟨"null", true, none⟩
  mapping := fun entries =>
    .map none none (entries.map fun e => (.scalar none ⟨e.1, true, none⟩, e.2)) }

def value : Outline → Value := fold {
  word := .str
  quoted := .str
  null := .null
  mapping := fun entries => .map (entries.map fun e => (.str e.1, e.2)) }

/-- How deep the mappings of an outline are nested. -/
def depth : Outline → Nat := fold {
  word := fun _ => 0
  quoted := fun _ => 0
  null := 0
  mapping := fun entries => (entries.map Prod.snd).foldr max 0 + 1 }

/-- The texts that stand without quotes, keys among them. -/
def words : Outline → List String := fold {
  word := fun s => [s]
  quoted := fun _ => []
  null := []
  mapping := fun entries => entries.flatMap fun e => e.1 :: e.2 }

/-- The document of an outline. -/
def document (o : Outline) : Document := ⟨o.tree, true⟩

variable {α : Type} {o : Outline} {entries : List (String × Outline)}

theorem foldEntries_eq_map (r : Reading α) (entries : List (String × Outline)) :
    foldEntries r entries = entries.map fun e => (e.1, fold r e.2) := by
  induction entries with
  | nil => rfl
  | cons e rest ih => rw [foldEntries, ih, List.map_cons]

theorem fold_mapping (r : Reading α) (entries : List (String × Outline)) :
    fold r (.mapping entries) = r.mapping (entries.map fun e => (e.1, fold r e.2)) := by
  rw [fold, foldEntries_eq_map]

theorem tokens_mapping : (mapping entries).tokens = .blockMapping ::
    (entries.flatMap (fun e => entryTokens (e.1, e.2.tokens)) ++ [.blockEnd]) := by
  simp only [tokens, fold_mapping, List.flatMap_map]

theorem tree_mapping : (mapping entries).tree =
    .map none none (entries.map fun e => (.scalar none ⟨e.1, true, none⟩, e.2.tree)) := by
  simp only [tree, fold_mapping, List.map_map, Function.comp_def]

theorem value_mapping : (mapping entries).value = .map (entries.map fun e => (.str e.1, e.2.value)) := by
  simp only [value, fold_mapping, List.map_map, Function.comp_def]

theorem depth_mapping : (mapping entries).depth = (entries.map fun e => e.2.depth).foldr max 0 + 1 := by
  simp only [depth, fold_mapping, List.map_map, Function.comp_def]

theorem words_mapping : (mapping entries).words = entries.flatMap fun e => e.1 :: e.2.words := by
  simp only [words, fold_mapping, List.flatMap_map]

/-- What is so of the texts and of every mapping of which it is so throughout is so of every outline. -/
@[elab_as_elim]
theorem induct {P : Outline → Prop} (word : ∀ s, P (.word s)) (quoted : ∀ s, P (.quoted s)) (null : P .null)
    (mapping : ∀ entries, (∀ e ∈ entries, P e.2) → P (.mapping entries)) (o : Outline) : P o :=
  @Outline.rec P (fun entries => ∀ e ∈ entries, P e.2) (fun e => P e.2) word quoted null mapping nofun
    (fun _ _ first rest e he => (List.mem_cons.1 he).elim (· ▸ first) (rest e)) (fun _ _ h => h) o

/-! ## The document is read from the tokens -/

/-- The node of an outline is read from its tokens, and nothing behind them. -/
def IsRead (handles : TagHandles) (o : Outline) : Prop :=
  ∀ fuel flat anchors rest, o.tokens.length ≤ fuel →
    readNode handles fuel true flat ⟨o.tokens ++ rest, anchors⟩ = (o.tree, some ⟨rest, anchors⟩)

theorem isRead_scalar {handles : TagHandles} {s : String} {plain : Bool}
    (tokens : o.tokens = [.scalar s plain]) (tree : o.tree = .scalar none ⟨s, plain, none⟩) :
    o.IsRead handles := by
  intro fuel flat anchors rest enough
  rw [tokens] at enough ⊢
  obtain ⟨fuel, rfl⟩ := Nat.exists_eq_add_of_le' enough
  rw [tree]
  simp [readNode, Properties.read, Properties.resolve, Rest.define?, Rest.tail]

/-- A node is left out only in front of a token that no outline begins with. -/
theorem exists_tokens (o : Outline) :
    ∃ t rest, o.tokens = t :: rest ∧ endsBlockNode t = false ∧ Document.isBoundary t = false := by
  cases o with
  | word s => exact ⟨_, _, rfl, rfl, rfl⟩
  | quoted s => exact ⟨_, _, rfl, rfl, rfl⟩
  | null => exact ⟨_, _, rfl, rfl, rfl⟩
  | mapping entries => exact ⟨_, _, tokens_mapping, rfl, rfl⟩

/-- So the value of an entry is not left out. -/
theorem IsRead.unless {handles : TagHandles} (read : o.IsRead handles) {fuel : Nat}
    (enough : o.tokens.length < fuel) (anchors : List (String × Nat)) (rest : List Token) :
    readNodeUnless handles fuel endsBlockNode true true ⟨o.tokens ++ rest, anchors⟩ =
      (o.tree, some ⟨rest, anchors⟩) := by
  obtain ⟨fuel, rfl⟩ := Nat.exists_eq_add_of_le' (Nat.lt_of_le_of_lt (Nat.zero_le _) enough)
  have node := read fuel true anchors rest (Nat.le_of_lt_succ enough)
  obtain ⟨t, more, tokens, there, -⟩ := o.exists_tokens
  rw [tokens, List.cons_append] at node ⊢
  simp [readNodeUnless, there, node]

theorem readEntries_tokens {handles : TagHandles} (read : ∀ e ∈ entries, e.2.IsRead handles) {fuel : Nat}
    (enough : (entries.flatMap fun e => entryTokens (e.1, e.2.tokens)).length < fuel)
    (anchors : List (String × Nat)) (rest : List Token) :
    readEntries handles fuel
      ⟨entries.flatMap (fun e => entryTokens (e.1, e.2.tokens)) ++ .blockEnd :: rest, anchors⟩ =
        (entries.map fun e => (.scalar none ⟨e.1, true, none⟩, e.2.tree), some ⟨rest, anchors⟩) := by
  induction entries generalizing fuel with
  | nil =>
    obtain ⟨fuel, rfl⟩ := Nat.exists_eq_add_of_le' (Nat.lt_of_le_of_lt (Nat.zero_le _) enough)
    simp [readEntries, Rest.tail]
  | cons e more ih =>
    obtain ⟨fuel, rfl⟩ := Nat.exists_eq_add_of_le' (Nat.lt_of_le_of_lt (Nat.zero_le _) enough)
    simp only [List.flatMap_cons, entryTokens, List.length_append, List.length_cons, List.length_nil] at enough
    have key (rest : List Token) :
        readNodeUnless handles fuel endsBlockNode true true ⟨.scalar e.1 true :: rest, anchors⟩ =
          (.scalar none ⟨e.1, true, none⟩, some ⟨rest, anchors⟩) :=
      (isRead_scalar rfl rfl : (word e.1).IsRead handles).unless (by show 1 < fuel; omega) anchors rest
    have value := (read e List.mem_cons_self).unless (by omega : _ < fuel) anchors
    have others := ih (fun e' he => read e' (List.mem_cons_of_mem e he))
      (by simp only [entryTokens]; omega : _ < fuel)
    rw [List.flatMap_cons, List.append_assoc, entryTokens, List.append_assoc]
    simp only [List.cons_append, List.nil_append, readEntries, Rest.tail, List.tail_cons, key, value,
      others, List.map_cons]

/-- **Every outline is read from its tokens.** A node takes one round for each of its tokens at most. -/
theorem isRead (handles : TagHandles) (o : Outline) : o.IsRead handles := by
  induction o using induct with
  | word s => exact isRead_scalar rfl rfl
  | quoted s => exact isRead_scalar rfl rfl
  | null => exact isRead_scalar rfl rfl
  | mapping entries ih =>
    intro fuel flat anchors rest enough
    rw [tokens_mapping, List.length_cons, List.length_append, List.length_singleton] at enough
    obtain ⟨fuel, rfl⟩ := Nat.exists_eq_add_of_le' (Nat.lt_of_lt_of_le (Nat.zero_lt_succ _) enough)
    have inner := readEntries_tokens ih (by omega : _ < fuel) anchors rest
    rw [tokens_mapping, tree_mapping, List.cons_append, List.append_assoc, List.singleton_append]
    simp [readNode, Properties.read, Properties.resolve, Rest.define?, Rest.tail, inner]

/-- The tokens behind the first document: the other ones, and the end of the text. -/
def followers (os : List Outline) : List Token :=
  os.flatMap (fun o => .documentStart :: o.tokens) ++ [.streamEnd]

theorem followers_cons (os : List Outline) :
    followers (o :: os) = .documentStart :: (o.tokens ++ followers os) := by
  simp [followers]

theorem length_lt_followers (os : List Outline) : os.length < (followers os).length := by
  induction os with
  | nil => exact Nat.zero_lt_one
  | cons o os ih =>
    rw [followers_cons, List.length_cons, List.length_cons, List.length_append]
    omega

theorem readRoot_tokens (handles : TagHandles) (explicit : Bool) (o : Outline) (os : List Outline) :
    Document.readRoot handles explicit (o.tokens ++ followers os) = (o.document, some (followers os)) := by
  have node := o.isRead handles (2 * (o.tokens ++ followers os).length + 2) false [] (followers os)
    (by rw [List.length_append]; omega)
  obtain ⟨first, more, tokens, -, inside⟩ := o.exists_tokens
  have there : (explicit && (o.tokens ++ followers os).head?.any Document.isBoundary) = false := by
    rw [tokens, List.cons_append, List.head?_cons, Option.any_some, inside, Bool.and_false]
  rw [Document.readRoot, there]
  simp only [Bool.false_eq_true, if_false, node]
  cases os with
  | nil => rfl
  | cons o' rest => rw [followers_cons]; rfl

theorem readAll_followers {os : List Outline} {fuel : Nat} (enough : os.length < fuel) :
    Document.readAll fuel false (followers os) = os.map document := by
  induction os generalizing fuel with
  | nil =>
    obtain ⟨fuel, rfl⟩ := Nat.exists_eq_add_of_le' (Nat.lt_of_le_of_lt (Nat.zero_le _) enough)
    simp [followers, Document.readAll]
  | cons o rest ih =>
    obtain ⟨fuel, rfl⟩ := Nat.exists_eq_add_of_le' (Nat.lt_of_le_of_lt (Nat.zero_le _) enough)
    have behind := ih (Nat.lt_of_succ_lt_succ enough)
    rw [followers_cons]
    simp [Document.readAll, Document.readDirectives, Document.readAll.next, Document.isBoundary,
      readRoot_tokens, behind]

end Outline

open Outline

variable {text : String} {o : Outline} {os : List Outline}

/-- **The documents of a text are read from its tokens.** -/
theorem Document.all_of_tokens (tokens : Token.ofString text = o.tokens ++ followers os) :
    Document.all text = (o :: os).map document := by
  obtain ⟨t, rest, first, -, inside⟩ := o.exists_tokens
  have shorter := length_lt_followers os
  have behind := readAll_followers (by rw [List.length_append]; omega :
    os.length < (o.tokens ++ followers os).length + 1)
  have root := readRoot_tokens standardHandles false o os
  have begun : t ≠ .streamEnd := by
    rintro rfl
    cases inside
  rw [Document.all, tokens]
  rw [first, List.cons_append] at root behind ⊢
  rw [Document.readAll]
  simpa [inside, root, Document.readAll.next] using behind

/-! ## The value is read from the document -/

/-- A word is a text, if it resolves to one. -/
theorem Node.contents?_word {s : String} (h : Plain.resolve s = .text) :
    (Node.scalar ⟨s, true, none⟩).contents? = some (.str s) := by
  rw [Node.contents?, Node.scalarValue?, Node.scalarValue?.content, if_pos rfl, Node.plainValue?, h]

theorem Node.contents?_null {s : String} (h : Plain.resolve s = .null) :
    (Node.scalar ⟨s, true, none⟩).contents? = some .null := by
  rw [Node.contents?, Node.scalarValue?, Node.scalarValue?.content, if_pos rfl, Node.plainValue?, h]

namespace Outline

variable {anchors : List (Nat × Tree)} {depth : Nat} {entries : List (String × Outline)}

/-- The value of an outline is what the node says that stands for it within so many levels. -/
def IsValue (anchors : List (Nat × Tree)) (depth : Nat) (o : Outline) : Prop :=
  ∀ budget, ∃ n, Node.expand anchors depth o.tree budget = (n, budget) ∧ n.contents? = some o.value

/-- No alias is followed. -/
theorem follow_tree (read : Tree → Nat → Node × Nat) (o : Outline) (budget : Nat) :
    Node.follow anchors read o.tree budget = read o.tree budget := by
  cases o with
  | word s => rfl
  | quoted s => rfl
  | null => rfl
  | mapping entries => rw [tree_mapping]; rfl

theorem entryContents?_of_isValue (values : ∀ e ∈ entries, e.2.IsValue anchors depth)
    (words : ∀ e ∈ entries, Plain.resolve e.1 = .text) (budget : Nat) : ∃ ns,
    Node.mapBudget (fun (e : Tree × Tree) b =>
      let (k, b) := Node.follow anchors (Node.expand anchors depth) e.1 b
      let (v, b) := Node.follow anchors (Node.expand anchors depth) e.2 b
      ((k, v), b)) (entries.map fun e => (.scalar none ⟨e.1, true, none⟩, e.2.tree)) budget =
        (ns, budget) ∧
    Node.entryContents? ns = some (entries.map fun e => (.str e.1, e.2.value)) := by
  induction entries with
  | nil => exact ⟨[], rfl, rfl⟩
  | cons e rest ih =>
    obtain ⟨n, expanded, value⟩ := values e List.mem_cons_self budget
    obtain ⟨ns, others, contents⟩ := ih (fun e' he => values e' (List.mem_cons_of_mem e he))
      fun e' he => words e' (List.mem_cons_of_mem e he)
    have key := Node.contents?_word (words e List.mem_cons_self)
    have word : Node.follow anchors (Node.expand anchors depth) (.scalar none ⟨e.1, true, none⟩) budget =
        (.scalar ⟨e.1, true, none⟩, budget) := by
      cases depth <;> rfl
    refine ⟨(.scalar ⟨e.1, true, none⟩, n) :: ns, ?_, ?_⟩
    · simp only [List.map_cons, Node.mapBudget, word, follow_tree, expanded, others]
    · simp [Node.entryContents?, key, value, contents]

/-- **What is read from the document of an outline is its value**, if its words resolve to texts and it is
not nested too deep. -/
theorem isValue (o : Outline) (words : ∀ s ∈ o.words, Plain.resolve s = .text) (deep : o.depth ≤ depth) :
    o.IsValue anchors depth := by
  induction o using induct generalizing depth with
  | word s =>
    intro budget
    refine ⟨.scalar ⟨s, true, none⟩, ?_, Node.contents?_word (words s (List.mem_singleton.2 rfl))⟩
    cases depth <;> rfl
  | quoted s =>
    intro budget
    refine ⟨.scalar ⟨s, false, none⟩, ?_, rfl⟩
    cases depth <;> rfl
  | null =>
    intro budget
    refine ⟨.scalar ⟨"null", true, none⟩, ?_, Node.contents?_null (by decide +kernel)⟩
    cases depth <;> rfl
  | mapping entries ih =>
    intro budget
    rw [depth_mapping] at deep
    rw [words_mapping] at words
    obtain ⟨depth, rfl⟩ := Nat.exists_eq_add_of_le' (Nat.lt_of_lt_of_le (Nat.zero_lt_succ _) deep)
    have deep : ∀ e ∈ entries, e.2.depth ≤ depth := fun e he =>
      (List.le_max_of_le (List.mem_map_of_mem he) le_rfl).trans (Nat.le_of_succ_le_succ deep)
    have inner : ∀ e ∈ entries, e.2.IsValue anchors depth := fun e he =>
      ih e he (fun s hs => words s (List.mem_flatMap.2 ⟨e, he, List.mem_cons_of_mem _ hs⟩)) (deep e he)
    obtain ⟨ns, expanded, contents⟩ := entryContents?_of_isValue inner
      (fun e he => words _ (List.mem_flatMap.2 ⟨e, he, List.mem_cons_self⟩)) budget
    refine ⟨.map none ns, ?_, ?_⟩
    · rw [tree_mapping, Node.expand, expanded]
    · rw [Node.contents?, contents, value_mapping]
      rfl

/-- An outline whose value can be read from its tokens. -/
structure Readable (o : Outline) : Prop where
  words : ∀ s ∈ o.words, Plain.resolve s = .text
  deep : o.depth ≤ Node.maxDepth
  keyed : o.value.wellKeyed = true

instance : Decidable o.Readable :=
  decidable_of_iff ((∀ s ∈ o.words, Plain.resolve s = .text) ∧ o.depth ≤ Node.maxDepth ∧
    o.value.wellKeyed = true) ⟨fun h => ⟨h.1, h.2.1, h.2.2⟩, fun h => ⟨h.words, h.deep, h.keyed⟩⟩

theorem Readable.value? (h : o.Readable) : (Node.ofDocument o.document).value? = some o.value := by
  have shown : o.IsValue o.tree.anchored.reverse Node.maxDepth := o.isValue h.words h.deep
  obtain ⟨n, expanded, value⟩ := shown (100 * o.tree.extent)
  have node : Node.ofDocument o.document = n := congrArg Prod.fst expanded
  rw [node, Node.value?, value, Option.filter_some, if_pos h.keyed]

end Outline

open Outline

theorem Outline.mapM_document (readable : ∀ o ∈ os, o.Readable) : (os.map document).mapM (fun d =>
    if d.intact then (Node.ofDocument d).value? else none) = some (os.map value) := by
  induction os with
  | nil => rfl
  | cons o rest ih =>
    have first : (if o.document.intact then (Node.ofDocument o.document).value? else none) =
        some o.value := (readable o List.mem_cons_self).value?
    have others := ih (fun o' ho => readable o' (List.mem_cons_of_mem o ho))
    rw [List.map_cons, List.mapM_cons, first, others]
    rfl

/-- **The values of outlines are read from their tokens.** -/
theorem Value.readAll?_of_tokens (tokens : Token.ofString text = o.tokens ++ followers os)
    (readable : ∀ o' ∈ o :: os, o'.Readable) : Value.readAll? text = some ((o :: os).map value) :=
  (congrArg _ (Document.all_of_tokens tokens)).trans (mapM_document readable)

/-! ## One document -/

theorem Document.all_of_outline (tokens : Token.ofString text = o.tokens ++ [.streamEnd]) :
    Document.all text = [o.document] :=
  @all_of_tokens text o [] tokens

theorem Value.readAll?_of_outline (tokens : Token.ofString text = o.tokens ++ [.streamEnd])
    (readable : o.Readable) : Value.readAll? text = some [o.value] :=
  @readAll?_of_tokens text o [] tokens (by simpa using readable)

/-- There is one document in an empty text, and nothing in it. -/
theorem Value.readAll?_empty : Value.readAll? "" = some [.null] := by
  have tokens : Token.ofString "" = [.streamEnd] :=
    Token.ofString_eq (by decide +kernel) (by decide +kernel)
  have document : Document.all "" = [⟨.absent, true⟩] := by
    rw [Document.all, tokens]
    simp [Document.readAll]
  have node : Node.ofDocument ⟨.absent, true⟩ = .scalar ⟨"", true, none⟩ := rfl
  have value : (Node.ofDocument ⟨.absent, true⟩).value? = some .null := by
    rw [node, Node.value?, Node.contents?_null (by decide +kernel)]
    rfl
  rw [Value.readAll?, document, List.mapM_cons]
  simp [value]

end PackageDepot.Yaml
