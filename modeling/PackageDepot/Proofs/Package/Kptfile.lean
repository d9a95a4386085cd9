import Mathlib.Data.List.Forall2
import PackageDepot.Package.Kptfile
import PackageDepot.Proofs.Function.Paths
import PackageDepot.Proofs.Wire.Record
import PackageDepot.Proofs.Yaml.Outline

/-!
# What a manifest is read from, and what is written for it

A manifest is read from a node, whose keys count by their texts (`Node.at?`). `Kptfile.decode_ok` says where
each part of the manifest is taken from: the known fields from the nodes of their names, and the others with
all that is in them. The lemmas behind it say where each part is written.
-/

namespace PackageDepot

open Yaml Wire
open Backend (bind_eq_ok_iff)

/-- The first entry of a key is the first of the entries that have the key. -/
theorem Dict.lookup_eq_head? {α : Type} (l : List (String × α)) (k : String) :
    l.lookup k = (l.filter fun e => e.1 = k).head?.map Prod.snd := by
  induction l with
  | nil => rfl
  | cons e rest ih =>
    rw [Dict.lookup_cons_ite, List.filter_cons]
    by_cases h : e.1 = k
    · simp [h]
    · simp [h, Ne.symm h, ih]

/-- Look-up among the entries whose keys are chosen. -/
theorem Dict.lookup_filter {α : Type} (p : String → Bool) (l : List (String × α)) (k : String) :
    (l.filter fun e => p e.1).lookup k = if p k then l.lookup k else none := by
  rw [lookup_eq_head?, lookup_eq_head?, List.filter_filter]
  split
  · next chosen =>
    congr 3
    funext e
    by_cases h : e.1 = k
    · simp [h, chosen]
    · simp [h]
  · next passed =>
    rw [List.filter_eq_nil_iff.2]
    · rfl
    · rintro e -
      by_cases h : e.1 = k
      · simp [h, passed]
      · simp [h]

theorem Dict.mem_of_lookup {α : Type} {l : List (String × α)} {k : String} {v : α}
    (h : l.lookup k = some v) : (k, v) ∈ l := by
  obtain ⟨l₁, l₂, rfl, -⟩ := List.lookup_eq_some_iff.1 h
  simp

/-! ## Nodes by the texts of their keys -/

namespace Yaml.Node

/-- The text of a scalar. -/
def word? (n : Node) : Option String := n.text.toOption

/-- The texts of a list of scalars. -/
def words? (n : Node) : Option (List String) := (n.items >>= fun ns => ns.mapM text).toOption

/-- The entries of a mapping, by the texts of their keys. -/
def named : Node → List (String × Node)
  | .map _ entries => entries.filterMap fun e => e.1.word?.map (·, e.2)
  | _ => []

/-- The node under a key. Of two keys with one text the later one counts. -/
def under? (n : Node) (name : String) : Option Node := n.named.reverse.lookup name

/-- The node at the end of a path of keys. -/
def at? : Node → List String → Option Node
  | n, [] => some n
  | n, name :: path => (n.under? name).bind fun m => at? m path

@[simp] theorem at?_nil (n : Node) : n.at? [] = some n := rfl

theorem at?_cons (n : Node) (name : String) (path : List String) :
    n.at? (name :: path) = (n.under? name).bind fun m => m.at? path := rfl

@[simp] theorem at?_singleton (n : Node) (name : String) : n.at? [name] = n.under? name := by
  rw [at?_cons]
  exact Option.bind_fun_some _

/-- The value of a node as it can be kept: without tags, and without a key that stands twice. -/
def kept? (n : Node) : Option Value := n.value?.filter Value.untaggedThroughout

theorem kept?_eq_some_iff {n : Node} {v : Value} :
    n.kept? = some v ↔ n.contents = .ok v ∧ v.wellKeyed = true := by
  rw [kept?, value?, contents, Option.filter_eq_some_iff, Option.filter_eq_some_iff, and_right_comm,
    ← Option.filter_eq_some_iff]
  refine and_congr_left' ?_
  cases n.contents?.filter Value.untaggedThroughout with
  | none =>
    constructor
    · rintro ⟨⟩
    · rintro ⟨⟩
  | some w => simp [need]

theorem kept?_word {s : String} (h : Plain.resolve s = .text) :
    (scalar ⟨s, true, none⟩).kept? = some (.str s) := by
  rw [kept?, value?, contents?_word h]
  rfl

/-- The fields of a node are its entries, if each of them has a name. -/
theorem named_of_fields {n : Node} {named : List (String × Node)}
    (h : n.fields = .ok (.named (named.map fun e => (.ok e.1, e.2)))) : n.named = named := by
  cases n with
  | map tag entries =>
    have all : entries.map (fun e => (e.1.text, e.2)) = named.map fun e => (.ok e.1, e.2) :=
      Fields.named.inj (Except.ok.inj h)
    rw [Node.named]
    clear h
    induction entries generalizing named with
    | nil =>
      cases List.map_eq_nil_iff.1 all.symm
      rfl
    | cons e rest ih =>
      cases named with
      | nil => cases all
      | cons f named =>
        obtain ⟨first, others⟩ := List.cons.inj all
        obtain ⟨name, value⟩ := Prod.mk.inj first
        rw [List.filterMap_cons, word?, name, ih others, value]
        rfl
  | scalar s =>
    have blank : (scalar s).fields =
        if (scalar s).isBlank then .ok (.named []) else .error .malformed := rfl
    rw [blank] at h
    split at h
    · cases List.map_eq_nil_iff.1 (Fields.named.inj (Except.ok.inj h)).symm
      rfl
    · cases h
  | seq _ _ => cases h
  | broken => cases h
  | endless => cases h

/-- A node has no fields that are given by position. -/
theorem fields_ne_listed {n : Node} {values : List Node} : n.fields ≠ .ok (.listed values) := by
  cases n with
  | map tag entries => exact nofun
  | scalar s =>
    have blank : (scalar s).fields =
        if (scalar s).isBlank then .ok (.named []) else .error .malformed := rfl
    rw [blank]
    split
    · exact nofun
    · exact nofun
  | seq _ _ => exact nofun
  | broken => exact nofun
  | endless => exact nofun

end Yaml.Node

/-! ## Reading from a node -/

namespace Wire

variable {ρ α β : Type} {n : Node} {name : String}

/-- An entry that is read under its own name. -/
def Taken (read : Node → Option α) (e : String × Node) (x : String × α) : Prop :=
  x.1 = e.1 ∧ read e.2 = some x.2

/-- What follows for each element of the second list. -/
theorem forall₂_of_all {γ δ : Type} {R S : γ → δ → Prop} {l : List γ} {l' : List δ}
    (all : List.Forall₂ R l l') (each : ∀ b ∈ l', ∀ a, R a b → S a b) : List.Forall₂ S l l' :=
  (((List.forall₂_and_left l' l).2 ⟨each, all.flip⟩).imp fun _ a h => h.1 a h.2).flip

theorem toOption_eq_some_iff {a? : Except Fault α} {a : α} :
    a?.toOption = some a ↔ a? = .ok a := by
  cases a? with
  | ok b => simp [Except.toOption]
  | error fault => simp [Except.toOption]

theorem lookup_of_taken {read : Node → Option α} {named : List (String × Node)}
    {l : List (String × α)} (h : List.Forall₂ (Taken read) named l) (name : String) :
    l.lookup name = (named.lookup name).bind read := by
  induction h with
  | nil => rfl
  | @cons e x rest rest' first behind ih =>
    rw [Dict.lookup_cons_ite, Dict.lookup_cons_ite, ih, first.1]
    split
    · exact first.2.symm
    · rfl

theorem exists_of_taken {read : Node → Option α} {named : List (String × Node)}
    {l : List (String × α)} (h : List.Forall₂ (Taken read) named l) {e : String × Node}
    (he : e ∈ named) : ∃ a, read e.2 = some a := by
  induction h with
  | nil => cases he
  | @cons e' x rest rest' first _ ih =>
    obtain rfl | behind := List.mem_cons.1 he
    · exact ⟨x.2, first.2⟩
    · exact ih behind

theorem names_of_taken {read : Node → Option α} {named : List (String × Node)}
    {l : List (String × α)} (h : List.Forall₂ (Taken read) named l) :
    named.map Prod.fst = l.map Prod.fst := by
  induction h with
  | nil => rfl
  | cons first _ ih => rw [List.map_cons, List.map_cons, first.1, ih]

/-- Of two entries with one name the later one counts, whether they are read before or behind. -/
theorem get?_of_taken {read : Node → Option α} {named : List (String × Node)}
    {l : List (String × α)} (h : List.Forall₂ (Taken read) named l) (name : String) :
    (Dict.ofList l).get? name = (named.reverse.lookup name).bind read := by
  rw [Dict.get?_ofList]
  exact lookup_of_taken (List.forall₂_reverse_iff.2 h) name

theorem taken_of_mapM {read : Node → Except Fault α} {entries : List (Except Fault String × Node)}
    {l : List (String × α)}
    (h : (entries.mapM fun e => do return (← e.1, ← read e.2)) = .ok l) :
    ∃ named : List (String × Node), entries = named.map (fun e => (.ok e.1, e.2)) ∧
      List.Forall₂ (Taken fun m => (read m).toOption) named l := by
  induction entries generalizing l with
  | nil =>
    cases h
    exact ⟨[], rfl, .nil⟩
  | cons e rest ih =>
    obtain ⟨key, m⟩ := e
    rw [List.mapM_cons] at h
    obtain ⟨x, first, h⟩ := bind_eq_ok_iff.1 h
    obtain ⟨l', others, h⟩ := bind_eq_ok_iff.1 h
    obtain ⟨name, rfl, first⟩ := bind_eq_ok_iff.1 first
    obtain ⟨a, taken, first⟩ := bind_eq_ok_iff.1 first
    cases first
    cases h
    obtain ⟨named, rfl, behind⟩ := ih others
    exact ⟨(name, m) :: named, rfl, .cons ⟨rfl, congrArg Except.toOption taken⟩ behind⟩

/-- A dictionary of texts is read entry by entry. -/
theorem Codec.get?_of_dict {d : Dict String} (h : (Codec.dict Codec.text).decode n = .ok d)
    (name : String) : d.get? name = (n.under? name).bind Node.word? := by
  obtain ⟨fields, hf, h⟩ := bind_eq_ok_iff.1 h
  cases fields with
  | listed values => exact (Node.fields_ne_listed hf).elim
  | named entries =>
    obtain ⟨texts, read, h⟩ := bind_eq_ok_iff.1 h
    cases h
    obtain ⟨named, rfl, taken⟩ := taken_of_mapM read
    rw [get?_of_taken taken, Node.under?, Node.named_of_fields hf]
    rfl

/-- A record is read from the entries of a node. -/
theorem Codec.reads_of_record {r : Record ρ ρ} {a : ρ} (h : (Codec.record r).decode n = .ok a) :
    r.Reads n.named a := by
  obtain ⟨fields, hf, h⟩ := bind_eq_ok_iff.1 h
  cases fields with
  | listed values => exact (Node.fields_ne_listed hf).elim
  | named entries =>
    obtain ⟨⟨s, u⟩, read, finished⟩ := bind_eq_ok_iff.1 h
    obtain ⟨named, rfl, gathers, -⟩ := Record.readEntries_ok_iff.1 read
    rw [Node.named_of_fields hf]
    exact ⟨s, gathers, finished⟩

namespace Record.Reads

/-- A field is read from the node of its name, or stands for its default. -/
theorem under? {get : ρ → β} {decode : ∀ {ν : Type} [Source ν], ν → Except Fault β}
    {absent : Option β} {write : β → Option Form} {b : β}
    (h : (Record.field name [] get decode absent write).Reads n.named b) :
    (n.under? name = none ∧ absent = some b) ∨
      ∃ m, n.under? name = some m ∧ decode m = .ok b := by
  have mine : n.under? name =
      ((Record.field name [] get decode absent write).mine n.named).getLast?.map Prod.snd := by
    rw [Node.under?, Dict.lookup_eq_head?, List.filter_reverse, List.head?_reverse, Record.mine]
    simp [Record.field]
  obtain ⟨none, absent⟩ | ⟨e, one, decoded⟩ := Record.reads_field_iff.1 h
  · rw [none] at mine
    exact .inl ⟨mine, absent⟩
  · rw [one] at mine
    exact .inr ⟨e.2, mine, decoded⟩

theorem required {get : ρ → β} {c : Codec β} {b : β}
    (h : (Record.required name get c).Reads n.named b) :
    ∃ m, n.under? name = some m ∧ c.decode m = .ok b := by
  obtain ⟨-, none⟩ | found := under? h
  · cases none
  · exact found

theorem elided [DecidableEq β] {get : ρ → β} {c : Codec β} {value b : β}
    (h : (Record.elided name get c value).Reads n.named b) :
    (n.under? name = none ∧ b = value) ∨ ∃ m, n.under? name = some m ∧ c.decode m = .ok b := by
  obtain ⟨missing, absent⟩ | found := under? h
  · exact .inl ⟨missing, (Option.some.inj absent).symm⟩
  · exact .inr found

theorem optional {get : ρ → Option β} {c : Codec β} {b : Option β}
    (h : (Record.optional name get c).Reads n.named b) :
    (n.under? name = none ∧ b = none) ∨
      ∃ m, n.under? name = some m ∧ Record.readGiven c m = .ok b := by
  obtain ⟨missing, absent⟩ | found := under? h
  · exact .inl ⟨missing, (Option.some.inj absent).symm⟩
  · exact .inr found

theorem word {get : ρ → String} {s : String} (h : (Record.required name get .text).Reads n.named s) :
    (n.under? name).bind Node.word? = some s := by
  obtain ⟨m, found, decoded⟩ := required h
  rw [found, Option.bind_some, Node.word?, show m.text = .ok s from decoded]
  rfl

theorem wordD {get : ρ → String} {s value : String}
    (h : (Record.elided name get .text value).Reads n.named s) :
    s = ((n.under? name).bind Node.word?).getD value := by
  obtain ⟨none, rfl⟩ | ⟨m, found, decoded⟩ := elided h
  · rw [none]
    rfl
  · rw [found, Option.bind_some, Node.word?, show m.text = .ok s from decoded]
    rfl

end Record.Reads

/-- What is not given has no entries. -/
theorem readGiven_ok {c : Codec β} {b : Option β} (h : Record.readGiven c n = .ok b) :
    (b = none ∧ n.named = []) ∨ ∃ a, b = some a ∧ c.decode n = .ok a := by
  obtain ⟨given, hg, h⟩ := bind_eq_ok_iff.1 h
  cases given with
  | true =>
    obtain ⟨a, decoded, h⟩ := bind_eq_ok_iff.1 h
    cases h
    exact .inr ⟨a, rfl, decoded⟩
  | false =>
    cases h
    refine .inl ⟨rfl, ?_⟩
    cases n with
    | map tag entries => cases hg
    | _ => rfl

end Wire

/-! ## The parts of a manifest -/

namespace Package

/-- What is said about a package is what stands under these names. -/
structure Info.ReadFrom (i : Info) (under? : String → Option Node) : Prop where
  site : i.site = ((under? "site").bind Node.word?).getD ""
  description : i.description = ((under? "description").bind Node.word?).getD ""
  keywords : i.keywords = ((under? "keywords").bind Node.words?).getD []

theorem Info.decode_ok {n : Node} {i : Info} (h : Info.codec.decode n = .ok i) :
    i.ReadFrom n.under? := by
  have reads₃ := Codec.reads_of_record h
  obtain ⟨make, words, reads₂, keywords, rfl⟩ := (Record.reads_also_iff (by decide)).1 reads₃
  obtain ⟨make, description, reads₁, described, rfl⟩ := (Record.reads_also_iff (by decide)).1 reads₂
  obtain ⟨make, site, reads, sited, rfl⟩ := (Record.reads_also_iff (by decide)).1 reads₁
  obtain rfl := Record.reads_of_iff.1 reads
  refine ⟨sited.wordD, described.wordD, ?_⟩
  obtain ⟨none, rfl⟩ | ⟨m, found, decoded⟩ := keywords.elided
  · rw [none]
    rfl
  · rw [found, Option.bind_some, Node.words?,
      show (m.items >>= fun ns => ns.mapM Node.text) = .ok words from decoded]
    rfl

theorem Metadata.decode_ok {n : Node} {m : Metadata} (h : Metadata.codec.decode n = .ok m) :
    (n.under? "name").bind Node.word? = some m.name ∧
      ∀ a, m.annotations.get? a = (n.at? ["annotations", a]).bind Node.word? := by
  have reads₂ := Codec.reads_of_record h
  obtain ⟨make, annotations, reads₁, annotated, rfl⟩ := (Record.reads_also_iff (by decide)).1 reads₂
  obtain ⟨make, name, reads, named, rfl⟩ := (Record.reads_also_iff (by decide)).1 reads₁
  obtain rfl := Record.reads_of_iff.1 reads
  constructor
  · exact named.word
  · intro a
    rw [Node.at?_cons]
    obtain ⟨none, rfl⟩ | ⟨m, found, decoded⟩ := annotated.elided
    · rw [none]
      rfl
    · rw [found, Option.bind_some, Node.at?_singleton]
      exact Codec.get?_of_dict decoded a

namespace Kptfile

/-- Where the parts of a manifest are taken from. -/
structure ReadFrom (k : Kptfile) (n : Node) : Prop where
  apiVersion : (n.at? ["apiVersion"]).bind Node.word? = some k.apiVersion
  kind : (n.at? ["kind"]).bind Node.word? = some k.kind
  name : (n.at? ["metadata", "name"]).bind Node.word? = some k.name
  annotations : ∀ a,
    k.metadata.annotations.get? a = (n.at? ["metadata", "annotations", a]).bind Node.word?
  info : (k.info.getD {}).ReadFrom fun name => n.at? ["info", name]
  extra : ∀ name, k.extra.get? name =
    if name ∈ known.names then none else (n.under? name).bind Node.value?

/-- Fields are kept one by one, in their order. -/
theorem foldlM_keep_ok_iff {named : List (String × Node)} {start l : List (String × Value)} :
    named.foldlM (fun t e => keep e.1 e.2 t) start = .ok l ↔
      ∃ l', l = start ++ l' ∧ List.Forall₂ (Taken fun m => m.contents.toOption) named l' := by
  induction named generalizing start with
  | nil =>
    constructor
    · rintro ⟨⟩
      exact ⟨[], (List.append_nil l).symm, .nil⟩
    · rintro ⟨l', rfl, ⟨⟩⟩
      rw [List.append_nil]
      rfl
  | cons e rest ih =>
    rw [List.foldlM_cons, bind_eq_ok_iff]
    constructor
    · rintro ⟨next, kept, h⟩
      obtain ⟨v, contents, kept⟩ := bind_eq_ok_iff.1 kept
      cases kept
      obtain ⟨l', rfl, taken⟩ := ih.1 h
      exact ⟨(e.1, v) :: l', by simp, .cons ⟨rfl, congrArg Except.toOption contents⟩ taken⟩
    · rintro ⟨l', rfl, taken⟩
      cases taken with
      | @cons _ x _ l' first behind =>
        obtain ⟨name, v⟩ := x
        obtain ⟨rfl, first⟩ := first
        have contents : e.2.contents = .ok v := toOption_eq_some_iff.1 first
        refine ⟨start ++ [(e.1, v)], bind_eq_ok_iff.2 ⟨v, contents, rfl⟩, ih.2 ⟨l', by simp, behind⟩⟩

/-- A field is kept with all that is in it, if that has no tag and no key twice. -/
theorem kept_iff {named : List (String × Node)} {l : List (String × Value)} :
    (named.foldlM (fun t e => keep e.1 e.2 t) [] = .ok l ∧
        require (l.all fun e => e.2.wellKeyed) = .ok ()) ↔
      List.Forall₂ (Taken Node.kept?) named l := by
  have keyed : require (l.all fun e => e.2.wellKeyed) = .ok () ↔ ∀ e ∈ l, e.2.wellKeyed = true := by
    rw [← List.all_eq_true, require]
    split
    · next all => exact iff_of_true rfl all
    · next other => exact iff_of_false nofun other
  rw [foldlM_keep_ok_iff, keyed]
  constructor
  · rintro ⟨⟨l, rfl, taken⟩, keyed⟩
    refine forall₂_of_all taken fun x hx e h => ⟨h.1, Node.kept?_eq_some_iff.2 ⟨?_, keyed x hx⟩⟩
    exact toOption_eq_some_iff.1 h.2
  · intro kept
    have each := kept.imp fun e x h => And.intro h.1 (Node.kept?_eq_some_iff.1 h.2)
    refine ⟨⟨l, rfl, each.imp fun e x h => ⟨h.1, toOption_eq_some_iff.2 h.2.1⟩⟩, ?_⟩
    exact ((List.forall₂_and_left l named).1 (each.flip.imp fun x e h => ⟨h.2.2, h⟩)).1

/-- What the known fields of a document are read as, each on its own. -/
theorem reads_known {named : List (String × Node)} {make : Dict Value → Kptfile}
    (h : known.Reads named make) : ∃ k : Kptfile, (make = fun extra => { k with extra }) ∧
      (Record.required "apiVersion" apiVersion .text).Reads named k.apiVersion ∧
      (Record.required "kind" kind .text).Reads named k.kind ∧
      (Record.required "metadata" metadata Metadata.codec).Reads named k.metadata ∧
      (Record.optional "info" info Info.codec).Reads named k.info := by
  obtain ⟨make, info, reads₅, informed, rfl⟩ := (Record.reads_also_iff (by decide)).1 h
  obtain ⟨make, lock, reads₄, -, rfl⟩ := (Record.reads_also_iff (by decide)).1 reads₅
  obtain ⟨make, lineage, reads₃, -, rfl⟩ := (Record.reads_also_iff (by decide)).1 reads₄
  obtain ⟨make, metadata, reads₂, described, rfl⟩ := (Record.reads_also_iff (by decide)).1 reads₃
  obtain ⟨make, kind, reads₁, kinded, rfl⟩ := (Record.reads_also_iff (by decide)).1 reads₂
  obtain ⟨make, apiVersion, reads, versioned, rfl⟩ := (Record.reads_also_iff (by decide)).1 reads₁
  obtain rfl := Record.reads_of_iff.1 reads
  exact ⟨⟨apiVersion, kind, metadata, lineage, lock, info, ∅⟩, rfl, versioned, kinded, described,
    informed⟩

/-- **A manifest is read from the fields of a document**: the known ones by their codecs, and the others as
they can be kept. -/
theorem decode_ok_iff {n : Node} {k : Kptfile} : decode n = .ok k ↔
    ∃ make l, n.fields = .ok (.named (n.named.map fun e => (.ok e.1, e.2))) ∧
      known.Reads n.named make ∧ List.Forall₂ (Taken Node.kept?) (known.others n.named) l ∧
      k = make (Dict.ofList l) := by
  constructor
  · intro h
    obtain ⟨fields, hf, h⟩ := bind_eq_ok_iff.1 h
    cases fields with
    | listed values => exact (Node.fields_ne_listed hf).elim
    | named entries =>
      obtain ⟨⟨s, l⟩, read, h⟩ := bind_eq_ok_iff.1 h
      obtain ⟨make, finished, h⟩ := bind_eq_ok_iff.1 h
      obtain ⟨_, keyed, h⟩ := bind_eq_ok_iff.1 h
      cases h
      obtain ⟨named, rfl, gathers, kept⟩ := Record.readEntries_ok_iff.1 read
      obtain rfl := Node.named_of_fields hf
      exact ⟨make, l, hf, ⟨s, gathers, finished⟩, kept_iff.1 ⟨kept, keyed⟩, rfl⟩
  · rintro ⟨make, l, hf, ⟨s, gathers, finished⟩, kept, rfl⟩
    obtain ⟨kept, keyed⟩ := kept_iff.2 kept
    refine bind_eq_ok_iff.2 ⟨_, hf, bind_eq_ok_iff.2 ⟨(s, l), ?_, ?_⟩⟩
    · exact Record.readEntries_ok_iff.2 ⟨n.named, rfl, gathers, kept⟩
    · exact bind_eq_ok_iff.2 ⟨make, finished, bind_eq_ok_iff.2 ⟨(), keyed, rfl⟩⟩

/-- The text of an outline is one document, which is read as the manifest. -/
theorem parse_of_outline {text : String} {o : Outline}
    (tokens : Token.ofString text = o.tokens ++ [.streamEnd]) :
    parse text = decode (Node.ofDocument o.document) := by
  rw [parse, Codec.readYamlWith, Document.all_of_outline tokens]
  exact bind_pure _

/-- The fields that are not known are kept as they are. -/
theorem get?_of_kept {named : List (String × Node)} {l : List (String × Value)}
    (kept : List.Forall₂ (Taken Node.kept?) (known.others named) l) (name : String) :
    (Dict.ofList l).get? name =
      if name ∈ known.names then none else (named.reverse.lookup name).bind Node.value? := by
  have taken : List.Forall₂ (Taken Node.value?) (known.others named) l :=
    kept.imp fun e x h => ⟨h.1, (Option.filter_eq_some_iff.1 h.2).1⟩
  refine (get?_of_taken taken name).trans ?_
  rw [Record.others, ← List.filter_reverse, Dict.lookup_filter fun name => name ∉ known.names]
  by_cases h : name ∈ known.names
  · simp [h]
  · simp [h]

/-- **What a manifest is read from.** -/
theorem decode_ok {n : Node} {k : Kptfile} (h : decode n = .ok k) : k.ReadFrom n := by
  obtain ⟨make, l, -, reads, kept, rfl⟩ := decode_ok_iff.1 h
  obtain ⟨k, rfl, versioned, kinded, described, informed⟩ := reads_known reads
  obtain ⟨m, found, decoded⟩ := described.required
  obtain ⟨name, annotations⟩ := Metadata.decode_ok decoded
  exact {
    apiVersion := by rw [Node.at?_singleton, versioned.word]
    kind := by rw [Node.at?_singleton, kinded.word]
    name := by rwa [Node.at?_cons, found, Option.bind_some, Node.at?_singleton]
    annotations := fun a => by rw [Node.at?_cons, found, Option.bind_some, annotations]
    info := by
      obtain ⟨none, missing⟩ | ⟨m, found, given⟩ := informed.optional
      · simp only [Node.at?_cons, none, missing]
        exact ⟨rfl, rfl, rfl⟩
      · simp only [Node.at?_cons, found, Option.bind_some, Node.at?_nil, Option.bind_fun_some]
        obtain ⟨missing, none⟩ | ⟨i, there, decoded⟩ := readGiven_ok given
        · simp only [Node.under?, none, missing]
          exact ⟨rfl, rfl, rfl⟩
        · rw [there]
          exact Info.decode_ok decoded
    extra := fun name => by rw [get?_of_kept kept, Node.under?] }

end Kptfile

end Package

/-! ## Writing -/

namespace Wire

/-- A field of a form, or of entries that stand behind it. -/
theorem Form.field?_fieldsToYaml (fs : List (String × Form)) (others : List (String × Value))
    (name : String) :
    Value.field? (Form.fieldsToYaml fs ++ others.map fun e => (.str e.1, e.2)) name =
      ((fs.lookup name).map Form.toYaml).or (others.lookup name) := by
  have cons (k : String) (v : Value) (rest) : Value.field? ((.str k, v) :: rest) name =
      if name = k then some v else Value.field? rest name := by
    split
    · next h => rw [h, Value.field?_cons_same]
    · next h => exact Value.field?_cons_other fun same => h (Value.str.inj same).symm
  induction fs with
  | nil =>
    rw [Form.fieldsToYaml, List.nil_append, List.lookup_nil, Option.map_none, Option.none_or]
    induction others with
    | nil => rfl
    | cons e rest ih => rw [List.map_cons, cons, Dict.lookup_cons_ite, ih]
  | cons f rest ih =>
    rw [Form.fieldsToYaml, List.cons_append, cons, Dict.lookup_cons_ite, ih]
    split
    · rfl
    · rfl

/-- A field of a record. -/
theorem Form.get?_record (fs : List (String × Form)) (name : String) :
    (Form.record fs).toYaml.get? name = (fs.lookup name).map Form.toYaml := by
  have field := Form.field?_fieldsToYaml fs [] name
  rw [List.map_nil, List.append_nil, List.lookup_nil, Option.or_none] at field
  exact field

namespace Record

variable {ρ α β : Type} {a : ρ} {name x : String}

theorem lookup_write_also {f : Record ρ (β → α)} {g : Record ρ β} :
    ((f.also g).write a).lookup x = ((f.write a).lookup x).or ((g.write a).lookup x) :=
  List.lookup_append

theorem lookup_write_required {get : ρ → β} {c : Codec β} :
    ((required name get c).write a).lookup x = if x = name then some (c.encode (get a)) else none :=
  Dict.lookup_cons_ite x (name, c.encode (get a)) []

theorem lookup_write_elided [DecidableEq β] {get : ρ → β} {c : Codec β} {value : β} :
    ((elided name get c value).write a).lookup x =
      if x = name ∧ get a ≠ value then some (c.encode (get a)) else none := by
  unfold elided field
  by_cases h : get a = value
  · simp [h]
  · simp [h, Dict.lookup_cons_ite]

theorem lookup_write_optional {get : ρ → Option β} {c : Codec β} :
    ((optional name get c).write a).lookup x =
      if x = name then (get a).map c.encode else none := by
  unfold optional field
  cases h : get a with
  | none => simp [h]
  | some b => simp [h, Dict.lookup_cons_ite]

end Record

/-- A dictionary of texts is written entry by entry. -/
theorem Codec.get?_encode_dict (d : Dict String) (name : String) :
    ((Codec.dict Codec.text).encode d).toYaml.get? name = (d.get? name).map .str := by
  have entries (l : List (String × String)) :
      ((l.map fun e => (e.1, Codec.text.encode e.2)).lookup name).map Form.toYaml =
        (l.lookup name).map .str := by
    induction l with
    | nil => rfl
    | cons e rest ih =>
      rw [List.map_cons, Dict.lookup_cons_ite, Dict.lookup_cons_ite]
      split
      · rfl
      · exact ih
  exact (Form.get?_record _ name).trans (entries d.toList)

end Wire

namespace Package

open Record

/-- What is written of the metadata of a package. -/
theorem Metadata.get?_encode (m : Metadata) (x : String) : (Metadata.codec.encode m).toYaml.get? x =
    if x = "name" then some (.str m.name)
    else if x = "annotations" ∧ m.annotations ≠ ∅ then
      some ((Codec.dict Codec.text).encode m.annotations).toYaml
    else none := by
  refine (Form.get?_record _ x).trans ?_
  simp only [lookup_write_also, lookup_write_required, lookup_write_elided]
  split
  · rfl
  · split
    · rfl
    · rfl

/-- What is written of what is said about a package. -/
theorem Info.get?_encode (i : Info) (x : String) : (Info.codec.encode i).toYaml.get? x =
    if x = "site" ∧ i.site ≠ "" then some (.str i.site)
    else if x = "description" ∧ i.description ≠ "" then some (.str i.description)
    else if x = "keywords" ∧ i.keywords ≠ [] then some (.seq (i.keywords.map .str))
    else none := by
  refine (Form.get?_record _ x).trans ?_
  simp only [lookup_write_also, lookup_write_elided]
  split
  · rfl
  · split
    · rfl
    · split
      · refine congrArg some ?_
        show Value.seq (Form.itemsToYaml (i.keywords.map Form.text)) = _
        rw [Form.itemsToYaml_eq, List.map_map]
        rfl
      · rfl

namespace Kptfile

variable (k : Kptfile) {x : String}

/-- What is written of a manifest: the known fields, and the others. -/
theorem get?_toYaml (x : String) : k.toYaml.get? x =
    (((known.write k).lookup x).map Form.toYaml).or (k.extra.get? x) :=
  Form.field?_fieldsToYaml _ _ x

theorem lookup_write_known (x : String) : (known.write k).lookup x =
    if x = "apiVersion" then some (.text k.apiVersion)
    else if x = "kind" then some (.text k.kind)
    else if x = "metadata" then some (Metadata.codec.encode k.metadata)
    else if x = "upstream" then k.lineage.map Lineage.codec.encode
    else if x = "upstreamLock" then k.lock.map Lock.codec.encode
    else if x = "info" then k.info.map Info.codec.encode
    else none := by
  simp only [known, lookup_write_also, lookup_write_required, lookup_write_optional]
  split
  · rfl
  split
  · rfl
  split
  · rfl
  simp only [show (Record.of mk : Record Kptfile _).write k = [] from rfl, List.lookup_nil,
    Option.none_or]
  split
  · next h => subst h; simp
  split
  · next h => subst h; simp
  · rfl

theorem get?_toYaml_apiVersion : k.toYaml.get? "apiVersion" = some (.str k.apiVersion) := by
  rw [get?_toYaml, lookup_write_known]
  rfl

theorem get?_toYaml_kind : k.toYaml.get? "kind" = some (.str k.kind) := by
  rw [get?_toYaml, lookup_write_known]
  rfl

theorem get?_toYaml_metadata :
    k.toYaml.get? "metadata" = some (Metadata.codec.encode k.metadata).toYaml := by
  rw [get?_toYaml, lookup_write_known]
  rfl

/-- A field that is not known is written as it is. -/
theorem get?_toYaml_other (unknown : x ∉ known.names) : k.toYaml.get? x = k.extra.get? x := by
  have names : known.names = ["apiVersion", "kind", "metadata", "upstream", "upstreamLock", "info"] :=
    rfl
  simp only [names, List.mem_cons, List.not_mem_nil, or_false, not_or] at unknown
  rw [get?_toYaml, lookup_write_known]
  simp [unknown]

theorem at?_toYaml_metadata (x : String) :
    k.toYaml.at? ["metadata", x] = (Metadata.codec.encode k.metadata).toYaml.get? x := by
  rw [Value.at?, get?_toYaml_metadata]
  exact Option.bind_fun_some _

/-- Annotations are written as texts. -/
theorem at?_toYaml_annotations (name : String) : k.toYaml.at? ["metadata", "annotations", name] =
    (k.metadata.annotations.get? name).map .str := by
  rw [Value.at?, get?_toYaml_metadata, Option.bind_some, Value.at?, Metadata.get?_encode,
    if_neg (by decide)]
  by_cases none : k.metadata.annotations = ∅
  · rw [if_neg fun h => h.2 none, none]
    rfl
  · rw [if_pos ⟨rfl, none⟩, Option.bind_some, ← Codec.get?_encode_dict]
    exact Option.bind_fun_some _

/-- What is said about a package stands under one name, if it is said. -/
theorem at?_toYaml_info (said : k.info = none → k.extra.get? "info" = none) (x : String) :
    k.toYaml.at? ["info", x] = (Info.codec.encode (k.info.getD {})).toYaml.get? x := by
  have field : k.toYaml.get? "info" = k.info.map fun i => (Info.codec.encode i).toYaml := by
    rw [get?_toYaml, lookup_write_known]
    cases h : k.info with
    | none =>
      rw [said h]
      rfl
    | some i => rfl
  rw [Value.at?, field]
  cases k.info with
  | none =>
    rw [Option.getD_none, Info.get?_encode]
    simp
  | some i => exact Option.bind_fun_some _

end Kptfile

/-! ## Outlines of manifests -/

/-- A manifest as it is written: its kind, its metadata, and the other fields behind them. -/
def Kptfile.outline (metadata others : List (String × Outline)) : Outline :=
  .mapping ([("apiVersion", .word "kpt.dev/v1"), ("kind", .word "Kptfile"),
    ("metadata", .mapping metadata)] ++ others)

/-- The metadata of a new package. The mark is quoted, or else it would be a truth value. -/
def Kptfile.marked (name : String) : List (String × Outline) :=
  [("name", .word name), ("annotations", .mapping [(Kptfile.localConfigAnnotation, .quoted "true")])]

/-- A lineage or lock as it is written: a place in git, and the commit of a lock behind it. -/
def GitLocation.outline (l : GitLocation) (behind : List (String × Outline)) : Outline :=
  .mapping [("type", .word "git"), ("git", .mapping ([("repo", .word l.repo),
    ("directory", .word l.directory), ("ref", .word l.ref)] ++ behind))]

end Package

end PackageDepot
