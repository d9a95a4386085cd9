import Mathlib.Data.List.Forall2
import Mathlib.Data.List.Perm.Basic
import PackageDepot.Proofs.Wire.Record
import PackageDepot.Wire.Text

/-!
# Codecs that read what they write

A codec is `Lawful` if it reads a value from every node that `Shows` the form it writes for the value,
however the fields stand in the node. Codecs are lawful if their parts are; of a record that is said field
by field (`Record.Restores`): a field that is left out stands for the value that it was left out for. The
YAML value and the JSON value of a form show it, the JSON value also with its entries sorted, so a lawful
codec takes every value through each of them and back (`Lawful.roundTrips`).
-/

namespace PackageDepot.Wire

open Backend (bind_eq_ok_iff)

/-! ## Nodes and forms -/

section Nodes

variable {ν : Type} [Source ν]

mutual

/-- A node shows a form: it answers a reader as the form has it, with its fields in any order. -/
inductive Shows : ν → Form → Prop
  | text {n : ν} {s : String} (given : Source.given n = .ok true) (text : Source.text n = .ok s)
    (variant : Source.variant n = .ok (s, .ok ())) : Shows n (.text s)
  | list {n : ν} {ns : List ν} {fs : List Form} (given : Source.given n = .ok true)
    (items : Source.items n = .ok ns) (all : List.Forall₂ Shows ns fs) : Shows n (.list fs)
  | record {n : ν} {entries named : List (String × ν)} {fs : List (String × Form)}
    (given : Source.given n = .ok true)
    (fields : Source.fields n = .ok (.named (entries.map fun e => (.ok e.1, e.2))))
    (order : entries.Perm named) (all : List.Forall₂ ShowsField named fs) : Shows n (.record fs)

/-- A named node shows a field. -/
inductive ShowsField : String × ν → String × Form → Prop
  | mk (name : String) {n : ν} {f : Form} (shown : Shows n f) : ShowsField (name, n) (name, f)

end

theorem Shows.given {n : ν} {f : Form} (h : Shows n f) : Source.given n = .ok true := by
  cases h with
  | text given => exact given
  | list given => exact given
  | record given => exact given

/-- Named nodes show the fields of a record, in any order. -/
def ShowsFields (entries : List (String × ν)) (fs : List (String × Form)) : Prop :=
  ∃ named, entries.Perm named ∧ List.Forall₂ ShowsField named fs

variable {entries : List (String × ν)} {fs : List (String × Form)}

theorem showsFields_nil_iff : ShowsFields entries [] ↔ entries = [] := by
  constructor
  · rintro ⟨named, order, all⟩
    cases all
    exact order.eq_nil
  · rintro rfl
    exact ⟨[], .nil, .nil⟩

theorem ShowsFields.singleton {name : String} {f : Form} (h : ShowsFields entries [(name, f)]) :
    ∃ n, entries = [(name, n)] ∧ Shows n f := by
  obtain ⟨named, order, all⟩ := h
  obtain ⟨e, named, shown, none, rfl⟩ := List.forall₂_cons_right_iff.1 all
  cases none
  cases shown with
  | mk _ shown => exact ⟨_, List.perm_singleton.1 order, shown⟩

/-- The entries whose names are chosen show the fields whose names are chosen. -/
theorem ShowsFields.filter (h : ShowsFields entries fs) (p : String → Bool) :
    ShowsFields (entries.filter fun e => p e.1) (fs.filter fun f => p f.1) := by
  obtain ⟨named, order, all⟩ := h
  refine ⟨named.filter fun e => p e.1, order.filter _, ?_⟩
  clear order
  induction all with
  | nil => exact .nil
  | @cons e f named fs shown _ ih =>
    obtain ⟨name, shown⟩ := shown
    by_cases chosen : p name
    · rw [List.filter_cons_of_pos (by exact chosen), List.filter_cons_of_pos (by exact chosen)]
      exact .cons (.mk name shown) ih
    · rw [List.filter_cons_of_neg (by exact chosen), List.filter_cons_of_neg (by exact chosen)]
      exact ih

theorem ShowsFields.names (h : ShowsFields entries fs) :
    (entries.map Prod.fst).Perm (fs.map Prod.fst) := by
  obtain ⟨named, order, all⟩ := h
  refine (order.map _).trans ?_
  clear order
  induction all with
  | nil => exact .nil
  | cons shown _ ih =>
    cases shown
    exact ih.cons _

end Nodes

/-! ## Distinct names -/

/-- No record in a form has two fields of one name. -/
inductive Form.Distinct : Form → Prop
  | text (s : String) : Distinct (.text s)
  | list {fs : List Form} (all : ∀ f ∈ fs, Distinct f) : Distinct (.list fs)
  | record {fs : List (String × Form)} (names : (fs.map Prod.fst).Nodup)
    (all : ∀ f ∈ fs, Distinct f.2) : Distinct (.record fs)

/-! ## Codecs -/

/-- A codec reads every value from what shows the form that it writes for the value. -/
structure Codec.Lawful {α : Type} (c : Codec α) : Prop where
  distinct : ∀ a, (c.encode a).Distinct
  reads : ∀ {ν : Type} [Source ν] {n : ν} {a : α}, Shows n (c.encode a) → c.decode n = .ok a

/-- A record whose names are distinct reads its fields from what shows the fields that it writes for `a`, and
makes `b` of them. -/
structure Record.Restores {ρ α : Type} (r : Record ρ α) (a : ρ) (b : α) : Prop where
  known : ∀ f ∈ r.write a, f.1 ∈ r.names
  distinct : r.names.Nodup → (Form.record (r.write a)).Distinct
  reads : r.names.Nodup → ∀ {ν : Type} [Source ν] {entries : List (String × ν)},
    ShowsFields (r.mine entries) (r.write a) → r.Reads entries b

/-- The entries that a record knows, among those that it knows together with other records. -/
theorem Record.filter_mine {ρ α : Type} {ν : Type} {r : Record ρ α} {names : List String}
    (known : ∀ x ∈ r.names, x ∈ names) (entries : List (String × ν)) :
    (entries.filter fun e => e.1 ∈ names).filter (fun e => e.1 ∈ r.names) = r.mine entries := by
  rw [List.filter_filter]
  refine List.filter_congr fun e _ => ?_
  by_cases h : e.1 ∈ r.names
  · simp [h, known e.1 h]
  · simp [h]

namespace Record.Restores

variable {ρ α β : Type} {a : ρ}

theorem of (b : α) : (Record.of b).Restores a b where
  known := nofun
  distinct _ := .record .nil nofun
  reads _ {_ _ _} _ := reads_of_iff.2 rfl

/-- A record with one more field restores what the record and the field restore. -/
theorem also {f : Record ρ (β → α)} {g : Record ρ β} {make : β → α} {b : β} (hf : f.Restores a make)
    (hg : g.Restores a b) : (f.also g).Restores a (make b) where
  known e he := by
    obtain first | second := List.mem_append.1 he
    · exact List.mem_append_left _ (hf.known e first)
    · exact List.mem_append_right _ (hg.known e second)
  distinct nodup := by
    obtain ⟨first, second, apart⟩ := List.nodup_append.1 nodup
    obtain _ | _ | ⟨namesf, allf⟩ := hf.distinct first
    obtain _ | _ | ⟨namesg, allg⟩ := hg.distinct second
    refine .record ?_ fun e he => (List.mem_append.1 he).elim (allf e) (allg e)
    show ((f.write a ++ g.write a).map Prod.fst).Nodup
    rw [List.map_append, List.nodup_append]
    refine ⟨namesf, namesg, ?_⟩
    rintro x hx y hy rfl
    obtain ⟨d, hd, rfl⟩ := List.mem_map.1 hx
    obtain ⟨e, he, same⟩ := List.mem_map.1 hy
    exact apart d.1 (hf.known d hd) e.1 (hg.known e he) same.symm
  reads nodup {ν _ entries} shown := by
    obtain ⟨first, second, apart⟩ := List.nodup_append.1 nodup
    have apart : ∀ x ∈ f.names, x ∉ g.names := fun x hf hg => apart x hf x hg rfl
    -- The fields of a part are those with its names, and so are the entries that show them.
    have part {γ : Type} {r : Record ρ γ} (known : ∀ x ∈ r.names, x ∈ (f.also g).names)
        (fields : (f.write a ++ g.write a).filter (fun e => e.1 ∈ r.names) = r.write a) :
        ShowsFields (r.mine entries) (r.write a) := by
      rw [← filter_mine known, ← fields]
      exact shown.filter fun x => x ∈ r.names
    refine (reads_also_iff apart).2 ⟨make, b, hf.reads first (part ?_ ?_), hg.reads second (part ?_ ?_), rfl⟩
    · exact fun x hx => List.mem_append_left _ hx
    · rw [List.filter_append, List.filter_eq_self.2, List.filter_eq_nil_iff.2, List.append_nil]
      · exact fun e he => by simpa using fun first => apart e.1 first (hg.known e he)
      · exact fun e he => by simpa using hf.known e he
    · exact fun x hx => List.mem_append_right _ hx
    · rw [List.filter_append, List.filter_eq_nil_iff.2, List.filter_eq_self.2, List.nil_append]
      · exact fun e he => by simpa using hg.known e he
      · exact fun e he => by simpa using apart e.1 (hf.known e he)

/-- A field restores its value: from what is written, or as what stands for it where nothing is. -/
theorem field {name : String} {aliases : List String} {get : ρ → β}
    {decode : ∀ {ν : Type} [Source ν], ν → Except Fault β} {absent : Option β}
    {write : β → Option Form} (distinct : ∀ f, write (get a) = some f → f.Distinct)
    (written : ∀ {ν : Type} [Source ν] {n : ν} f, write (get a) = some f → Shows n f →
      decode n = .ok (get a))
    (left : write (get a) = none → absent = some (get a)) :
    (Record.field name aliases get decode absent write).Restores a (get a) := by
  have fields : (Record.field name aliases get decode absent write).write a =
      ((write (get a)).map fun f => (name, f)).toList := rfl
  cases h : write (get a) with
  | none =>
    rw [h] at fields
    refine ⟨?_, ?_, ?_⟩
    · rw [fields]
      exact nofun
    · intro _
      rw [fields]
      exact .record .nil nofun
    · intro _ ν _ entries shown
      rw [fields] at shown
      exact reads_field_iff.2 (.inl ⟨showsFields_nil_iff.1 shown, left h⟩)
  | some f =>
    rw [h] at fields
    refine ⟨?_, ?_, ?_⟩
    · rw [fields]
      intro e he
      cases List.mem_singleton.1 he
      exact List.mem_cons_self
    · intro _
      rw [fields]
      refine .record (by simp) fun e he => ?_
      cases List.mem_singleton.1 he
      exact distinct f h
    · intro _ ν _ entries shown
      rw [fields] at shown
      obtain ⟨n, one, shown⟩ := shown.singleton
      exact reads_field_iff.2 (.inr ⟨(name, n), one, written f h shown⟩)

variable {name : String} {c : Codec β}

theorem required {get : ρ → β} {aliases : List String} (hc : c.Lawful) :
    (Record.required name get c aliases).Restores a (get a) :=
  field (fun _ h => Option.some.inj h ▸ hc.distinct _)
    (fun _ h shown => hc.reads (Option.some.inj h ▸ shown)) nofun

theorem withDefault {get : ρ → β} {value : β} (hc : c.Lawful) :
    (Record.withDefault name get c value).Restores a (get a) :=
  field (fun _ h => Option.some.inj h ▸ hc.distinct _)
    (fun _ h shown => hc.reads (Option.some.inj h ▸ shown)) nofun

/-- A field is left out exactly where its value is the one that it stands for. -/
theorem elided [DecidableEq β] {get : ρ → β} {value : β} (hc : c.Lawful) :
    (Record.elided name get c value).Restores a (get a) := by
  refine field (fun f h => ?_) (fun f h shown => ?_) fun h => ?_
  · split at h
    · cases h
    · exact Option.some.inj h ▸ hc.distinct _
  · split at h
    · cases h
    · exact hc.reads (Option.some.inj h ▸ shown)
  · split at h
    · next same => exact congrArg some same.symm
    · cases h

/-- A value that is not there is left out. -/
theorem optional {get : ρ → Option β} (hc : c.Lawful) :
    (Record.optional name get c).Restores a (get a) := by
  refine field (fun f h => ?_) (fun f h shown => ?_) fun h => ?_
  · obtain ⟨b, -, rfl⟩ := Option.map_eq_some_iff.1 h
    exact hc.distinct b
  · obtain ⟨b, there, rfl⟩ := Option.map_eq_some_iff.1 h
    rw [there]
    exact bind_eq_ok_iff.2 ⟨true, shown.given, bind_eq_ok_iff.2 ⟨b, hc.reads shown, rfl⟩⟩
  · rw [Option.map_eq_none_iff.1 h]

end Record.Restores

namespace Codec

variable {α : Type}

theorem text_lawful : text.Lawful where
  distinct s := .text s
  reads shown := by
    cases shown with
    | text _ text => exact text

/-- A value is told by its name. -/
theorem named_lawful {name : α → String} {all : List α}
    (told : ∀ a, all.find? (fun b => name b == name a) = some a) : (named name all).Lawful where
  distinct a := .text (name a)
  reads {ν _ n a} shown := by
    cases shown with
    | text _ _ variant =>
      refine bind_eq_ok_iff.2 ⟨_, variant, ?_⟩
      dsimp only
      rw [told a]
      rfl

theorem list_lawful {c : Codec α} (hc : c.Lawful) : (list c).Lawful where
  distinct as := .list fun f hf => by
    obtain ⟨a, -, rfl⟩ := List.mem_map.1 hf
    exact hc.distinct a
  reads {ν _ n as} shown := by
    cases shown with
    | @list _ ns _ _ items all =>
      refine bind_eq_ok_iff.2 ⟨ns, items, ?_⟩
      rw [List.forall₂_map_right_iff] at all
      clear items
      induction all with
      | nil => rfl
      | cons shown _ ih =>
        rw [List.mapM_cons]
        exact bind_eq_ok_iff.2 ⟨_, hc.reads shown, bind_eq_ok_iff.2 ⟨_, ih, rfl⟩⟩

/-- The entries of a dictionary may stand in any order. -/
theorem dict_lawful {c : Codec α} (hc : c.Lawful) : (dict c).Lawful where
  distinct d := by
    refine .record ?_ fun f hf => ?_
    · rw [List.map_map]
      exact d.keys_nodup
    · obtain ⟨e, -, rfl⟩ := List.mem_map.1 hf
      exact hc.distinct e.2
  reads {ν _ n d} shown := by
    cases shown with
    | @record _ entries named _ _ fields order all =>
      rw [List.forall₂_map_right_iff] at all
      obtain ⟨l, taken, same⟩ := List.perm_comp_forall₂ order all
      have read : (entries.map fun e => ((.ok e.1 : Except Fault String), e.2)).mapM
          (fun e => do return (← e.1, ← c.decode e.2)) = .ok l := by
        clear fields order all same
        induction taken with
        | nil => rfl
        | @cons e v entries l shown _ ih =>
          cases shown with
          | mk _ shown =>
            rw [List.map_cons, List.mapM_cons]
            refine bind_eq_ok_iff.2 ⟨v, ?_, bind_eq_ok_iff.2 ⟨_, ih, rfl⟩⟩
            exact bind_eq_ok_iff.2 ⟨_, rfl, bind_eq_ok_iff.2 ⟨_, hc.reads shown, rfl⟩⟩
      refine bind_eq_ok_iff.2 ⟨_, fields, bind_eq_ok_iff.2 ⟨l, read, ?_⟩⟩
      exact congrArg Except.ok (Dict.ofList_of_perm same)

/-- A record that restores its own fields. -/
theorem record_lawful {ρ : Type} {r : Record ρ ρ} {back : ρ → ρ} (restores : ∀ a, r.Restores a (back a))
    (same : ∀ a, back a = a) (names : decide r.names.Nodup = true) : (record r).Lawful where
  distinct a := (restores a).distinct (of_decide_eq_true names)
  reads {ν _ n a} shown := by
    cases shown with
    | @record _ entries _ _ _ fields order all =>
      have shown : ShowsFields entries (r.write a) := ⟨_, order, all⟩
      have known : ∀ e ∈ entries, e.1 ∈ r.names := fun e he => by
        have there := shown.names.subset (List.mem_map_of_mem he)
        obtain ⟨f, hf, same⟩ := List.mem_map.1 there
        exact same ▸ (restores a).known f hf
      have mine : r.mine entries = entries := List.filter_eq_self.2 fun e he => by simpa using known e he
      have others : r.others entries = [] := List.filter_eq_nil_iff.2 fun e he => by
        simpa using known e he
      obtain ⟨s, gathers, finished⟩ := (restores a).reads (of_decide_eq_true names) (mine.symm ▸ shown)
      refine bind_eq_ok_iff.2 ⟨_, fields, bind_eq_ok_iff.2 ⟨(s, ()), ?_, ?_⟩⟩
      · exact Record.readEntries_ok_iff.2 ⟨entries, rfl, gathers, by rw [others]; rfl⟩
      · exact same a ▸ finished

end Codec

/-! ## Values -/

section Values

variable {ν : Type} [Source ν] {n : ν}

/-- A list of nodes that show the items of a list. -/
theorem Shows.ofItems {fs : List Form} (value : Form → ν) (given : Source.given n = .ok true)
    (items : Source.items n = .ok (fs.map value)) (all : ∀ f ∈ fs, Shows (value f) f) :
    Shows n (.list fs) :=
  .list given items (List.forall₂_map_left_iff.2 (List.forall₂_same.2 all))

/-- Nodes in any order that show the fields of a record, each under its own name. -/
theorem Shows.ofFields {fs : List (String × Form)} (value : Form → ν) (entries : List (String × ν))
    (given : Source.given n = .ok true)
    (fields : Source.fields n = .ok (.named (entries.map fun e => (.ok e.1, e.2))))
    (order : entries.Perm (fs.map fun f => (f.1, value f.2))) (all : ∀ f ∈ fs, Shows (value f.2) f.2) :
    Shows n (.record fs) :=
  .record given fields order
    (List.forall₂_map_left_iff.2 (List.forall₂_same.2 fun f hf => .mk f.1 (all f hf)))

end Values

/-- The fields of a JSON object. -/
theorem fields_obj (entries : List (String × Json)) :
    Source.fields (Json.Node.ofValue (.obj entries)) =
      .ok (.named ((entries.map fun e => (e.1, Json.Node.ofValue e.2)).map fun e => (.ok e.1, e.2))) := by
  rw [Json.Node.ofValue, Json.Node.ofEntries_eq, List.map_map]
  refine congrArg (Except.ok ∘ Fields.named) ?_
  rw [List.map_map]
  rfl

namespace Form

theorem shows_toYaml (f : Form) : Shows f.toYaml f := by
  induction f using Form.induction with
  | text s => exact .text rfl rfl rfl
  | list fs ih => exact .ofItems toYaml rfl (congrArg Except.ok (itemsToYaml_eq fs)) ih
  | record fs ih =>
    refine .ofFields toYaml (fs.map fun f => (f.1, f.2.toYaml)) rfl ?_ (.refl _) ih
    rw [toYaml, fieldsToYaml_eq]
    refine congrArg (Except.ok ∘ Fields.named) ?_
    rw [List.map_map, List.map_map]
    rfl

theorem shows_toJson (f : Form) : Shows (Json.Node.ofValue f.toJson) f := by
  induction f using Form.induction with
  | text s => exact .text rfl rfl rfl
  | list fs ih =>
    refine .ofItems (fun f => Json.Node.ofValue f.toJson) rfl ?_ ih
    rw [toJson, itemsToJson_eq, Json.Node.ofValue, Json.Node.ofItems_eq, List.map_map]
    rfl
  | record fs ih =>
    refine .ofFields (fun f => Json.Node.ofValue f.toJson) _ rfl (fields_obj _) ?_ ih
    rw [fieldsToJson_eq, List.map_map]
    exact .refl _

/-- The entries of a JSON value may be sorted, as there is no key twice. -/
theorem Distinct.shows_sorted {f : Form} (h : f.Distinct) :
    Shows (Json.Node.ofValue f.toJson.sorted) f := by
  induction f using Form.induction with
  | text s => exact .text rfl rfl rfl
  | list fs ih =>
    obtain _ | all := h
    refine .ofItems (fun f => Json.Node.ofValue f.toJson.sorted) rfl ?_ fun f hf => ih f hf (all f hf)
    rw [toJson, itemsToJson_eq, Json.sorted, Json.sortedItems_eq, Json.Node.ofValue,
      Json.Node.ofItems_eq, List.map_map, List.map_map]
    rfl
  | record fs ih =>
    obtain _ | _ | ⟨names, all⟩ := h
    refine .ofFields (fun f => Json.Node.ofValue f.toJson.sorted) _ rfl (fields_obj _) ?_
      fun f hf => ih f hf (all f hf)
    have distinct : ((fieldsToJson fs).map Prod.fst).Nodup := by
      rwa [fieldsToJson_eq, List.map_map]
    refine ((Json.sortedEntries_perm distinct).map _).trans ?_
    rw [fieldsToJson_eq, List.map_map, List.map_map]
    exact .refl _

end Form

/-- A codec takes every value to its JSON value, with the entries in the order of the declaration or sorted,
and to its YAML value, and back. -/
structure Codec.RoundTrips {α : Type} (c : Codec α) : Prop where
  json : ∀ a, c.ofJson (c.toJson a) = .ok a
  sorted : ∀ a, c.ofJson (c.toJson a).sorted = .ok a
  yaml : ∀ a, c.ofYaml (c.toYaml a) = .ok a

theorem Codec.Lawful.roundTrips {α : Type} {c : Codec α} (hc : c.Lawful) : c.RoundTrips where
  json a := hc.reads (c.encode a).shows_toJson
  sorted a := hc.reads (hc.distinct a).shows_sorted
  yaml a := hc.reads (c.encode a).shows_toYaml

end PackageDepot.Wire
