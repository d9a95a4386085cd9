import Mathlib.Data.List.Nodup
import PackageDepot.Proofs.Pipeline.Untouched
import PackageDepot.Proofs.Wire.Nodes
import PackageDepot.Proofs.Wire.RoundTrips

/-!
# Manifests are read back

The known fields of a manifest and the others share one mapping. What keeps them apart is that no field of a
known name is among the others (`Kptfile.Proper`): so it is with every manifest that was read, with every new
one, and whatever name and lineage they are given. `Kptfile.parse_render` says that such a manifest is read
back from its text, if only the value that is rendered is read back. Its two halves meet at `Wire.Shows`, as
the nodes of the text show the forms of the known fields, and a lawful codec reads these.
-/

namespace PackageDepot

open Package Yaml Wire Wire.Codec
open Wire.Record.Restores (of)
open Backend (bind_eq_ok_iff)

namespace Package

/-! ## The known fields -/

theorem GitLocation.manifestCodec_lawful : GitLocation.manifestCodec.Lawful :=
  record_lawful (fun _ => (of _).also (.required text_lawful)
    |>.also (.withDefault text_lawful)
    |>.also (.required text_lawful)) (fun _ => rfl) rfl

theorem Lineage.codec_lawful : Lineage.codec.Lawful :=
  record_lawful (fun _ => (of _).also (.required Origin.codec_lawful)
    |>.also (.optional GitLocation.manifestCodec_lawful)) (fun _ => rfl) rfl

theorem Metadata.codec_lawful : Metadata.codec.Lawful :=
  record_lawful (fun _ => (of _).also (.required text_lawful)
    |>.also (.elided (dict_lawful text_lawful))) (fun _ => rfl) rfl

theorem Info.codec_lawful : Info.codec.Lawful :=
  record_lawful (fun _ => (of _).also (.elided text_lawful)
    |>.also (.elided text_lawful)
    |>.also (.elided (list_lawful text_lawful))) (fun _ => rfl) rfl

namespace Kptfile

variable {k : Kptfile} {n : Node} {name : String}

theorem known_restores (k : Kptfile) : known.Restores k fun extra => { k with extra } :=
  (of _).also (.required text_lawful)
    |>.also (.required text_lawful)
    |>.also (.required Metadata.codec_lawful)
    |>.also (.optional Lineage.codec_lawful)
    |>.also (.optional Lock.codec_lawful)
    |>.also (.optional Info.codec_lawful)

/-! ## The other fields -/

/-- The other fields of a manifest have none of the known names, and no tags. -/
def Proper (k : Kptfile) : Prop :=
  ∀ name v, k.extra.get? name = some v → name ∉ known.names ∧ v.untaggedThroughout = true

/-- The manifest of another package with another lineage. -/
def moved (k : Kptfile) (name : String) (lineage : Option Lineage) (lock : Option Lock) : Kptfile :=
  { k with metadata := { k.metadata with name }, lineage, lock }

theorem proper_named (name : String) (info : Option Info) : { named name with info }.Proper := nofun

theorem Proper.moved (h : k.Proper) (name : String) (lineage : Option Lineage) (lock : Option Lock) :
    (k.moved name lineage lock).Proper := h

/-- What is read from the other fields of a document. -/
theorem extra_of_decode (h : decode n = .ok k) (name : String) :
    k.extra.get? name = ((known.others n.named).reverse.lookup name).bind Node.kept? := by
  obtain ⟨make, l, -, reads, kept, rfl⟩ := decode_ok_iff.1 h
  obtain ⟨k, rfl, -⟩ := reads_known reads
  exact get?_of_taken kept name

theorem proper_of_decode (h : decode n = .ok k) : k.Proper := by
  intro name v there
  have from_node := (extra_of_decode h name).symm.trans there
  obtain ⟨m, found, kept⟩ := Option.bind_eq_some_iff.1 from_node
  have other := List.mem_reverse.1 (Dict.mem_of_lookup found)
  exact ⟨of_decide_eq_true (List.mem_filter.1 other).2, (Option.filter_eq_some_iff.1 kept).2⟩

/-- A field of a document is kept as it is: in the manifest, and in what is written for it under whatever
name and lineage. -/
structure Keeps (k : Kptfile) (name : String) (n : Node) (v : Value) : Prop where
  said : n.value? = some v
  kept : k.extra.get? name = some v
  written : k.toYaml.get? name = some v
  moved : ∀ name' lineage lock, (k.moved name' lineage lock).toYaml.get? name = some v

/-- **What is not known is kept.** Of two fields with one name the later one counts. -/
theorem keeps_of_under? (h : decode n = .ok k) (unknown : name ∉ known.names) {m : Node}
    (there : n.under? name = some m) : ∃ v, k.Keeps name m v := by
  have found : (known.others n.named).reverse.lookup name = some m := by
    rw [Record.others, ← List.filter_reverse, Dict.lookup_filter fun name => name ∉ known.names,
      if_pos (decide_eq_true unknown)]
    exact there
  obtain ⟨make, l, -, -, kept, -⟩ := decode_ok_iff.1 h
  obtain ⟨v, said⟩ := exists_of_taken kept (List.mem_reverse.1 (Dict.mem_of_lookup found))
  have extra : k.extra.get? name = some v := by
    rw [extra_of_decode h, found]
    exact said
  exact ⟨v, (Option.filter_eq_some_iff.1 said).1, extra, (k.get?_toYaml_other unknown).trans extra,
    fun _ _ _ => (get?_toYaml_other _ unknown).trans extra⟩

/-! ## Reading back -/

theorem wellKeyed_of_mem {seen : List Value} {es : List (Value × Value)}
    (h : Value.wellKeyedEntries seen es = true) : ∀ e ∈ es, e.2.wellKeyed = true := by
  induction es generalizing seen with
  | nil => exact nofun
  | cons e rest ih =>
    rw [Value.wellKeyedEntries, Bool.and_eq_true, Bool.and_eq_true, Bool.and_eq_true] at h
    exact List.forall_mem_cons.2 ⟨h.1.1.2, ih h.2⟩

/-- The entries of a manifest: the known fields, and the others. -/
def written (k : Kptfile) : List (String × Value) :=
  ((known.write k).map fun f => (f.1, f.2.toYaml)) ++ k.extra.toList

theorem toYaml_eq_written (k : Kptfile) :
    k.toYaml = .map (k.written.map fun e => (.str e.1, e.2)) := by
  rw [toYaml, written, List.map_append, List.map_map, Form.fieldsToYaml_eq]
  rfl

/-- In a node that says the value of a manifest, the names tell the known fields from the others. -/
theorem parts_of_written (proper : k.Proper) {named : List (String × Node)}
    (taken : List.Forall₂ (Taken Node.contents?) named k.written) :
    ShowsFields (known.mine named) (known.write k) ∧
      List.Forall₂ (Taken Node.contents?) (known.others named) k.extra.toList := by
  -- The known fields are written first. So the entries fall into two parts, and the names tell them apart.
  obtain ⟨front, back, rfl, first, second⟩ : ∃ front back, named = front ++ back ∧
      List.Forall₂ (Taken Node.contents?) front ((known.write k).map fun f => (f.1, f.2.toYaml)) ∧
      List.Forall₂ (Taken Node.contents?) back k.extra.toList :=
    ⟨_, _, (List.take_append_drop _ _).symm, List.forall₂_take_append _ _ _ taken,
      List.forall₂_drop_append _ _ _ taken⟩
  have front_known : ∀ e ∈ front, e.1 ∈ known.names := fun e he => by
    have there := names_of_taken first ▸ List.mem_map_of_mem he
    rw [List.map_map] at there
    obtain ⟨f, hf, same⟩ := List.mem_map.1 there
    exact same ▸ (known_restores k).known f hf
  have back_other : ∀ e ∈ back, e.1 ∉ known.names := fun e he => by
    have there := names_of_taken second ▸ List.mem_map_of_mem he
    obtain ⟨x, hx, same⟩ := List.mem_map.1 there
    exact same ▸ (proper x.1 x.2 (Dict.get?_eq_some_iff.2 hx)).1
  have mine : known.mine (front ++ back) = front := by
    rw [Record.mine, List.filter_append, List.filter_eq_self.2, List.filter_eq_nil_iff.2,
      List.append_nil]
    · simpa using back_other
    · simpa using front_known
  have others : known.others (front ++ back) = back := by
    rw [Record.others, List.filter_append, List.filter_eq_nil_iff.2, List.filter_eq_self.2,
      List.nil_append]
    · simpa using back_other
    · simpa using front_known
  rw [mine, others]
  exact ⟨⟨front, .refl _, Form.showsFields_of_taken first fun _ _ _ => Form.shows_of_contents?⟩,
    second⟩

/-- A node that says the value of a manifest is read as the manifest. -/
theorem decode_of_value? (proper : k.Proper) (h : n.value? = some k.toYaml) : decode n = .ok k := by
  obtain ⟨said, keyed⟩ := Option.filter_eq_some_iff.1 h
  rw [toYaml_eq_written] at said keyed
  have keyed := wellKeyed_of_mem keyed
  obtain ⟨named, -, fields, taken⟩ := Node.fields_of_contents? said
  obtain rfl := Node.named_of_fields fields
  obtain ⟨shown, others⟩ := parts_of_written proper taken
  refine decode_ok_iff.2 ⟨fun extra => { k with extra }, k.extra.toList, fields,
    (known_restores k).reads (by decide) shown, ?_, ?_⟩
  · refine forall₂_of_all others fun x hx e h => ⟨h.1, ?_⟩
    have keyed := keyed (.str x.1, x.2) (by
      rw [written, List.map_append]
      exact List.mem_append_right _ (List.mem_map_of_mem hx))
    have untagged := (proper x.1 x.2 (Dict.get?_eq_some_iff.2 hx)).2
    exact Option.filter_eq_some_iff.2 ⟨Option.filter_eq_some_iff.2 ⟨h.2, keyed⟩, untagged⟩
  · rw [Dict.ofList_of_perm (.refl _)]

/-- **A manifest is read back from its text**, if its value is. -/
theorem parse_render (proper : k.Proper) (back : k.toYaml.ReadsBack) : k.ReadsBack := by
  obtain ⟨d, document, intact, said⟩ := Value.readAll?_eq_some_singleton_iff.1 back
  show Codec.readYamlWith decode k.toYaml.render = .ok k
  rw [Codec.readYamlWith, document]
  show (decode (Node.ofDocument d) >>= fun a => require (d.intact && true) >>= fun _ => pure a) = .ok k
  rw [decode_of_value? proper said, intact]
  rfl

/-- A manifest is read back from its text, as it is and under every name and lineage that it is given, if
the value that is rendered is read back. -/
structure RoundTrips (k : Kptfile) : Prop where
  same : k.toYaml.ReadsBack → k.ReadsBack
  moved : ∀ name lineage lock, (k.moved name lineage lock).toYaml.ReadsBack →
    (k.moved name lineage lock).ReadsBack

theorem Proper.roundTrips (proper : k.Proper) : k.RoundTrips where
  same := parse_render proper
  moved name lineage lock := parse_render (proper.moved name lineage lock)

end Kptfile

end Package

/-! ## Documents with distinct keys -/

namespace Yaml.Node

/-- The entries of a mapping. -/
def entries : Node → List (Node × Node)
  | .map _ entries => entries
  | _ => []

variable {n : Node}

/-- The fields of a node are its entries. -/
theorem entries_of_fields (h : n.fields = .ok (.named (n.named.map fun e => (.ok e.1, e.2)))) :
    n.entries.map (fun e => (e.1.text, e.2)) = n.named.map fun e => (.ok e.1, e.2) := by
  cases n with
  | map tag entries => exact Fields.named.inj (Except.ok.inj h)
  | _ => rfl

/-- If no two keys have one text, each entry is the one of its key. -/
theorem under?_of_entries (h : n.fields = .ok (.named (n.named.map fun e => (.ok e.1, e.2))))
    (distinct : (n.entries.map fun e => e.1.text).Nodup) {e : Node × Node} (he : e ∈ n.entries) :
    ∃ name, e.1.text = .ok name ∧ n.under? name = some e.2 := by
  have same := entries_of_fields h
  have there : (e.1.text, e.2) ∈ n.named.map fun e => (.ok e.1, e.2) := by
    rw [← same]
    exact List.mem_map_of_mem he
  obtain ⟨⟨name, m⟩, hm, hx⟩ := List.mem_map.1 there
  obtain ⟨key, rfl⟩ := Prod.mk.inj hx
  have names : (n.named.map Prod.fst).Nodup := by
    have keys := congrArg (List.map Prod.fst) same
    rw [List.map_map, List.map_map] at keys
    rw [show n.entries.map (fun e => e.1.text) = _ from keys] at distinct
    exact .of_map _ (by rwa [List.map_map])
  have reversed : (n.named.reverse.map Prod.fst).Nodup := by
    rw [List.map_reverse]
    exact List.nodup_reverse.2 names
  exact ⟨name, key.symm, (Dict.lookup_eq_some_iff_mem reversed).2 (List.mem_reverse.2 hm)⟩

end Yaml.Node

/-- **Manifests round-trip.** A manifest that was read, and a new one with whatever is said about the
package, is read back from its text, also under another name and with another lineage. Of the document that
it was read from, each field that is not known is kept as it is; keys count by their texts, and of two keys
with one text the later one counts. -/
theorem Package.Kptfile.round_trip :
    (∀ text k, Kptfile.parse text = .ok k → k.RoundTrips ∧
      ∃ d, Document.all text = [d] ∧
        (∀ name m, (Node.ofDocument d).under? name = some m → name ∉ known.names →
          ∃ v, k.Keeps name m v) ∧
        (((Node.ofDocument d).entries.map fun e => e.1.text).Nodup → ∀ e ∈ (Node.ofDocument d).entries,
          ∃ name, e.1.text = .ok name ∧ (name ∉ known.names → ∃ v, k.Keeps name e.2 v))) ∧
    ∀ name info, Kptfile.RoundTrips { Kptfile.named name with info } := by
  constructor
  · intro text k parsed
    obtain ⟨d, document, decoded⟩ := decode_of_parse parsed
    obtain ⟨-, -, fields, -⟩ := decode_ok_iff.1 decoded
    refine ⟨(proper_of_decode decoded).roundTrips, d, document, ?_, ?_⟩
    · exact fun name m there unknown => keeps_of_under? decoded unknown there
    · intro distinct e he
      obtain ⟨name, key, there⟩ := Node.under?_of_entries fields distinct he
      exact ⟨name, key, fun unknown => keeps_of_under? decoded unknown there⟩
  · exact fun name info => (proper_named name info).roundTrips

/-! ## A document, and a new manifest -/

namespace Described

/-- A new manifest that says something about its package. -/
def manifest : Kptfile := { Kptfile.named "shop" with info := some { description := "web" } }

def outline : Outline :=
  Kptfile.outline (Kptfile.marked "shop") [("info", .mapping [("description", .word "web")])]

theorem readsBack : manifest.toYaml.ReadsBack := by
  have lines : manifest.render = String.join ["apiVersion: kpt.dev/v1\n", "kind: Kptfile\n",
      "metadata:\n", "  name: shop\n", "  annotations:\n",
      "    config.kubernetes.io/local-config: 'true'\n", "info:\n", "  description: web\n"] := by
    decide +kernel
  exact Value.readAll?_of_outline (o := outline)
    (Token.ofString_lines lines (by decide +kernel) (by decide +kernel)) (by decide +kernel)

end Described

open Labelled in
/-- The manifest of a package with an owner is read back behind a clone, and the owner is kept; and so is a
new manifest. -/
theorem Package.Kptfile.round_trip_labelled : Kptfile.parse text = .ok kptfile ∧
    manifest.toYaml.ReadsBack ∧ manifest.ReadsBack ∧
    (∃ v, kptfile.Keeps "owner" (.scalar ⟨"us", true, none⟩) v) ∧
    Described.manifest.toYaml.ReadsBack ∧ Described.manifest.ReadsBack := by
  obtain ⟨back, d, document, -, kept⟩ := round_trip.1 text kptfile parse_text
  have moved : kptfile.moved "shop" manifest.lineage manifest.lock = manifest := rfl
  have new := round_trip.2 "shop" Described.manifest.info
  obtain rfl : d = Labelled.outline.document := List.singleton_inj.1 (document.symm.trans all_text)
  refine ⟨parse_text, Unmarked.readAll?_render, ?_, ?_, Described.readsBack, new.same Described.readsBack⟩
  · rw [← moved]
    exact back.moved _ _ _ Unmarked.readAll?_render
  · have keys : (Node.ofDocument Labelled.outline.document).entries.map (fun e => e.1.text) =
      [.ok "apiVersion", .ok "kind", .ok "metadata", .ok "owner"] := rfl
    have last : (Node.scalar ⟨"owner", true, none⟩, Node.scalar ⟨"us", true, none⟩) ∈
        (Node.ofDocument Labelled.outline.document).entries := List.mem_of_getLast? rfl
    obtain ⟨name, key, kept⟩ := kept (by rw [keys]; decide) _ last
    cases key
    exact kept (by decide)

end PackageDepot
