import PackageDepot.Proofs.Package.Kptfile
import PackageDepot.Proofs.Wire.Lawful

/-!
# What is read from the text of a value

The text of a written value is not read as the value: a reader asks the nodes of the text for what it wants.
`Form.shows_of_contents?` is the way from the one to the other. A node that says the value of a form shows
the form, whether its scalars are plain, quoted or tagged.
-/

namespace PackageDepot

open Wire
open Backend (bind_eq_ok_iff)

namespace Yaml

/-- The value is read from its text again. -/
def Value.ReadsBack (v : Value) : Prop := Value.readAll? v.render = some [v]

/-- A text that says one value is one document. -/
theorem Value.readAll?_eq_some_singleton_iff {text : String} {v : Value} :
    readAll? text = some [v] ↔
      ∃ d, Document.all text = [d] ∧ d.intact = true ∧ (Node.ofDocument d).value? = some v := by
  unfold readAll?
  constructor
  · intro h
    cases all : Document.all text with
    | nil =>
      rw [all] at h
      cases h
    | cons d others =>
      rw [all, List.mapM_cons] at h
      obtain ⟨w, first, h⟩ := Option.bind_eq_some_iff.1 h
      obtain ⟨ws, behind, h⟩ := Option.bind_eq_some_iff.1 h
      cases h
      cases others with
      | cons d' others =>
        rw [List.mapM_cons] at behind
        obtain ⟨w', -, behind⟩ := Option.bind_eq_some_iff.1 behind
        obtain ⟨ws', -, behind⟩ := Option.bind_eq_some_iff.1 behind
        cases behind
      | nil =>
        split at first
        · next intact => exact ⟨d, rfl, intact, first⟩
        · cases first
  · rintro ⟨d, document, intact, said⟩
    rw [document]
    simp [intact, said]

/-- What is a text says something. -/
theorem Plain.not_null_of_resolve {s : String} (h : resolve s = .text) :
    (s.isEmpty || isNull s) = false := by
  unfold resolve at h
  split at h
  · cases h
  · next other => exact Bool.eq_false_iff.2 other

namespace Node

/-! ## Tags -/

/-- A local tag is one that starts with its mark. -/
theorem isSome_tagName?_iff {tag : String} : (tagName? (some tag)).isSome = tag.startsWith "!" := by
  rw [Bool.eq_iff_iff, String.startsWith_string_iff, tagName?, Option.map_some]
  cases tag.toList with
  | nil => simp
  | cons c cs =>
    by_cases h : c = '!'
    · subst h
      cases cs with
      | nil => simp
      | cons c cs => simp
    · simp [h, Ne.symm h]

/-- A tag that is put in front of a value can be seen. -/
theorem withTag_eq {tag : Option String} {v w : Value} (h : withTag tag v = w)
    (untagged : ∀ name u, w ≠ .tagged name u) : tagName? tag = none ∧ v = w := by
  unfold withTag at h
  split at h
  · exact (untagged _ _ h.symm).elim
  · next none => exact ⟨none, h⟩

/-- A scalar without a local tag says what its text is: as it is quoted, as it is resolved, or as a kind
that is named. -/
theorem scalarValue?_cases {s : Scalar} {v : Value} (h : scalarValue? s = some v)
    (untagged : ∀ name u, v ≠ .tagged name u) : tagName? s.tag = none ∧
      ((s.tag = none ∧ s.plain = false ∧ v = .str s.text) ∨
        (s.tag = none ∧ s.plain = true ∧ plainValue? s.text = some v) ∨
        ∃ tag, s.tag = some tag ∧ schemaValue? ((schemaKind? tag).getD "") s.text = some v) := by
  obtain ⟨text, plain, tag⟩ := s
  cases tag with
  | none =>
    cases plain with
    | true => exact ⟨rfl, .inr (.inl ⟨rfl, rfl, h⟩)⟩
    | false => exact ⟨rfl, .inl ⟨rfl, rfl, (Option.some.inj h).symm⟩⟩
  | some tag =>
    have said : (if tag.startsWith "!" then
        (scalarValue?.content ⟨text, plain, some tag⟩).map (withTag (some tag))
      else schemaValue? ((schemaKind? tag).getD "") text) = some v := h
    split at said
    · next marked =>
      obtain ⟨u, -, tagged⟩ := Option.map_eq_some_iff.1 said
      have none := (withTag_eq tagged untagged).1
      rw [← isSome_tagName?_iff, none] at marked
      cases marked
    · next unmarked =>
      rw [← isSome_tagName?_iff, Option.not_isSome_iff_eq_none] at unmarked
      exact ⟨unmarked, .inr (.inr ⟨tag, rfl, said⟩)⟩

/-! ## Scalars -/

/-- What is said by a single word, which is only said as a text if it `may` be. -/
inductive Single (word : String) (may : Prop) : Value → Prop
  | null : Single word may .null
  | bool (b : Bool) : Single word may (.bool b)
  | int (i : Int) : Single word may (.int i)
  | float (x : Binary64) : Single word may (.float x)
  | str (h : may) : Single word may (.str word)

theorem Single.imp {word : String} {may may' : Prop} {v : Value} (h : Single word may v)
    (weaker : may → may') : Single word may' v := by
  cases h with
  | null => exact .null
  | bool b => exact .bool b
  | int i => exact .int i
  | float x => exact .float x
  | str h => exact .str (weaker h)

theorem single_of_plainValue? {s : String} {v : Value} (h : plainValue? s = some v) :
    Single s (Plain.resolve s = .text) v := by
  unfold plainValue? at h
  split at h
  · cases h
    exact .null
  · cases h
    exact .bool _
  · cases h
    exact .int _
  · cases h
    exact .float _
  · next text =>
    cases h
    exact .str text
  · cases h

theorem single_of_schemaValue? {kind s : String} {v : Value} (h : schemaValue? kind s = some v) :
    Single s (kind ≠ "null") v := by
  unfold schemaValue? at h
  split at h
  · obtain ⟨b, -, rfl⟩ := Option.map_eq_some_iff.1 h
    exact .bool b
  split at h
  · split at h
    · cases h
      exact .int _
    · cases h
  split at h
  · obtain ⟨x, -, rfl⟩ := Option.map_eq_some_iff.1 h
    exact .float x
  split at h
  · split at h
    · cases h
      exact .null
    · cases h
  · next other =>
    cases h
    exact .str fun same => other (beq_iff_eq.2 same)

/-- A scalar that says a text is given. -/
theorem scalarValue?_eq_str {s : Scalar} {text : String} (h : scalarValue? s = some (.str text)) :
    s.text = text ∧ tagName? s.tag = none ∧ given (.scalar s) = .ok true := by
  obtain ⟨none, ⟨untagged, quoted, same⟩ | ⟨untagged, -, resolved⟩ | ⟨tag, there, said⟩⟩ :=
    scalarValue?_cases h nofun
  · refine ⟨(Value.str.inj same).symm, none, ?_⟩
    rw [given, quoted]
    rfl
  · cases single_of_plainValue? resolved with
    | str text =>
      refine ⟨rfl, none, ?_⟩
      rw [given, untagged]
      simp [Plain.not_null_of_resolve text]
  · cases single_of_schemaValue? said with
    | str kind =>
      have other : schemaKind? tag ≠ some "null" := fun null => kind (by rw [null]; rfl)
      refine ⟨rfl, none, ?_⟩
      rw [given, there]
      simp [other]

/-- A scalar is said by its one word, if it has no local tag. -/
theorem single_of_scalarValue? {s : Scalar} {v : Value} (h : scalarValue? s = some v)
    (untagged : ∀ name u, v ≠ .tagged name u) : Single s.text True v := by
  obtain ⟨-, ⟨-, -, rfl⟩ | ⟨-, -, resolved⟩ | ⟨tag, -, said⟩⟩ := scalarValue?_cases h untagged
  · exact .str trivial
  · exact (single_of_plainValue? resolved).imp fun _ => trivial
  · exact (single_of_schemaValue? said).imp fun _ => trivial

/-! ## Lists and mappings -/

variable {n : Node}

/-- The items of a list say the items of its value. -/
theorem itemContents?_eq_some {items : List Node} {vs : List Value}
    (h : itemContents? items = some vs) :
    List.Forall₂ (fun n v => n.contents? = some v) items vs := by
  induction items generalizing vs with
  | nil =>
    cases h
    exact .nil
  | cons n rest ih =>
    obtain ⟨v, first, h⟩ := Option.bind_eq_some_iff.1 h
    obtain ⟨vs, behind, h⟩ := Option.bind_eq_some_iff.1 h
    cases h
    exact .cons first (ih behind)

/-- So do the entries of a mapping. -/
theorem entryContents?_eq_some {entries : List (Node × Node)} {es : List (Value × Value)}
    (h : entryContents? entries = some es) :
    List.Forall₂ (fun e x => e.1.contents? = some x.1 ∧ e.2.contents? = some x.2) entries es := by
  induction entries generalizing es with
  | nil =>
    cases h
    exact .nil
  | cons e rest ih =>
    obtain ⟨k, key, h⟩ := Option.bind_eq_some_iff.1 h
    obtain ⟨v, value, h⟩ := Option.bind_eq_some_iff.1 h
    obtain ⟨es, behind, h⟩ := Option.bind_eq_some_iff.1 h
    cases h
    exact .cons ⟨key, value⟩ (ih behind)

/-- A node that says a value without a tag is of the kind of the value. -/
theorem contents?_cases {v : Value} (h : n.contents? = some v) (untagged : ∀ name u, v ≠ .tagged name u) :
    (∃ s, n = .scalar s ∧ scalarValue? s = some v) ∨
      (∃ tag items vs, n = .seq tag items ∧ itemContents? items = some vs ∧ v = .seq vs) ∨
      ∃ tag entries es, n = .map tag entries ∧ entryContents? entries = some es ∧ v = .map es := by
  cases n with
  | scalar s => exact .inl ⟨s, rfl, h⟩
  | seq tag items =>
    obtain ⟨vs, said, front⟩ := Option.map_eq_some_iff.1 h
    exact .inr (.inl ⟨tag, items, vs, rfl, said, (withTag_eq front untagged).2.symm⟩)
  | map tag entries =>
    obtain ⟨es, said, front⟩ := Option.map_eq_some_iff.1 h
    exact .inr (.inr ⟨tag, entries, es, rfl, said, (withTag_eq front untagged).2.symm⟩)
  | broken => cases h
  | endless => cases h

theorem contents?_eq_seq {vs : List Value} (h : n.contents? = some (.seq vs)) :
    ∃ tag items, n = .seq tag items ∧ itemContents? items = some vs := by
  obtain ⟨s, -, said⟩ | ⟨tag, items, vs, rfl, said, same⟩ | ⟨_, _, _, -, -, same⟩ :=
    contents?_cases h nofun
  · cases single_of_scalarValue? said nofun
  · cases same
    exact ⟨tag, items, rfl, said⟩
  · cases same

theorem contents?_eq_map {es : List (Value × Value)} (h : n.contents? = some (.map es)) :
    ∃ tag entries, n = .map tag entries ∧ entryContents? entries = some es := by
  obtain ⟨s, -, said⟩ | ⟨_, _, _, -, -, same⟩ | ⟨tag, entries, es, rfl, said, same⟩ :=
    contents?_cases h nofun
  · cases single_of_scalarValue? said nofun
  · cases same
  · cases same
    exact ⟨tag, entries, rfl, said⟩

/-- A node that says a text shows it. -/
theorem shows_of_str {text : String} (h : n.contents? = some (.str text)) : Shows n (.text text) := by
  obtain ⟨s, rfl, said⟩ | ⟨_, _, _, -, -, same⟩ | ⟨_, _, _, -, -, same⟩ := contents?_cases h nofun
  · obtain ⟨same, none, given⟩ := scalarValue?_eq_str said
    refine .text given (congrArg Except.ok same) ?_
    show variant (.scalar s) = _
    rw [variant, none, same]
  · cases same
  · cases same

/-- The fields of a node that says a mapping whose keys are texts. -/
theorem fields_of_contents? {es : List (String × Value)}
    (h : n.contents? = some (.map (es.map fun e => (.str e.1, e.2)))) :
    ∃ named : List (String × Node), n.given = .ok true ∧
      n.fields = .ok (.named (named.map fun e => (.ok e.1, e.2))) ∧
      List.Forall₂ (Taken contents?) named es := by
  obtain ⟨tag, entries, rfl, said⟩ := contents?_eq_map h
  have all := List.forall₂_map_right_iff.1 (entryContents?_eq_some said)
  suffices ∃ named : List (String × Node), entries.map (fun e => (e.1.text, e.2)) =
      named.map (fun e => (.ok e.1, e.2)) ∧ List.Forall₂ (Taken contents?) named es by
    obtain ⟨named, same, taken⟩ := this
    exact ⟨named, rfl, congrArg (Except.ok ∘ Fields.named) same, taken⟩
  clear h said
  -- A key that says a text is named by this text, so no name is at fault.
  induction all with
  | nil => exact ⟨[], rfl, .nil⟩
  | @cons e x rest others first _ ih =>
    obtain ⟨named, same, taken⟩ := ih
    have key : e.1.text = .ok x.1 := by
      cases shows_of_str first.1 with
      | text _ text => exact text
    exact ⟨(x.1, e.2) :: named, by simp [key, same], .cons ⟨rfl, first.2⟩ taken⟩

end Node
end Yaml

open Yaml

namespace Wire.Form

/-- The entries of a mapping show the fields of a record, each under its own name. -/
theorem showsFields_of_taken {fs : List (String × Form)} {named : List (String × Node)}
    (taken : List.Forall₂ (Taken Node.contents?) named (fs.map fun f => (f.1, f.2.toYaml)))
    (each : ∀ f ∈ fs, ∀ n : Node, n.contents? = some f.2.toYaml → Shows n f.2) :
    List.Forall₂ ShowsField named fs := by
  refine forall₂_of_all (List.forall₂_map_right_iff.1 taken) ?_
  rintro ⟨name, f⟩ hf ⟨name', n⟩ ⟨same, said⟩
  cases same
  exact .mk name (each (name, f) hf n said)

/-- **A node that says the value of a form shows the form.** -/
theorem shows_of_contents? {f : Form} {n : Node} (h : n.contents? = some f.toYaml) : Shows n f := by
  induction f using Form.induction generalizing n with
  | text s => exact Node.shows_of_str h
  | list fs ih =>
    rw [toYaml, itemsToYaml_eq] at h
    obtain ⟨tag, items, rfl, said⟩ := Node.contents?_eq_seq h
    have all := List.forall₂_map_right_iff.1 (Node.itemContents?_eq_some said)
    exact .list rfl rfl (forall₂_of_all all fun f hf n => ih f hf)
  | record fs ih =>
    have fields : toYaml (.record fs) =
        .map ((fs.map fun f => (f.1, f.2.toYaml)).map fun e => (.str e.1, e.2)) := by
      rw [toYaml, fieldsToYaml_eq, List.map_map]
      rfl
    rw [fields] at h
    obtain ⟨named, given, fields, taken⟩ := Node.fields_of_contents? h
    exact .record given fields (.refl _) (showsFields_of_taken taken fun f hf n => ih f hf)

end Wire.Form

end PackageDepot
