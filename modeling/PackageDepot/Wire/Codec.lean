import PackageDepot.Dict
import PackageDepot.Wire.Source

/-!
# Codecs

A `Codec α` reads an `α` from a document node of any kind and writes it as a `Form`, the shape that
its YAML and JSON values have in common. This module has the codecs of texts, lists, dictionaries and
names; those of records are in `PackageDepot.Wire.Record`.
-/

namespace PackageDepot.Wire

/-- What a written value looks like, in YAML and in JSON. -/
inductive Form
  | text (s : String)
  | list (items : List Form)
  | record (fields : List (String × Form))
  deriving Inhabited

namespace Form

mutual

/-- A form as a YAML value. -/
def toYaml : Form → Yaml.Value
  | .text s => .str s
  | .list items => .seq (itemsToYaml items)
  | .record fields => .map (fieldsToYaml fields)

/-- The items of a list as YAML values. -/
def itemsToYaml : List Form → List Yaml.Value
  | [] => []
  | f :: rest => toYaml f :: itemsToYaml rest

/-- The fields of a record as YAML values. -/
def fieldsToYaml : List (String × Form) → List (Yaml.Value × Yaml.Value)
  | [] => []
  | (name, f) :: rest => (.str name, toYaml f) :: fieldsToYaml rest

end

mutual

/-- A form as a JSON value. -/
def toJson : Form → Json
  | .text s => .str s
  | .list items => .arr (itemsToJson items)
  | .record fields => .obj (fieldsToJson fields)

/-- The items of a list as JSON values. -/
def itemsToJson : List Form → List Json
  | [] => []
  | f :: rest => toJson f :: itemsToJson rest

/-- The fields of a record as JSON values. -/
def fieldsToJson : List (String × Form) → List (String × Json)
  | [] => []
  | (name, f) :: rest => (name, toJson f) :: fieldsToJson rest

end

theorem itemsToYaml_eq (fs : List Form) : itemsToYaml fs = fs.map toYaml := by
  induction fs with
  | nil => rfl
  | cons f rest ih => rw [itemsToYaml, ih, List.map_cons]

theorem fieldsToYaml_eq (fs : List (String × Form)) :
    fieldsToYaml fs = fs.map fun f => (.str f.1, f.2.toYaml) := by
  induction fs with
  | nil => rfl
  | cons f rest ih => rw [fieldsToYaml, ih, List.map_cons]

theorem itemsToJson_eq (fs : List Form) : itemsToJson fs = fs.map toJson := by
  induction fs with
  | nil => rfl
  | cons f rest ih => rw [itemsToJson, ih, List.map_cons]

theorem fieldsToJson_eq (fs : List (String × Form)) :
    fieldsToJson fs = fs.map fun f => (f.1, f.2.toJson) := by
  induction fs with
  | nil => rfl
  | cons f rest ih => rw [fieldsToJson, ih, List.map_cons]

/-- What holds of texts, and of lists and records if it holds of their parts, holds of every form. -/
@[elab_as_elim]
theorem induction {p : Form → Prop} (text : ∀ s, p (.text s))
    (list : ∀ fs : List Form, (∀ f ∈ fs, p f) → p (.list fs))
    (record : ∀ fs : List (String × Form), (∀ f ∈ fs, p f.2) → p (.record fs)) : ∀ f, p f
  | .text s => text s
  | .list fs => list fs fun f _ => induction text list record f
  | .record fs => record fs fun f _ => induction text list record f.2
termination_by f => sizeOf f
decreasing_by
  · have := List.sizeOf_lt_of_mem ‹f ∈ fs›
    simp only [Form.list.sizeOf_spec]
    omega
  · have := List.sizeOf_lt_of_mem ‹f ∈ fs›
    obtain ⟨name, f⟩ := f
    simp only [Form.record.sizeOf_spec, Prod.mk.sizeOf_spec] at *
    omega

end Form

/-- A way to read a value from a document and to write it. -/
structure Codec (α : Type) where
  decode : ∀ {ν : Type} [Source ν], ν → Except Fault α
  encode : α → Form

namespace Codec

variable {α : Type}

/-- Text is written as it is. -/
def text : Codec String where
  decode n := Source.text n
  encode := .text

/-- A list is written item by item. -/
def list (c : Codec α) : Codec (List α) where
  decode n := do (← Source.items n).mapM c.decode
  encode as := .list (as.map c.encode)

/-- A dictionary is a record with any fields; of two fields with one name the later one counts. -/
def dict (c : Codec α) : Codec (Dict α) where
  decode n := do
    match ← Source.fields n with
    | .named entries =>
      return Dict.ofList (← entries.mapM fun e => do return (← e.1, ← c.decode e.2))
    | .listed _ => throw .malformed
  encode d := .record (d.toList.map fun e => (e.1, c.encode e.2))

/-- A value that is written as its name; `all` are the values there are. -/
def named (name : α → String) (all : List α) : Codec α where
  decode n := do
    let (text, alone) ← Source.variant n
    match all.find? fun a => name a == text with
    | some a =>
      alone
      return a
    | none => throw (.unknownVariant text)
  encode a := .text (name a)

end Codec

end PackageDepot.Wire
