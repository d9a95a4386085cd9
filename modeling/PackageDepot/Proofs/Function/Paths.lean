import PackageDepot.Proofs.Function.Fields

/-!
# Texts under a path of fields

Every built-in function puts texts under a path of fields (`updatePath`). It tells no change exactly where the
texts stand already, and leaves the entries alone there (`updatePath_snd`, `updatePath_idle`). They stand
there afterwards (`updatePath_there`), and beside the path everything keeps its value and its place
(`updatePath_framed`).
-/

namespace PackageDepot

namespace Yaml.Value

/-- The entries of a mapping, also behind tags. -/
def entries? (v : Value) : Option (List (Value × Value)) :=
  match v.untagged with
  | .map r => some r
  | _ => none

/-- The entries of a mapping. Anything else has none. -/
def contents (v : Value) : List (Value × Value) := v.entries?.getD []

/-- The value with other entries. A mapping keeps its tags, anything else is forgotten. -/
def withEntries (r : List (Value × Value)) : Value → Value
  | .tagged tag v => if v.entries?.isSome then .tagged tag (withEntries r v) else .map r
  | _ => .map r

/-- The value at the end of a path of fields. -/
def at? : Value → List String → Option Value
  | v, [] => some v
  | v, name :: path => (v.get? name).bind fun w => at? w path

variable {v : Value} {r : List (Value × Value)} {name : String} {path : List String}

theorem entries?_tagged (tag : String) (v : Value) : (tagged tag v).entries? = v.entries? := rfl

@[simp] theorem contents_map (r : List (Value × Value)) : (map r).contents = r := rfl

@[simp] theorem entries?_withEntries : (v.withEntries r).entries? = some r := by
  induction v using untagged.induct with
  | case1 tag v ih =>
    unfold withEntries
    split
    · exact ih
    · rfl
  | case2 v plain =>
    unfold withEntries
    split
    · next tag w => exact (plain tag w rfl).elim
    · rfl

@[simp] theorem contents_withEntries : (v.withEntries r).contents = r := by
  rw [contents, entries?_withEntries]
  rfl

/-- A mapping with its own entries is the same. -/
theorem withEntries_of_entries? (h : v.entries? = some r) : v.withEntries r = v := by
  induction v using untagged.induct with
  | case1 tag v ih =>
    have inner : v.entries? = some r := h
    rw [withEntries, inner, ih inner]
    rfl
  | case2 v plain =>
    cases v with
    | tagged tag v => exact (plain tag v rfl).elim
    | map entries =>
      cases h
      rfl
    | _ => cases h

theorem get?_eq_field? (v : Value) (name : String) : v.get? name = field? v.contents name := by
  unfold get? contents entries?
  cases v.untagged <;> rfl

/-- Only the entries of a value count for what is at the end of a path. -/
theorem at?_eq_contents (h : path ≠ []) : v.at? path = (map v.contents).at? path := by
  cases path with
  | nil => exact (h rfl).elim
  | cons name path => simp only [at?, get?_eq_field?, contents_map]

/-- What is at a path behind a field of a mapping. A missing field counts as a mapping without entries. -/
theorem at?_cons (h : path ≠ []) :
    (map r).at? (name :: path) = (map ((field? r name).getD (.map [])).contents).at? path := by
  rw [at?, get?_eq_field?, contents_map]
  cases field? r name with
  | none =>
    cases path with
    | nil => exact (h rfl).elim
    | cons next path => rfl
  | some w => exact at?_eq_contents h

end Yaml.Value

namespace Builtin

open Yaml

/-! ## Changes under a path -/

/-- The value under a field. A missing field counts as a mapping without entries. -/
def child (r : Resource) (name : String) : Value := (Value.field? r name).getD (.map [])

theorem updateEntries_eq (f : Resource → Resource × Bool) (v : Value) :
    updateEntries f v = (v.withEntries (f v.contents).1, (f v.contents).2) := by
  have found : updateEntries.go f v =
      v.entries?.map fun r => (v.withEntries (f r).1, (f r).2) := by
    induction v using Value.untagged.induct with
    | case1 tag v ih =>
      rw [updateEntries.go, ih, Value.entries?_tagged]
      cases h : v.entries? with
      | none => rfl
      | some r => simp [Value.withEntries, h]
    | case2 v plain =>
      cases v with
      | tagged tag v => exact (plain tag v rfl).elim
      | _ => rfl
  unfold updateEntries
  rw [found, Value.contents]
  cases h : v.entries? with
  | some r => rfl
  | none =>
    have anew : ∀ r, v.withEntries r = .map r := by
      intro r
      cases v with
      | tagged tag v =>
        rw [Value.entries?_tagged] at h
        simp [Value.withEntries, h]
      | _ => rfl
    exact Prod.ext (anew _).symm rfl

theorem updateChild_eq (name : String) (f : Resource → Resource × Bool) (r : Resource) :
    updateChild name f r =
      (Value.setField name ((child r name).withEntries (f (child r name).contents).1) r,
        (f (child r name).contents).2) := by
  rw [updateChild, updateEntries_eq]
  rfl

/-- Put texts under a path. -/
def updatePath (texts : List (String × String)) : List String → Resource → Resource × Bool
  | [] => setTexts texts
  | name :: path => updateChild name (updatePath texts path)

/-- Of the entries `r`, only the fields with these names at the end of the path may have other values
in `r'`. On the way, a field that is missing or no mapping becomes a mapping. -/
def Framed (names : List String) : List String → Resource → Resource → Prop
  | [], r, r' => Retouched names r r'
  | name :: path, r, r' => Retouched [name] r r' ∧ ∃ inner,
      Value.field? r' name = some ((child r name).withEntries inner) ∧
      Framed names path (child r name).contents inner

/-- Every text stands under its name at the end of the path. -/
def Stand (texts : List (String × String)) (path : List String) (v : Value) : Prop :=
  ∀ t ∈ texts, v.at? (path ++ [t.1]) = some (.str t.2)

section Paths

variable {texts : List (String × String)} {name : String} {path : List String}

theorem stand_nil {r : Resource} :
    Stand texts [] (.map r) ↔ ∀ t ∈ texts, Value.field? r t.1 = some (.str t.2) := by
  refine forall₂_congr fun t _ => ?_
  rw [List.nil_append, Value.at?, Value.get?_eq_field?, Value.contents_map]
  cases Value.field? r t.1 <;> rfl

theorem stand_cons {r : Resource} :
    Stand texts (name :: path) (.map r) ↔ Stand texts path (.map (child r name).contents) :=
  forall₂_congr fun t _ => by
    rw [List.cons_append, Value.at?_cons (List.append_ne_nil_of_right_ne_nil path (by simp))]
    rfl

/-- No change is told exactly if the texts stand there. -/
theorem updatePath_snd {r : Resource} :
    (updatePath texts path r).2 = false ↔ Stand texts path (.map r) := by
  induction path generalizing r with
  | nil => rw [stand_nil, updatePath, setTexts_snd]
  | cons name path ih => rw [stand_cons, ← ih, updatePath, updateChild_eq]

/-- In entries that hold nothing no text stands. -/
theorem not_stand_empty (some_text : texts ≠ []) : ¬ Stand texts path (.map []) := by
  intro there
  obtain ⟨t, rest, rfl⟩ := List.exists_cons_of_ne_nil some_text
  have found := there t List.mem_cons_self
  cases path <;> cases found

/-- Where no change is told there is none. -/
theorem updatePath_idle (some_text : texts ≠ []) {r : Resource}
    (idle : (updatePath texts path r).2 = false) : (updatePath texts path r).1 = r := by
  induction path generalizing r with
  | nil =>
    rw [updatePath, setTexts_fst]
    exact putTexts_of_there (setTexts_snd.1 idle)
  | cons name path ih =>
    have there := updatePath_snd.1 idle
    rw [updatePath, updateChild_eq] at idle ⊢
    rw [ih idle]
    -- the texts stand behind this field, so it is there and it is a mapping
    rw [stand_cons] at there
    have mapping : (child r name).entries? = some (child r name).contents := by
      unfold Value.contents at there ⊢
      cases h : (child r name).entries? with
      | none =>
        rw [h] at there
        exact (not_stand_empty some_text there).elim
      | some inner => rfl
    have field : Value.field? r name = some (child r name) := by
      unfold child at there ⊢
      cases h : Value.field? r name with
      | none =>
        rw [h] at there
        exact (not_stand_empty some_text there).elim
      | some v => rfl
    rw [Value.withEntries_of_entries? mapping, Value.setField_of_field? field]

/-- The texts stand there afterwards. -/
theorem updatePath_there (distinct : (texts.map Prod.fst).Nodup) (r : Resource) :
    Stand texts path (.map (updatePath texts path r).1) := by
  induction path generalizing r with
  | nil =>
    rw [stand_nil, updatePath, setTexts_fst]
    exact fun t ht => field?_putTexts distinct ht
  | cons name path ih =>
    rw [stand_cons, updatePath, updateChild_eq]
    have inner : (child (Value.setField name ((child r name).withEntries
        (updatePath texts path (child r name).contents).1) r) name).contents =
          (updatePath texts path (child r name).contents).1 := by
      rw [child, Value.field?_setField, Option.getD_some, Value.contents_withEntries]
    rw [inner]
    exact ih (child r name).contents

/-- Beside the path everything stays as it is and where it is. -/
theorem updatePath_framed (distinct : (texts.map Prod.fst).Nodup) (r : Resource) :
    Framed (texts.map Prod.fst) path r (updatePath texts path r).1 := by
  induction path generalizing r with
  | nil =>
    rw [updatePath, setTexts_fst]
    exact retouched_putTexts distinct r
  | cons name path ih =>
    rw [updatePath, updateChild_eq]
    exact ⟨retouched_setField name _ r, _, Value.field?_setField, ih (child r name).contents⟩

end Paths

end Builtin

end PackageDepot
