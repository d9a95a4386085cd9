import PackageDepot.Function.Builtin

/-!
# Fields of mappings

What `setField` does to the entries of a mapping: the value stands under its name (`field?_setField`), all
other entries stay where they are (`getElem?_setField`), and a new name goes to the end (`keys_setField`).
`Retouched` says the same of several names.
-/

namespace PackageDepot

namespace Yaml.Value

variable {name other : String} {k v w : Value} {r : List (Value × Value)}

theorem field?_cons_same : field? ((.str name, v) :: r) name = some v := by
  simp [field?]

theorem field?_cons_other (h : k ≠ .str name) : field? ((k, v) :: r) name = field? r name := by
  unfold field?
  cases k with
  | str s =>
    have apart : (s == name) = false := by simpa using h
    simp [apart]
  | _ => simp

theorem setField_cons_same : setField name v ((.str name, w) :: r) = (.str name, v) :: r := by
  simp [setField]

theorem setField_cons_other (h : k ≠ .str name) :
    setField name v ((k, w) :: r) = (k, w) :: setField name v r := by
  cases k with
  | str s =>
    have apart : (s == name) = false := by simpa using h
    simp [setField, apart]
  | _ => rfl

/-- A field holds what was put there. -/
@[simp] theorem field?_setField : field? (setField name v r) name = some v := by
  induction r with
  | nil => exact field?_cons_same
  | cons e rest ih =>
    obtain ⟨k, w⟩ := e
    by_cases h : k = .str name
    · rw [h, setField_cons_same, field?_cons_same]
    · rw [setField_cons_other h, field?_cons_other h, ih]

/-- Other fields stay as they are. -/
theorem field?_setField_other (h : other ≠ name) :
    field? (setField name v r) other = field? r other := by
  have apart : Value.str name ≠ .str other := fun eq => h (Value.str.inj eq).symm
  induction r with
  | nil => exact field?_cons_other apart
  | cons e rest ih =>
    obtain ⟨k, w⟩ := e
    by_cases hk : k = .str name
    · rw [hk, setField_cons_same, field?_cons_other apart, field?_cons_other apart]
    · rw [setField_cons_other hk]
      by_cases ho : k = .str other
      · rw [ho, field?_cons_same, field?_cons_same]
      · rw [field?_cons_other ho, field?_cons_other ho, ih]

/-- Putting a value where it is changes nothing. -/
theorem setField_of_field? (h : field? r name = some v) : setField name v r = r := by
  induction r with
  | nil => cases h
  | cons e rest ih =>
    obtain ⟨k, w⟩ := e
    by_cases hk : k = .str name
    · subst hk
      rw [field?_cons_same] at h
      rw [setField_cons_same, Option.some.inj h]
    · rw [field?_cons_other hk] at h
      rw [setField_cons_other hk, ih h]

/-- A new field goes to the end. -/
theorem keys_setField : (setField name v r).map Prod.fst =
    r.map Prod.fst ++ if (field? r name).isNone then [.str name] else [] := by
  induction r with
  | nil => rfl
  | cons e rest ih =>
    obtain ⟨k, w⟩ := e
    by_cases hk : k = .str name
    · subst hk
      simp [setField_cons_same, field?_cons_same]
    · rw [setField_cons_other hk, field?_cons_other hk, List.map_cons, ih]
      rfl

/-- An entry under another key stays where it is. -/
theorem getElem?_setField {i : Nat} (h : r[i]? = some (k, w)) (apart : k ≠ .str name) :
    (setField name v r)[i]? = some (k, w) := by
  induction r generalizing i with
  | nil => cases h
  | cons e rest ih =>
    obtain ⟨k', w'⟩ := e
    by_cases hk : k' = .str name
    · subst hk
      rw [setField_cons_same]
      cases i with
      | zero => exact (apart (congrArg Prod.fst (Option.some.inj h)).symm).elim
      | succ i => exact h
    · rw [setField_cons_other hk]
      cases i with
      | zero => exact h
      | succ i => exact ih h

end Yaml.Value

namespace Builtin

open Yaml

/-- Of the entries `r`, those under these names may have other values in `r'`. A name that was not there
stands behind them; every other entry is the same and in its place. -/
structure Retouched (names : List String) (r r' : Resource) : Prop where
  keys : r'.map Prod.fst =
    r.map Prod.fst ++ (names.filter fun n => (Value.field? r n).isNone).map .str
  kept : ∀ (i : Nat) (k w : Value), r[i]? = some (k, w) → (∀ n ∈ names, k ≠ .str n) →
    r'[i]? = some (k, w)

theorem retouched_setField (name : String) (v : Value) (r : Resource) :
    Retouched [name] r (Value.setField name v r) where
  keys := by
    rw [Value.keys_setField]
    cases found : Value.field? r name <;> simp [found]
  kept _ _ _ h apart := Value.getElem?_setField h (apart name List.mem_cons_self)

/-- Put every text under its name. -/
def putTexts (texts : List (String × String)) (r : Resource) : Resource :=
  texts.foldl (fun r t => Value.setField t.1 (.str t.2) r) r

variable {texts : List (String × String)} {name : String} {r : Resource}

theorem field?_putTexts_other (h : name ∉ texts.map Prod.fst) :
    Value.field? (putTexts texts r) name = Value.field? r name := by
  induction texts generalizing r with
  | nil => rfl
  | cons t rest ih =>
    obtain ⟨first, others⟩ := not_or.1 (mt List.mem_cons.2 h)
    exact (ih others).trans (Value.field?_setField_other first)

/-- Every text stands under its name in the end. -/
theorem field?_putTexts (distinct : (texts.map Prod.fst).Nodup) {t : String × String} (ht : t ∈ texts) :
    Value.field? (putTexts texts r) t.1 = some (.str t.2) := by
  induction texts generalizing r with
  | nil => cases ht
  | cons u rest ih =>
    obtain ⟨fresh, distinct⟩ := List.nodup_cons.1 distinct
    obtain rfl | ht := List.mem_cons.1 ht
    · exact (field?_putTexts_other fresh).trans Value.field?_setField
    · exact ih distinct ht

/-- Putting texts changes no more than what stands under their names. -/
theorem retouched_putTexts (distinct : (texts.map Prod.fst).Nodup) (r : Resource) :
    Retouched (texts.map Prod.fst) r (putTexts texts r) := by
  induction texts generalizing r with
  | nil => exact ⟨(List.append_nil _).symm, fun _ _ _ h _ => h⟩
  | cons t rest ih =>
    obtain ⟨fresh, distinct⟩ := List.nodup_cons.1 distinct
    have first := retouched_setField t.1 (.str t.2) r
    have behind := ih distinct (Value.setField t.1 (.str t.2) r)
    have others : ∀ n ∈ rest.map Prod.fst,
        (Value.field? (Value.setField t.1 (.str t.2) r) n).isNone = (Value.field? r n).isNone :=
      fun n hn => congrArg Option.isNone (Value.field?_setField_other fun eq => fresh (eq ▸ hn))
    refine ⟨?_, fun i k w h apart => ?_⟩
    · have split : ((t :: rest).map Prod.fst).filter (fun n => (Value.field? r n).isNone) =
          [t.1].filter (fun n => (Value.field? r n).isNone) ++
            (rest.map Prod.fst).filter fun n => (Value.field? r n).isNone := by
        rw [← List.filter_append]
        rfl
      rw [split, List.map_append, ← List.append_assoc, ← first.keys, ← List.filter_congr others]
      exact behind.keys
    · exact behind.kept i k w (first.kept i k w h fun n hn => apart n (List.mem_cons.2
        (.inl (List.mem_singleton.1 hn)))) fun n hn => apart n (List.mem_cons_of_mem _ hn)

/-- Nothing is put where every text stands already. -/
theorem putTexts_of_there (there : ∀ t ∈ texts, Value.field? r t.1 = some (.str t.2)) :
    putTexts texts r = r := by
  induction texts with
  | nil => rfl
  | cons t rest ih =>
    rw [putTexts, List.foldl_cons, Value.setField_of_field? (there t List.mem_cons_self)]
    exact ih fun u hu => there u (List.mem_cons_of_mem t hu)

/-! ## What the functions do -/

theorem same_str_iff {v : Value} {text : String} : v.same (.str text) = true ↔ v = .str text := by
  cases v <;> simp [Value.same]

/-- The text is there. -/
theorem any_same_iff {v? : Option Value} {text : String} :
    (v?.any fun v => v.same (.str text)) = true ↔ v? = some (.str text) := by
  cases v? with
  | none => simp
  | some v => simp [same_str_iff]

theorem setText_fst (name text : String) (r : Resource) :
    (setText name text r).1 = Value.setField name (.str text) r := by
  unfold setText
  split
  · next there => exact (Value.setField_of_field? (any_same_iff.1 there)).symm
  · rfl

/-- No change is told exactly if the text is there. -/
theorem setText_snd {text : String} :
    (setText name text r).2 = false ↔ Value.field? r name = some (.str text) := by
  unfold setText
  split
  · next there => simp [any_same_iff.1 there]
  · next missing => simp [mt any_same_iff.2 missing]

theorem setTexts_fst (texts : List (String × String)) (r : Resource) :
    (setTexts texts r).1 = putTexts texts r := by
  induction texts generalizing r with
  | nil => rfl
  | cons t rest ih => exact (ih _).trans (congrArg (putTexts rest) (setText_fst t.1 t.2 r))

/-- No change is told exactly if all texts are there. -/
theorem setTexts_snd :
    (setTexts texts r).2 = false ↔ ∀ t ∈ texts, Value.field? r t.1 = some (.str t.2) := by
  induction texts with
  | nil => simp [setTexts]
  | cons t rest ih =>
    rw [List.forall_mem_cons, ← ih, ← setText_snd]
    have flags : (setTexts (t :: rest) r).2 =
        ((setText t.1 t.2 r).2 || (setTexts rest (setText t.1 t.2 r).1).2) := rfl
    rw [flags, Bool.or_eq_false_iff]
    refine and_congr_right fun idle => ?_
    rw [setText_fst, Value.setField_of_field? (setText_snd.1 idle)]

end Builtin

end PackageDepot
