import PackageDepot.Proofs.Function.Paths

/-!
# What a built-in function aims at

The `Aim` of a built-in function are texts under a path: `metadata.namespace`, or the entries of
`metadata.labels` or `metadata.annotations`. `Aim.Changes` says what becomes of a document, and
`applyToDocument_changes` that the functions do just this, where they tell a change exactly for the documents
that need one (`applyToDocument_snd`).
-/

namespace PackageDepot

open Package Yaml

namespace Builtin

/-- The functions change a resource that has a version and a kind, does not belong to a whole cluster and is
not marked as local. -/
structure Eligible (r : Resource) : Prop where
  versioned : Value.field? r "apiVersion" ≠ none
  kind : ∃ v kind, Value.field? r "kind" = some v ∧ v.text? = some kind ∧ kind ∉ clusterScoped
  shared : ∀ v, (Value.map r).at? ["metadata", "annotations", Kptfile.localConfigAnnotation] = some v →
    v.text? ≠ some "true"

theorem isLocal_iff {r : Resource} : isLocal r = true ↔
    ∃ v, (Value.map r).at? ["metadata", "annotations", Kptfile.localConfigAnnotation] = some v ∧
      v.text? = some "true" := by
  simp only [isLocal, Value.at?, Value.get?_eq_field?, Value.contents_map]
  cases Value.field? r "metadata" with
  | none => simp
  | some metadata =>
    cases h : Value.field? metadata.contents "annotations" with
    | none => simp [h]
    | some annotations =>
      cases h' : Value.field? annotations.contents Kptfile.localConfigAnnotation with
      | none => simp [h, h']
      | some mark => simp [h, h']

theorem isEligible_iff {r : Resource} : isEligible r = true ↔ Eligible r := by
  have shared : isLocal r = false ↔
      ∀ v, (Value.map r).at? ["metadata", "annotations", Kptfile.localConfigAnnotation] = some v →
        v.text? ≠ some "true" := by
    rw [← Bool.not_eq_true, isLocal_iff, not_exists]
    simp only [not_and, ne_eq]
  unfold isEligible
  split
  · next kind hk =>
    obtain ⟨v, hv, text⟩ := Option.bind_eq_some_iff.1 hk
    simp only [Bool.and_eq_true, Bool.not_eq_true', shared]
    constructor
    · rintro ⟨⟨versioned, scope⟩, shared⟩
      exact ⟨Option.ne_none_iff_isSome.2 versioned, ⟨v, kind, hv, text, by simpa using scope⟩, shared⟩
    · rintro ⟨versioned, ⟨v', kind', hv', text', scope⟩, shared⟩
      rw [hv] at hv'
      cases hv'
      rw [text] at text'
      cases text'
      exact ⟨⟨Option.ne_none_iff_isSome.1 versioned, by simpa using scope⟩, shared⟩
  · next hk =>
    refine ⟨nofun, fun eligible => ?_⟩
    obtain ⟨v, kind, hv, text, -⟩ := eligible.kind
    rw [hv, Option.bind_some, text] at hk
    cases hk

/-- Texts, and the path of the field under which they are put. -/
structure Aim where
  path : List String
  texts : Dict String

namespace Aim

/-- The aim of the built-in function of this name. -/
def of? (name : String) (config : Dict String) : Option Aim :=
  match name with
  | "set-namespace" =>
    (config.get? "namespace").map fun text => ⟨["metadata"], .ofList [("namespace", text)]⟩
  | "set-labels" => some ⟨["metadata", "labels"], config⟩
  | "set-annotations" => some ⟨["metadata", "annotations"], config⟩
  | _ => none

/-- Every text stands where it has to. -/
def Met (a : Aim) (v : Value) : Prop :=
  ∀ name text, a.texts.get? name = some text → v.at? (a.path ++ [name]) = some (.str text)

/-- The document is an eligible resource in which a text is missing. -/
def Needed (a : Aim) (v : Value) : Prop := ∃ r, v = .map r ∧ Eligible r ∧ ¬ a.Met v

/-- What becomes of a document. -/
inductive Changes (a : Aim) : Value → Value → Prop
  /-- It needs no change. -/
  | kept {v : Value} : ¬ a.Needed v → Changes a v v
  /-- The texts are put where they belong, and all else keeps its value and its place. -/
  | put {r r' : Resource} : Eligible r → ¬ a.Met (.map r) → a.Met (.map r') →
      Framed a.texts.keys a.path r r' → Changes a (.map r) (.map r')

theorem met_iff {a : Aim} {v : Value} : a.Met v ↔ Stand a.texts.toList a.path v := by
  constructor
  · exact fun met t ht => met t.1 t.2 (Dict.get?_eq_some_iff.2 ht)
  · exact fun stand name text h => stand (name, text) (Dict.get?_eq_some_iff.1 h)

/-- Eligible documents have all texts in the end. -/
theorem Changes.met {a : Aim} {r : Resource} {v : Value} (h : a.Changes (.map r) v)
    (eligible : Eligible r) : a.Met v := by
  cases h with
  | kept enough => exact Classical.byContradiction fun missing => enough ⟨r, rfl, eligible, missing⟩
  | put _ _ met _ => exact met

theorem Changes.isNull_eq {a : Aim} {v v' : Value} (h : a.Changes v v') : v'.isNull = v.isNull := by
  cases h <;> rfl

end Aim

/-- The function puts the texts of the aim under its path. -/
def Follows (f : Builtin) (config : Dict String) (a : Aim) : Prop :=
  ∀ r, f.mutate config r =
    if a.texts.toList = [] then (r, false) else updatePath a.texts.toList a.path r

section Documents

variable {f : Builtin} {config : Dict String} {a : Aim}

theorem Follows.mutate_snd (h : f.Follows config a) (r : Resource) :
    (f.mutate config r).2 = false ↔ a.Met (.map r) := by
  rw [h, Aim.met_iff]
  split
  · next none => simp [Stand, none]
  · exact updatePath_snd

theorem Follows.mutate_idle (h : f.Follows config a) {r : Resource} (met : a.Met (.map r)) :
    (f.mutate config r).1 = r := by
  rw [Aim.met_iff] at met
  rw [h]
  split
  · rfl
  · next some_text => exact updatePath_idle some_text (updatePath_snd.2 met)

theorem Follows.mutate_changes (h : f.Follows config a) {r : Resource} (eligible : Eligible r) :
    a.Changes (.map r) (.map (f.mutate config r).1) := by
  by_cases met : a.Met (.map r)
  · rw [h.mutate_idle met]
    exact .kept fun ⟨_, _, _, missing⟩ => missing met
  · have distinct : (a.texts.toList.map Prod.fst).Nodup := a.texts.keys_nodup
    have some_text : a.texts.toList ≠ [] := by
      intro none
      refine met (Aim.met_iff.2 ?_)
      simp [Stand, none]
    rw [h, if_neg some_text]
    exact .put eligible met (Aim.met_iff.2 (updatePath_there distinct r))
      (updatePath_framed distinct r)

/-- **A document becomes what the aim says.** -/
theorem applyToDocument_changes (h : f.Follows config a) (v : Value) :
    a.Changes v (f.applyToDocument config v).1 := by
  unfold applyToDocument
  split
  · next r =>
    split
    · next eligible => exact h.mutate_changes (isEligible_iff.1 eligible)
    · next other =>
      refine .kept ?_
      rintro ⟨_, same, eligible, -⟩
      cases same
      exact other (isEligible_iff.2 eligible)
  · next other => exact .kept fun ⟨r, same, _, _⟩ => other r same

/-- **A change is told exactly for the documents that need one.** -/
theorem applyToDocument_snd (h : f.Follows config a) (v : Value) :
    (f.applyToDocument config v).2 = true ↔ a.Needed v := by
  unfold applyToDocument
  split
  · next r =>
    split
    · next eligible =>
      have told := not_congr (h.mutate_snd r)
      rw [Bool.not_eq_false] at told
      refine told.trans ⟨fun missing => ⟨r, rfl, isEligible_iff.1 eligible, missing⟩, ?_⟩
      rintro ⟨_, -, -, missing⟩
      exact missing
    · next other =>
      refine ⟨nofun, ?_⟩
      rintro ⟨_, same, eligible, -⟩
      cases same
      exact (other (isEligible_iff.2 eligible)).elim
  · next other => exact ⟨nofun, fun ⟨r, same, _, _⟩ => (other r same).elim⟩

end Documents

end Builtin

end PackageDepot
