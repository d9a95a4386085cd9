import Mathlib.Data.List.Basic
import PackageDepot.Package.Key

/-!
# Names are read exactly

A name is read as a key just if the key is `Nameable` and the name is its text (`Key.parse?_eq_some_iff`).
`Key.parse?_exact` says the same from the side of the name, whose parts stand between its colons, and from
the side of the key: one that is not nameable has a text as well, but that is no name.
-/

namespace PackageDepot.Package.Key

open Text (cut split cut_eq_some_iff)

/-- The parts of a name, in their order. -/
def parts (k : Key) : List String := [k.repository, k.package, k.revision]

/-- Each part can stand in a name: it is not empty and holds no colon. -/
def Nameable (k : Key) : Prop := ∀ part ∈ k.parts, part ≠ "" ∧ ':' ∉ part.toList

instance (k : Key) : Decidable k.Nameable := inferInstanceAs (Decidable (∀ part ∈ k.parts, _))

variable {k : Key} {name : String}

theorem nameable_iff : k.Nameable ↔ (k.repository ≠ "" ∧ ':' ∉ k.repository.toList) ∧
    (k.package ≠ "" ∧ ':' ∉ k.package.toList) ∧ k.revision ≠ "" ∧ ':' ∉ k.revision.toList := by
  simp [Nameable, parts]

theorem toList_text (k : Key) : k.text.toList =
    k.repository.toList ++ ':' :: (k.package.toList ++ ':' :: k.revision.toList) := by
  simp [text]

/-! ## Reading -/

/-- Reading a name back: its first two parts end where the colons stand. -/
theorem parse?_text (repository : ':' ∉ k.repository.toList) (package : ':' ∉ k.package.toList) :
    parse? k.text = if k.repository.toList.isEmpty || k.package.toList.isEmpty ||
      k.revision.toList.isEmpty || k.revision.toList.contains ':' then none else some k := by
  have first := cut_eq_some_iff.2 ⟨k.toList_text, repository⟩
  have second := cut_eq_some_iff.2
    ⟨(rfl : k.package.toList ++ ':' :: k.revision.toList = _), package⟩
  rw [parse?, first]
  show (cut ':' (k.package.toList ++ ':' :: k.revision.toList) >>= _) = _
  rw [second]
  show (if _ then _ else _) = _
  simp only [String.ofList_toList]

/-- **A name is read as the key whose text it is**, if that key is nameable. -/
theorem parse?_eq_some_iff : parse? name = some k ↔ k.Nameable ∧ k.text = name := by
  constructor
  · intro read
    obtain ⟨⟨repository, rest⟩, first, read⟩ := Option.bind_eq_some_iff.1 read
    obtain ⟨⟨package, revision⟩, second, made⟩ := Option.bind_eq_some_iff.1 read
    obtain ⟨whole, free⟩ := cut_eq_some_iff.1 first
    obtain ⟨rest_eq, free'⟩ := cut_eq_some_iff.1 second
    dsimp only at made
    split at made
    · cases made
    next fine =>
    cases made
    simp only [Bool.or_eq_true, List.isEmpty_iff, List.contains_iff_mem, not_or] at fine
    obtain ⟨⟨⟨full, full'⟩, full''⟩, free''⟩ := fine
    refine ⟨nameable_iff.2 ?_, String.toList_inj.1 ?_⟩
    · simp only [ne_eq, String.ofList_eq_empty_iff, String.toList_ofList]
      exact ⟨⟨full, free⟩, ⟨full', free'⟩, full'', free''⟩
    · rw [toList_text, whole, rest_eq]
      simp only [String.toList_ofList]
  · rintro ⟨nameable, rfl⟩
    obtain ⟨⟨full, free⟩, ⟨full', free'⟩, full'', free''⟩ := nameable_iff.1 nameable
    rw [parse?_text free free', if_neg]
    simp only [Bool.or_eq_true, List.isEmpty_iff, List.contains_iff_mem, String.toList_eq_nil_iff,
      not_or]
    exact ⟨⟨⟨full, full'⟩, full''⟩, free''⟩

/-- A name is read back as its key if no part is empty and no part has a colon. -/
theorem parse?_text_of_parts (repository : k.repository ≠ "") (package : k.package ≠ "")
    (revision : k.revision ≠ "") (first : ':' ∉ k.repository.toList)
    (second : ':' ∉ k.package.toList) (third : ':' ∉ k.revision.toList) : parse? k.text = some k :=
  parse?_eq_some_iff.2
    ⟨nameable_iff.2 ⟨⟨repository, first⟩, ⟨package, second⟩, revision, third⟩, rfl⟩

/-! ## The parts of a name -/

/-- Between the colons of a text stand the parts of its key, if none of them holds a colon. -/
theorem split_text (free : ∀ part ∈ k.parts, ':' ∉ part.toList) :
    split ':' k.text.toList = k.parts.map String.toList := by
  simp only [parts, List.forall_mem_cons] at free
  rw [toList_text, Text.split_append, Text.split_append, Text.split_of_not_mem free.1,
    Text.split_of_not_mem free.2.1, Text.split_of_not_mem free.2.2.1]
  rfl

/-- A text has two colons of its own, and those of its parts. -/
theorem count_text (k : Key) : k.text.toList.count ':' = 2 +
    (k.repository.toList.count ':' + k.package.toList.count ':' + k.revision.toList.count ':') := by
  simp only [toList_text, List.count_append, List.count_cons_self]
  omega

/-- A name with three parts is the text of their key. -/
theorem text_eq_of_split (three : split ':' name.toList = k.parts.map String.toList) :
    k.text = name := by
  have joined := Text.intercalate_split ':' name.toList
  rw [three] at joined
  refine String.toList_inj.1 (Eq.trans ?_ joined)
  simp [toList_text, parts, List.intercalate]

/-- A name is read as its parts, if there are three and none of them is empty. -/
theorem parse?_eq_some_iff_split : parse? name = some k ↔
    split ':' name.toList = k.parts.map String.toList ∧ ∀ part ∈ k.parts, part ≠ "" := by
  rw [parse?_eq_some_iff]
  constructor
  · rintro ⟨nameable, rfl⟩
    exact ⟨split_text fun part hp => (nameable part hp).2, fun part hp => (nameable part hp).1⟩
  · rintro ⟨three, full⟩
    refine ⟨fun part hp => ⟨full part hp, ?_⟩, text_eq_of_split three⟩
    have there : part.toList ∈ split ':' name.toList := three ▸ List.mem_map_of_mem hp
    exact Text.not_mem_of_mem_split there

/-- A name is read if it has two colons and nothing empty between them. -/
theorem parse?_isSome_iff : (parse? name).isSome = true ↔
    name.toList.count ':' = 2 ∧ ∀ part ∈ split ':' name.toList, part ≠ [] := by
  have length := Text.length_split ':' name.toList
  rw [Option.isSome_iff_exists]
  constructor
  · rintro ⟨k, read⟩
    obtain ⟨three, full⟩ := parse?_eq_some_iff_split.1 read
    rw [three] at length ⊢
    refine ⟨(Nat.succ.inj length).symm, fun part hp => ?_⟩
    obtain ⟨s, hs, rfl⟩ := List.mem_map.1 hp
    exact mt String.toList_eq_nil_iff.1 (full s hs)
  · rintro ⟨two, full⟩
    rw [two] at length
    obtain ⟨a, b, c, three⟩ := List.length_eq_three.1 length
    refine ⟨⟨String.ofList a, String.ofList b, String.ofList c⟩, parse?_eq_some_iff_split.2 ⟨?_, ?_⟩⟩
    · simp [three, parts]
    · simpa [three, parts] using full

/-- A text that is read has no colon but the two between its parts, and no empty part. -/
theorem nameable_of_parse? (read : (parse? k.text).isSome = true) : k.Nameable := by
  obtain ⟨two, full⟩ := parse?_isSome_iff.1 read
  have count := k.count_text
  -- The two colons are those that the text has of its own, so none is left for a part.
  have free : ∀ part ∈ k.parts, ':' ∉ part.toList := by
    simp only [parts, List.forall_mem_cons]
    exact ⟨List.count_eq_zero.1 (by omega), List.count_eq_zero.1 (by omega),
      List.count_eq_zero.1 (by omega), nofun⟩
  rw [split_text free] at full
  exact fun part hp => ⟨mt String.toList_eq_nil_iff.2 (full _ (List.mem_map_of_mem hp)), free part hp⟩

/-- A key is read back from its text just if it is nameable. -/
theorem parse?_text_eq_ite (k : Key) : parse? k.text = if k.Nameable then some k else none := by
  split
  · next nameable => exact parse?_eq_some_iff.2 ⟨nameable, rfl⟩
  · next other => exact Option.not_isSome_iff_eq_none.1 (mt nameable_of_parse? other)

/-- **Names are read exactly.** A text is read as a key if it has just two colons and no part of it is empty;
the parts are then those of the key, and the text is its name. A key is read back from its text if each of
its parts can stand in a name, and from the text of any other key nothing is read. -/
theorem parse?_exact (name : String) (k : Key) :
    ((parse? name).isSome = true ↔
      name.toList.count ':' = 2 ∧ ∀ part ∈ split ':' name.toList, part ≠ []) ∧
    (parse? name = some k ↔
      split ':' name.toList = k.parts.map String.toList ∧ ∀ part ∈ k.parts, part ≠ "") ∧
    (parse? name = some k ↔ k.Nameable ∧ k.text = name) ∧
    parse? k.text = if k.Nameable then some k else none :=
  ⟨parse?_isSome_iff, parse?_eq_some_iff_split, parse?_eq_some_iff, k.parse?_text_eq_ite⟩

end PackageDepot.Package.Key
