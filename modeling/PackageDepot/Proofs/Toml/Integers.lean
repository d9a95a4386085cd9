import PackageDepot.Toml.Document

/-!
# Integers of a TOML document

A reader of numbers answers integers of 64 bits only (`readValue_fits`). The entries of a document's own table
are values that were read, or tables, so its integers have 64 bits as well (`Table.ofString?_fits`).
-/

namespace PackageDepot.Toml

/-- The value is not an integer of more than 64 bits. -/
def Value.Fits (v : Value) : Prop :=
  ∀ i, v = .int i → -9223372036854775808 ≤ i ∧ i ≤ 9223372036854775807

/-! ## Integers that are read -/

section

variable {v : Value} {cs rest : List Char}

theorem int?_fits {i : Int} (h : int? i = some v) : v.Fits := by
  unfold int? at h
  split at h
  · next fits =>
    cases h
    rintro _ ⟨⟩
    exact ⟨fits.1, Int.le_of_lt_add_one fits.2⟩
  · cases h

theorem inBase_fits {base : Nat} (h : readInt.inBase base cs = some (v, rest)) : v.Fits := by
  simp only [readInt.inBase, Option.bind_eq_bind, Option.bind_eq_some_iff, Option.pure_def,
    Option.some.injEq, Prod.mk.injEq] at h
  obtain ⟨_, _, _, _, _, read, rfl, _⟩ := h
  exact int?_fits read

theorem readInt_fits (h : readInt cs = some (v, rest)) : v.Fits := by
  unfold readInt at h
  split at h
  · exact inBase_fits h
  · exact inBase_fits h
  · exact inBase_fits h
  · simp only [Option.bind_eq_bind, Option.bind_eq_some_iff, Option.pure_def, Option.some.injEq,
      Prod.mk.injEq] at h
    obtain ⟨_, _, _, read, rfl, _⟩ := h
    exact int?_fits read

theorem readDate_fits (h : readDate cs = some (v, rest)) : v.Fits := by
  obtain ⟨_, -, h⟩ := Option.map_eq_some_iff.1 h
  cases h
  exact nofun

theorem readFloat_fits (h : readFloat cs = some (v, rest)) : v.Fits := by
  have float {text : String} {negative : Bool} {after : List Char}
      (h : ((Decimal.ofString? text).bind fun d =>
        if (!negative && !({ d with negative }).toBinary64.isFinite) = true then none
        else some (.float ({ d with negative }).toBinary64, after)) = some (v, rest)) : v.Fits := by
    obtain ⟨d, -, h⟩ := Option.bind_eq_some_iff.1 h
    split at h
    · cases h
    · cases h
      exact nofun
  unfold readFloat at h
  simp only [Option.bind_eq_bind] at h
  obtain ⟨whole, -, h⟩ := Option.bind_eq_some_iff.1 h
  split at h
  · obtain ⟨places, -, h⟩ := Option.bind_eq_some_iff.1 h
    split at h
    · exact float h
    · split at h
      · cases h
      · exact float h
  · obtain ⟨exponent, -, h⟩ := Option.bind_eq_some_iff.1 h
    exact float h

theorem readSpecialFloat_fits (h : readSpecialFloat cs = some (v, rest)) : v.Fits := by
  unfold readSpecialFloat at h
  dsimp only at h
  split at h
  · cases h
    exact nofun
  · cases h
    exact nofun
  · cases h

theorem readNumber_fits (h : readNumber cs = some (v, rest)) : v.Fits := by
  simp only [readNumber, Option.or_eq_some_iff] at h
  obtain date | ⟨-, float | ⟨-, special | ⟨-, int⟩⟩⟩ := h
  · exact readDate_fits date
  · exact readFloat_fits float
  · exact readSpecialFloat_fits special
  · exact readInt_fits int

/-- **An integer that is read has 64 bits.** -/
theorem readValue_fits {fuel depth : Nat} (h : readValue fuel depth cs = some (v, rest)) : v.Fits := by
  cases fuel with
  | zero => simp [readValue] at h
  | succ fuel =>
    unfold readValue at h
    split at h
    · split at h
      · cases h
      · obtain ⟨_, -, h⟩ := Option.map_eq_some_iff.1 h
        cases h
        exact nofun
    · split at h
      · cases h
      · split at h
        · cases h
          exact nofun
        · obtain ⟨_, -, h⟩ := Option.map_eq_some_iff.1 h
          cases h
          exact nofun
    · cases h
      exact nofun
    · cases h
      exact nofun
    · split at h
      · obtain ⟨_, -, h⟩ := Option.map_eq_some_iff.1 h
        cases h
        exact nofun
      · exact readNumber_fits h
    · cases h

end

/-! ## Tables -/

namespace Table

variable {t t' : Table} {path : List String} {key : String} {v : Value}

/-- The integers among the entries of the table have 64 bits. -/
def Fits (t : Table) : Prop := ∀ e ∈ t, e.2.Fits

theorem Fits.lookup (h : t.Fits) (found : t.lookup key = some v) : v.Fits := by
  obtain ⟨front, back, rfl, -⟩ := List.lookup_eq_some_iff.1 found
  exact h (key, v) (List.mem_append_right _ List.mem_cons_self)

theorem Fits.append (h : t.Fits) (key : String) (fits : v.Fits) : Fits (t ++ [(key, v)]) := by
  intro e he
  obtain old | new := List.mem_append.1 he
  · exact h e old
  · obtain rfl := List.mem_singleton.1 new
    exact fits

theorem Fits.put (h : t.Fits) (key : String) (fits : v.Fits) : (t.put key v).Fits := by
  induction t with
  | nil =>
    intro e he
    obtain rfl := List.mem_singleton.1 he
    exact fits
  | cons x rest ih =>
    obtain ⟨k, w⟩ := x
    have others : Fits rest := fun e he => h e (List.mem_cons_of_mem _ he)
    rw [Table.put]
    split
    · intro e he
      obtain rfl | he := List.mem_cons.1 he
      · exact fits
      · exact others e he
    · intro e he
      obtain rfl | he := List.mem_cons.1 he
      · exact h _ List.mem_cons_self
      · exact ih others e he

theorem Fits.setAt? {own : Bool} (h : t.Fits) (fits : v.Fits)
    (set : Table.setAt? path key v own t = some t') : t'.Fits := by
  cases path with
  | nil =>
    rw [Table.setAt?] at set
    split at set
    · cases set
    · cases set
      exact h.append key fits
  | cons step path =>
    rw [Table.setAt?] at set
    split at set
    · obtain ⟨_, -, rfl⟩ := Option.map_eq_some_iff.1 set
      exact h.append step nofun
    · split at set
      · cases set
      · obtain ⟨_, -, rfl⟩ := Option.map_eq_some_iff.1 set
        exact h.put step nofun
    · obtain ⟨_, -, rfl⟩ := Option.map_eq_some_iff.1 set
      exact h.put step nofun
    · cases set

/-- What keeps the integers of a table is all that can change them; the tables on the way are tables. -/
theorem Fits.within? {f : Table → Option Table} (keeps : ∀ t t', f t = some t' → t.Fits → t'.Fits)
    (h : t.Fits) (changed : Table.within? f path t = some t') : t'.Fits := by
  cases path with
  | nil => exact keeps t t' changed h
  | cons step path =>
    rw [Table.within?] at changed
    split at changed
    · obtain ⟨_, -, rfl⟩ := Option.map_eq_some_iff.1 changed
      exact h.append step nofun
    · split at changed
      · cases changed
      · obtain ⟨_, -, rfl⟩ := Option.map_eq_some_iff.1 changed
        exact h.put step nofun
    · obtain ⟨_, -, rfl⟩ := Option.map_eq_some_iff.1 changed
      exact h.put step nofun
    · cases changed

theorem Fits.open? (h : t.Fits) (opened : t.open? path key = some t') : t'.Fits := by
  refine h.within? (fun t t' changed h => ?_) opened
  split at changed
  · cases changed
    exact h.append key nofun
  · cases changed
    exact h.put key nofun
  · cases changed

theorem Fits.extend? (h : t.Fits) (extended : t.extend? path key = some t') : t'.Fits := by
  refine h.within? (fun t t' changed h => ?_) extended
  split at changed
  · cases changed
    exact h.append key nofun
  · cases changed
    exact h.put key nofun
  · cases changed

end Table

/-! ## Documents -/

/-- One statement keeps the integers of the table. -/
theorem Draft.step_fits {d d' : Draft} {cs rest : List Char} (h : d.table.Fits)
    (read : d.step cs = some (d', rest)) : d'.table.Fits := by
  unfold Draft.step at read
  split at read
  all_goals simp only [Option.bind_eq_bind, Option.bind_eq_some_iff, Option.pure_def, Option.some.injEq,
    Prod.mk.injEq] at read
  · obtain ⟨_, _, _, _, _, _, _, _, _, extended, rfl, _⟩ := read
    exact h.extend? extended
  · obtain ⟨_, _, _, _, _, _, _, opened, rfl, _⟩ := read
    exact h.open? opened
  · obtain ⟨_, _, _, _, _, value, _, _, _, set, rfl, _⟩ := read
    exact h.within? (fun t t' set h => h.setAt? (readValue_fits value) set) set

theorem readStatements_fits {fuel : Nat} {d : Draft} {cs : List Char} {t : Table} (h : d.table.Fits)
    (read : readStatements fuel d cs = some t) : t.Fits := by
  induction fuel generalizing d cs with
  | zero => cases read
  | succ fuel ih =>
    unfold readStatements at read
    split at read
    · cases read
      exact h
    · obtain ⟨rest, -, read⟩ := Option.bind_eq_some_iff.1 read
      exact ih h read
    · split at read
      · exact ih h read
      · split at read
        · next stated => exact ih (Draft.step_fits h stated) read
        · cases read

/-- **The integers of a document have 64 bits.** -/
theorem Table.ofString?_fits {text : String} {t : Table} (read : Table.ofString? text = some t) :
    t.Fits :=
  readStatements_fits (fun _ entry => by cases entry) read

end PackageDepot.Toml
