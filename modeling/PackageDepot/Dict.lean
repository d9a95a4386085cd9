/-!
# Dictionaries: finite maps from text, listed in key order

A `Dict α` is its list of entries, strictly increasing in the key. Because the list is determined
by what the dictionary answers, two dictionaries with the same look-ups are equal (`Dict.ext`).
Main facts: `get?_insert`, `get?_erase` and `get?_ofList` say what each operation answers.
-/

universe u v

namespace PackageDepot

/-- A finite map from text to `α`; the entries are strictly increasing in the key. -/
structure Dict (α : Type u) where
  /-- The entries in key order. -/
  toList : List (String × α)
  /-- Keys increase strictly, so no key occurs twice. -/
  increasing : toList.Pairwise fun a b => a.1 < b.1
  deriving DecidableEq

namespace Dict

variable {α : Type u} {β : Type v}

/-- Put an entry into an increasing list, replacing the value of an equal key. -/
def insertEntry (k : String) (v : α) : List (String × α) → List (String × α)
  | [] => [(k, v)]
  | e :: rest =>
    if k < e.1 then (k, v) :: e :: rest
    else if k = e.1 then (k, v) :: rest
    else e :: insertEntry k v rest

theorem fst_mem_insertEntry {k : String} {v : α} {l : List (String × α)} {e : String × α}
    (h : e ∈ insertEntry k v l) : e = (k, v) ∨ e ∈ l := by
  induction l with
  | nil => simpa [insertEntry] using h
  | cons x rest ih =>
    rw [insertEntry] at h
    split at h
    · simpa using h
    · split at h
      · rcases List.mem_cons.1 h with h | h
        · exact .inl h
        · exact .inr (List.mem_cons_of_mem _ h)
      · rcases List.mem_cons.1 h with h | h
        · exact .inr (by simp [h])
        · exact (ih h).imp_right (List.mem_cons_of_mem _)

theorem insertEntry_increasing {k : String} {v : α} {l : List (String × α)}
    (h : l.Pairwise fun a b => a.1 < b.1) :
    (insertEntry k v l).Pairwise fun a b => a.1 < b.1 := by
  induction l with
  | nil => simp [insertEntry]
  | cons x rest ih =>
    rw [List.pairwise_cons] at h
    rw [insertEntry]
    split
    · next hlt =>
      refine List.pairwise_cons.2 ⟨?_, List.pairwise_cons.2 h⟩
      intro e he
      rcases List.mem_cons.1 he with rfl | he
      · exact hlt
      · exact String.lt_trans hlt (h.1 e he)
    · split
      · next heq => exact List.pairwise_cons.2 ⟨fun e he => heq ▸ h.1 e he, h.2⟩
      · next hlt hne =>
        refine List.pairwise_cons.2 ⟨fun e he => ?_, ih h.2⟩
        rcases fst_mem_insertEntry he with rfl | he
        · exact Std.lt_of_le_of_ne (Std.not_lt.1 hlt) (Ne.symm hne)
        · exact h.1 e he

/-- The dictionary without entries. -/
def empty : Dict α := ⟨[], .nil⟩

instance : EmptyCollection (Dict α) := ⟨empty⟩
instance : Inhabited (Dict α) := ⟨empty⟩

/-- The value under a key. -/
def get? (d : Dict α) (k : String) : Option α := d.toList.lookup k

/-- Whether a key has a value. -/
def contains (d : Dict α) (k : String) : Bool := (d.get? k).isSome

/-- Put a value under a key, replacing the one that is there. -/
def insert (d : Dict α) (k : String) (v : α) : Dict α :=
  ⟨insertEntry k v d.toList, insertEntry_increasing d.increasing⟩

/-- Take a key out. -/
def erase (d : Dict α) (k : String) : Dict α :=
  ⟨d.toList.filter fun e => e.1 != k, d.increasing.filter _⟩

/-- The dictionary of a list of entries; of two entries with one key the later one counts. -/
def ofList (entries : List (String × α)) : Dict α :=
  entries.foldl (fun d e => d.insert e.1 e.2) empty

/-- The keys in order. -/
def keys (d : Dict α) : List String := d.toList.map (·.1)

/-- The values in the order of their keys. -/
def values (d : Dict α) : List α := d.toList.map (·.2)

/-- Number of entries. -/
def size (d : Dict α) : Nat := d.toList.length

/-- No entry at all. -/
def isEmpty (d : Dict α) : Bool := d.toList.isEmpty

/-- Apply a function to every value. -/
def map (f : α → β) (d : Dict α) : Dict β :=
  ⟨d.toList.map fun e => (e.1, f e.2), List.pairwise_map.2 d.increasing⟩

/-- Change the value under a key, starting from `start` where there is none. -/
def modify (d : Dict α) (k : String) (start : α) (f : α → α) : Dict α :=
  d.insert k (f ((d.get? k).getD start))

@[simp] theorem get?_empty (k : String) : (∅ : Dict α).get? k = none := rfl

/-- Look-up in a list with a first entry, as a condition on the key. -/
theorem lookup_cons_ite {κ : Type} [BEq κ] [LawfulBEq κ] [DecidableEq κ] (j : κ) (x : κ × α)
    (l : List (κ × α)) : (x :: l).lookup j = if j = x.1 then some x.2 else l.lookup j := by
  obtain ⟨k, v⟩ := x
  rw [List.lookup_cons]
  by_cases h : j = k
  · simp [h]
  · have : (j == k) = false := by simpa using h
    simp [h, this]

theorem lookup_insertEntry (k j : String) (v : α) (l : List (String × α)) :
    (insertEntry k v l).lookup j = if j = k then some v else l.lookup j := by
  induction l with
  | nil => simp [insertEntry, lookup_cons_ite]
  | cons x rest ih =>
    rw [insertEntry]
    split
    · simp [lookup_cons_ite]
    · split
      · next heq =>
        by_cases h : j = k
        · simp [h]
        · simp [lookup_cons_ite, h, ← heq]
      · next hne =>
        by_cases h : j = k
        · subst h; simp [lookup_cons_ite, ih, hne]
        · simp [lookup_cons_ite, ih, h]

@[simp] theorem get?_insert (d : Dict α) (k j : String) (v : α) :
    (d.insert k v).get? j = if j = k then some v else d.get? j :=
  lookup_insertEntry k j v d.toList

/-- Look-up in a list without the entries of a key. -/
theorem lookup_filter_ne {κ : Type} [BEq κ] [LawfulBEq κ] [DecidableEq κ] (k j : κ)
    (l : List (κ × α)) :
    (l.filter fun e => e.1 != k).lookup j = if j = k then none else l.lookup j := by
  induction l with
  | nil => simp
  | cons x rest ih =>
    by_cases hx : x.1 = k
    · simp only [List.filter_cons, hx, bne_self_eq_false, Bool.false_eq_true, ↓reduceIte, ih]
      by_cases h : j = k
      · simp [h]
      · simp [h, lookup_cons_ite, hx]
    · have hb : (x.1 != k) = true := by simpa using hx
      simp only [List.filter_cons, hb, ↓reduceIte, lookup_cons_ite, ih]
      by_cases h : j = k
      · subst h; simp [Ne.symm hx]
      · simp [h]

@[simp] theorem get?_erase (d : Dict α) (k j : String) :
    (d.erase k).get? j = if j = k then none else d.get? j :=
  lookup_filter_ne k j d.toList

/-- What a dictionary answers for `j` after a list of entries was put in. -/
theorem get?_foldl_insert (entries : List (String × α)) (d : Dict α) (j : String) :
    (entries.foldl (fun d e => d.insert e.1 e.2) d).get? j =
      (entries.reverse.lookup j).or (d.get? j) := by
  induction entries generalizing d with
  | nil => simp
  | cons x rest ih =>
    rw [List.foldl_cons, ih, get?_insert, List.reverse_cons, List.lookup_append]
    rw [lookup_cons_ite, Option.or_assoc]
    by_cases h : j = x.1 <;> simp [h]

@[simp] theorem get?_ofList (entries : List (String × α)) (j : String) :
    (ofList entries).get? j = entries.reverse.lookup j := by
  rw [ofList, get?_foldl_insert]
  exact Option.or_none

/-- The keys of a dictionary bound the look-ups of its tail from below. -/
theorem lookup_eq_none_of_lt {k : String} {l : List (String × α)}
    (h : ∀ e ∈ l, k < e.1) : l.lookup k = none := by
  induction l with
  | nil => rfl
  | cons x rest ih =>
    have hx : k ≠ x.1 := Std.ne_of_lt (h x (by simp))
    simp [lookup_cons_ite, hx, ih fun e he => h e (List.mem_cons_of_mem _ he)]

theorem eq_of_lookup_eq {l m : List (String × α)} (hl : l.Pairwise fun a b => a.1 < b.1)
    (hm : m.Pairwise fun a b => a.1 < b.1) (h : ∀ k, l.lookup k = m.lookup k) : l = m := by
  induction l generalizing m with
  | nil =>
    cases m with
    | nil => rfl
    | cons y ys => have := h y.1; simp [lookup_cons_ite] at this
  | cons x xs ih =>
    cases m with
    | nil => have := h x.1; simp [lookup_cons_ite] at this
    | cons y ys =>
      rw [List.pairwise_cons] at hl hm
      have hxy : x.1 = y.1 := by
        rcases Std.lt_trichotomy x.1 y.1 with hlt | heq | hgt
        · have := h x.1
          rw [lookup_eq_none_of_lt (l := y :: ys)] at this
          · simp [lookup_cons_ite] at this
          · intro e he
            rcases List.mem_cons.1 he with rfl | he
            · exact hlt
            · exact String.lt_trans hlt (hm.1 e he)
        · exact heq
        · have := h y.1
          rw [lookup_eq_none_of_lt (l := x :: xs)] at this
          · simp [lookup_cons_ite] at this
          · intro e he
            rcases List.mem_cons.1 he with rfl | he
            · exact hgt
            · exact String.lt_trans hgt (hl.1 e he)
      have hv : x.2 = y.2 := by
        have := h x.1
        simpa [lookup_cons_ite, hxy] using this
      have htail : xs = ys := by
        refine ih hl.2 hm.2 fun k => ?_
        by_cases hk : k = x.1
        · rw [hk, lookup_eq_none_of_lt hl.1, hxy, lookup_eq_none_of_lt hm.1]
        · have := h k
          simpa [lookup_cons_ite, hk, hxy ▸ hk] using this
      rw [htail, Prod.ext hxy hv]

/-- Dictionaries that answer alike are equal. -/
@[ext] theorem ext {d e : Dict α} (h : ∀ k, d.get? k = e.get? k) : d = e := by
  have : d.toList = e.toList := eq_of_lookup_eq d.increasing e.increasing h
  cases d; cases e; simp_all

theorem contains_iff {d : Dict α} {k : String} : d.contains k = true ↔ ∃ v, d.get? k = some v := by
  simp [contains, Option.isSome_iff_exists]

/-- No key occurs twice. -/
theorem keys_nodup (d : Dict α) : d.keys.Nodup := by
  refine (List.pairwise_map.2 d.increasing).imp fun h => ?_
  exact Std.ne_of_lt h

/-- Of distinct keys, look-up finds every entry. -/
theorem lookup_eq_some_iff_mem {l : List (String × α)} (hl : (l.map Prod.fst).Nodup) {k : String}
    {v : α} : l.lookup k = some v ↔ (k, v) ∈ l := by
  induction l with
  | nil => simp
  | cons x rest ih =>
    obtain ⟨hx, hl⟩ := List.nodup_cons.1 hl
    rw [lookup_cons_ite, List.mem_cons]
    split
    · next h =>
      subst h
      constructor
      · rintro ⟨⟩
        exact .inl rfl
      · rintro (h | hr)
        · rw [← h]
        · exact (hx (List.mem_map.2 ⟨_, hr, rfl⟩)).elim
    · next h =>
      rw [ih hl]
      constructor
      · exact .inr
      · rintro (rfl | hr)
        · exact (h rfl).elim
        · exact hr

/-- A dictionary answers with its entries. -/
theorem get?_eq_some_iff {d : Dict α} {k : String} {v : α} :
    d.get? k = some v ↔ (k, v) ∈ d.toList :=
  lookup_eq_some_iff_mem d.keys_nodup

/-- The dictionary of a list with distinct keys has its entries. -/
theorem get?_ofList_eq_some_iff {entries : List (String × α)} (h : (entries.map Prod.fst).Nodup)
    {k : String} {v : α} : (ofList entries).get? k = some v ↔ (k, v) ∈ entries := by
  have reversed : (entries.reverse.map Prod.fst).Nodup := by
    rw [List.map_reverse]
    exact List.pairwise_reverse.2 (h.imp Ne.symm)
  rw [get?_ofList, lookup_eq_some_iff_mem reversed, List.mem_reverse]

/-- The entries of a dictionary make it in any order. -/
theorem ofList_of_perm {l : List (String × α)} {d : Dict α} (order : l.Perm d.toList) :
    ofList l = d := by
  have distinct : (l.map Prod.fst).Nodup := (order.map Prod.fst).nodup_iff.2 d.keys_nodup
  refine ext fun k => Option.ext fun v => ?_
  rw [get?_ofList_eq_some_iff distinct, get?_eq_some_iff, order.mem_iff]

@[simp] theorem toList_empty : (∅ : Dict α).toList = [] := rfl

end Dict

end PackageDepot
