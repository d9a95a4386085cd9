import PackageDepot.Proofs.Backend.Git
import PackageDepot.Wire.Record

/-!
# What a record is read from

`Record.Reads r entries a` says that the named entries of a document are read as the record `a`. It is put
together as records are: a record that `also` has a field reads what its two parts read on their own
(`reads_also_iff`), and a field reads the one entry of its name, or stands for its default
(`reads_field_iff`). `readEntries_ok_iff` leads from the reader to this.
-/

namespace PackageDepot.Wire

open PackageDepot.Backend (bind_eq_ok_iff)

namespace Record

variable {ρ α β σ ν : Type} [Source ν]

/-- What a record has read behind the entries of a document. Those of other names are passed over. -/
inductive Gathers (r : Record ρ α) : List (String × ν) → r.State → r.State → Prop
  | nil (s : r.State) : Gathers r [] s s
  | mine {name : String} {n : ν} {rest : List (String × ν)} {s u t : r.State} (known : name ∈ r.names)
    (read : r.read name n s = .ok u) (behind : Gathers r rest u t) : Gathers r ((name, n) :: rest) s t
  | other {name : String} {n : ν} {rest : List (String × ν)} {s t : r.State} (unknown : name ∉ r.names)
    (behind : Gathers r rest s t) : Gathers r ((name, n) :: rest) s t

theorem gathers_nil_iff {r : Record ρ α} {s t : r.State} :
    r.Gathers ([] : List (String × ν)) s t ↔ t = s := by
  constructor
  · rintro ⟨⟩
    rfl
  · rintro rfl
    exact .nil t

theorem gathers_cons_iff {r : Record ρ α} {name : String} {n : ν} {rest : List (String × ν)}
    {s t : r.State} : r.Gathers ((name, n) :: rest) s t ↔
      (name ∈ r.names ∧ ∃ u, r.read name n s = .ok u ∧ r.Gathers rest u t) ∨
        (name ∉ r.names ∧ r.Gathers rest s t) := by
  constructor
  · intro h
    cases h with
    | mine known read behind => exact .inl ⟨known, _, read, behind⟩
    | other unknown behind => exact .inr ⟨unknown, behind⟩
  · rintro (⟨known, u, read, behind⟩ | ⟨unknown, behind⟩)
    · exact .mine known read behind
    · exact .other unknown behind

/-- The entries are read as a record. -/
def Reads (r : Record ρ α) (entries : List (String × ν)) (a : α) : Prop :=
  ∃ s, r.Gathers entries r.start s ∧ r.finish s = .ok a

/-- The entries whose names a record knows, in their order. -/
def mine (r : Record ρ α) (entries : List (String × ν)) : List (String × ν) :=
  entries.filter fun e => e.1 ∈ r.names

/-- The other entries, in their order. -/
def others (r : Record ρ α) (entries : List (String × ν)) : List (String × ν) :=
  entries.filter fun e => e.1 ∉ r.names

/-- **The entries of a document are read one by one**, the known ones by the record and the others by
`other`, if all of them have names. -/
theorem readEntries_ok_iff {r : Record ρ α} {other : String → ν → σ → Except Fault σ}
    {entries : List (Except Fault String × ν)} {s s' : r.State} {t t' : σ} :
    r.readEntries other entries (s, t) = .ok (s', t') ↔
      ∃ named : List (String × ν), entries = named.map (fun e => (.ok e.1, e.2)) ∧
        r.Gathers named s s' ∧
        (r.others named).foldlM (fun t e => other e.1 e.2 t) t = .ok t' := by
  induction entries generalizing s t with
  | nil =>
    constructor
    · rintro ⟨⟩
      exact ⟨[], rfl, .nil _, rfl⟩
    · rintro ⟨named, none, gathers, rest⟩
      cases List.map_eq_nil_iff.1 none.symm
      cases gathers
      cases rest
      rfl
  | cons e entries ih =>
    obtain ⟨name, n⟩ := e
    rw [readEntries, bind_eq_ok_iff]
    constructor
    · rintro ⟨name, rfl, h⟩
      by_cases known : name ∈ r.names
      · rw [if_pos (List.contains_iff_mem.2 known), bind_eq_ok_iff] at h
        obtain ⟨u, read, h⟩ := h
        obtain ⟨named, rfl, gathers, rest⟩ := ih.1 h
        refine ⟨(name, n) :: named, rfl, .mine known read gathers, ?_⟩
        rwa [others, List.filter_cons_of_neg (by simpa using known)]
      · rw [if_neg (mt List.contains_iff_mem.1 known), bind_eq_ok_iff] at h
        obtain ⟨u, passed, h⟩ := h
        obtain ⟨named, rfl, gathers, rest⟩ := ih.1 h
        refine ⟨(name, n) :: named, rfl, .other known gathers, ?_⟩
        rw [others, List.filter_cons_of_pos (by simpa using known), List.foldlM_cons]
        exact bind_eq_ok_iff.2 ⟨u, passed, rest⟩
    · rintro ⟨named, all, gathers, rest⟩
      cases gathers with
      | nil => cases all
      | mine known read behind =>
        cases all
        rw [others, List.filter_cons_of_neg (by simpa using known)] at rest
        refine ⟨_, rfl, ?_⟩
        rw [if_pos (List.contains_iff_mem.2 known)]
        exact bind_eq_ok_iff.2 ⟨_, read, ih.2 ⟨_, rfl, behind, rest⟩⟩
      | other unknown behind =>
        cases all
        rw [others, List.filter_cons_of_pos (by simpa using unknown), List.foldlM_cons] at rest
        obtain ⟨u, passed, rest⟩ := bind_eq_ok_iff.1 rest
        refine ⟨_, rfl, ?_⟩
        rw [if_neg (mt List.contains_iff_mem.1 unknown)]
        exact bind_eq_ok_iff.2 ⟨u, passed, ih.2 ⟨_, rfl, behind, rest⟩⟩

/-! ## Records put together -/

/-- A record without fields reads whatever there is. -/
theorem reads_of_iff {a b : α} {entries : List (String × ν)} :
    (Record.of (ρ := ρ) a).Reads entries b ↔ b = a := by
  constructor
  · rintro ⟨s, -, h⟩
    cases h
    rfl
  · rintro rfl
    refine ⟨(), ?_, rfl⟩
    induction entries with
    | nil => exact .nil _
    | cons e rest ih => exact .other nofun ih

section Also

variable {f : Record ρ (β → α)} {g : Record ρ β} {s s' : f.State} {t t' : g.State} {x : String} {n : ν}

/-- An entry is read by the part that knows its name. -/
theorem read_also_of_mem (known : x ∈ f.names) :
    (f.also g).read x n (s, t) = f.read x n s >>= fun u => .ok (u, t) := by
  simp only [also, List.contains_iff_mem.2 known, if_true]
  rfl

theorem read_also_of_not_mem (unknown : x ∉ f.names) :
    (f.also g).read x n (s, t) = g.read x n t >>= fun u => .ok (s, u) := by
  simp only [also, if_neg (mt List.contains_iff_mem.1 unknown)]
  rfl

/-- Two parts of a record do not get into each other's way. -/
theorem gathers_also_iff (apart : ∀ x ∈ f.names, x ∉ g.names) {entries : List (String × ν)} :
    (f.also g).Gathers entries (s, t) (s', t') ↔ f.Gathers entries s s' ∧ g.Gathers entries t t' := by
  induction entries generalizing s t with
  | nil =>
    refine gathers_nil_iff.trans ?_
    rw [gathers_nil_iff, gathers_nil_iff]
    exact iff_of_eq (Prod.mk.injEq ..)
  | cons e rest ih =>
    obtain ⟨x, n⟩ := e
    refine gathers_cons_iff.trans ?_
    rw [gathers_cons_iff, gathers_cons_iff]
    constructor
    · rintro (⟨known, u, read, behind⟩ | ⟨unknown, behind⟩)
      · by_cases first : x ∈ f.names
        · rw [read_also_of_mem first] at read
          obtain ⟨u, hu, read⟩ := bind_eq_ok_iff.1 read
          cases read
          obtain ⟨hf, hg⟩ := ih.1 behind
          exact ⟨.inl ⟨first, u, hu, hf⟩, .inr ⟨apart x first, hg⟩⟩
        · rw [read_also_of_not_mem first] at read
          obtain ⟨u, hu, read⟩ := bind_eq_ok_iff.1 read
          cases read
          obtain ⟨hf, hg⟩ := ih.1 behind
          exact ⟨.inr ⟨first, hf⟩, .inl ⟨(List.mem_append.1 known).resolve_left first, u, hu, hg⟩⟩
      · obtain ⟨first, second⟩ := not_or.1 (mt List.mem_append.2 unknown)
        obtain ⟨hf, hg⟩ := ih.1 behind
        exact ⟨.inr ⟨first, hf⟩, .inr ⟨second, hg⟩⟩
    · rintro ⟨⟨first, u, hu, hf⟩ | ⟨first, hf⟩, ⟨second, v, hv, hg⟩ | ⟨second, hg⟩⟩
      · exact (apart x first second).elim
      · refine .inl ⟨List.mem_append_left _ first, (u, t), ?_, ih.2 ⟨hf, hg⟩⟩
        rw [read_also_of_mem first]
        exact bind_eq_ok_iff.2 ⟨u, hu, rfl⟩
      · refine .inl ⟨List.mem_append_right _ second, (s, v), ?_, ih.2 ⟨hf, hg⟩⟩
        rw [read_also_of_not_mem first]
        exact bind_eq_ok_iff.2 ⟨v, hv, rfl⟩
      · exact .inr ⟨fun known => (List.mem_append.1 known).elim first second, ih.2 ⟨hf, hg⟩⟩

/-- **A record with one more field** reads what the record and the field read. -/
theorem reads_also_iff (apart : ∀ x ∈ f.names, x ∉ g.names) {entries : List (String × ν)} {a : α} :
    (f.also g).Reads entries a ↔
      ∃ make b, f.Reads entries make ∧ g.Reads entries b ∧ a = make b := by
  constructor
  · rintro ⟨⟨s, t⟩, read, finished⟩
    obtain ⟨hs, ht⟩ := (gathers_also_iff apart).1 read
    obtain ⟨make, hm, finished⟩ := bind_eq_ok_iff.1 finished
    obtain ⟨b, hb, finished⟩ := bind_eq_ok_iff.1 finished
    cases finished
    exact ⟨make, b, ⟨s, hs, hm⟩, ⟨t, ht, hb⟩, rfl⟩
  · rintro ⟨make, b, ⟨s, hs, hm⟩, ⟨t, ht, hb⟩, rfl⟩
    refine ⟨(s, t), (gathers_also_iff apart).2 ⟨hs, ht⟩, ?_⟩
    exact bind_eq_ok_iff.2 ⟨make, hm, bind_eq_ok_iff.2 ⟨b, hb, rfl⟩⟩

end Also

section Field

variable {name : String} {aliases : List String} {get : ρ → β}
  {decode : ∀ {ν : Type} [Source ν], ν → Except Fault β} {absent : Option β}
  {write : β → Option Form} {entries : List (String × ν)} {b : β}

/-- An entry is read if it is the first one of its field. -/
theorem read_field_iff {x : String} {n : ν} {s t : Option β} :
    (field name aliases get decode absent write).read x n s = .ok t ↔
      s = none ∧ ∃ b, decode n = .ok b ∧ t = some b := by
  cases s with
  | some c => exact ⟨nofun, nofun⟩
  | none =>
    show (decode n >>= fun b => .ok (some b)) = .ok t ↔ _
    rw [bind_eq_ok_iff]
    constructor
    · rintro ⟨b, hb, h⟩
      cases h
      exact ⟨rfl, b, hb, rfl⟩
    · rintro ⟨-, b, hb, rfl⟩
      exact ⟨b, hb, rfl⟩

/-- What a field has read: nothing, or the value of the one entry that is its own. -/
theorem gathers_field_iff {s t : Option β} :
    (field name aliases get decode absent write).Gathers entries s t ↔
      ((field name aliases get decode absent write).mine entries = [] ∧ t = s) ∨
        ∃ e b, (field name aliases get decode absent write).mine entries = [e] ∧
          decode e.2 = .ok b ∧ s = none ∧ t = some b := by
  induction entries generalizing s with
  | nil =>
    refine gathers_nil_iff.trans ?_
    constructor
    · exact fun h => .inl ⟨rfl, h⟩
    · rintro (⟨-, h⟩ | ⟨e, b, one, -⟩)
      · exact h
      · cases one
  | cons e rest ih =>
    obtain ⟨x, n⟩ := e
    refine gathers_cons_iff.trans ?_
    by_cases known : x ∈ (field name aliases get decode absent write).names
    · rw [mine, List.filter_cons_of_pos (by simpa using known)]
      constructor
      · rintro (⟨-, u, read, behind⟩ | ⟨unknown, -⟩)
        · obtain ⟨rfl, b, hb, rfl⟩ := read_field_iff.1 read
          obtain ⟨none, rfl⟩ | ⟨_, _, _, _, h, -⟩ := ih.1 behind
          · exact .inr ⟨(x, n), b, congrArg ((x, n) :: ·) none, hb, rfl, rfl⟩
          · cases h
        · exact (unknown known).elim
      · rintro (⟨none, -⟩ | ⟨e, b, one, hb, rfl, rfl⟩)
        · cases none
        · obtain ⟨rfl, none⟩ := List.cons.inj one
          exact .inl ⟨known, some b, read_field_iff.2 ⟨rfl, b, hb, rfl⟩, ih.2 (.inl ⟨none, rfl⟩)⟩
    · rw [mine, List.filter_cons_of_neg (by simpa using known)]
      constructor
      · rintro (⟨known', -⟩ | ⟨-, behind⟩)
        · exact (known known').elim
        · exact ih.1 behind
      · exact fun h => .inr ⟨known, ih.2 h⟩

/-- **A field** is read from the only entry of its names, or stands for its default if there is none. -/
theorem reads_field_iff : (field name aliases get decode absent write).Reads entries b ↔
    ((field name aliases get decode absent write).mine entries = [] ∧ absent = some b) ∨
      ∃ e, (field name aliases get decode absent write).mine entries = [e] ∧
        decode e.2 = .ok b := by
  have finish : ∀ s : Option β, (field name aliases get decode absent write).finish s = .ok b ↔
      s.or absent = some b := by
    intro s
    unfold field
    dsimp only
    cases s.or absent with
    | none => exact ⟨nofun, nofun⟩
    | some b' => simp
  constructor
  · rintro ⟨s, gathers, h⟩
    obtain ⟨empty, rfl⟩ | ⟨e, c, one, hc, -, rfl⟩ := gathers_field_iff.1 gathers
    · exact .inl ⟨empty, (finish none).1 h⟩
    · cases (finish _).1 h
      exact .inr ⟨e, one, hc⟩
  · rintro (⟨empty, h⟩ | ⟨e, one, hb⟩)
    · exact ⟨none, gathers_field_iff.2 (.inl ⟨empty, rfl⟩), (finish none).2 h⟩
    · exact ⟨some b, gathers_field_iff.2 (.inr ⟨e, b, one, hb, rfl, rfl⟩), (finish _).2 rfl⟩

end Field

end Record

end PackageDepot.Wire
