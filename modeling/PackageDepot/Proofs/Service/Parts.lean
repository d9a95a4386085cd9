import PackageDepot.Proofs.Backend.Discovery
import PackageDepot.Proofs.Service.Reading

/-!
# The parts of a listing

A listing is put together from one `Part` for each repository: the revisions that were created in it, and
the packages that a scan found. The two may have been read at different times. The entries of a part are
those of the created revisions, and behind them those of the packages whose keys are not among them. So
no key occurs twice in a part (`Part.entries_nodup`), nor in a listing (`entries_nodup`), whose entries
stand in order (`entries_ordered`).
-/

namespace PackageDepot

open Package Backend

/-- What a listing has from one repository. -/
structure Part where
  name : String
  created : List Stored
  packages : List Discovered
  keys : (created.map Stored.key).Nodup
  home : ∀ b ∈ created, b.key.repository = name
  /-- A scan finds a package at most once at a ref. -/
  names : (packages.map fun p => (p.package, p.location.ref)).Nodup

/-- An entry stands before another one: its repository has the earlier name, or they are of one repository
and it is created and the other one is not, or is created later. -/
inductive Summary.Before (older : Key → Key → Prop) (s t : Summary) : Prop
  | repository (h : s.key.repository < t.key.repository)
  | origin (h : s.key.repository = t.key.repository) (first : s.provenance = .created)
    (second : t.provenance = .discovered)
  | created (h : s.key.repository = t.key.repository) (first : s.provenance = .created)
    (second : t.provenance = .created) (h' : older s.key t.key)
  | discovered (h : s.key.repository = t.key.repository) (first : s.provenance = .discovered)
    (second : t.provenance = .discovered)

namespace Depot

variable {d : Depot}

/-- A stored revision is found under its key. -/
theorem Tidy.get?_of_mem (tidy : d.Tidy) {b : Stored} (h : b ∈ d.store.revisions) :
    d.store.get? b.key = some b := by
  apply find?_of_nodup_map tidy.keys h
  intro o
  exact decide_eq_true_iff

theorem Tidy.mem_list_iff (tidy : d.Tidy) {name : String} {b : Stored} :
    b ∈ d.store.list (some name) ↔ d.store.get? b.key = some b ∧ b.key.repository = name := by
  rw [Store.list, List.mem_filter, Option.all_some, beq_iff_eq]
  constructor
  · rintro ⟨there, rfl⟩
    exact ⟨tidy.get?_of_mem there, rfl⟩
  · rintro ⟨there, rfl⟩
    exact ⟨Store.mem_of_get? there, rfl⟩

theorem Tidy.mem_values_iff (tidy : d.Tidy) {r : Repository} :
    r ∈ d.registry.values ↔ d.registry.get? r.name = some r := by
  rw [Dict.values, List.mem_map]
  constructor
  · rintro ⟨⟨n, g⟩, he, rfl⟩
    have found := Dict.get?_eq_some_iff.2 he
    rwa [tidy.named n g found]
  · intro found
    exact ⟨(r.name, r), Dict.get?_eq_some_iff.1 found, rfl⟩

/-- The names of the registered repositories increase. -/
theorem Tidy.values_increasing (tidy : d.Tidy) :
    d.registry.values.Pairwise fun r q => r.name < q.name := by
  refine List.pairwise_map.2 (d.registry.increasing.imp_of_mem fun hx hy hlt => ?_)
  rwa [tidy.named _ _ (Dict.get?_eq_some_iff.2 hx), tidy.named _ _ (Dict.get?_eq_some_iff.2 hy)]

/-- The part of a repository whose created revisions are read from a tidy depot. -/
def part (d : Depot) (tidy : d.Tidy) (name : String) (packages : List Discovered)
    (names : (packages.map fun p => (p.package, p.location.ref)).Nodup) : Part where
  name := name
  created := d.store.list (some name)
  packages := packages
  keys := (List.filter_sublist.map Stored.key).nodup tidy.keys
  home _ hb := (tidy.mem_list_iff.1 hb).2
  names := names

end Depot

namespace Part

variable {p : Part} {s : Summary}

/-- The entries of a part. -/
def entries (p : Part) : List Summary :=
  p.created.map Stored.summary ++ (p.packages.map fun q => q.summary p.name).filter
    fun s => !(p.created.map Stored.key).contains s.key

theorem mem_entries_iff : s ∈ p.entries ↔ (∃ b ∈ p.created, s = b.summary) ∨
    ∃ q ∈ p.packages, s = q.summary p.name ∧ ∀ b ∈ p.created, b.key ≠ q.key p.name := by
  rw [entries, List.mem_append, List.mem_filter, List.mem_map, List.mem_map]
  constructor
  · rintro (⟨b, hb, rfl⟩ | ⟨⟨q, hq, rfl⟩, fresh⟩)
    · exact .inl ⟨b, hb, rfl⟩
    · refine .inr ⟨q, hq, rfl, fun b hb same => ?_⟩
      have known := List.contains_iff_mem.2 (List.mem_map.2 ⟨b, hb, same⟩)
      simp only [Discovered.summary, known, Bool.not_true, Bool.false_eq_true] at fresh
  · rintro (⟨b, hb, rfl⟩ | ⟨q, hq, rfl, fresh⟩)
    · exact .inl ⟨b, hb, rfl⟩
    · refine .inr ⟨⟨q, hq, rfl⟩, ?_⟩
      rw [Bool.not_eq_true', Bool.eq_false_iff]
      intro known
      obtain ⟨b, hb, same⟩ := List.mem_map.1 (List.contains_iff_mem.1 known)
      exact fresh b hb same

/-- The entries of a part are of its repository. -/
theorem repository_of_mem (h : s ∈ p.entries) : s.key.repository = p.name := by
  obtain ⟨b, hb, rfl⟩ | ⟨q, -, rfl, -⟩ := mem_entries_iff.1 h
  · exact p.home b hb
  · rfl

/-- No key occurs twice in a part. -/
theorem entries_nodup (p : Part) : (p.entries.map Summary.key).Nodup := by
  rw [entries, List.map_append, List.map_map]
  refine List.nodup_append.2 ⟨p.keys, ?_, ?_⟩
  · have packages : ((p.packages.map fun q => q.summary p.name).map Summary.key).Nodup := by
      rw [List.map_map]
      refine List.pairwise_map.2 ((List.pairwise_map.1 p.names).imp fun distinct same => distinct ?_)
      exact Prod.ext (congrArg Key.package same) (congrArg Key.revision same)
    exact (List.filter_sublist.map Summary.key).nodup packages
  · rintro k hk j hj rfl
    obtain ⟨b, hb, rfl⟩ := List.mem_map.1 hk
    obtain ⟨s, hs, same⟩ := List.mem_map.1 hj
    have known : (p.created.map Stored.key).contains s.key = true :=
      List.contains_iff_mem.2 (List.mem_map.2 ⟨b, hb, same.symm⟩)
    have fresh := (List.mem_filter.1 hs).2
    rw [known] at fresh
    cases fresh

/-- The created revisions come first, in their order. -/
theorem entries_ordered {older : Key → Key → Prop}
    (h : p.created.Pairwise fun a b => older a.key b.key) :
    p.entries.Pairwise (Summary.Before older) := by
  have of_created : ∀ s ∈ p.created.map Stored.summary,
      s.key.repository = p.name ∧ s.provenance = .created := by
    intro s hs
    obtain ⟨b, hb, rfl⟩ := List.mem_map.1 hs
    exact ⟨p.home b hb, rfl⟩
  have of_package : ∀ s ∈ (p.packages.map fun q => q.summary p.name).filter
      fun s => !(p.created.map Stored.key).contains s.key,
      s.key.repository = p.name ∧ s.provenance = .discovered := by
    intro s hs
    obtain ⟨q, -, rfl⟩ := List.mem_map.1 (List.mem_filter.1 hs).1
    exact ⟨rfl, rfl⟩
  refine List.pairwise_append.2 ⟨?_, ?_, ?_⟩
  · refine List.pairwise_map.2 (h.imp_of_mem fun ha hb older => ?_)
    exact .created ((p.home _ ha).trans (p.home _ hb).symm) rfl rfl older
  · refine (List.pairwise_of_forall fun _ _ => trivial).imp_of_mem (R := fun _ _ => True) ?_
    intro s t hs ht _
    obtain ⟨hs, first⟩ := of_package s hs
    obtain ⟨ht, second⟩ := of_package t ht
    exact .discovered (hs.trans ht.symm) first second
  · intro s hs t ht
    obtain ⟨hs, first⟩ := of_created s hs
    obtain ⟨ht, second⟩ := of_package t ht
    exact .origin (hs.trans ht.symm) first second

end Part

variable {parts : List Part}

/-- A listing has the entries of its parts. -/
theorem mem_entries_iff {s : Summary} :
    s ∈ (parts.map Part.entries).flatten ↔ ∃ p ∈ parts, s ∈ p.entries := by
  rw [← List.flatMap_def, List.mem_flatMap]

/-- **No key occurs twice** in a listing. -/
theorem entries_nodup (names : parts.Pairwise fun p q => p.name < q.name) :
    ((parts.map Part.entries).flatten.map Summary.key).Nodup := by
  rw [← List.flatMap_def, List.map_flatMap]
  refine List.pairwise_flatMap.2 ⟨fun p _ => p.entries_nodup, names.imp fun hlt k hk j hj => ?_⟩
  rintro rfl
  obtain ⟨s, hs, rfl⟩ := List.mem_map.1 hk
  obtain ⟨t, ht, same⟩ := List.mem_map.1 hj
  have one := Part.repository_of_mem hs
  rw [← same, Part.repository_of_mem ht] at one
  exact Std.ne_of_lt hlt one.symm

/-- **The entries of a listing stand in order.** -/
theorem entries_ordered {older : Key → Key → Prop} (names : parts.Pairwise fun p q => p.name < q.name)
    (h : ∀ p ∈ parts, p.created.Pairwise fun a b => older a.key b.key) :
    (parts.map Part.entries).flatten.Pairwise (Summary.Before older) := by
  rw [← List.flatMap_def]
  refine List.pairwise_flatMap.2 ⟨fun p hp => Part.entries_ordered (h p hp), ?_⟩
  refine names.imp fun hlt s hs t ht => .repository ?_
  rwa [Part.repository_of_mem hs, Part.repository_of_mem ht]

end PackageDepot
