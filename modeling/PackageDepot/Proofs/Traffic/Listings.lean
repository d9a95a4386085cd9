import PackageDepot.Proofs.Service.Gathering
import PackageDepot.Proofs.Traffic.Built
import PackageDepot.Proofs.Traffic.Course
import PackageDepot.Proofs.Traffic.Creations
import PackageDepot.Proofs.Traffic.Sequential
import PackageDepot.Proofs.Traffic.Writes

/-!
# Listings among other calls

A listing reads the registry, the places of packages and the store at different moments, while others write.
`Listed` says what can be relied on nevertheless: nothing occurs twice, nothing is left out that is there
all the time, nothing is shown that is not there at some moment of the call, and the entries stand in
order. `run_listings` proves it of all answers in all runs. It also proves it of whatever could be gathered
during a call in another order, as by scans that are made at one time.
-/

namespace PackageDepot

open Package Backend Call

/-- A repository is registered under a name, and a filter admits it. -/
def Depot.Admits (d : Depot) (f : Filter) (name : String) (r : Repository) : Prop :=
  d.registry.get? name = some r ∧ f.admits r = true

namespace Traffic

/-- The depot is one that a call comes through. -/
def Course (x : Nat → Traffic) (i : Nat) (d : Depot) : Prop := ∃ b, (x b).During i ∧ (x b).depot = d

/-- A revision is stored at a time: a write that succeeded built it and left it there, and it has been there
since. -/
structure Committed (e : Engine) (es : Nat → Event) (x : Nat → Traffic) (o : Stored) (n : Nat) :
    Prop where
  stored : (x n).depot.store.get? o.key = some o
  built : o.Built e fun d => ∃ a < n, (x a).depot = d
  left : ∃ a < n, (x a).Effect (es a) o.key (some o.substance) ∧
    ∀ b, a < b → b ≤ n → (x b).depot.store.get? o.key = some o

/-- What a listing shows to its call. `x n` is the state in which the event `es n` happens. -/
structure Listed (e : Engine) (es : Nat → Event) (x : Nat → Traffic) (i : Nat) (f : Filter)
    (entries : List Summary) : Prop where
  nodup : (entries.map Summary.key).Nodup
  /-- What is stored during the whole call, in a repository that is registered and admitted during the
  whole call, is shown once, as created. -/
  complete : ∀ k, (∀ b, (x b).During i → (x b).depot.store.get? k ≠ none ∧
      ∃ r, (x b).depot.Admits f k.repository r) →
    ∃ s, entries.filter (fun s => s.key = k) = [s] ∧ s.provenance = .created
  /-- Repositories are shown that are registered and admitted at some moment of the call. -/
  admitted : ∀ s ∈ entries, ∃ a r, (x a).During i ∧ (x a).depot.Admits f s.key.repository r
  /-- What is shown as created is stored at some moment of the call. -/
  created : ∀ s ∈ entries, s.provenance = .created →
    ∃ b o, (x b).During i ∧ Committed e es x o b ∧ s = o.summary
  /-- What is shown as discovered is published at some moment of the call, where a repository is that is
  registered and admitted at some moment of the call. -/
  discovered : ∀ s ∈ entries, s.provenance = .discovered → ∃ a b r,
    (x a).During i ∧ (x a).depot.Admits f s.key.repository r ∧
      (x b).During i ∧ (x b).depot.Publishes e r s
  /-- Repositories stand in the order of their names, and in each of them those that are created come
  first, in the order in which they were created. -/
  ordered : entries.Pairwise (Summary.Before fun j k => ∃ b, (x b).During i ∧ Older es x b j k)

/-- Listings can be relied on. -/
structure Listings (e : Engine) (es : Nat → Event) (x : Nat → Traffic) : Prop where
  /-- What a call answers is gathered on its course. -/
  gathered : ∀ n i f c entries, (x n).At i (.list f c) (.done (.ok (.listing entries))) →
    Gathered e f (Course x i) entries
  /-- What is gathered on the course of a call, in whatever order, can be relied on. -/
  listed : ∀ i f entries, Gathered e f (Course x i) entries → Listed e es x i f entries

variable {e : Engine} {m : Moment} {git : GitHost} {images : ImageHost} {secrets : Dict Credential}
  {es : Nat → Event} {n i : Nat}

/-- What is stored is there since the write that left it. -/
theorem committed_of_get? {k : Key} {o : Stored}
    (stored : (run e (opening m git images secrets) es n).depot.store.get? k = some o) :
    Committed e es (run e (opening m git images secrets) es) o n := by
  obtain rfl := Store.key_of_get? stored
  have built := run_built e m git images secrets es n o (Store.mem_of_get? stored)
  refine ⟨stored, built, ?_⟩
  obtain ⟨a, -, han, before, since⟩ := exists_last (a := 0) (n := n) (Nat.zero_le n)
    (P := fun b => (run e (opening m git images secrets) es b).depot.store.get? o.key ≠ some o)
    nofun (fun h => h stored)
  have stays : ∀ b, a < b → b ≤ n →
      (run e (opening m git images secrets) es b).depot.store.get? o.key = some o :=
    fun b hab hbn => Classical.not_not.1 (since b hab hbn)
  have after := stays (a + 1) (by omega) (by omega)
  refine ⟨a, han, ?_, stays⟩
  obtain same | effect := (run_change e (opening m git images secrets) es a).get?_or_effect
    (run_orderly a) o.key
  · exact (before (same ▸ after)).elim
  · rwa [content, after] at effect

/-- The revisions of a repository are read in the order of their creation. -/
theorem list_ordered (name : String) :
    ((run e (opening m git images secrets) es n).depot.store.list (some name)).Pairwise fun a b =>
      Older es (run e (opening m git images secrets) es) n a.key b.key :=
  (List.pairwise_map.1 (run_creation_order e m git images secrets es n)).filter _

theorem course_tidy (d : Depot) (h : Course (run e (opening m git images secrets) es) i d) : d.Tidy := by
  obtain ⟨b, -, rfl⟩ := h
  exact run_tidy e m git images secrets es b

/-- **What a call answers is gathered on its course.** -/
theorem gathered_of_answered {f : Filter} {c : Context} {entries : List Summary}
    (h : (run e (opening m git images secrets) es n).At i (.list f c)
      (.done (.ok (.listing entries)))) :
    Gathered e f (Course (run e (opening m git images secrets) es) i) entries := by
  obtain ⟨t, answers⟩ := h.within_course (.done _ (run e (opening m git images secrets) es n).depot)
  have met := answers.mono (K := Course (run e (opening m git images secrets) es) i) (by
    rintro d ⟨b, -, ⟨-, during⟩, rfl⟩
    exact ⟨b, during, rfl⟩)
  obtain ⟨listed, u, lists, rest⟩ := ends_bind_ok (x := Service.list e f c) met
  cases (ends_pure_iff.1 rest).1
  exact Index.within_list_ok course_tidy lists

/-- A part that is gathered has what is stored on all depots. -/
theorem mem_entries_of_stored {J : Depot → Prop} (tidy : ∀ d, J d → d.Tidy) {r : Repository} {p : Part}
    (h : p.Gathered e J r) {k : Key} (stored : ∀ d, J d → d.store.get? k ≠ none)
    (home : k.repository = r.name) : ∃ s ∈ p.entries, s.key = k ∧ s.provenance = .created := by
  obtain ⟨d, hj, created⟩ := h.created
  obtain ⟨o, found⟩ := Option.ne_none_iff_exists'.1 (stored d hj)
  obtain rfl := Store.key_of_get? found
  refine ⟨o.summary, Part.mem_entries_iff.2 (.inl ⟨o, ?_, rfl⟩), rfl, rfl⟩
  rw [created]
  exact (tidy d hj).mem_list_iff.2 ⟨found, home⟩

/-- An entry that is created is read from the store. -/
theorem stored_of_created {J : Depot → Prop} (tidy : ∀ d, J d → d.Tidy) {r : Repository} {p : Part}
    (h : p.Gathered e J r) {s : Summary} (hs : s ∈ p.entries) (created : s.provenance = .created) :
    ∃ d o, J d ∧ d.store.get? o.key = some o ∧ s = o.summary := by
  obtain ⟨o, ho, rfl⟩ | ⟨q, -, rfl, -⟩ := Part.mem_entries_iff.1 hs
  · obtain ⟨d, hj, read⟩ := h.created
    rw [read] at ho
    exact ⟨d, o, hj, ((tidy d hj).mem_list_iff.1 ho).1, rfl⟩
  · cases created

/-- An entry that is discovered is found in git. -/
theorem publishes_of_discovered {J : Depot → Prop} {r : Repository} {p : Part} (h : p.Gathered e J r)
    {s : Summary} (hs : s ∈ p.entries) (discovered : s.provenance = .discovered) :
    ∃ d, J d ∧ d.Publishes e r s := by
  obtain ⟨o, -, rfl⟩ | ⟨q, hq, rfl, -⟩ := Part.mem_entries_iff.1 hs
  · cases discovered
  · rw [h.name_eq]
    exact h.packages.publishes hq

/-- **What is gathered on the course of a call can be relied on.** -/
theorem listed_of_gathered {f : Filter} {entries : List Summary}
    (h : Gathered e f (Course (run e (opening m git images secrets) es) i) entries) :
    Listed e es (run e (opening m git images secrets) es) i f entries := by
  obtain ⟨d, parts, ⟨b, during, hd⟩, rfl, names, each, all⟩ := h.parts course_tidy
  subst hd
  have unique := entries_nodup names
  refine ⟨unique, ?_, ?_, ?_, ?_, ?_⟩
  · intro k there
    obtain ⟨r, found, admits⟩ := (there b during).2
    obtain ⟨p, hp, gathered⟩ := all k.repository r found admits
    have home : k.repository = r.name :=
      ((run_tidy e m git images secrets es b).named _ r found).symm
    obtain ⟨s, hs, rfl, created⟩ := mem_entries_of_stored course_tidy gathered (k := k) (by
      rintro d ⟨b, during, rfl⟩
      exact (there b during).1) home
    have shown := mem_entries_iff.2 ⟨p, hp, hs⟩
    exact ⟨s, filter_eq_singleton unique shown, created⟩
  · intro s hs
    obtain ⟨p, hp, hs⟩ := mem_entries_iff.1 hs
    obtain ⟨r, found, admits, -⟩ := each p hp
    rw [Part.repository_of_mem hs]
    exact ⟨b, r, during, found, admits⟩
  · intro s hs created
    obtain ⟨p, hp, hs⟩ := mem_entries_iff.1 hs
    obtain ⟨r, -, -, gathered⟩ := each p hp
    obtain ⟨_, o, ⟨b, during, rfl⟩, stored, rfl⟩ := stored_of_created course_tidy gathered hs created
    exact ⟨b, o, during, committed_of_get? stored, rfl⟩
  · intro s hs discovered
    obtain ⟨p, hp, hs⟩ := mem_entries_iff.1 hs
    obtain ⟨r, found, admits, gathered⟩ := each p hp
    obtain ⟨_, ⟨a, during', rfl⟩, published⟩ := publishes_of_discovered gathered hs discovered
    rw [Part.repository_of_mem hs]
    exact ⟨b, a, r, during, ⟨found, admits⟩, during', published⟩
  · refine entries_ordered names fun p hp => ?_
    obtain ⟨r, -, -, gathered⟩ := each p hp
    obtain ⟨_, ⟨b, during, rfl⟩, created⟩ := gathered.created
    rw [created]
    exact (list_ordered r.name).imp fun older => ⟨b, during, older⟩

/-- **Listings neither lose, duplicate nor invent**, in every run of every depot. -/
theorem run_listings (e : Engine) (m : Moment) (git : GitHost) (images : ImageHost)
    (secrets : Dict Credential) (es : Nat → Event) :
    Listings e es (run e (opening m git images secrets) es) where
  gathered _ _ _ _ _ h := gathered_of_answered h
  listed _ _ _ h := listed_of_gathered h

namespace Survey

/-- A repository is listed while a revision is created in it and another one is published. -/
def script : List Event :=
  [.start (.register Shelf.repository), .move 0, .start (.create Shelf.revision ⟨[1], none⟩),
    .start (.list {} ⟨[2], none⟩), .move 2] ++ List.replicate 8 (.move 1) ++
  [.outside Shelf.stocked ∅ ∅] ++ List.replicate 6 (.move 2)

def events (n : Nat) : Event := script[n]?.getD (.pass 0 [])

def course : Nat → Traffic := run {} (opening {} Shelf.empty ∅ ∅) events

end Survey

-- Neither of the two was there when the listing began.
example : (Survey.course 20).At 2 (.list {} ⟨[2], none⟩) (.done (.ok (.listing
    [⟨Shelf.revision.key, .created, none⟩, Shelf.found.summary "apps"]))) := by
  rfl

end Traffic

end PackageDepot
