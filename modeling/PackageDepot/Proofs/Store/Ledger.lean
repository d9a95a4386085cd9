import Mathlib.Data.List.Pairwise
import Mathlib.Data.List.Sort
import PackageDepot.Proofs.Store.Lookup

/-!
# The store as a list of keys and entries

A `Ledger` is what the store means: an association list, in which a creation comes to the end, a replacement
stands where the old entry stood, and a deletion takes out what it names. `Store.ledger` forgets the numbers
of a store, and each operation of the store does to it what the operation of the ledger does
(`Store.ledger_commit`, `ledger_erase`, `ledger_purge`). Of the numbers remains that they increase along the
list (`Store.Ordered`): so they tell the order of the revisions however these are mixed.
-/

namespace PackageDepot

open Package

/-- What is kept of a revision. The number of its creation is not seen from outside. -/
structure Entry where
  spec : Revision
  files : Bundle
  kptfile : Kptfile
  createdAt : Time
  updatedAt : Time

def Stored.entry (s : Stored) : Entry := ⟨s.spec, s.files, s.kptfile, s.createdAt, s.updatedAt⟩

/-- An association list, and the keys whose leases are taken. -/
structure Ledger where
  entries : List (Key × Entry) := []
  leased : List Key := []

namespace Ledger

variable (l : Ledger)

/-- The entry under a key. -/
def get? (k : Key) : Option Entry := l.entries.lookup k

/-- Take a lease, whose key has to be free, and there just if it is to be replaced. -/
def reserve (lease : Lease) : Except Error Ledger :=
  if lease.key ∈ l.leased then .error (.conflict lease.key)
  else
    match lease.intent, l.get? lease.key with
    | .create, some _ => .error (.alreadyExists (.revision lease.key))
    | .replace, none => .error (.notFound (.revision lease.key))
    | _, _ => .ok { l with leased := lease.key :: l.leased }

/-- Give the lease of a key back. -/
def release (k : Key) : Ledger := { l with leased := l.leased.filter (· ≠ k) }

/-- A creation comes to the end of the list, and a replacement stands where the old entry stood. It keeps the
time of the creation. -/
def commit (lease : Lease) (spec : Revision) (snapshot : Snapshot) (now : Time) :
    Except Error (Entry × Ledger) :=
  if spec.key ≠ lease.key then .error (.validation (.leaseMismatch lease.key spec.key))
  else
    match lease.intent, l.get? lease.key with
    | .create, some _ => .error (.alreadyExists (.revision lease.key))
    | .replace, none => .error (.notFound (.revision lease.key))
    | .create, none =>
      let e : Entry := ⟨spec, snapshot.files, snapshot.kptfile, now, now⟩
      .ok (e, { l with entries := l.entries ++ [(lease.key, e)] })
    | .replace, some old =>
      let e : Entry := ⟨spec, snapshot.files, snapshot.kptfile, old.createdAt, now⟩
      .ok (e, { l with entries := l.entries.map fun x => if x.1 = lease.key then (x.1, e) else x })

/-- Take an entry out. -/
def erase (k : Key) : Ledger := { l with entries := l.entries.filter fun x => x.1 ≠ k }

/-- The keys of a repository. -/
def ofRepository (repository : String) : List Key :=
  (l.entries.map Prod.fst).filter fun k => k.repository = repository

/-- Take the entries of a repository out. -/
def purge (repository : String) : Ledger :=
  { l with entries := l.entries.filter fun x => x.1.repository ≠ repository }

end Ledger

namespace Store

variable (s : Store)

/-- What a store means. -/
def ledger : Ledger := ⟨s.revisions.map fun r => (r.key, r.entry), s.inFlight⟩

@[simp] theorem ledger_acquire (k : Key) : (s.acquire k).ledger = { s.ledger with leased := k :: s.inFlight } :=
  rfl

@[simp] theorem ledger_release (k : Key) : (s.release k).ledger = s.ledger.release k := rfl

theorem ledger_get? (k : Key) : s.ledger.get? k = (s.get? k).map Stored.entry := by
  unfold Ledger.get? ledger get?
  dsimp only
  induction s.revisions with
  | nil => rfl
  | cons r rest ih =>
    rw [List.map_cons, Dict.lookup_cons_ite, List.find?_cons, ih]
    by_cases h : r.key = k
    · simp [h]
    · simp [h, Ne.symm h]

theorem ledger_erase (k : Key) : (s.erase k).ledger = s.ledger.erase k := by
  unfold ledger erase Ledger.erase
  dsimp only
  rw [List.filter_map]
  rfl

theorem ledger_purge (repository : String) : (s.purge repository).ledger = s.ledger.purge repository := by
  unfold ledger purge Ledger.purge
  dsimp only
  rw [List.filter_map]
  rfl

/-- As many revisions are taken out as there are keys of the repository. -/
theorem length_purge (repository : String) :
    s.revisions.length - (s.purge repository).revisions.length =
      (s.ledger.ofRepository repository).length := by
  have others := List.length_eq_length_filter_add (l := s.revisions)
    fun r => decide (r.key.repository = repository)
  have taken : (s.ledger.ofRepository repository).length =
      (s.revisions.filter fun r => r.key.repository = repository).length := by
    rw [Ledger.ofRepository, ledger, List.map_map, List.filter_map, List.length_map]
    rfl
  simp only [← decide_not] at others
  rw [taken, others, purge]
  exact Nat.add_sub_cancel _ _

/-- Putting a revision in the place of the one with its key. -/
theorem ledger_replace (rs : List Stored) {b : Stored} {k : Key} (hb : b.key = k) :
    (rs.map fun o => if o.key = k then b else o).map (fun r => (r.key, r.entry)) =
      (rs.map fun r => (r.key, r.entry)).map fun x => if x.1 = k then (x.1, b.entry) else x := by
  rw [List.map_map, List.map_map]
  refine List.map_congr_left fun r _ => ?_
  dsimp only [Function.comp_apply]
  split
  · next same => rw [hb, same]
  · rfl

/-- **A commit does to the store what it does to the ledger.** -/
theorem ledger_commit (l : Lease) (spec : Revision) (snapshot : Snapshot) (now : Time) :
    s.ledger.commit l spec snapshot now =
      (s.commit l spec snapshot now).map fun (b, t) => (b.entry, t.ledger) := by
  unfold Ledger.commit commit
  rw [ledger_get?]
  split
  · rfl
  next same =>
  have key : spec.key = l.key := by simpa using same
  cases l.intent with
  | create =>
    cases s.get? l.key with
    | some old => rfl
    | none => simp [ledger, Except.map, Stored.key, Stored.entry, key]
  | replace =>
    cases s.get? l.key with
    | none => rfl
    | some old =>
      have replaced := ledger_replace s.revisions
        (b := ⟨spec, snapshot.files, snapshot.kptfile, old.createdAt, now, old.seq⟩) key
      exact congrArg (fun entries => Except.ok (_, (⟨entries, s.inFlight⟩ : Ledger))) replaced.symm

/-! ## The numbers of creation -/

variable {s} {t : Store} {k : Key}

/-- The numbers increase along the list and are used up, and no key stands there twice. -/
structure Ordered (s : Store) : Prop where
  keys : (s.revisions.map Stored.key).Nodup
  increasing : (s.revisions.map Stored.seq).Pairwise (· < ·)
  used : ∀ r ∈ s.revisions, r.seq < s.nextSeq

theorem ordered_empty : ({} : Store).Ordered := ⟨.nil, .nil, nofun⟩

/-- The order says nothing about leases. -/
theorem Ordered.leased (h : s.Ordered) (inFlight : List Key) : { s with inFlight }.Ordered :=
  ⟨h.keys, h.increasing, h.used⟩

/-- Some of the revisions are taken out. -/
theorem Ordered.filter (h : s.Ordered) (p : Stored → Bool) :
    { s with revisions := s.revisions.filter p }.Ordered where
  keys := h.keys.sublist (List.filter_sublist.map _)
  increasing := h.increasing.sublist (List.filter_sublist.map _)
  used r hr := h.used r (List.mem_filter.1 hr).1

/-- **A creation draws a new number, and a replacement takes over the old one.** -/
theorem Ordered.commit (h : s.Ordered) {l : Lease} {spec : Revision} {snapshot : Snapshot} {now : Time}
    {b : Stored} (done : s.commit l spec snapshot now = .ok (b, t)) : t.Ordered := by
  have keys := (commit_ok done).nodup h.keys
  unfold Store.commit at done
  split at done
  · cases done
  split at done
  · cases done
  · cases done
  · cases done
    refine ⟨keys, ?_, fun r hr => ?_⟩
    · rw [List.map_append, List.pairwise_append]
      refine ⟨h.increasing, by simp, ?_⟩
      rintro n hn _ hm
      obtain ⟨r, hr, rfl⟩ := List.mem_map.1 hn
      cases List.mem_singleton.1 hm
      exact h.used r hr
    · obtain old | new := List.mem_append.1 hr
      · exact Nat.lt_succ_of_lt (h.used r old)
      · cases List.mem_singleton.1 new
        exact Nat.lt_succ_self _
  · next old _ there =>
    cases done
    -- The number that is taken over stood in this very place, as no other revision has the key.
    have same : ∀ r ∈ s.revisions, r.key = l.key → old.seq = r.seq := fun r hr hk => by
      have one := List.inj_on_of_nodup_map h.keys hr (mem_of_get? there) (hk.trans (key_of_get? there).symm)
      rw [one]
    have seqs : (s.revisions.map fun o => if o.key = l.key then
        (⟨spec, snapshot.files, snapshot.kptfile, old.createdAt, now, old.seq⟩ : Stored)
        else o).map Stored.seq = s.revisions.map Stored.seq := by
      rw [List.map_map]
      refine List.map_congr_left fun r hr => ?_
      dsimp only [Function.comp_apply]
      split
      · next hk => exact same r hr hk
      · rfl
    refine ⟨keys, by rw [seqs]; exact h.increasing, fun r hr => ?_⟩
    have number : r.seq ∈ s.revisions.map Stored.seq := seqs ▸ List.mem_map_of_mem hr
    obtain ⟨r', hr', number⟩ := List.mem_map.1 number
    exact number ▸ h.used r' hr'

/-- The revisions of one repository or of all, in the order of their numbers. The list has them in any
order. -/
def sorted (rs : List Stored) (repository : Option String) : List Stored :=
  (rs.filter fun r => repository.all fun name => r.spec.repository == name).mergeSort fun a b =>
    a.seq ≤ b.seq

/-- **The numbers tell the order of creation**, however the revisions are mixed. -/
theorem Ordered.sorted (h : s.Ordered) {rs : List Stored} (mixed : rs.Perm s.revisions)
    (repository : Option String) : Store.sorted rs repository = s.list repository := by
  have increasing : (s.list repository).Pairwise fun a b => a.seq < b.seq :=
    (List.pairwise_map.1 h.increasing).filter _
  have same : (Store.sorted rs repository).Perm (s.list repository) :=
    (List.mergeSort_perm _ _).trans (mixed.filter _)
  have ordered : (Store.sorted rs repository).Pairwise fun a b => a.seq ≤ b.seq := by
    refine (List.pairwise_mergeSort ?_ ?_ _).imp of_decide_eq_true
    · intro a b c hab hbc
      exact decide_eq_true ((of_decide_eq_true hab).trans (of_decide_eq_true hbc))
    · intro a b
      simpa using Nat.le_total a.seq b.seq
  refine same.eq_of_pairwise ?_ ordered (increasing.imp Nat.le_of_lt)
  -- Revisions with one number are one revision.
  intro a b ha hb hab hba
  have there : ∀ r ∈ s.list repository, r ∈ s.revisions := fun r hr => (List.mem_filter.1 hr).1
  have distinct : (s.revisions.map Stored.seq).Nodup := h.increasing.imp Nat.ne_of_lt
  exact List.inj_on_of_nodup_map distinct (there a (same.subset ha)) (there b hb)
    (Nat.le_antisymm hab hba)

/-- A key has one revision, however they are mixed. -/
theorem Ordered.find? (h : s.Ordered) {rs : List Stored} (mixed : rs.Perm s.revisions) (k : Key) :
    rs.find? (fun r => r.key = k) = s.get? k := by
  cases there : s.get? k with
  | none =>
    rw [get?, List.find?_eq_none] at there
    exact List.find?_eq_none.2 fun r hr => there r (mixed.subset hr)
  | some b =>
    obtain ⟨c, found⟩ : ∃ c, rs.find? (fun r => r.key = k) = some c := by
      rw [← Option.isSome_iff_exists, List.find?_isSome]
      exact ⟨b, mixed.symm.subset (mem_of_get? there), by simpa using key_of_get? there⟩
    have key : c.key = b.key := by simpa [key_of_get? there] using List.find?_some found
    rw [found, List.inj_on_of_nodup_map h.keys (mixed.subset (List.mem_of_find?_eq_some found))
      (mem_of_get? there) key]

/-! ## What is seen -/

/-- What is seen of a store is what its ledger says. -/
structure Shows (s : Store) (l : Ledger) : Prop where
  /-- Under each key there is its entry. -/
  get? : ∀ k, (s.get? k).map Stored.entry = l.get? k
  /-- The whole list is listed, in its order. -/
  all : (s.list none).map Stored.entry = l.entries.map Prod.snd
  /-- A repository has the entries whose requests name it. -/
  one : ∀ repository, (s.list (some repository)).map Stored.entry =
    (l.entries.map Prod.snd).filter fun e => e.spec.repository = repository
  /-- Each entry stands under the key of its own request. -/
  own : ∀ x ∈ l.entries, x.2.spec.key = x.1
  keys : (l.entries.map Prod.fst).Nodup
  leased : l.leased = s.inFlight
  /-- The numbers of creation are different. -/
  numbers : (s.revisions.map Stored.seq).Nodup
  /-- So however the revisions are mixed, they are found and listed alike. -/
  found : ∀ rs : List Stored, rs.Perm s.revisions → ∀ k, rs.find? (fun r => r.key = k) = s.get? k
  listed : ∀ rs : List Stored, rs.Perm s.revisions → ∀ repository, Store.sorted rs repository = s.list repository

theorem Ordered.shows (h : s.Ordered) : s.Shows s.ledger where
  get? k := (s.ledger_get? k).symm
  all := by
    simp [list, ledger]
  one repository := by
    simp only [list, ledger, List.map_map, List.filter_map, Option.all_some]
    rfl
  own x hx := by
    obtain ⟨r, -, rfl⟩ := List.mem_map.1 hx
    rfl
  keys := by
    rw [ledger, List.map_map]
    exact h.keys
  leased := rfl
  numbers := h.increasing.imp Nat.ne_of_lt
  found _ := h.find?
  listed _ := h.sorted

end Store
end PackageDepot
