import PackageDepot.Proofs.Service.Answers
import PackageDepot.Proofs.Service.Parts

/-!
# Readers agree

`ReadsAgree e d entries` says that on the depot `d` the listing of everything is `entries`, and that `get`
and `lookup` succeed for the keys of this listing and for no others, with the same files and the lock that
is listed. `readsAgree_of_housed` proves it of a tidy depot in which each stored revision has its repository
and each repository can be scanned.
-/

namespace PackageDepot

open Package Backend Call

/-- Every registered repository of packages in git can be scanned with its credential. -/
def Depot.Scannable (d : Depot) (e : Engine) : Prop :=
  ∀ name r, d.registry.get? name = some r → r.holdsPackages = true → ∃ ps, d.scan e r = .ok ps

/-- Every stored revision is of a registered repository. -/
def Depot.Housed (d : Depot) : Prop :=
  ∀ k, (d.store.get? k).isSome = true → ∃ r, d.registry.get? k.repository = some r

/-- How the readers of a depot agree on what there is. -/
structure ReadsAgree (e : Engine) (d : Depot) (entries : List Summary) : Prop where
  list : ∀ M c, c.Undisturbed M → Answers M (Service.list e {} c) d (.ok entries)
  /-- Each key is listed once. -/
  nodup : (entries.map Summary.key).Nodup
  /-- What is listed as created is what is stored. -/
  created : ∀ s ∈ entries, s.provenance = .created ↔ (d.store.get? s.key).isSome = true
  /-- What is listed can be read, with the same files and the lock of the listing. -/
  shown : ∀ s ∈ entries, ∃ files kptfile, ∀ M c, c.Undisturbed M →
    Answers M (Service.get e s.key c) d (.ok ⟨.ofKey s.key files, kptfile⟩) ∧
    Answers M (Index.lookup e s.key c) d (.ok ⟨files, s.lock⟩)
  /-- And nothing else can be read. -/
  hidden : ∀ k, k ∉ entries.map Summary.key → ∀ M c, c.Undisturbed M →
    Answers M (Service.get e k c) d (.error (.notFound (.revision k))) ∧
    Answers M (Index.lookup e k c) d (.error (.notFound (.revision k)))

namespace Depot

variable {d : Depot} {e : Engine}

/-- Of the repositories that are registered, those that are no repositories of packages in git have nothing
to scan. -/
theorem Scannable.scan (scannable : d.Scannable e)
    (valid : ∀ n g, d.registry.get? n = some g → g.validate = .ok ()) {name : String} {r : Repository}
    (found : d.registry.get? name = some r) : ∃ ps, d.scan e r = .ok ps := by
  cases holds : r.holdsPackages with
  | true => exact scannable name r found holds
  | false =>
    refine ⟨[], ?_⟩
    have none : r.packageSource? = none := Repository.packageSource?_of_not_holds (valid _ r found) holds
    simp only [Depot.scan, none]

/-- What was created in a repository and what a scan of it found, if it found something. -/
def scanned (d : Depot) (tidy : d.Tidy) (e : Engine) (r : Repository) : Part :=
  d.part tidy r.name ((d.scan e r).toOption.getD []) <| by
    cases scanned : d.scan e r with
    | ok ps => exact scan_nodup scanned
    | error err => exact List.nodup_nil

/-- The entries of a listing of everything. -/
def all (d : Depot) (tidy : d.Tidy) (e : Engine) : List Summary :=
  ((d.registry.values.map (d.scanned tidy e)).map Part.entries).flatten

theorem all_nodup (tidy : d.Tidy) : ((d.all tidy e).map Summary.key).Nodup :=
  PackageDepot.entries_nodup (List.pairwise_map.2 tidy.values_increasing)

/-- What a scan finds can be fetched, if paths are as git has them. -/
theorem publishedContent_of_mem (plain : d.git.Plain) {r : Repository}
    (found : d.registry.get? r.name = some r) {ps : List Discovered} (scanned : d.scan e r = .ok ps)
    {p : Discovered} (hp : p ∈ ps) :
    ∃ files, d.publishedContent e (p.key r.name) = .ok ⟨files, some p.lock⟩ := by
  obtain ⟨-, rfl⟩ | ⟨source, credential, place, hc, hd⟩ := scan_ok scanned
  · cases hp
  obtain ⟨g, commit, access, offers⟩ := (GitHost.mem_discover_iff hd).1 hp
  obtain ⟨files, fetched⟩ := GitHost.fetch_discovered plain access offers
  have there : d.fetched p.location credential = .ok ⟨p.commit, files⟩ := by
    rw [Depot.fetched, fetched]
    rfl
  refine ⟨files, ?_⟩
  rw [publishedContent_eq found scanned hp place hc, there]
  rfl

variable (valid : ∀ n g, d.registry.get? n = some g → g.validate = .ok ())
  (scannable : d.Scannable e)

include valid scannable

/-- A depot whose repositories can be scanned is listed. -/
theorem listing_eq (tidy : d.Tidy) : d.listing e {} = .ok (d.all tidy e) := by
  have everything : d.registry.values.filter (Filter.admits {}) = d.registry.values :=
    List.filter_eq_self.2 fun _ _ => rfl
  have sections : (d.registry.values.map fun r => (r, d.scan e r)).mapM (fun s => d.entries s.1 s.2) =
      .ok ((d.registry.values.map fun r => (r, d.scan e r)).map
        fun s => (d.scanned tidy e s.1).entries) := by
    apply mapM_eq_ok
    intro s hs
    obtain ⟨r, hr, rfl⟩ := List.mem_map.1 hs
    obtain ⟨ps, found⟩ := scannable.scan valid (tidy.mem_values_iff.1 hr)
    simp only [entries, Part.entries, scanned, part, found]
    rfl
  rw [listing, everything, sections, List.map_map]
  show Except.ok _ = _
  rw [all, List.map_map]
  rfl

/-- What is listed: what is stored of a registered repository, and what is published and not stored. -/
theorem mem_all_iff (tidy : d.Tidy) {s : Summary} : s ∈ d.all tidy e ↔ ∃ r,
    d.registry.get? r.name = some r ∧
    ((∃ b, d.store.get? b.key = some b ∧ b.key.repository = r.name ∧ s = b.summary) ∨
      ∃ ps, d.scan e r = .ok ps ∧ ∃ p ∈ ps, d.store.get? (p.key r.name) = none ∧
        s = p.summary r.name) := by
  have fresh : ∀ (r : Repository) (p : Discovered),
      (∀ b ∈ d.store.list (some r.name), b.key ≠ p.key r.name) ↔
        d.store.get? (p.key r.name) = none := by
    intro r p
    rw [Option.eq_none_iff_forall_ne_some]
    constructor
    · intro h b stored
      have key := Store.key_of_get? stored
      exact h b (tidy.mem_list_iff.2 ⟨by rwa [key], by rw [key]; rfl⟩) key
    · intro h b hb key
      apply h b
      rw [← key]
      exact (tidy.mem_list_iff.1 hb).1
  rw [all, PackageDepot.mem_entries_iff]
  simp only [List.mem_map]
  constructor
  · rintro ⟨_, ⟨r, hr, rfl⟩, hs⟩
    have found := tidy.mem_values_iff.1 hr
    refine ⟨r, found, ?_⟩
    obtain ⟨b, hb, rfl⟩ | ⟨p, hp, rfl, absent⟩ := Part.mem_entries_iff.1 hs
    · obtain ⟨stored, home⟩ := tidy.mem_list_iff.1 hb
      exact .inl ⟨b, stored, home, rfl⟩
    · obtain ⟨ps, finds⟩ := scannable.scan valid found
      simp only [scanned, part, finds] at hp
      exact .inr ⟨ps, finds, p, hp, (fresh r p).1 absent, rfl⟩
  · rintro ⟨r, found, h⟩
    refine ⟨_, ⟨r, tidy.mem_values_iff.2 found, rfl⟩, Part.mem_entries_iff.2 ?_⟩
    obtain ⟨b, stored, home, rfl⟩ | ⟨ps, finds, p, hp, absent, rfl⟩ := h
    · exact .inl ⟨b, tidy.mem_list_iff.2 ⟨stored, home⟩, rfl⟩
    · refine .inr ⟨p, ?_, rfl, (fresh r p).2 absent⟩
      simp only [scanned, part, finds]
      exact hp

/-- What is not listed is not published either. -/
theorem published_of_hidden (tidy : d.Tidy) {k : Key} (absent : d.store.get? k = none)
    (hidden : k ∉ (d.all tidy e).map Summary.key) :
    d.published e k = .error (.notFound (.revision k)) := by
  unfold published Registry.find
  cases found : d.registry.get? k.repository with
  | none => rfl
  | some r =>
    obtain ⟨ps, scanned⟩ := scannable.scan valid found
    show (d.scan e r >>= _) = _
    rw [scanned]
    dsimp only [bind, Except.bind]
    cases looked : ps.find? fun p => p.package = k.package && p.location.ref = k.revision with
    | none => rfl
    | some p =>
      exfalso
      have name := tidy.named _ _ found
      have chosen := List.find?_some looked
      rw [Bool.and_eq_true, decide_eq_true_iff, decide_eq_true_iff] at chosen
      have key : p.key r.name = k := by
        rw [Discovered.key, name, chosen.1, chosen.2]
      apply hidden
      refine List.mem_map.2 ⟨p.summary r.name, ?_, key⟩
      refine (mem_all_iff valid scannable tidy).2 ⟨r, by rwa [name], .inr ⟨ps, scanned, p, ?_⟩⟩
      exact ⟨List.mem_of_find?_eq_some looked, by rwa [key], rfl⟩

end Depot

/-- **Readers agree** on a depot in which each stored revision has its repository and each repository can be
scanned. -/
theorem readsAgree_of_housed {d : Depot} {e : Engine} (tidy : d.Tidy)
    (valid : ∀ n g, d.registry.get? n = some g → g.validate = .ok ()) (housed : d.Housed)
    (scannable : d.Scannable e) (plain : d.git.Plain) : ReadsAgree e d (d.all tidy e) where
  list M c quiet := by
    rw [← d.listing_eq valid scannable tidy]
    exact Index.list_answers e d quiet {}
  nodup := Depot.all_nodup tidy
  created s hs := by
    obtain ⟨r, -, ⟨b, stored, -, rfl⟩ | ⟨ps, -, p, -, absent, rfl⟩⟩ :=
      (Depot.mem_all_iff valid scannable tidy).1 hs
    · exact ⟨fun _ => Option.isSome_iff_exists.2 ⟨b, stored⟩, fun _ => rfl⟩
    · refine ⟨nofun, fun stored => ?_⟩
      simp only [Discovered.summary, absent] at stored
      cases stored
  shown s hs := by
    have answers : ∀ {view content}, d.view e s.key = .ok view → d.content e s.key = .ok content →
        ∀ M c, c.Undisturbed M → Answers M (Service.get e s.key c) d (.ok view) ∧
          Answers M (Index.lookup e s.key c) d (.ok content) := by
      intro view content hv hc M c quiet
      rw [← hv, ← hc]
      exact ⟨Service.get_answers e d quiet s.key, Index.lookup_answers e d quiet s.key⟩
    obtain ⟨r, found, ⟨b, stored, -, rfl⟩ | ⟨ps, scanned, p, hp, absent, rfl⟩⟩ :=
      (Depot.mem_all_iff valid scannable tidy).1 hs
    · refine ⟨b.files, some b.kptfile, answers ?_ ?_⟩
      · simp only [Depot.view, Stored.summary, stored]
      · simp only [Depot.content, Stored.summary, stored]
    · obtain ⟨files, content⟩ := Depot.publishedContent_of_mem plain found scanned hp
      refine ⟨files, (Kptfile.ofBundle e.config.manifestFile files).toOption, answers ?_ ?_⟩
      · simp only [Depot.view, Discovered.summary, absent, content]
        rfl
      · simp only [Depot.content, Discovered.summary, absent, content]
  hidden k hk M c quiet := by
    have absent : d.store.get? k = none := by
      cases stored : d.store.get? k with
      | none => rfl
      | some b =>
        exfalso
        obtain ⟨r, found⟩ := housed k (by rw [stored]; rfl)
        have key := Store.key_of_get? stored
        have name := tidy.named _ _ found
        apply hk
        refine List.mem_map.2 ⟨b.summary, ?_, key⟩
        refine (Depot.mem_all_iff valid scannable tidy).2 ⟨r, by rwa [name], .inl ⟨b, ?_⟩⟩
        exact ⟨by rwa [key], by rw [key, name], rfl⟩
    have missing : d.publishedContent e k = .error (.notFound (.revision k)) := by
      rw [Depot.publishedContent, Depot.published_of_hidden valid scannable tidy absent hk]
      rfl
    have got := Service.get_answers e d quiet k
    have looked := Index.lookup_answers e d quiet k
    simp only [Depot.view, Depot.content, absent, missing] at got looked
    exact ⟨got, looked⟩

end PackageDepot
