import PackageDepot.Proofs.Service.Answers
import PackageDepot.Proofs.Service.Outlook

/-!
# One bad repository hides no other

A scan fails if its repository cannot be reached, refuses access, is not there or asks for a secret that is
not there. None of this interrupts a listing (`Depot.scan_goesOn`), so a listing is the concatenation of
one section for each repository (`Index.list_sections`), and so is the list of all functions
(`Index.functions_shelves`). What is kept at an address shows in the sections of the repositories that it
backs and nowhere else, and not in what was created in them (`bad_hides_no_other`).
-/

namespace PackageDepot

open Package Backend Call

/-- Where something is kept that backs repositories. -/
inductive Address
  | git (repo : String)
  | images (registry : String)
  deriving DecidableEq, Repr

/-- The packages or the functions of the repository are kept at one of these addresses. -/
def Repository.isAt (bad : Address → Bool) (r : Repository) : Bool :=
  r.packageSource?.any (fun source => bad (.git source.repo)) ||
    r.functionRegistry?.any fun registry => bad (.images registry)

/-- The error does not interrupt what goes over all repositories. -/
abbrev Error.GoesOn (err : Error) : Prop := err.kind ≠ .cancelled

theorem Error.goesOn_of_backend {α : Type} {r : Except Backend.Fault α} {err : Error}
    (h : r.mapError Error.ofBackend = .error err) : err.GoesOn := by
  cases r with
  | ok a => cases h
  | error f =>
    cases h
    cases f <;> exact nofun

namespace Depot

variable (d : Depot) (e : Engine)

/-- A repository of this name is backed by one of these addresses. -/
def isAt (bad : Address → Bool) (name : String) : Bool :=
  d.registry.values.any fun r => r.name = name && r.isAt bad

/-- What a scan finds, or nothing if it fails. -/
def discoveries (r : Repository) : List Discovered := (d.scan e r).toOption.getD []

/-- The entries of one repository: the created ones, and behind them what a scan finds. -/
def sectionOf (r : Repository) : List Summary :=
  (d.store.list (some r.name)).map Stored.summary ++
    ((d.discoveries e r).map fun p => p.summary r.name).filter
      fun s => !((d.store.list (some r.name)).map Stored.key).contains s.key

/-- The functions that a repository has from a registry of images. -/
def stock (r : Repository) (registry : String) : Except Error (List Function) :=
  (d.images.images registry).mapError .ofBackend >>= fun images => .ok (r.publish registry images)

/-- What is found under the name of a repository of functions. -/
def catalog (name : String) : Except Error (List Function) :=
  d.registry.find name >>= fun r =>
    match r.functionRegistry? with
    | none => .error (.validation (.notFunctionRepository name))
    | some registry => d.stock r registry

/-- The functions under the name of a repository, or none if they cannot be found. -/
def shelf (name : String) : List Function := (d.catalog name).toOption.getD []

variable {d e}

/-- **A scan that fails does not interrupt a listing.** -/
theorem scan_goesOn {r : Repository} {err : Error} (h : d.scan e r = .error err) : err.GoesOn := by
  unfold scan at h
  cases hs : r.packageSource? with
  | none =>
    rw [hs] at h
    cases h
  | some source =>
    rw [hs] at h
    obtain missing | ⟨credential, -, failed⟩ := bind_eq_error_iff.1 h
    · unfold credentialOf at missing
      split at missing
      · cases missing
      · split at missing
        · cases missing
        · cases missing
          exact nofun
    · exact Error.goesOn_of_backend failed

theorem entries_scan (r : Repository) : d.entries r (d.scan e r) = .ok (d.sectionOf e r) := by
  unfold entries sectionOf discoveries
  cases hs : d.scan e r with
  | ok packages => rfl
  | error err =>
    dsimp only
    rw [if_neg (scan_goesOn hs)]
    simp [Except.toOption]

theorem catalog_goesOn {name : String} {err : Error} (h : d.catalog name = .error err) :
    err.GoesOn := by
  unfold catalog at h
  obtain missing | ⟨r, -, failed⟩ := bind_eq_error_iff.1 h
  · unfold Registry.find at missing
    split at missing
    · cases missing
    · cases missing
      exact nofun
  · split at failed
    · cases failed
      exact nofun
    · obtain missing | ⟨images, -, failed⟩ := bind_eq_error_iff.1 failed
      · exact Error.goesOn_of_backend missing
      · cases failed

end Depot

namespace Index

variable {M : Moment → Prop} {c : Context} (e : Engine) (d : Depot) (quiet : c.Undisturbed M)

include quiet

/-- **A listing has a section for each repository**, whatever their scans come to. -/
theorem list_sections (f : Filter) : Answers M (list e f c) d
    (.ok ((d.registry.values.filter f.admits).flatMap (d.sectionOf e))) := by
  have listed : d.listing e f =
      .ok ((d.registry.values.filter f.admits).flatMap (d.sectionOf e)) := by
    have sections : (d.registry.values.filter f.admits).mapM
        ((fun s => d.entries s.1 s.2) ∘ fun r => (r, d.scan e r)) =
          .ok ((d.registry.values.filter f.admits).map (d.sectionOf e)) :=
      mapM_eq_ok fun r _ => Depot.entries_scan r
    rw [Depot.listing, List.mapM_map, sections, List.flatMap_def]
    rfl
  exact listed ▸ list_answers e d quiet f

theorem scanFunctions_answers (name : String) :
    Answers M (scanFunctions name c) d (d.catalog name) := by
  refine (answers_query _).bind fun r => ?_
  cases r.functionRegistry? with
  | none => exact answers_throw _
  | some registry => exact (answers_within quiet _).bind fun images => answers_pure _

/-- **The list of functions has a shelf for each repository of functions.** -/
theorem functions_shelves : Answers M (functions c) d
    (.ok ((d.registry.values.filter fun r => r.content = .function && r.kind = .oci).flatMap
      fun r => d.shelf r.name)) := by
  apply (answers_read _).bind_ok
  rw [List.flatMap_def]
  refine Answers.bind_ok ?_ (answers_pure _)
  rw [← mapM_eq_ok (f := fun r : Repository => .ok (d.shelf r.name)) fun _ _ => rfl]
  refine answers_mapM (fun r => ?_) _
  apply (scanFunctions_answers d quiet r.name).attempt.bind_ok
  unfold Depot.shelf
  cases hr : d.catalog r.name with
  | ok functions => exact answers_pure functions
  | error err =>
    dsimp only
    rw [if_neg (Depot.catalog_goesOn hr)]
    exact answers_pure []

end Index

/-- The depots are the same except for what is kept at these addresses. -/
structure Depot.AgreesBut (bad : Address → Bool) (d d' : Depot) : Prop where
  registry : d.registry = d'.registry
  store : d.store = d'.store
  secrets : d.secrets = d'.secrets
  git : ∀ repo, bad (.git repo) = false → d.git.get? repo = d'.git.get? repo
  images : ∀ registry, bad (.images registry) = false →
    d.images.get? registry = d'.images.get? registry

/-- An entry that a listing has from a scan of a repository at one of these addresses. -/
def Summary.isFrom (d : Depot) (bad : Address → Bool) (s : Summary) : Bool :=
  s.provenance = .discovered && d.isAt bad s.key.repository

/-- A function of a repository at one of these addresses. -/
def Function.isFrom (d : Depot) (bad : Address → Bool) (f : Function) : Bool := d.isAt bad f.repository

namespace Depot.AgreesBut

variable {bad : Address → Bool} {d d' : Depot} {e : Engine}

theorem credentialOf (h : d.AgreesBut bad d') (source : GitSource) :
    d.credentialOf source = d'.credentialOf source := by
  unfold Depot.credentialOf
  rw [h.secrets]

/-- A repository at no such address is scanned alike. -/
theorem scan (h : d.AgreesBut bad d') {r : Repository} (good : r.isAt bad = false) :
    d.scan e r = d'.scan e r := by
  unfold Depot.scan
  cases hs : r.packageSource? with
  | none => rfl
  | some source =>
    have place : bad (.git source.repo) = false := by
      simp only [Repository.isAt, hs, Option.any_some, Bool.or_eq_false_iff] at good
      exact good.1
    have access : ∀ credential,
        d.git.access source.repo credential = d'.git.access source.repo credential := by
      intro credential
      unfold GitHost.access
      rw [h.git _ place]
    dsimp only
    rw [h.credentialOf]
    congr 1
    funext credential
    rw [GitHost.discover_congr (access credential)]

/-- The sections of a repository agree where no scan at a bad address has a part in them. -/
theorem sectionOf (h : d.AgreesBut bad d') {r : Repository} (hr : r ∈ d.registry.values) :
    (d.sectionOf e r).filter (fun s => !s.isFrom d bad) =
      (d'.sectionOf e r).filter fun s => !s.isFrom d bad := by
  unfold Depot.sectionOf
  rw [← h.store, List.filter_append, List.filter_append]
  congr 1
  cases good : r.isAt bad with
  | false =>
    unfold discoveries
    rw [h.scan good]
  | true =>
    -- All that was discovered is from a bad address.
    have named : d.isAt bad r.name = true :=
      List.any_eq_true.2 ⟨r, hr, by simp [good]⟩
    have none : ∀ (packages : List Discovered) (fresh : Summary → Bool),
        ((packages.map fun p => p.summary r.name).filter fresh).filter
          (fun s => !s.isFrom d bad) = [] := by
      intro packages fresh
      rw [List.filter_eq_nil_iff]
      intro s hs
      obtain ⟨p, -, rfl⟩ := List.mem_map.1 (List.mem_filter.1 hs).1
      simp [Summary.isFrom, Discovered.summary, Discovered.key, named]
    rw [none, none]

/-- What is not from a bad address is in stock alike. -/
theorem stock (h : d.AgreesBut bad d') {r : Repository} (hr : r ∈ d.registry.values)
    {registry : String} (place : r.functionRegistry? = some registry) :
    ((d.stock r registry).toOption.getD []).filter (fun f => !f.isFrom d bad) =
      ((d'.stock r registry).toOption.getD []).filter fun f => !f.isFrom d bad := by
  unfold Depot.stock
  cases good : bad (.images registry) with
  | false =>
    have images : d.images.images registry = d'.images.images registry := by
      unfold ImageHost.images
      rw [h.images registry good]
    rw [images]
  | true =>
    have named : d.isAt bad r.name = true := by
      refine List.any_eq_true.2 ⟨r, hr, ?_⟩
      simp [Repository.isAt, place, good]
    have none : ∀ images : Except Error (List FunctionImage),
        ((images >>= fun images => .ok (r.publish registry images) :
          Except Error (List Function)).toOption.getD []).filter (fun f => !f.isFrom d bad) = [] := by
      intro images
      rw [List.filter_eq_nil_iff]
      intro f hf
      cases images with
      | error err => cases hf
      | ok images =>
        obtain ⟨i, -, rfl⟩ := List.mem_map.1 hf
        simp [Function.isFrom, named]
    rw [none, none]

/-- The shelves of a repository agree in the functions from no bad address. -/
theorem shelf (h : d.AgreesBut bad d') (name : String) :
    (d.shelf name).filter (fun f => !f.isFrom d bad) =
      (d'.shelf name).filter fun f => !f.isFrom d bad := by
  unfold Depot.shelf Depot.catalog
  rw [← h.registry]
  cases hf : d.registry.find name with
  | error err => rfl
  | ok r =>
    have hr : r ∈ d.registry.values := Dict.mem_values_iff.2 ⟨name, Registry.find_ok_iff.1 hf⟩
    show List.filter _ ((match r.functionRegistry? with
        | none => _
        | some registry => d.stock r registry : Except Error (List Function)).toOption.getD []) =
      List.filter _ ((match r.functionRegistry? with
        | none => _
        | some registry => d'.stock r registry : Except Error (List Function)).toOption.getD [])
    cases hs : r.functionRegistry? with
    | none => rfl
    | some registry => exact h.stock hr hs

end Depot.AgreesBut

/-- **One bad repository hides no other.** Whatever is kept at the bad addresses, be it one or several, a
listing and the list of all functions succeed in a context that is not interrupted. The answers agree, in
order, but for what was discovered there, and but for the functions of the repositories that are backed by
them. -/
theorem bad_hides_no_other {bad : Address → Bool} {d d' : Depot} (same : d.AgreesBut bad d')
    {M : Moment → Prop} {c : Context} (quiet : c.Undisturbed M) (e : Engine) (f : Filter) :
    (∃ entries entries', Answers M (Service.list e f c) d (.ok entries) ∧
      Answers M (Service.list e f c) d' (.ok entries') ∧
      entries.filter (fun s => !s.isFrom d bad) = entries'.filter fun s => !s.isFrom d bad) ∧
    ∃ functions functions', Answers M (Service.functions c) d (.ok functions) ∧
      Answers M (Service.functions c) d' (.ok functions') ∧
      functions.filter (fun f => !f.isFrom d bad) = functions'.filter fun f => !f.isFrom d bad := by
  refine ⟨⟨_, _, Index.list_sections e d quiet f, Index.list_sections e d' quiet f, ?_⟩,
    _, _, Index.functions_shelves d quiet, Index.functions_shelves d' quiet, ?_⟩
  · rw [List.filter_flatMap, List.filter_flatMap, ← same.registry]
    rw [List.flatMap_def, List.flatMap_def]
    exact congrArg _ (List.map_congr_left fun r hr => same.sectionOf (List.mem_filter.1 hr).1)
  · rw [List.filter_flatMap, List.filter_flatMap, ← same.registry]
    rw [List.flatMap_def, List.flatMap_def]
    exact congrArg _ (List.map_congr_left fun r _ => same.shelf r.name)

namespace Offline

/-- A repository with one package. -/
def repository : GitRepo :=
  { refs := (∅ : Dict Commit).insert "v1" ⟨"c1", (∅ : Bundle).insert "web/Kptfile" ""⟩ }

/-- A depot with two registered repositories, of which one is kept as this, or is not there. -/
def depot (lost : Option GitRepo) : Depot where
  git := match lost with
    | some g => ((∅ : GitHost).insert "host/apps" repository).insert "host/lost" g
    | none => (∅ : GitHost).insert "host/apps" repository
  registry := ((∅ : Registry).insert "apps" (.ofGit "apps" { repo := "host/apps" })).insert "lost"
    (.ofGit "lost" { repo := "host/lost" })

/-- The address of the one. -/
def bad (a : Address) : Bool := a = .git "host/lost"

theorem agrees (lost : Option GitRepo) : (depot (some repository)).AgreesBut bad (depot lost) where
  registry := rfl
  store := rfl
  secrets := rfl
  git repo good := by
    have other : repo ≠ "host/lost" := by simpa [bad] using good
    cases lost <;> simp [depot, other]
  images _ _ := rfl

end Offline

/-- A repository is taken offline. -/
theorem bad_hides_no_other_offline :
    (∃ entries entries',
      Answers (fun m => m = {}) (Service.list {} {} ⟨[], none⟩)
        (Offline.depot (some Offline.repository)) (.ok entries) ∧
      Answers (fun m => m = {}) (Service.list {} {} ⟨[], none⟩)
        (Offline.depot (some { Offline.repository with offline := true })) (.ok entries') ∧
      entries.filter (fun s => !s.isFrom (Offline.depot (some Offline.repository)) Offline.bad) =
        entries'.filter fun s => !s.isFrom (Offline.depot (some Offline.repository)) Offline.bad) ∧
    ∃ functions functions',
      Answers (fun m => m = {}) (Service.functions ⟨[], none⟩)
        (Offline.depot (some Offline.repository)) (.ok functions) ∧
      Answers (fun m => m = {}) (Service.functions ⟨[], none⟩)
        (Offline.depot (some { Offline.repository with offline := true })) (.ok functions') ∧
      functions.filter (fun f => !f.isFrom (Offline.depot (some Offline.repository)) Offline.bad) =
        functions'.filter fun f => !f.isFrom (Offline.depot (some Offline.repository)) Offline.bad :=
  bad_hides_no_other (Offline.agrees _) (by rintro _ rfl; rfl) {} {}

end PackageDepot
