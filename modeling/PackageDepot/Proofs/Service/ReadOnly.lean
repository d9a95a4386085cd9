import PackageDepot.Proofs.Backend.Git
import PackageDepot.Proofs.Repository.Registry
import PackageDepot.Proofs.Routine.Quiet
import PackageDepot.Service.Basic

/-!
# Calls that only read

Looking up, listing, resolving and building leave the state of a depot as it is: only registering,
leases, commits, deletions and purges change it. `Call.Quiet E x` says that `x` is quiet and fails only
with errors in `E`: a scan for lack of access (`ScanFault`), a look-up also if nothing is there
(`LookupFault`), and a clone source that can be read for lack of a resolution (`ResolveFault`). None of
these calls tells of a conflict, which only the taking of a lease does, unless an evaluator reports one of
its own.
-/

namespace PackageDepot

open Package Backend

/-- The error tells of a conflict with another writer. -/
def Error.isConflict (err : Error) : Bool := err.kind == .conflict

/-- An error that does not tell of a conflict. -/
abbrev Error.Calm (err : Error) : Prop := err.isConflict = false

/-- An error that the evaluator of an engine reports itself. -/
def Engine.Reports (e : Engine) (err : Error) : Prop :=
  ∃ image config files, (e.evaluator image config files).result = .error err

namespace Routine

theorem map_eq {σ α β : Type} (f : α → β) (p : Routine σ α) :
    f <$> p = p.bind fun a => .done (f a) := rfl

end Routine

namespace Call

variable {α β : Type} {E F : Error → Prop} {x : Call α}

/-- The call leaves the state as it is, and its errors are in `E`. -/
def Quiet (E : Error → Prop) (x : Call α) : Prop :=
  Routine.Quiet id (fun r => ∀ err, r = .error err → E err) x.run

theorem Quiet.mono (hx : Quiet E x) (h : ∀ err, E err → F err) : Quiet F x :=
  Routine.Quiet.mono hx fun _ hr err he => h err (hr err he)

theorem quiet_pure (a : α) : Quiet E (pure a) := by
  rintro err ⟨⟩

theorem quiet_throw {err : Error} (h : E err) : Quiet E (throw err : Call α) := by
  rintro _ ⟨⟩
  exact h

theorem Quiet.bind {f : α → Call β} (hx : Quiet E x) (hf : ∀ a, Quiet E (f a)) :
    Quiet E (x >>= f) := by
  rw [Quiet, ExceptT.run_bind]
  apply Routine.Quiet.bind hx
  intro r hr
  cases r with
  | ok a => exact hf a
  | error err =>
    rintro _ ⟨⟩
    exact hr err rfl

theorem quiet_ofExcept {r : Except Error α} (h : ∀ err, r = .error err → E err) :
    Quiet E (ofExcept r) := h

theorem quiet_read (f : Depot → α) : Quiet E (read f) := by
  rw [Quiet, read, ExceptT.run_lift, Routine.map_eq]
  apply (Routine.quiet_read (Q := fun _ => True) fun _ _ => trivial).bind
  intro a _
  rintro err ⟨⟩

theorem quiet_query {f : Depot → Except Error α} (h : ∀ d err, f d = .error err → E err) :
    Quiet E (query f) :=
  Routine.quiet_read fun _ d => h d

theorem quiet_within {c : Context} {f : Depot → Except Error α} (hc : ∀ i, E (.cancelled i))
    (h : ∀ d err, f d = .error err → E err) : Quiet E (within c f) := by
  apply Routine.quiet_read
  intro m d err he
  cases hi : c.interrupt? m with
  | some i =>
    rw [hi] at he
    cases he
    exact hc i
  | none =>
    rw [hi] at he
    exact h d err he

theorem quiet_enter {c : Context} {label : Nat} {timeout : Option Nat} (hc : ∀ i, E (.cancelled i)) :
    Quiet E (enter c label timeout) := by
  apply Routine.quiet_read
  intro m d err he
  dsimp only at he
  split at he
  · cases he
    exact hc _
  · cases he

theorem read_run (f : Depot → α) (g : α → Call β) :
    (read f >>= g).run = .step id (fun _ d => d) fun _ d => (g (f d)).run := rfl

theorem query_run (f : Depot → Except Error α) (g : α → Call β) :
    (query f >>= g).run = .step id (fun _ d => d) fun _ d =>
      match f d with
      | .ok a => (g a).run
      | .error err => .done (.error err) := by
  rw [ExceptT.run_bind]
  show Routine.step id _ _ = Routine.step id _ _
  congr 1
  funext m d
  dsimp only
  cases f d with
  | ok a => rfl
  | error err => rfl

/-- A call whose first step may change the depot or fail. -/
theorem update_run (f : Moment → Depot → Except Error (α × Depot)) (g : α → Call β) :
    (update f >>= g).run = .step id
      (fun m d => match f m d with
        | .ok (_, d') => d'
        | .error _ => d)
      fun m d => match f m d with
        | .ok (a, _) => (g a).run
        | .error err => .done (.error err) := by
  rw [ExceptT.run_bind]
  show Routine.step id _ _ = Routine.step id _ _
  congr 1
  · funext m d
    dsimp only
    cases f m d with
    | ok a => rfl
    | error err => rfl
  · funext m d
    dsimp only
    cases f m d with
    | ok a => rfl
    | error err => rfl

theorem attempt_run (x : Call α) (f : Except Error α → Call β) :
    (attempt x >>= f).run = x.run.bind fun r => (f r).run := by
  rw [ExceptT.run_bind, attempt, ExceptT.run_lift, Routine.map_eq, Routine.bind_eq,
    Routine.bind_assoc]
  rfl

/-- A call whose outcome is looked at may fail with other errors. -/
theorem Quiet.attempt_bind {f : Except Error α → Call β} (hx : Quiet E x)
    (hok : ∀ a, Quiet F (f (.ok a))) (herr : ∀ err, E err → Quiet F (f (.error err))) :
    Quiet F (attempt x >>= f) := by
  rw [Quiet, attempt_run]
  apply Routine.Quiet.bind hx
  intro r hr
  cases r with
  | ok a => exact hok a
  | error err => exact herr err (hr err rfl)

theorem quiet_attempt (hx : Quiet E x) : Quiet F (attempt x) := by
  have h := hx.attempt_bind (F := F) (f := pure) (fun _ => quiet_pure _) fun _ _ => quiet_pure _
  rwa [bind_pure] at h

theorem Quiet.mapError {f : Error → Error} (hx : Quiet E x) (h : ∀ err, E err → F (f err)) :
    Quiet F (mapError f x) := by
  show Routine.Quiet id _ (Except.mapError f <$> x.run)
  rw [Routine.map_eq]
  apply Routine.Quiet.bind hx
  intro r hr
  cases r with
  | ok a => rintro _ ⟨⟩
  | error err =>
    rintro _ ⟨⟩
    exact h err (hr err rfl)

theorem quiet_work {c : Context} {d : Option Nat} {r : Except Error α} (hc : ∀ i, E (.cancelled i))
    (h : ∀ err, r = .error err → E err) : Quiet E (work c d r) := by
  apply Quiet.bind (quiet_within hc fun _ _ he => by cases he)
  intro _
  split
  · exact h
  · apply Quiet.bind
    · rw [Quiet, ExceptT.run_lift, Routine.map_eq]
      apply (Routine.quiet_await (Q := fun _ => True) fun _ => trivial).bind
      intro a _
      rintro err ⟨⟩
    · intro i
      cases i with
      | some i => exact quiet_throw (hc i)
      | none => exact h

theorem quiet_mapM {f : α → Call β} (hf : ∀ a, Quiet E (f a)) (l : List α) :
    Quiet E (l.mapM f) := by
  induction l with
  | nil =>
    rw [List.mapM_nil]
    exact quiet_pure _
  | cons a l ih =>
    rw [List.mapM_cons]
    exact (hf a).bind fun b => ih.bind fun bs => quiet_pure _

end Call

namespace Backend

/-- A fault of a place in git. Only places that hold images have registries. -/
abbrev Fault.OfGit (f : Fault) : Prop := ∀ registry, f ≠ .registryNotFound registry

namespace GitHost

variable {h : GitHost} {f : Fault}

theorem access_fault {repo : String} {credential : Option Credential}
    (failed : h.access repo credential = .error f) : f.OfGit := by
  unfold access at failed
  split at failed
  · cases failed
    exact nofun
  · obtain refused | ⟨_, -, granted⟩ := bind_eq_error_iff.1 failed
    · unfold GitRepo.checkAccess at refused
      split at refused
      · cases refused
        exact nofun
      · split at refused
        · cases refused
          exact nofun
        · cases refused
    · cases granted

theorem fetch_fault {location : GitLocation} {credential : Option Credential}
    (failed : h.fetch location credential = .error f) : f.OfGit := by
  obtain refused | ⟨r, -, failed⟩ := bind_eq_error_iff.1 failed
  · exact access_fault refused
  · split at failed
    · cases failed
      exact nofun
    · dsimp only at failed
      split at failed
      · cases failed
        exact nofun
      · cases failed

theorem discover_fault {source : GitSource} {manifest : String} {credential : Option Credential}
    (failed : h.discover source manifest credential = .error f) : f.OfGit := by
  obtain refused | ⟨r, -, found⟩ := bind_eq_error_iff.1 failed
  · exact access_fault refused
  · cases found

end GitHost

end Backend

/-- Why a scan fails: it is interrupted, or there is no access to the place that it goes to. -/
inductive ScanFault : Error → Prop
  | cancelled (reason : Interrupt) : ScanFault (.cancelled reason)
  | backend (fault : Backend.Fault) : ScanFault (.resolution (.backend fault))
  | secret (name repo : String) : ScanFault (.resolution (.secretMissing name repo))

/-- Why the look-up of a revision fails: as a scan does, or the revision is not there. -/
inductive LookupFault (k : Key) : Error → Prop
  | scan {err : Error} (fault : ScanFault err) : LookupFault k err
  | absent : LookupFault k (.notFound (.revision k))

/-- Why a clone source that can be read is not resolved. -/
inductive ResolveFault : Error → Prop
  | scan {err : Error} (fault : ScanFault err) : ResolveFault err
  | commit (repo ref : String) : ResolveFault (.resolution (.noCommit repo ref))
  | missing (k : Key) : ResolveFault (.resolution (.revisionMissing k))
  | unlocked (k : Key) : ResolveFault (.resolution (.revisionUnlocked k))

theorem ScanFault.calm {err : Error} (h : ScanFault err) : err.Calm := by
  cases h <;> rfl

theorem LookupFault.calm {k : Key} {err : Error} (h : LookupFault k err) : err.Calm := by
  cases h with
  | scan fault => exact fault.calm
  | absent => rfl

theorem ResolveFault.calm {err : Error} (h : ResolveFault err) : err.Calm := by
  cases h with
  | scan fault => exact fault.calm
  | commit | missing | unlocked => rfl

/-- A fault of a place in git is a lack of access. -/
theorem scanFault_of_git {α : Type} {r : Except Backend.Fault α}
    (ofGit : ∀ f, r = .error f → f.OfGit) {err : Error} (h : r.mapError Error.ofBackend = .error err) :
    ScanFault err := by
  cases r with
  | ok a => cases h
  | error f =>
    cases h
    cases f with
    | registryNotFound registry => exact (ofGit _ rfl registry rfl).elim
    | _ => exact .backend _

theorem Error.ofBackend_calm (f : Backend.Fault) : (Error.ofBackend f).Calm := by
  cases f <;> rfl

/-- An error of a place that holds images stays calm as an error of a call. -/
theorem Error.calm_of_backend {α : Type} {r : Except Backend.Fault α} {err : Error}
    (h : r.mapError Error.ofBackend = .error err) : err.Calm := by
  cases r with
  | ok a => cases h
  | error f =>
    cases h
    exact ofBackend_calm f

/-- What is not registered is not found. -/
theorem Registry.find_calm {g : Registry} {name : String} {err : Error}
    (h : g.find name = .error err) : err.Calm := by
  unfold Registry.find at h
  split at h
  · cases h
  · cases h
    rfl

theorem Registry.register_calm {g : Registry} {r : Repository} {err : Error}
    (h : g.register r = .error err) : err.Calm := by
  unfold Registry.register at h
  cases hv : r.validate with
  | error f =>
    rw [hv] at h
    cases h
    rfl
  | ok _ =>
    rw [hv] at h
    by_cases hc : g.contains r.name = true
    · simp only [hc, if_true] at h
      cases h
      rfl
    · simp only [hc] at h
      cases h

theorem Registry.unregister_calm {g : Registry} {name : String} {err : Error}
    (h : g.unregister name = .error err) : err.Calm := by
  unfold Registry.unregister at h
  cases hf : g.find name with
  | error f =>
    rw [hf] at h
    cases h
    exact find_calm hf
  | ok r =>
    rw [hf] at h
    cases h

namespace Index

open Call

theorem credential_quiet (source : GitSource) : Quiet ScanFault (credential source) := by
  unfold credential
  split
  · exact quiet_pure _
  · apply quiet_query
    intro d err h
    split at h
    · cases h
    · cases h
      exact .secret _ _

theorem discover_quiet (e : Engine) (r : Repository) (c : Context) :
    Quiet ScanFault (discover e r c) := by
  unfold discover
  split
  · exact quiet_pure _
  · exact (credential_quiet _).bind fun _ => quiet_within .cancelled fun _ _ h =>
      scanFault_of_git (fun _ => GitHost.discover_fault) h

theorem findDiscovered_quiet (e : Engine) (k : Key) (c : Context) :
    Quiet (LookupFault k) (findDiscovered e k c) := by
  refine Quiet.bind (quiet_query fun d err h => ?_) fun r =>
    ((discover_quiet e r c).mono fun _ => .scan).bind fun packages => ?_
  · cases hr : d.registry.find k.repository with
    | ok r =>
      rw [hr] at h
      cases h
    | error _ =>
      rw [hr] at h
      cases h
      exact .absent
  · split
    · exact quiet_pure _
    · exact quiet_throw .absent

theorem isDiscovered_quiet (e : Engine) (k : Key) (c : Context) :
    Quiet Error.Calm (isDiscovered e k c) := by
  refine (findDiscovered_quiet e k c).attempt_bind (fun _ => quiet_pure _) ?_
  intro err h
  dsimp only
  split
  · exact quiet_pure _
  · exact quiet_throw h.calm

theorem lookupDiscovered_quiet (e : Engine) (k : Key) (c : Context) :
    Quiet (LookupFault k) (lookupDiscovered e k c) := by
  refine (findDiscovered_quiet e k c).bind fun ⟨r, p⟩ => ?_
  dsimp only
  split
  · exact quiet_throw .absent
  · apply ((credential_quiet _).mono fun _ => .scan).bind
    intro credential
    exact (quiet_within (fun i => .scan (.cancelled i)) fun _ _ h =>
      .scan (scanFault_of_git (fun _ => GitHost.fetch_fault) h)).bind fun _ => quiet_pure _

theorem lookup_quiet (e : Engine) (k : Key) (c : Context) :
    Quiet (LookupFault k) (lookup e k c) := by
  apply (quiet_read _).bind
  intro s
  cases s with
  | some s => exact quiet_pure _
  | none => exact lookupDiscovered_quiet e k c

/-- An interrupt is no conflict. -/
theorem calm_of_cancelled {err : Error} (h : err.kind = .cancelled) : err.Calm := by
  rw [Error.Calm, Error.isConflict, h]
  rfl

theorem entriesOf_quiet (r : Repository) (scan : Except Error (List Backend.Discovered)) :
    Quiet Error.Calm (entriesOf r scan) := by
  apply (quiet_read _).bind
  intro created
  cases scan with
  | ok packages => exact quiet_pure _
  | error err =>
    dsimp only
    split
    · exact quiet_throw (calm_of_cancelled ‹_›)
    · exact quiet_pure _

theorem list_quiet (e : Engine) (f : Filter) (c : Context) : Quiet Error.Calm (list e f c) := by
  apply (quiet_read _).bind
  intro repositories
  refine (quiet_mapM ?_ repositories).bind ?_
  · intro r
    exact (quiet_attempt (discover_quiet e r c)).bind fun _ => quiet_pure _
  · intro scans
    have sections := quiet_mapM (f := fun s => entriesOf s.1 s.2)
      (fun s => entriesOf_quiet s.1 s.2) scans
    exact sections.bind fun _ => quiet_pure _

theorem scanFunctions_quiet (name : String) (c : Context) :
    Quiet Error.Calm (scanFunctions name c) := by
  apply (quiet_query fun d err h => Registry.find_calm h).bind
  intro r
  split
  · exact quiet_throw rfl
  · exact (quiet_within (fun _ => rfl) fun _ _ h => Error.calm_of_backend h).bind fun _ =>
      quiet_pure _

theorem functions_quiet (c : Context) : Quiet Error.Calm (functions c) := by
  apply (quiet_read _).bind
  intro repositories
  refine (quiet_mapM ?_ repositories).bind fun _ => quiet_pure _
  intro r
  refine (scanFunctions_quiet r.name c).attempt_bind (fun _ => quiet_pure _) ?_
  intro err h
  dsimp only
  split
  · exact quiet_throw h
  · exact quiet_pure _

end Index

namespace Resolve

open Call

theorem credentialFor_quiet (repo : String) : Quiet ScanFault (credentialFor repo) := by
  apply (quiet_read _).bind
  intro source
  cases source with
  | some source => exact Index.credential_quiet source
  | none => exact quiet_pure _

theorem git_quiet (location : GitLocation) (c : Context) : Quiet ResolveFault (git location c) := by
  apply ((credentialFor_quiet location.repo).mono fun _ => .scan).bind
  intro credential
  apply (quiet_within (fun i => .scan (.cancelled i)) fun _ _ h =>
    .scan (scanFault_of_git (fun _ => GitHost.fetch_fault) h)).bind
  intro fetched
  split
  · exact quiet_throw (.commit _ _)
  · exact quiet_pure _

theorem revision_quiet (e : Engine) (k : Key) (c : Context) :
    Quiet ResolveFault (revision e k c) := by
  refine ((Index.lookup_quiet e k c).mapError (F := ResolveFault) ?_).bind ?_
  · rintro err (⟨fault⟩ | ⟨⟩)
    · cases fault with
      | cancelled i => exact .scan (.cancelled i)
      | backend f => exact .scan (.backend f)
      | secret name repo => exact .scan (.secret name repo)
    · exact .missing k
  · intro content
    split
    · split
      · exact quiet_throw (.unlocked k)
      · exact quiet_pure _
    · exact quiet_throw (.unlocked k)

/-- A clone source that passes its check names a place or a revision. -/
theorem source_quiet_of_valid (e : Engine) {s : CloneSource} (c : Context)
    (valid : s.validate = .ok ()) : Quiet ResolveFault (source e s c) := by
  unfold source
  unfold CloneSource.validate at valid
  split
  · exact git_quiet _ c
  · next reference git revision =>
    rw [git, revision] at valid
    cases hk : Key.parse? reference.name with
    | some k => exact revision_quiet e k c
    | none => simp [hk] at valid
  · next ambiguous ambiguous' =>
    split at valid
    · exact (ambiguous _ ‹_› ‹_›).elim
    · exact (ambiguous' _ ‹_› ‹_›).elim
    · cases valid

theorem source_quiet (e : Engine) (s : CloneSource) (c : Context) :
    Quiet Error.Calm (source e s c) := by
  unfold source
  split
  · exact (git_quiet _ c).mono fun _ => ResolveFault.calm
  · split
    · exact (revision_quiet e _ c).mono fun _ => ResolveFault.calm
    · exact quiet_throw rfl
  · exact quiet_throw rfl

end Resolve

namespace Pipeline

open Call

theorem valid_quiet {α : Type} (r : Except ValidationFault α) : Quiet Error.Calm (valid r) := by
  apply quiet_ofExcept
  intro err h
  cases r with
  | ok a => cases h
  | error f =>
    cases h
    rfl

theorem clone_calm {path name : String} {lock : Lock} {files : Bundle} {err : Error}
    (h : Snapshot.clone path name lock files = .error err) : err.Calm := by
  unfold Snapshot.clone at h
  split at h
  · cases h
  · cases h
  · cases h
    rfl

/-- How a task may fail: with an error that the evaluator reports, or without a conflict. -/
abbrev Fault (e : Engine) (err : Error) : Prop := err.Calm ∨ e.Reports err

theorem evaluate_quiet (e : Engine) (spec : EvalSpec) (before : Snapshot) (c : Context) :
    Quiet (Fault e) (evaluate e spec before c) := by
  apply (quiet_work (fun _ => .inl rfl) fun err h => .inr ⟨_, _, _, h⟩).bind
  intro files
  apply quiet_ofExcept
  intro err h
  cases hf : before.evaluated e.config.manifestFile (e.config.expandImage spec.image) files with
  | ok s =>
    rw [hf] at h
    cases h
  | error f =>
    rw [hf] at h
    cases h
    exact .inl rfl

theorem apply_quiet (e : Engine) (r : Revision) (current : Option Snapshot) (t : Task) (c : Context) :
    Quiet (Fault e) (apply e r current t c) := by
  have check : ∀ {α : Type} (r : Except ValidationFault α), Quiet (Fault e) (valid r) :=
    fun r => (valid_quiet r).mono fun _ h => .inl h
  unfold apply
  split
  · apply (check _).bind
    intro spec
    apply ((Resolve.source_quiet e spec.source c).mono fun _ h => .inl h).bind
    intro _
    exact quiet_ofExcept fun _ h => .inl (clone_calm h)
  · exact (check _).bind fun _ => quiet_pure _
  · exact (check _).bind fun before => (check _).bind fun spec => evaluate_quiet e spec before c
  · exact (check _).bind fun before => (check _).bind fun spec => check _

/-- How a build may fail: with what the evaluator reports in a task, or without a conflict. -/
def Fails (e : Engine) (err : Error) : Prop :=
  err.Calm ∨ ∃ index kind cause, err = .task index kind cause ∧ e.Reports cause

theorem step_quiet (e : Engine) (r : Revision) (c : Context) (index : Nat)
    (current : Option Snapshot) (t : Task) : Quiet (Fails e) (step e r c index current t) := by
  apply ((quiet_enter fun _ => .inl rfl).bind fun _ => apply_quiet e r current t _).mapError
  rintro err (h | h)
  · exact .inl h
  · exact .inr ⟨index, t.kind, err, rfl, h⟩

theorem run_quiet (e : Engine) (r : Revision) (c : Context) (index : Nat)
    (current : Option Snapshot) (tasks : List Task) :
    Quiet (Fails e) (run e r c index current tasks) := by
  induction tasks generalizing index current with
  | nil => exact quiet_pure _
  | cons t rest ih => exact (step_quiet e r c index current t).bind fun _ => ih _ _

/-- The faults of a request are validation errors, alone or at a task. -/
theorem validateTasks_calm (index : Nat) (tasks : List Task) {err : Error}
    (h : validateTasks index tasks = .error err) : err.Calm := by
  induction tasks generalizing index with
  | nil => cases h
  | cons t rest ih =>
    unfold validateTasks at h
    cases ht : t.validate index with
    | error f =>
      rw [ht] at h
      cases h
      rfl
    | ok u =>
      rw [ht] at h
      exact ih _ h

theorem validate_calm (r : Revision) {err : Error} (h : r.validate = .error err) : err.Calm := by
  unfold Revision.validate at h
  cases h₁ : checkName "packageName" r.package with
  | error f =>
    rw [h₁] at h
    cases h
    rfl
  | ok _ =>
    cases h₂ : checkName "revision" r.revision with
    | error f =>
      rw [h₁, h₂] at h
      cases h
      rfl
    | ok _ =>
      cases h₃ : checkName "repositoryName" r.repository with
      | error f =>
        rw [h₁, h₂, h₃] at h
        cases h
        rfl
      | ok _ =>
        rw [h₁, h₂, h₃] at h
        exact validateTasks_calm 0 r.tasks h

theorem execute_quiet (e : Engine) (r : Revision) (c : Context) :
    Quiet (Fails e) (execute e r c) := by
  apply (quiet_ofExcept fun err h => .inl (validate_calm r h)).bind
  intro _
  apply (run_quiet e r c 0 _ r.tasks).bind
  intro s
  cases s with
  | some s => exact quiet_pure _
  | none => exact quiet_throw (.inl rfl)

end Pipeline

namespace Service

open Call

theorem repository_quiet (name : String) : Quiet Error.Calm (repository name) :=
  quiet_query fun _ _ h => Registry.find_calm h

theorem get_quiet (e : Engine) (k : Key) (c : Context) : Quiet Error.Calm (get e k c) := by
  apply (quiet_read _).bind
  intro s
  cases s with
  | some s => exact quiet_pure _
  | none =>
    exact ((Index.lookup_quiet e k c).mono fun _ => LookupFault.calm).bind fun _ => quiet_pure _

theorem spec_quiet (k : Key) : Quiet Error.Calm (spec k) := by
  refine (quiet_query ?_).bind fun _ => quiet_pure _
  intro d err h
  unfold Store.find at h
  split at h
  · cases h
  · cases h
    rfl

end Service

end PackageDepot
