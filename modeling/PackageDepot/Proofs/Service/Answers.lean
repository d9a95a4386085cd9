import PackageDepot.Proofs.Backend.Discovery
import PackageDepot.Proofs.Routine.Prompt
import PackageDepot.Proofs.Service.Runs

/-!
# What undisturbed readers answer

`Call.Answers M x d r` says that the call `x`, left alone on the depot `d`, comes to its end with the
answer `r` and leaves `d` as it is. In a context that is not interrupted the answer of a reader is a
function of the depot: what is published (`Depot.scan`, `Depot.published`), the content of a revision
(`Depot.content`), its view (`Depot.view`) and the listing (`Depot.listing`).
-/

namespace PackageDepot

open Package Backend

namespace Call

variable {α β : Type} {M : Moment → Prop} {c : Context} {d : Depot}

/-- The call, left alone, comes to an end with this answer and leaves the depot as it is. It does not
wait. -/
def Answers (M : Moment → Prop) (x : Call α) (d : Depot) (r : Except Error α) : Prop :=
  Routine.Promptly M (fun a t => a = r ∧ t = d) x.run d

theorem answers_ofExcept (r : Except Error α) : Answers M (ofExcept r) d r := ⟨rfl, rfl⟩

theorem answers_pure (a : α) : Answers M (pure a) d (.ok a) := answers_ofExcept (.ok a)

theorem answers_throw (err : Error) : Answers M (throw err : Call α) d (.error err) :=
  answers_ofExcept (.error err)

theorem answers_query (f : Depot → Except Error α) : Answers M (query f) d (f d) :=
  fun _ _ => ⟨rfl, rfl⟩

theorem answers_read (f : Depot → α) : Answers M (read f) d (.ok (f d)) :=
  answers_query fun d => .ok (f d)

theorem answers_within (quiet : c.Undisturbed M) (f : Depot → Except Error α) :
    Answers M (within c f) d (f d) := by
  intro m hm
  simp only [quiet m hm]
  exact ⟨rfl, rfl⟩

/-- A call goes on with what another one answers, or fails with it. -/
theorem Answers.bind {x : Call α} {f : α → Call β} {r : Except Error α} {g : α → Except Error β}
    (hx : Answers M x d r) (hf : ∀ a, Answers M (f a) d (g a)) : Answers M (x >>= f) d (r >>= g) := by
  rw [Answers, ExceptT.run_bind]
  apply Routine.Promptly.bind hx
  rintro a t ⟨rfl, rfl⟩
  cases a with
  | ok a => exact hf a
  | error err => exact ⟨rfl, rfl⟩

/-- A call goes on with the success of another one. -/
theorem Answers.bind_ok {x : Call α} {f : α → Call β} {a : α} {r : Except Error β}
    (hx : Answers M x d (.ok a)) (hf : Answers M (f a) d r) : Answers M (x >>= f) d r := by
  rw [Answers, ExceptT.run_bind]
  apply Routine.Promptly.bind hx
  rintro b t ⟨rfl, rfl⟩
  exact hf

theorem Answers.attempt {x : Call α} {r : Except Error α} (hx : Answers M x d r) :
    Answers M (attempt x) d (.ok r) := by
  rw [Answers, Call.attempt, ExceptT.run_lift, Routine.map_eq]
  apply Routine.Promptly.bind hx
  rintro a t ⟨rfl, rfl⟩
  exact ⟨rfl, rfl⟩

theorem Answers.mapError {x : Call α} {r : Except Error α} (f : Error → Error)
    (hx : Answers M x d r) : Answers M (mapError f x) d (r.mapError f) := by
  show Routine.Promptly M _ (Except.mapError f <$> x.run) d
  rw [Routine.map_eq]
  apply Routine.Promptly.bind hx
  rintro a t ⟨rfl, rfl⟩
  exact ⟨rfl, rfl⟩

theorem answers_mapM {f : α → Call β} {g : α → Except Error β} (hf : ∀ a, Answers M (f a) d (g a))
    (l : List α) : Answers M (l.mapM f) d (l.mapM g) := by
  induction l with
  | nil =>
    rw [List.mapM_nil, List.mapM_nil]
    exact answers_pure []
  | cons a l ih =>
    rw [List.mapM_cons, List.mapM_cons]
    exact (hf a).bind fun b => ih.bind fun bs => answers_pure (b :: bs)

end Call

/-- A sequence of calls that all succeed. -/
theorem mapM_eq_ok {α β : Type} {f : α → Except Error β} {g : α → β} {l : List α}
    (h : ∀ a ∈ l, f a = .ok (g a)) : l.mapM f = .ok (l.map g) := by
  induction l with
  | nil => rfl
  | cons a l ih =>
    rw [List.mapM_cons, h a List.mem_cons_self, ih fun b hb => h b (List.mem_cons_of_mem a hb)]
    rfl

namespace Depot

variable (d : Depot) (e : Engine)

/-- The credential that a place in git asks for, if it is there. -/
def credentialOf (source : GitSource) : Except Error (Option Credential) :=
  match source.secret? with
  | none => .ok none
  | some secret =>
    match d.secrets.get? secret with
    | some c => .ok (some c)
    | none => .error (.resolution (.secretMissing secret source.repo))

/-- What a scan of a repository finds. -/
def scan (r : Repository) : Except Error (List Discovered) :=
  match r.packageSource? with
  | none => .ok []
  | some source =>
    d.credentialOf source >>= fun credential =>
      (d.git.discover source e.indexManifest credential).mapError .ofBackend

/-- What was scanned under a key, in the repository of the key. -/
def published (k : Key) : Except Error (Repository × Discovered) :=
  (d.registry.find k.repository).mapError (fun _ => .notFound (.revision k)) >>= fun r =>
    d.scan e r >>= fun packages =>
      match packages.find? fun p => p.package = k.package && p.location.ref = k.revision with
      | some p => .ok (r, p)
      | none => .error (.notFound (.revision k))

variable {d e}

/-- A scan that finds something was made in git with the credential that is asked for. -/
theorem scan_ok {r : Repository} {ps : List Discovered} (h : d.scan e r = .ok ps) :
    r.packageSource? = none ∧ ps = [] ∨ ∃ source credential,
      r.packageSource? = some source ∧ d.credentialOf source = .ok credential ∧
        d.git.discover source e.indexManifest credential = .ok ps := by
  unfold scan at h
  cases hs : r.packageSource? with
  | none =>
    rw [hs] at h
    cases h
    exact .inl ⟨rfl, rfl⟩
  | some source =>
    rw [hs] at h
    obtain ⟨credential, hc, hd⟩ := bind_eq_ok_iff.1 h
    exact .inr ⟨source, credential, rfl, hc, mapError_eq_ok_iff.1 hd⟩

/-- A scan finds a package at most once at a ref. -/
theorem scan_nodup {r : Repository} {ps : List Discovered} (h : d.scan e r = .ok ps) :
    (ps.map fun p => (p.package, p.location.ref)).Nodup := by
  obtain ⟨-, rfl⟩ | ⟨source, credential, -, -, hd⟩ := scan_ok h
  · exact List.nodup_nil
  · exact GitHost.discover_nodup hd

/-- What a scan of a registered repository finds is found under its key. -/
theorem published_of_mem {r : Repository} (found : d.registry.get? r.name = some r)
    {ps : List Discovered} (scanned : d.scan e r = .ok ps) {p : Discovered} (hp : p ∈ ps) :
    d.published e (p.key r.name) = .ok (r, p) := by
  have looked : ps.find? (fun q => q.package = (p.key r.name).package &&
      q.location.ref = (p.key r.name).revision) = some p := by
    apply find?_of_nodup_map (scan_nodup scanned) hp
    intro q
    rw [Bool.and_eq_true, decide_eq_true_iff, decide_eq_true_iff, Prod.mk.injEq]
    exact Iff.rfl
  have registered : d.registry.find (p.key r.name).repository = .ok r := Registry.find_ok_iff.2 found
  unfold published
  rw [registered]
  show (d.scan e r >>= _) = _
  rw [scanned]
  show (match ps.find? _ with | some p => _ | none => _) = _
  rw [looked]

variable (d e)

/-- What is fetched from a place in git. -/
def fetched (location : GitLocation) (credential : Option Credential) : Except Error Fetched :=
  (d.git.fetch location credential).mapError .ofBackend

/-- The content of what is published under a key. -/
def publishedContent (k : Key) : Except Error RevisionContent :=
  d.published e k >>= fun found =>
    match found.1.git with
    | none => .error (.notFound (.revision k))
    | some source =>
      d.credentialOf source >>= fun credential =>
        d.fetched found.2.location credential >>= fun f => .ok ⟨f.files, some found.2.lock⟩

variable {d e}

/-- The content of a package that a scan finds is fetched with the credential of the scan. -/
theorem publishedContent_eq {r : Repository} (found : d.registry.get? r.name = some r)
    {ps : List Discovered} (scanned : d.scan e r = .ok ps) {p : Discovered} (hp : p ∈ ps)
    {source : GitSource} {credential : Option Credential} (place : r.packageSource? = some source)
    (hc : d.credentialOf source = .ok credential) : d.publishedContent e (p.key r.name) =
      d.fetched p.location credential >>= fun f => .ok ⟨f.files, some p.lock⟩ := by
  unfold publishedContent
  rw [published_of_mem found scanned hp]
  show (match r.git with | none => _ | some source => _) = _
  rw [Repository.git_of_packageSource? place]
  show (d.credentialOf source >>= _) = _
  rw [hc]
  rfl

variable (d e)

/-- The content of the revision under a key. -/
def content (k : Key) : Except Error RevisionContent :=
  match d.store.get? k with
  | some s => .ok ⟨s.files, s.kptfile.lock⟩
  | none => d.publishedContent e k

/-- The revision under a key, as it is shown. -/
def view (k : Key) : Except Error RevisionView :=
  match d.store.get? k with
  | some s => .ok ⟨.ofKey k s.files, some s.kptfile⟩
  | none =>
    d.publishedContent e k >>= fun content =>
      .ok ⟨.ofKey k content.files, (Kptfile.ofBundle e.config.manifestFile content.files).toOption⟩

/-- The entries of one repository, whose scan has come out. -/
def entries (r : Repository) (scan : Except Error (List Discovered)) : Except Error (List Summary) :=
  let created := d.store.list (some r.name)
  match scan with
  | .ok packages =>
    .ok (created.map Stored.summary ++ (packages.map fun p => p.summary r.name).filter
      fun s => !(created.map Stored.key).contains s.key)
  | .error err => if err.kind = .cancelled then .error err else .ok (created.map Stored.summary)

/-- The revisions of the repositories that a filter admits. -/
def listing (f : Filter) : Except Error (List Summary) :=
  ((d.registry.values.filter f.admits).map fun r => (r, d.scan e r)).mapM
    (fun s => d.entries s.1 s.2) >>= fun sections => .ok sections.flatten

end Depot

open Call

variable {M : Moment → Prop} {c : Context} (e : Engine) (d : Depot)

namespace Index

theorem credential_answers (source : GitSource) :
    Answers M (credential source) d (d.credentialOf source) := by
  unfold credential Depot.credentialOf
  cases source.secret? with
  | none => exact answers_pure none
  | some secret => exact answers_query _

variable (quiet : c.Undisturbed M)

include quiet

theorem discover_answers (r : Repository) : Answers M (discover e r c) d (d.scan e r) := by
  unfold discover Depot.scan
  cases r.packageSource? with
  | none => exact answers_pure []
  | some source => exact (credential_answers d source).bind fun _ => answers_within quiet _

theorem findDiscovered_answers (k : Key) :
    Answers M (findDiscovered e k c) d (d.published e k) := by
  refine (answers_query _).bind fun r => (discover_answers e d quiet r).bind fun packages => ?_
  cases packages.find? fun p => p.package = k.package && p.location.ref = k.revision with
  | some p => exact answers_pure (r, p)
  | none => exact answers_throw _

theorem lookupDiscovered_answers (k : Key) :
    Answers M (lookupDiscovered e k c) d (d.publishedContent e k) := by
  refine (findDiscovered_answers e d quiet k).bind fun ⟨r, p⟩ => ?_
  dsimp only
  cases r.git with
  | none => exact answers_throw _
  | some source =>
    exact (credential_answers d source).bind fun _ =>
      (answers_within quiet _).bind fun _ => answers_pure _

/-- **What `lookup` answers.** -/
theorem lookup_answers (k : Key) : Answers M (lookup e k c) d (d.content e k) := by
  apply (answers_read _).bind_ok
  unfold Depot.content
  cases d.store.get? k with
  | some s => exact answers_pure _
  | none => exact lookupDiscovered_answers e d quiet k

omit quiet in
theorem entriesOf_answers (r : Repository) (scan : Except Error (List Discovered)) :
    Answers M (entriesOf r scan) d (d.entries r scan) := by
  apply (answers_read _).bind_ok
  unfold Depot.entries
  cases scan with
  | ok packages => exact answers_pure _
  | error err =>
    dsimp only
    split
    · exact answers_throw err
    · exact answers_pure _

/-- The scans of repositories, whatever they come to. -/
theorem scans_answers (rs : List Repository) : Answers M
    (rs.mapM fun r => do return (r, ← attempt (discover e r c)) : Call _) d
    (.ok (rs.map fun r => (r, d.scan e r))) := by
  induction rs with
  | nil =>
    rw [List.mapM_nil]
    exact answers_pure []
  | cons r rs ih =>
    rw [List.mapM_cons]
    have first : Answers M (do return (r, ← attempt (discover e r c)) : Call (Repository × _)) d
        (.ok (r, d.scan e r)) :=
      (discover_answers e d quiet r).attempt.bind_ok (answers_pure _)
    exact first.bind_ok (ih.bind_ok (answers_pure _))

/-- **What `list` answers.** -/
theorem list_answers (f : Filter) : Answers M (list e f c) d (d.listing e f) := by
  apply (answers_read _).bind_ok
  apply (scans_answers e d quiet _).bind_ok
  exact (answers_mapM (fun (r, outcome) => entriesOf_answers d r outcome) _).bind fun sections =>
    answers_pure sections.flatten

end Index

/-- **What `get` answers.** -/
theorem Service.get_answers (quiet : c.Undisturbed M) (k : Key) :
    Answers M (get e k c) d (d.view e k) := by
  have looked := Index.lookup_answers e d quiet k
  apply (answers_read _).bind_ok
  unfold Depot.view
  unfold Depot.content at looked
  cases stored : d.store.get? k with
  | some s => exact answers_pure _
  | none =>
    rw [stored] at looked
    exact looked.bind fun _ => answers_pure _

end PackageDepot
