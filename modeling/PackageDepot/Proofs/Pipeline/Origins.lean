import PackageDepot.Proofs.Pipeline.Spared
import PackageDepot.Proofs.Service.Gathering
import PackageDepot.Proofs.Traffic.Built

/-!
# What a build begins with

A build begins with an empty package, or with one that its first task starts or clones. What a clone comes to
is read from one depot or from several ones, between which others may do anything: `CloneSource.Gives` tells
what was seen on which of them. `Stored.Built.begins` finds the beginning of what is stored.
-/

namespace PackageDepot

open Package Call Backend

/-- What a clone's source comes to on depots of `J`: a place in git that was fetched, a stored revision that
was read, or a package that a scan found and that was fetched behind it. -/
inductive Package.CloneSource.Gives (e : Engine) (J : Depot → Prop) (s : CloneSource) : Resolved → Prop
  | fetched {d : Depot} {l : GitLocation} {credential : Option Credential} {f : Fetched}
    (place : s.git = some l) (hj : J d) (fetches : d.git.fetch l credential = .ok f)
    (known : f.commit ≠ "") : Gives e J s ⟨.ofGit ⟨l, f.commit⟩, f.files⟩
  | copied {d : Depot} {ref : RevisionRef} {k : Key} {o : Stored} {lock : Lock}
    (place : s.git = none) (other : s.revision = some ref) (key : Key.parse? ref.name = some k)
    (hj : J d) (stored : d.store.get? k = some o) (locked : o.kptfile.lock = some lock)
    (known : lock.version ≠ "") : Gives e J s ⟨lock, o.files⟩
  | found {d d' d'' : Depot} {ref : RevisionRef} {k : Key} {r : Repository} {ps : List Discovered}
    {p : Discovered} {credential : Option Credential} {f : Fetched} (place : s.git = none)
    (other : s.revision = some ref) (key : Key.parse? ref.name = some k) (hj : J d)
    (absent : d.store.get? k = none) (hj' : J d') (registered : d'.registry.get? k.repository = some r)
    (scan : ScanGives e J r ps) (hp : p ∈ ps) (named : p.key k.repository = k) (hj'' : J d'')
    (fetches : d''.git.fetch p.location credential = .ok f) (known : p.commit ≠ "") :
    Gives e J s ⟨p.lock, f.files⟩

/-- A snapshot with which the build of a revision goes on, behind the task that begins the package. -/
inductive Package.Revision.Begins (e : Engine) (J : Depot → Prop) (r : Revision) : Snapshot → Prop
  | empty {s : Snapshot} (h : Pipeline.start e r = some s) : Begins e J r s
  | started {t : Task} {rest : List Task} {spec : InitSpec} (tasks : r.tasks = t :: rest)
    (kind : t.kind = .init) (payload : t.init = some spec) :
    Begins e J r (Snapshot.initial e.config.manifestFile r.package spec)
  | cloned {t : Task} {rest : List Task} {spec : CloneSpec} {resolved : Resolved} {s : Snapshot}
    (tasks : r.tasks = t :: rest) (kind : t.kind = .clone) (payload : t.clone = some spec)
    (gives : spec.source.Gives e J resolved)
    (made : Snapshot.clone e.config.manifestFile r.package resolved.lock resolved.files = .ok s) :
    Begins e J r s

section

variable {e : Engine} {J K : Depot → Prop} {c : Context} {d t : Depot} {k : Key}

theorem ScanGives.mono {r : Repository} {ps : List Discovered} (h : ScanGives e J r ps)
    (hJ : ∀ d, J d → K d) : ScanGives e K r ps := by
  cases h with
  | nothing => exact .nothing
  | found place hj' secret hj finds => exact .found place (hJ _ hj') secret (hJ _ hj) finds

theorem Package.CloneSource.Gives.mono {s : CloneSource} {resolved : Resolved}
    (h : s.Gives e J resolved) (hJ : ∀ d, J d → K d) : s.Gives e K resolved := by
  cases h with
  | fetched place hj fetches known => exact .fetched place (hJ _ hj) fetches known
  | copied place other key hj stored locked known =>
    exact .copied place other key (hJ _ hj) stored locked known
  | found place other key hj absent hj' registered scan hp named hj'' fetches known =>
    exact .found place other key (hJ _ hj) absent (hJ _ hj') registered (scan.mono hJ) hp named
      (hJ _ hj'') fetches known

theorem Package.Revision.Begins.mono {r : Revision} {s : Snapshot} (h : r.Begins e J s)
    (hJ : ∀ d, J d → K d) : r.Begins e K s := by
  cases h with
  | empty h => exact .empty h
  | started tasks kind payload => exact .started tasks kind payload
  | cloned tasks kind payload gives made => exact .cloned tasks kind payload (gives.mono hJ) made

/-- A published package that is found is one that a scan gives. -/
theorem Index.within_findDiscovered_ok {r : Repository} {p : Discovered}
    (h : Routine.Within J (findDiscovered e k c).run d (.ok (r, p)) t) : ∃ d' ps, J d' ∧
      d'.registry.get? k.repository = some r ∧ ScanGives e J r ps ∧ p ∈ ps ∧
      p.key k.repository = k := by
  unfold findDiscovered at h
  obtain ⟨r', u, hq, h⟩ := ends_bind_ok h
  obtain ⟨-, hj, asked⟩ := ends_query_iff.1 hq
  obtain ⟨ps, v, hs, h⟩ := ends_bind_ok h
  split at h
  · next q chosen =>
    cases (ends_pure_iff.1 h).1
    have names := List.find?_some chosen
    rw [Bool.and_eq_true, decide_eq_true_eq, decide_eq_true_eq] at names
    refine ⟨u, ps, hj, Registry.find_ok_iff.1 (mapError_eq_ok_iff.1 asked.symm), within_discover_ok hs,
      List.mem_of_find?_eq_some chosen, ?_⟩
    rw [Discovered.key, names.1, names.2]
  · cases (ends_throw_iff.1 h).1

namespace Resolve

/-- What a clone of another revision gets. -/
theorem within_revision_ok {s : CloneSource} {ref : RevisionRef} (place : s.git = none)
    (other : s.revision = some ref) (key : Key.parse? ref.name = some k) {resolved : Resolved}
    (h : Routine.Within J (revision e k c).run d (.ok resolved) t) : s.Gives e J resolved := by
  unfold revision at h
  obtain ⟨content, u, hl, h⟩ := ends_bind_ok h
  obtain ⟨outcome, hl, ho⟩ := ends_mapError_iff.1 hl
  obtain rfl := mapError_eq_ok_iff.1 ho.symm
  -- What there is behind the lookup, whatever it found.
  have locked : ∃ lock, content.lock = some lock ∧ lock.version ≠ "" ∧
      resolved = ⟨lock, content.files⟩ := by
    split at h
    · next lock found =>
      dsimp only at h
      split at h
      · obtain ⟨_, _, ht, -⟩ := ends_bind_ok h
        cases (ends_throw_iff.1 ht).1
      · next full =>
        cases (ends_pure_iff.1 h).1
        refine ⟨lock, found, ?_, rfl⟩
        intro none
        rw [none] at full
        exact full rfl
    · cases (ends_throw_iff.1 h).1
  obtain ⟨lock, found, known, rfl⟩ := locked
  unfold Index.lookup at hl
  obtain ⟨stored, v, hr, hl⟩ := ends_bind_ok hl
  obtain ⟨-, hj, hr⟩ := ends_read_iff.1 hr
  cases hr
  cases stored : v.store.get? k with
  | some o =>
    rw [stored] at hl
    cases (ends_pure_iff.1 hl).1
    exact .copied place other key hj stored found known
  | none =>
    rw [stored] at hl
    unfold Index.lookupDiscovered at hl
    obtain ⟨⟨r, p⟩, w, hf, hl⟩ := ends_bind_ok hl
    obtain ⟨d', ps, hj', registered, scan, hp, named⟩ := Index.within_findDiscovered_ok hf
    dsimp only at hl
    split at hl
    · cases (ends_throw_iff.1 hl).1
    · obtain ⟨credential, w', -, hl⟩ := ends_bind_ok hl
      obtain ⟨f, w'', hw, hl⟩ := ends_bind_ok hl
      cases (ends_pure_iff.1 hl).1
      cases found
      obtain ⟨m, -, hj'', ⟨i, -, he⟩ | ⟨-, he⟩⟩ := ends_within_iff.1 hw
      · cases he
      · exact .found place other key hj stored hj' registered scan hp named hj''
          (mapError_eq_ok_iff.1 he.symm) known

/-- **What a clone's source comes to.** -/
theorem within_source_ok {s : CloneSource} {resolved : Resolved}
    (h : Routine.Within J (source e s c).run d (.ok resolved) t) : s.Gives e J resolved := by
  unfold source at h
  split at h
  · next l place _ =>
    obtain ⟨u, credential, f, hj, fetched, known, rfl⟩ := ends_git_ok h
    exact .fetched place hj fetched known
  · next ref place other =>
    split at h
    · next k key => exact within_revision_ok place other key h
    · cases (ends_throw_iff.1 h).1
  · cases (ends_throw_iff.1 h).1

end Resolve

namespace Pipeline

/-- What a first task makes that begins a package. -/
theorem within_seed_ok {r : Revision} {task : Task} {rest : List Task} {s : Snapshot}
    (tasks : r.tasks = task :: rest) (seed : task.isSeed = true) {current : Option Snapshot}
    (h : Routine.Within J (apply e r current task c).run d (.ok s) t) : r.Begins e J s := by
  unfold apply at h
  dsimp only at h
  split at h
  · next kind =>
    obtain ⟨spec, u, hp, h⟩ := ends_bind_ok h
    obtain ⟨resolved, v, hr, h⟩ := ends_bind_ok h
    exact .cloned tasks kind (payload_ok (ends_valid_ok hp).1) (Resolve.within_source_ok hr)
      (ends_ofExcept_iff.1 h).1.symm
  · next kind =>
    obtain ⟨spec, u, hp, h⟩ := ends_bind_ok h
    cases (ends_pure_iff.1 h).1
    exact .started tasks kind (payload_ok (ends_valid_ok hp).1)
  · next kind => simp [Task.isSeed, kind] at seed
  · next kind => simp [Task.isSeed, kind] at seed

/-- **A build goes on from its beginning**, by tasks that begin no package. -/
theorem within_execute_ok {r : Revision} {s : Snapshot}
    (h : Routine.Within J (execute e r c).run d (.ok s) t) : r.validate = .ok () ∧
      ∃ first rest, r.Begins e J first ∧ first.Coherent e.config.manifestFile r.package ∧
        (∀ u ∈ rest, u ∈ r.tasks ∧ u.isSeed = false) ∧
        Trail e r.package (some first) rest (some s) := by
  obtain ⟨valid, hr⟩ := ends_execute_ok h
  refine ⟨valid, ?_⟩
  cases begun : start e r with
  | some first =>
    rw [begun] at hr
    refine ⟨first, r.tasks, .empty begun, start_coherent begun, fun u hu => ⟨hu, ?_⟩, ends_run_ok hr⟩
    have head : r.tasks.head?.any Task.isSeed = false := by
      rw [start] at begun
      split at begun
      · cases begun
      · next head => exact Bool.eq_false_iff.2 head
    cases tasks : r.tasks with
    | nil =>
      rw [tasks] at hu
      cases hu
    | cons task rest =>
      rw [tasks] at hu head
      obtain rfl | hu := List.mem_cons.1 hu
      · exact head
      · exact (Revision.validate_cons valid tasks).2 u hu
  | none =>
    rw [begun] at hr
    cases tasks : r.tasks with
    | nil => simp [start, tasks] at begun
    | cons task rest =>
      have seed : task.isSeed = true := by simpa [start, tasks] using begun
      rw [tasks] at hr
      obtain ⟨first, u, hs, behind⟩ := ends_bind_ok hr
      obtain ⟨inner, v, applied⟩ := ends_step_ok hs
      refine ⟨first, rest, within_seed_ok tasks seed applied, ?_, fun u hu => ⟨?_, ?_⟩,
        ends_run_ok behind⟩
      · exact (ends_apply_ok applied).coherent nofun
      · exact List.mem_cons_of_mem task hu
      · exact (Revision.validate_cons valid tasks).2 u hu

end Pipeline

end

end PackageDepot
