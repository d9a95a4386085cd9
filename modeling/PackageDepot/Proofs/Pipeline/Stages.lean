import PackageDepot.Proofs.Pipeline.Validation
import PackageDepot.Proofs.Routine.Solo
import PackageDepot.Proofs.Service.Runs

/-!
# The stages of a build

The executor begins with a snapshot or with none, and passes its tasks on one by one. `execute_eq_fold`
says that for a valid request this is the left fold of one step over the tasks with their positions,
begun with an empty package: a task that begins a package does not look at the one before it. The
equations here are between routines, so they hold of all runs.
-/

namespace PackageDepot

open Package Call

/-- The same error at the task behind. -/
def Error.atNextTask : Error → Error
  | .task index kind cause => .task (index + 1) kind cause
  | err => err

namespace Call

variable {α β : Type}

theorem mapError_mapError (f g : Error → Error) (x : Call α) :
    mapError f (mapError g x) = mapError (f ∘ g) x := by
  show Except.mapError f <$> (Except.mapError g <$> x.run) = Except.mapError (f ∘ g) <$> x.run
  rw [Functor.map_map]
  congr 1
  funext a
  cases a with
  | ok a => rfl
  | error err => rfl

theorem mapError_bind (f : Error → Error) (x : Call α) (g : α → Call β) :
    mapError f (x >>= g) = mapError f x >>= fun a => mapError f (g a) := by
  apply ExceptT.ext
  show Except.mapError f <$> (x >>= g).run = (mapError f x >>= fun a => mapError f (g a)).run
  rw [ExceptT.run_bind, ExceptT.run_bind, map_bind]
  show _ = (Except.mapError f <$> x.run) >>= _
  rw [bind_map_left]
  apply bind_congr
  intro a
  cases a with
  | ok a => rfl
  | error err => rfl

theorem mapError_pure (f : Error → Error) (a : α) : mapError f (pure a : Call α) = pure a := rfl

end Call

namespace Pipeline

variable (e : Engine) (r : Revision) (c : Context)

/-- The package that a build begins with. -/
def blank : Snapshot := Snapshot.initial e.config.manifestFile r.package {}

/-- Carry out a task on a snapshot. -/
def stage (s : Snapshot) (t : Task × Nat) : Call Snapshot := step e r c t.2 (some s) t.1

/-- The left fold of the tasks, from an empty package on. -/
def fold (tasks : List Task) : Call Snapshot := tasks.zipIdx.foldlM (stage e r c) (blank e r)

theorem fold_append (ts us : List Task) : fold e r c (ts ++ us) =
    fold e r c ts >>= (us.zipIdx ts.length).foldlM (stage e r c) := by
  rw [fold, List.zipIdx_append, List.foldlM_append, Nat.zero_add]
  rfl

theorem fold_concat (ts : List Task) (t : Task) : fold e r c (ts ++ [t]) =
    fold e r c ts >>= fun s => step e r c ts.length (some s) t := by
  rw [fold_append]
  apply bind_congr
  intro s
  rw [List.zipIdx_singleton, List.foldlM_cons]
  exact (bind_congr fun _ => List.foldlM_nil).trans (bind_pure _)

/-- Passing the tasks on is folding them. -/
theorem run_eq_foldlM (index : Nat) (s : Snapshot) (tasks : List Task) :
    run e r c index (some s) tasks =
      some <$> (tasks.zipIdx index).foldlM (stage e r c) s := by
  induction tasks generalizing index s with
  | nil => rfl
  | cons t rest ih =>
    rw [run, List.zipIdx_cons, List.foldlM_cons, map_bind]
    exact bind_congr fun next => ih (index + 1) next

/-- A task that begins a package does not look at what is there. -/
theorem step_seed {t : Task} (seed : t.isSeed = true) (index : Nat) (current other : Option Snapshot) :
    step e r c index current t = step e r c index other t := by
  unfold step apply
  cases kind : t.kind with
  | clone => rfl
  | init => rfl
  | eval => simp [Task.isSeed, kind] at seed
  | edit => simp [Task.isSeed, kind] at seed

theorem run_start : run e r c 0 (start e r) r.tasks = some <$> fold e r c r.tasks := by
  rw [fold, ← run_eq_foldlM]
  unfold start
  split
  · next seeded =>
    cases tasks : r.tasks with
    | nil => simp [tasks] at seeded
    | cons t rest =>
      have seed : t.isSeed = true := by simpa [tasks] using seeded
      rw [run, run, step_seed e r c seed 0 none (some (blank e r))]
  · rfl

/-- **A build is the fold of its tasks.** -/
theorem execute_eq_fold (valid : r.validate = .ok ()) : execute e r c = fold e r c r.tasks := by
  unfold execute
  rw [valid, run_start]
  have checked : (Call.ofExcept (.ok ()) : Call Unit) = pure () := rfl
  rw [checked, pure_bind, bind_map_left]
  exact bind_pure _

/-- The first tasks of a valid request are a valid request. -/
theorem validate_of_append {ts us : List Task} (tasks : r.tasks = ts ++ us)
    (valid : r.validate = .ok ()) : { r with tasks := ts }.validate = .ok () := by
  obtain ⟨named, well⟩ := Revision.validate_eq_ok_iff.1 valid
  rw [tasks, validateTasks_append_iff] at well
  exact Revision.validate_eq_ok_iff.2 ⟨named, well.1⟩

theorem execute_of_append {ts us : List Task} (tasks : r.tasks = ts ++ us)
    (valid : r.validate = .ok ()) : execute e { r with tasks := ts } c = fold e r c ts :=
  execute_eq_fold e _ c (validate_of_append r tasks valid)

/-! ## An init in front -/

/-- A request that does not begin a package is valid with an init in front. -/
theorem validate_implicit (bare : r.tasks.head?.any Task.isSeed = false)
    (valid : r.validate = .ok ()) :
    { r with tasks := .starting {} :: r.tasks }.validate = .ok () := by
  obtain ⟨named, well⟩ := Revision.validate_eq_ok_iff.1 valid
  refine Revision.validate_eq_ok_iff.2 ⟨named, ?_⟩
  rw [validateTasks_cons_iff]
  refine ⟨rfl, validateTasks_succ_iff.2 ?_⟩
  cases tasks : r.tasks with
  | nil => exact nofun
  | cons t rest =>
    rw [tasks, validateTasks_cons_iff, validateTasks_succ_iff, Task.validate_eq_ok_iff] at well
    rw [tasks, List.head?_cons, Option.any_some] at bare
    exact List.forall_mem_cons.2 ⟨⟨well.1.1, bare⟩, well.2⟩

/-- Without a time for each task, only errors tell its position. -/
theorem stage_succ (untimed : e.config.taskMilliseconds = none) (s : Snapshot) (t : Task) (index : Nat) :
    stage e r c s (t, index + 1) = mapError Error.atNextTask (stage e r c s (t, index)) := by
  unfold stage step
  rw [mapError_mapError, untimed]
  rfl

theorem foldlM_succ (untimed : e.config.taskMilliseconds = none) (tasks : List Task) (s : Snapshot)
    (index : Nat) : (tasks.zipIdx (index + 1)).foldlM (stage e r c) s =
      mapError Error.atNextTask ((tasks.zipIdx index).foldlM (stage e r c) s) := by
  induction tasks generalizing s index with
  | nil => rfl
  | cons t rest ih =>
    rw [List.zipIdx_cons, List.zipIdx_cons, List.foldlM_cons, List.foldlM_cons, mapError_bind,
      stage_succ e r c untimed]
    exact bind_congr fun next => ih next (index + 1)

/-- The tasks with an init in front: it is begun, and then all is as without it. -/
theorem fold_implicit (untimed : e.config.taskMilliseconds = none) (tasks : List Task) :
    fold e r c (.starting {} :: tasks) =
      mapError (.task 0 .init) (enter c 0 none) >>= fun _ =>
        mapError Error.atNextTask (fold e r c tasks) := by
  have init : stage e r c (blank e r) (.starting {}, 0) =
      mapError (.task 0 .init) (enter c 0 none) >>= fun _ => pure (blank e r) := by
    rw [← mapError_pure (.task 0 .init) (blank e r), ← mapError_bind, ← untimed]
    rfl
  rw [fold, List.zipIdx_cons, List.foldlM_cons, init, bind_assoc]
  apply bind_congr
  intro _
  rw [pure_bind]
  exact foldlM_succ e r c untimed tasks (blank e r) 0

end Pipeline

end PackageDepot
