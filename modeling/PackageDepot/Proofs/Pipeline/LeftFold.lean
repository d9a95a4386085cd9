import PackageDepot.Proofs.Pipeline.Undisturbed

/-!
# The strict left fold of a request

`left_fold` says what it means that tasks are carried out strictly from left to right: a build is the fold
of one step, one more task is one more step, the first step that fails ends the build with an error that
tells its position, nothing is done for the tasks behind it, and a request that does not begin a package
is built as with an empty init in front.
-/

namespace PackageDepot.Pipeline

open Package Call

variable {e : Engine} {r : Revision} {c : Context} {M : Moment → Prop} {d d' : Depot}

theorem fold_quiet (tasks : List (Task × Nat)) (s : Snapshot) :
    Call.Quiet (Fails e) (tasks.foldlM (stage e r c) s) := by
  induction tasks generalizing s with
  | nil => exact quiet_pure s
  | cons t rest ih => exact (step_quiet e r c t.2 (some s) t.1).bind ih

/-- A step fails with an error of its own task. -/
theorem solo_step_error {index : Nat} {current : Option Snapshot} {t : Task} {err : Error}
    (h : Routine.Solo M (step e r c index current t).run d (.error err) d') :
    ∃ cause, err = .task index t.kind cause := by
  obtain ⟨a, -, ha⟩ := solo_mapError_iff.1 h
  cases a with
  | ok s => cases ha
  | error cause =>
    cases ha
    exact ⟨cause, rfl⟩

/-- A fold that fails comes to a task that fails on what the tasks before it make. -/
theorem solo_foldlM_error {tasks : List Task} {index : Nat} {s : Snapshot} {err : Error}
    (h : Routine.Solo M ((tasks.zipIdx index).foldlM (stage e r c) s).run d (.error err) d') :
    ∃ ts t rest s', tasks = ts ++ t :: rest ∧
      Routine.Solo M ((ts.zipIdx index).foldlM (stage e r c) s).run d (.ok s') d ∧
      Routine.Solo M (stage e r c s' (t, index + ts.length)).run d (.error err) d' := by
  induction tasks generalizing index s with
  | nil => cases (solo_pure_iff.1 h).1
  | cons t rest ih =>
    rw [List.zipIdx_cons, List.foldlM_cons] at h
    obtain ⟨s₁, u, hs, hr⟩ | ⟨err', hs, he⟩ := solo_bind_iff.1 h
    · obtain rfl := (step_quiet e r c index (some s) t).solo hs
      obtain ⟨ts, t', rest', s', rfl, built, fails⟩ := ih hr
      refine ⟨t :: ts, t', rest', s', rfl, ?_, ?_⟩
      · rw [List.zipIdx_cons, List.foldlM_cons]
        exact solo_bind_iff.2 (.inl ⟨s₁, u, hs, built⟩)
      · rwa [List.length_cons, show index + (ts.length + 1) = index + 1 + ts.length by omega]
    · cases he
      exact ⟨[], t, rest, s, rfl, solo_pure_iff.2 ⟨rfl, rfl⟩, hs⟩

/-- Of a fold that succeeds, the first tasks do. -/
theorem solo_fold_front {ts us : List Task} {s : Snapshot}
    (h : Routine.Solo M (fold e r c (ts ++ us)).run d (.ok s) d) :
    ∃ s', Routine.Solo M (fold e r c ts).run d (.ok s') d := by
  rw [fold_append] at h
  obtain ⟨s', u, first, -⟩ | ⟨err, -, he⟩ := solo_bind_iff.1 h
  · obtain rfl := (fold_quiet _ _).solo first
    exact ⟨s', first⟩
  · cases he

/-- The task at a position fails on the snapshot that the tasks before it come to. -/
def FailsAt (e : Engine) (r : Revision) (c : Context) (M : Moment → Prop) (d : Depot) (i : Nat)
    (err : Error) : Prop :=
  ∃ t s, r.tasks[i]? = some t ∧
    Routine.Solo M (execute e { r with tasks := r.tasks.take i } c).run d (.ok s) d ∧
    Routine.Solo M (step e r c i (some s) t).run d (.error err) d

/-- The same, with the other tasks around this one. -/
theorem failsAt_iff (valid : r.validate = .ok ()) {i : Nat} {err : Error} :
    FailsAt e r c M d i err ↔ ∃ ts t rest s, r.tasks = ts ++ t :: rest ∧ ts.length = i ∧
      Routine.Solo M (fold e r c ts).run d (.ok s) d ∧
      Routine.Solo M (step e r c i (some s) t).run d (.error err) d := by
  constructor
  · rintro ⟨t, s, there, built, fails⟩
    obtain ⟨hi, rfl⟩ := List.getElem?_eq_some_iff.1 there
    have split : r.tasks = r.tasks.take i ++ r.tasks[i] :: r.tasks.drop (i + 1) := by
      rw [← List.drop_eq_getElem_cons hi, List.take_append_drop]
    rw [execute_of_append e r c split valid] at built
    exact ⟨_, _, _, s, split, List.length_take_of_le (Nat.le_of_lt hi), built, fails⟩
  · rintro ⟨ts, t, rest, s, tasks, rfl, built, fails⟩
    refine ⟨t, s, by simp [tasks], ?_, fails⟩
    rw [tasks, List.take_left' rfl, execute_of_append e r c tasks valid]
    exact built

theorem fold_steady (valid : r.validate = .ok ()) (quiet : c.Undisturbed M)
    (untimed : e.config.taskMilliseconds = none) {ts us : List Task} (tasks : r.tasks = ts ++ us) :
    Call.Steady M (fold e r c ts) := by
  rw [← execute_of_append e r c tasks valid]
  exact execute_steady quiet untimed

/-- Folds whose steps agree on the elements of the list. -/
theorem foldlM_congr {f g : Snapshot → Task × Nat → Call Snapshot} {l : List (Task × Nat)}
    (h : ∀ t ∈ l, ∀ s, f s t = g s t) (s : Snapshot) : l.foldlM f s = l.foldlM g s := by
  induction l generalizing s with
  | nil => rfl
  | cons t rest ih =>
    rw [List.foldlM_cons, List.foldlM_cons, h t List.mem_cons_self]
    exact bind_congr fun next => ih (fun u hu => h u (List.mem_cons_of_mem t hu)) next

/-- A fold that agrees with the build up to a task that fails there fails with it. -/
theorem solo_foldlM_of_fails {ts rest : List Task} {t : Task} {s : Snapshot} {err : Error}
    (built : Routine.Solo M (fold e r c ts).run d (.ok s) d)
    (fails : Routine.Solo M (step e r c ts.length (some s) t).run d (.error err) d)
    {f : Snapshot → Task × Nat → Call Snapshot}
    (same : ∀ s u, u.2 ≤ ts.length → f s u = stage e r c s u) :
    Routine.Solo M ((ts ++ t :: rest).zipIdx.foldlM f (blank e r)).run d (.error err) d := by
  have front : ts.zipIdx.foldlM f (blank e r) = fold e r c ts :=
    foldlM_congr (fun u hu s => same s u (by have := List.snd_lt_of_mem_zipIdx hu; omega)) _
  rw [List.zipIdx_append, List.foldlM_append, front, Nat.zero_add, List.zipIdx_cons]
  refine solo_bind_iff.2 (.inl ⟨s, d, built, ?_⟩)
  rw [List.foldlM_cons, same s (t, ts.length) (Nat.le_refl _)]
  exact solo_bind_iff.2 (.inr ⟨err, fails, rfl⟩)

/-- Undisturbed, a context that no task has a time in is entered as it is. -/
theorem solo_enter_iff (hM : ∃ m, M m) (quiet : c.Undisturbed M) {label : Nat}
    {a : Except Error Context} :
    Routine.Solo M (enter c label none).run d a d' ↔ a = .ok c ∧ d' = d := by
  rw [← bind_pure (enter c label none), enter_run]
  constructor
  · intro h
    cases h with
    | step hm rest =>
      simp only [Context.inTask, quiet _ hm] at rest
      exact solo_pure_iff.1 rest
  · rintro ⟨rfl, rfl⟩
    obtain ⟨m, hm⟩ := hM
    refine .step hm ?_
    simp only [Context.inTask, quiet m hm]
    exact solo_pure_iff.2 ⟨rfl, rfl⟩

/-- Undisturbed, no task fails in front of one that fails: it succeeds on the way there. -/
theorem not_failsAt_before (valid : r.validate = .ok ()) (quiet : c.Undisturbed M)
    (untimed : e.config.taskMilliseconds = none) {i j : Nat} {err err' : Error}
    (h : FailsAt e r c M d i err) (hj : j < i) : ¬ FailsAt e r c M d j err' := by
  intro h'
  obtain ⟨ts, t, rest, s, tasks, rfl, built, -⟩ := (failsAt_iff valid).1 h
  obtain ⟨us, u, vs, s', tasks', rfl, built', fails⟩ := (failsAt_iff valid).1 h'
  have early : us ++ [u] <+: r.tasks := ⟨vs, by simp [tasks']⟩
  obtain ⟨ws, rfl⟩ : us ++ [u] <+: ts := by
    apply List.prefix_of_prefix_length_le early ⟨t :: rest, tasks.symm⟩
    simp only [List.length_append, List.length_singleton]
    omega
  obtain ⟨s₂, onward⟩ := solo_fold_front built
  rw [fold_concat] at onward
  obtain ⟨s₁, v, first, second⟩ | ⟨err, -, he⟩ := solo_bind_iff.1 onward
  · obtain rfl := (fold_quiet _ _).solo first
    have same := ((fold_steady valid quiet untimed tasks').unique first built').1
    rw [Except.ok.inj same] at fails
    cases ((step_steady quiet untimed us.length (some s₁) u).unique second fails).1
  · cases he

/-- The tasks of a request are carried out strictly from left to right. -/
structure LeftFold (e : Engine) (r : Revision) (c : Context) : Prop where
  /-- The build is the left fold of one step over the tasks with their positions. -/
  fold : execute e r c = r.tasks.zipIdx.foldlM (fun s t => step e r c t.2 (some s) t.1)
    (Snapshot.initial e.config.manifestFile r.package {})
  /-- One more task is one more step, on what the others come to. -/
  snoc : ∀ ts t, r.tasks = ts ++ [t] → execute e r c =
    execute e { r with tasks := ts } c >>= fun s => step e r c ts.length (some s) t
  /-- Undisturbed, there is at most one outcome, and the depot stays as it is. -/
  unique : ∀ M d a d', c.Undisturbed M → e.config.taskMilliseconds = none →
    Routine.Solo M (execute e r c).run d a d' → d' = d ∧
      ∀ b u, Routine.Solo M (execute e r c).run d b u → b = a
  /-- It fails just if a task fails on what the tasks before it make, with the error of this task. -/
  fails : ∀ M d err d', Routine.Solo M (execute e r c).run d (.error err) d' ↔
    d' = d ∧ ∃ i, FailsAt e r c M d i err
  /-- The error tells the position of the task. -/
  told : ∀ M d i err, FailsAt e r c M d i err →
    ∃ t cause, r.tasks[i]? = some t ∧ err = .task i t.kind cause
  /-- Undisturbed, this is the least position of a task that fails. -/
  least : ∀ M d i err, c.Undisturbed M → e.config.taskMilliseconds = none →
    FailsAt e r c M d i err → ∀ j < i, ∀ err', ¬ FailsAt e r c M d j err'
  /-- Nothing is done for the tasks behind: the same run is one of a fold that does anything else for
  them. -/
  unreached : ∀ M d i kind cause d',
    Routine.Solo M (execute e r c).run d (.error (.task i kind cause)) d' →
    ∀ later : Snapshot → Task × Nat → Call Snapshot,
      Routine.Solo M (r.tasks.zipIdx.foldlM
        (fun s t => if t.2 ≤ i then step e r c t.2 (some s) t.1 else later s t)
        (Snapshot.initial e.config.manifestFile r.package {})).run d (.error (.task i kind cause)) d'
  /-- A request that does not begin a package is valid with an init of empty metadata in front. -/
  implicit : r.tasks.head?.any Task.isSeed = false →
    { r with tasks := .starting {} :: r.tasks }.validate = .ok ()
  /-- Undisturbed, it comes to the same snapshot without, or to the same error with a position one
  lower. -/
  shifted : r.tasks.head?.any Task.isSeed = false → ∀ M d a d', (∃ m, M m) → c.Undisturbed M →
    e.config.taskMilliseconds = none →
    (Routine.Solo M (execute e { r with tasks := .starting {} :: r.tasks } c).run d a d' ↔
      ∃ b, Routine.Solo M (execute e r c).run d b d' ∧ a = b.mapError Error.atNextTask)

/-- **A build is the strict left fold of the tasks of its request.** -/
theorem left_fold (e : Engine) {r : Revision} (c : Context) (valid : r.validate = .ok ()) :
    LeftFold e r c where
  fold := execute_eq_fold e r c valid
  snoc ts t tasks := by
    rw [execute_eq_fold e r c valid, execute_of_append e r c tasks valid, tasks]
    exact fold_concat e r c ts t
  unique M d a d' quiet untimed h :=
    ⟨(execute_quiet e r c).solo h, fun _ _ h' => ((execute_steady quiet untimed).unique h h').1⟩
  fails M d err d' := by
    constructor
    · intro h
      obtain rfl := (execute_quiet e r c).solo h
      rw [execute_eq_fold e r c valid] at h
      obtain ⟨ts, t, rest, s, tasks, built, fails⟩ := solo_foldlM_error h
      rw [Nat.zero_add] at fails
      exact ⟨rfl, ts.length, (failsAt_iff valid).2 ⟨ts, t, rest, s, tasks, rfl, built, fails⟩⟩
    · rintro ⟨rfl, i, h⟩
      obtain ⟨ts, t, rest, s, tasks, rfl, built, fails⟩ := (failsAt_iff valid).1 h
      rw [execute_eq_fold e r c valid, tasks]
      exact solo_foldlM_of_fails built fails fun _ _ _ => rfl
  told M d i err := by
    rintro ⟨t, s, there, -, fails⟩
    obtain ⟨cause, rfl⟩ := solo_step_error fails
    exact ⟨t, cause, there, rfl⟩
  least _ _ _ _ quiet untimed h _ hj _ := not_failsAt_before valid quiet untimed h hj
  unreached M d i kind cause d' h later := by
    obtain rfl := (execute_quiet e r c).solo h
    rw [execute_eq_fold e r c valid] at h
    obtain ⟨ts, t, rest, s, tasks, built, fails⟩ := solo_foldlM_error h
    rw [Nat.zero_add] at fails
    obtain ⟨cause', he⟩ := solo_step_error fails
    cases he
    rw [tasks]
    exact solo_foldlM_of_fails built fails fun s u hu => if_pos hu
  implicit bare := validate_implicit r bare valid
  shifted bare M d a d' hM quiet untimed := by
    have shift : execute e { r with tasks := .starting {} :: r.tasks } c =
        mapError (.task 0 .init) (enter c 0 none) >>= fun _ =>
          mapError Error.atNextTask (execute e r c) := by
      rw [execute_eq_fold e _ c (validate_implicit r bare valid), execute_eq_fold e r c valid]
      exact fold_implicit e { r with tasks := .starting {} :: r.tasks } c untimed r.tasks
    rw [shift, solo_bind_iff]
    constructor
    · rintro (⟨inner, u, entered, h⟩ | ⟨err, entered, -⟩)
      · obtain ⟨b, hb, -⟩ := solo_mapError_iff.1 entered
        obtain ⟨-, rfl⟩ := (solo_enter_iff hM quiet).1 hb
        exact solo_mapError_iff.1 h
      · obtain ⟨b, hb, he⟩ := solo_mapError_iff.1 entered
        obtain ⟨rfl, -⟩ := (solo_enter_iff hM quiet).1 hb
        cases he
    · intro h
      refine .inl ⟨c, d, ?_, solo_mapError_iff.2 h⟩
      exact solo_mapError_iff.2 ⟨.ok c, (solo_enter_iff hM quiet).2 ⟨rfl, rfl⟩, rfl⟩

/-- The request of two tasks that do not begin a package. -/
theorem left_fold_bare :
    Revision.validate ⟨"web", "v1", "apps", [.evaluating "set-labels" ∅, .editing []]⟩ = .ok () ∧
      LeftFold {} ⟨"web", "v1", "apps", [.evaluating "set-labels" ∅, .editing []]⟩ ⟨[], none⟩ :=
  ⟨rfl, left_fold {} _ rfl⟩

end PackageDepot.Pipeline
