import PackageDepot.Proofs.Pipeline.Stages

/-!
# How a build fails

A request that does not have the form it should have is refused before any of its tasks is begun, for the
first part of its name that is at fault, or else for its first task that is (`Revision.Misshapen`). A task of
any other request fails as its kind allows (`TaskFault`): a clone if its source is not resolved, a function
with a fault of its own, an edit if it does not fit the files, and each of them if it is interrupted. What
the executor guards against besides (`Error.isDefensive`) is ruled out by the checks of the request.
`build_failures` says this of an engine with built-in functions.
-/

namespace PackageDepot

open Package Call
open Backend (bind_eq_ok_iff bind_eq_error_iff mapError_eq_ok_iff)

/-! ## Kinds of errors -/

/-- The fault is one of a request that was not checked. -/
def ValidationFault.isDefensive : ValidationFault → Bool
  | .noPackage _ | .noPayload _ | .nothingBuilt _ | .ambiguousSource => true
  | _ => false

/-- The fault is one of a clone source that was not checked. -/
def ResolutionFault.isDefensive : ResolutionFault → Bool
  | .badRevisionName _ => true
  | _ => false

namespace Error

/-- The error can only come of a request that was not checked. -/
def isDefensive : Error → Bool
  | .validation fault => fault.isDefensive
  | .resolution fault => fault.isDefensive
  | .task _ _ cause => cause.isDefensive
  | _ => false

/-- The error is not one of a task. -/
def isPlain : Error → Bool
  | .task .. => false
  | _ => true

end Error

/-- The kinds of errors that tasks of a kind fail with. -/
@[simp] def Package.TaskKind.faults : TaskKind → List ErrorKind
  | .clone => [.resolution, .cancelled]
  | .init => [.cancelled]
  | .eval => [.function, .cancelled]
  | .edit => [.validation, .cancelled]

theorem mapError_eq_error_iff {ε ε' α : Type} {x : Except ε α} {f : ε → ε'} {err : ε'} :
    x.mapError f = .error err ↔ ∃ e, x = .error e ∧ err = f e := by
  cases x with
  | ok a => exact ⟨nofun, nofun⟩
  | error e =>
    constructor
    · rintro ⟨⟩
      exact ⟨e, rfl, rfl⟩
    · rintro ⟨_, ⟨⟩, rfl⟩
      rfl

/-- A check of each element of a list fails at the first one that fails it. -/
theorem forM_eq_error_iff {ε α : Type} {f : α → Except ε Unit} {l : List α} {err : ε} :
    forM l f = .error err ↔ ∃ before a behind, l = before ++ a :: behind ∧
      (∀ b ∈ before, f b = .ok ()) ∧ f a = .error err := by
  induction l with
  | nil =>
    constructor
    · rintro ⟨⟩
    · rintro ⟨before, a, behind, split, -⟩
      simp at split
  | cons b rest ih =>
    rw [List.forM_cons, bind_eq_error_iff]
    constructor
    · rintro (bad | ⟨⟨⟩, fine, later⟩)
      · exact ⟨[], b, rest, rfl, nofun, bad⟩
      · obtain ⟨before, a, behind, rfl, passed, bad⟩ := ih.1 later
        exact ⟨b :: before, a, behind, rfl, List.forall_mem_cons.2 ⟨fine, passed⟩, bad⟩
    · rintro ⟨before, a, behind, split, passed, bad⟩
      cases before with
      | nil =>
        cases split
        exact .inl bad
      | cons b' before =>
        cases split
        obtain ⟨fine, passed⟩ := List.forall_mem_cons.1 passed
        exact .inr ⟨(), fine, ih.2 ⟨before, a, behind, rfl, passed, bad⟩⟩

/-! ## Requests that are refused -/

namespace Package

/-- What is wrong with a part of a name. -/
inductive Misnamed (field value : String) : ValidationFault → Prop
  | empty (none : value = "") : Misnamed field value (.emptyField field)
  | colon (some : value ≠ "") (inside : ':' ∈ value.toList) :
    Misnamed field value (.colonInField field value)

theorem checkName_eq_error_iff {field value : String} {fault : ValidationFault} :
    checkName field value = .error fault ↔ Misnamed field value fault := by
  unfold checkName
  dsimp only
  split
  · next none =>
    have none : value = "" := by simpa using none
    constructor
    · rintro ⟨⟩
      exact .empty none
    · rintro (_ | ⟨some, -⟩)
      · rfl
      · exact (some none).elim
  next some =>
  have some : value ≠ "" := by simpa using some
  split
  · next inside =>
    constructor
    · rintro ⟨⟩
      exact .colon some (by simpa using inside)
    · rintro (none | _)
      · exact (some none).elim
      · rfl
  · next plain =>
    constructor
    · rintro ⟨⟩
    · rintro (none | ⟨-, inside⟩)
      · exact (some none).elim
      · exact (plain (by simpa using inside)).elim

/-- The first task that is at fault is the one that is told. -/
theorem validateTasks_eq_error_iff {index : Nat} {ts : List Task} {err : Error} :
    validateTasks index ts = .error err ↔ ∃ before t behind fault, ts = before ++ t :: behind ∧
      validateTasks index before = .ok () ∧ t.validate (index + before.length) = .error fault ∧
      err = .task (index + before.length) t.kind (.validation fault) := by
  induction ts generalizing index with
  | nil =>
    constructor
    · rintro ⟨⟩
    · rintro ⟨before, t, behind, fault, split, -⟩
      simp at split
  | cons u rest ih =>
    have place (before : List Task) : index + 1 + before.length = index + (u :: before).length := by
      rw [List.length_cons]
      omega
    rw [validateTasks, bind_eq_error_iff, mapError_eq_error_iff]
    constructor
    · rintro (⟨fault, bad, rfl⟩ | ⟨_, fine, later⟩)
      · exact ⟨[], u, rest, fault, rfl, rfl, bad, rfl⟩
      · obtain ⟨before, t, behind, fault, rfl, passed, bad, rfl⟩ := ih.1 later
        rw [place] at bad ⊢
        exact ⟨u :: before, t, behind, fault, rfl,
          validateTasks_cons_iff.2 ⟨mapError_eq_ok_iff.1 fine, passed⟩, bad, rfl⟩
    · rintro ⟨before, t, behind, fault, split, passed, bad, rfl⟩
      cases before with
      | nil =>
        cases split
        exact .inl ⟨fault, bad, rfl⟩
      | cons u' before =>
        cases split
        obtain ⟨fine, passed⟩ := validateTasks_cons_iff.1 passed
        rw [← place] at bad
        refine .inr ⟨(), mapError_eq_ok_iff.2 fine, ih.2 ?_⟩
        exact ⟨before, t, behind, fault, rfl, passed, bad, by rw [place]⟩

namespace Revision

/-- The parts of the name of a request, in the order in which they are checked. -/
def names (r : Revision) : List (String × String) :=
  [("packageName", r.package), ("revision", r.revision), ("repositoryName", r.repository)]

theorem validate_eq (r : Revision) : r.validate = (do
    (forM r.names fun n => checkName n.1 n.2).mapError .validation
    validateTasks 0 r.tasks) := by
  unfold validate names
  simp only [List.forM_cons, List.forM_nil]
  cases checkName "packageName" r.package with
  | error fault => rfl
  | ok =>
    cases checkName "revision" r.revision with
    | error fault => rfl
    | ok => cases checkName "repositoryName" r.repository <;> rfl

/-- Why a request is refused: for the first part of its name that is at fault, or for its first task that
is, if it would be valid with the tasks before. -/
inductive Misshapen (r : Revision) : Error → Prop
  | name {before behind : List (String × String)} {field value : String} {fault : ValidationFault}
    (names : r.names = before ++ (field, value) :: behind)
    (fine : ∀ n ∈ before, checkName n.1 n.2 = .ok ()) (bad : Misnamed field value fault) :
    Misshapen r (.validation fault)
  | task {before behind : List Task} {t : Task} {fault : ValidationFault}
    (tasks : r.tasks = before ++ t :: behind)
    (fine : { r with tasks := before }.validate = .ok ())
    (bad : t.validate before.length = .error fault) :
    Misshapen r (.task before.length t.kind (.validation fault))

/-- **Requests are refused** for just these reasons. -/
theorem validate_eq_error_iff {r : Revision} {err : Error} :
    r.validate = .error err ↔ r.Misshapen err := by
  rw [validate_eq, bind_eq_error_iff, mapError_eq_error_iff]
  constructor
  · rintro (⟨fault, bad, rfl⟩ | ⟨⟨⟩, named, later⟩)
    · obtain ⟨before, n, behind, names, fine, bad⟩ := forM_eq_error_iff.1 bad
      exact .name names fine (checkName_eq_error_iff.1 bad)
    · obtain ⟨before, t, behind, fault, tasks, passed, bad, rfl⟩ := validateTasks_eq_error_iff.1 later
      rw [Nat.zero_add] at bad ⊢
      refine .task tasks ?_ bad
      rw [validate_eq, bind_eq_ok_iff]
      exact ⟨(), named, passed⟩
  · intro h
    cases h with
    | name names fine bad =>
      exact .inl ⟨_, forM_eq_error_iff.2 ⟨_, _, _, names, fine, checkName_eq_error_iff.2 bad⟩, rfl⟩
    | @task before behind t fault tasks fine bad =>
      rw [validate_eq, bind_eq_ok_iff] at fine
      obtain ⟨⟨⟩, named, passed⟩ := fine
      rw [← Nat.zero_add before.length] at bad
      refine .inr ⟨(), named, validateTasks_eq_error_iff.2 ?_⟩
      exact ⟨before, t, behind, fault, tasks, passed, bad, by rw [Nat.zero_add]⟩

end Revision

end Package

/-! ## Tasks that fail -/

/-- How an edit that passed its check does not fit the files of a package. -/
inductive EditFault : ValidationFault → Prop
  | present (file : String) : EditFault (.fileExists file)
  | absent (file : String) : EditFault (.fileMissing file)
  | undeletable (file : String) : EditFault (.undeletable file)
  | manifestMissing (file : String) : EditFault (.manifestMissing file)
  | manifestUnusable (refusal : Kptfile.Refusal) : EditFault (.manifestUnusable refusal)
  | renamed (package : String) : EditFault (.renamedByEdit package)

/-- How a task of a kind fails that passed its check. -/
inductive TaskFault : TaskKind → Error → Prop
  | interrupted (kind : TaskKind) (reason : Interrupt) : TaskFault kind (.cancelled reason)
  | unresolved {err : Error} (fault : ResolveFault err) : TaskFault .clone err
  | upstream (refusal : Kptfile.Refusal) : TaskFault .clone (.resolution (.manifestUnusable refusal))
  | function (fault : FunctionFault) : TaskFault .eval (.function fault)
  | edit {fault : ValidationFault} (unfit : EditFault fault) : TaskFault .edit (.validation fault)

namespace ResolveFault

variable {err : Error}

/-- A clone source is not resolved for one of two kinds of reasons, and none of them could have been told
of the request alone. -/
theorem shape (h : ResolveFault err) :
    err.kind ∈ TaskKind.clone.faults ∧ err.isPlain = true ∧ err.isDefensive = false := by
  cases h with
  | scan fault => cases fault <;> exact ⟨by simp [Error.kind], rfl, rfl⟩
  | commit | missing | unlocked => exact ⟨List.mem_cons_self, rfl, rfl⟩

end ResolveFault

namespace TaskFault

variable {kind : TaskKind} {err : Error}

/-- The causes of a failed task are of the kinds that its kind has, tell of no other task and could not
have been told of the request alone. -/
theorem shape (h : TaskFault kind err) :
    err.kind ∈ kind.faults ∧ err.isPlain = true ∧ err.isDefensive = false := by
  cases h with
  | interrupted => cases kind <;> exact ⟨by simp [Error.kind], rfl, rfl⟩
  | unresolved fault => exact fault.shape
  | upstream | function => exact ⟨List.mem_cons_self, rfl, rfl⟩
  | edit unfit => cases unfit <;> exact ⟨List.mem_cons_self, rfl, rfl⟩

end TaskFault

namespace Package

theorem checkPayload_eq_error_iff {α : Type} {payload : Option α}
    {check : α → Except ValidationFault Unit} {fault : ValidationFault} :
    checkPayload payload check = .error fault ↔ ∃ a, payload = some a ∧ check a = .error fault := by
  cases payload with
  | none => exact ⟨nofun, nofun⟩
  | some a =>
    constructor
    · intro h
      exact ⟨a, rfl, h⟩
    · rintro ⟨_, ⟨⟩, h⟩
      exact h

/-- The check of a task tells of nothing that the executor guards against besides. -/
theorem Task.validate_sound {index : Nat} {t : Task} {fault : ValidationFault}
    (bad : t.validate index = .error fault) : fault.isDefensive = false := by
  rw [Task.validate_eq] at bad
  split at bad
  · cases bad
    rfl
  split at bad
  · cases bad
    rfl
  obtain clone | ⟨⟨⟩, -, bad⟩ := bind_eq_error_iff.1 bad
  · obtain ⟨s, -, bad⟩ := checkPayload_eq_error_iff.1 clone
    unfold CloneSource.validate at bad
    split at bad
    · split at bad <;> cases bad
      rfl
    · split at bad <;> cases bad
      rfl
    · cases bad
      rfl
  obtain eval | ⟨⟨⟩, -, edit⟩ := bind_eq_error_iff.1 bad
  · obtain ⟨s, -, bad⟩ := checkPayload_eq_error_iff.1 eval
    unfold EvalSpec.validate at bad
    split at bad <;> cases bad
    rfl
  · obtain ⟨s, -, bad⟩ := checkPayload_eq_error_iff.1 edit
    unfold EditSpec.validate at bad
    split at bad <;> cases bad
    rfl

theorem Revision.Misshapen.shape {r : Revision} {err : Error} (h : r.Misshapen err) :
    err.kind = .validation ∧ err.isDefensive = false := by
  cases h with
  | name names fine bad => cases bad <;> exact ⟨rfl, rfl⟩
  | task tasks fine bad => exact ⟨rfl, Task.validate_sound bad⟩

theorem Patch.apply_fault {path : String} {p : Patch} {files : Bundle} {fault : ValidationFault}
    (bad : p.apply path files = .error fault) : EditFault fault := by
  unfold Patch.apply at bad
  split at bad
  · cases bad
    exact .present _
  · cases bad
    exact .absent _
  · cases bad
    exact .absent _
  · split at bad <;> cases bad
    exact .undeletable _
  · cases bad
  · cases bad

theorem Patch.applyAll_fault {path : String} {patches : List Patch} {files : Bundle}
    {fault : ValidationFault} (bad : Patch.applyAll path patches files = .error fault) :
    EditFault fault := by
  induction patches generalizing files with
  | nil => cases bad
  | cons p rest ih =>
    obtain first | ⟨_, -, later⟩ := bind_eq_error_iff.1 bad
    · exact Patch.apply_fault first
    · exact ih later

namespace Snapshot

variable {path : String} {before : Snapshot}

theorem edited_fault {patches : List Patch} {fault : ValidationFault}
    (bad : before.edited path patches = .error fault) : EditFault fault := by
  obtain patched | ⟨files, -, rest⟩ := bind_eq_error_iff.1 bad
  · exact Patch.applyAll_fault patched
  · split at rest
    · cases rest
      exact .manifestMissing _
    · cases rest
      exact .manifestUnusable _
    · split at rest <;> cases rest
      exact .renamed _

theorem clone_fault {name : String} {lock : Lock} {files : Bundle} {err : Error}
    (bad : Snapshot.clone path name lock files = .error err) : TaskFault .clone err := by
  unfold Snapshot.clone at bad
  split at bad <;> cases bad
  exact .upstream _

end Snapshot

end Package

namespace Pipeline

open Call

variable {e : Engine} {r : Revision} {c : Context} {runtime : Runtime}

theorem valid_ok {α β : Type} (a : α) (f : α → Call β) : valid (.ok a) >>= f = f a := rfl

/-- A built-in function fails with a fault of its own, or what it answers cannot be used. -/
theorem evaluate_fault (builtin : e.evaluator = runtime.evaluator) (spec : EvalSpec)
    (before : Snapshot) : Quiet (TaskFault .eval) (evaluate e spec before c) := by
  unfold evaluate
  rw [builtin]
  apply (quiet_work (fun i => .interrupted .eval i) ?_).bind
  · intro files
    apply quiet_ofExcept
    intro err bad
    obtain ⟨fault, -, rfl⟩ := mapError_eq_error_iff.1 bad
    exact .function fault
  · intro err bad
    obtain ⟨fault, -, rfl⟩ := mapError_eq_error_iff.1 bad
    exact .function fault

/-- A well-formed task fails as its kind allows. -/
theorem apply_fault (builtin : e.evaluator = runtime.evaluator) (s : Snapshot) {t : Task}
    (well : t.WellFormed) : Quiet (TaskFault t.kind) (apply e r (some s) t c) := by
  have own := well.own
  unfold Task.hasOwnPayload at own
  unfold apply
  split
  · next kind =>
    rw [kind] at own ⊢
    obtain ⟨spec, clone⟩ := Option.isSome_iff_exists.1 own
    rw [clone, payload, valid_ok]
    apply ((Resolve.source_quiet_of_valid e c (well.clone spec clone)).mono fun _ => .unresolved).bind
    intro resolved
    exact quiet_ofExcept fun _ bad => Snapshot.clone_fault bad
  · next kind =>
    rw [kind] at own ⊢
    obtain ⟨spec, init⟩ := Option.isSome_iff_exists.1 own
    rw [init, payload, valid_ok]
    exact quiet_pure _
  · next kind =>
    rw [kind] at own ⊢
    obtain ⟨spec, eval⟩ := Option.isSome_iff_exists.1 own
    rw [eval, given, payload, valid_ok, valid_ok]
    exact evaluate_fault builtin spec s
  · next kind =>
    rw [kind] at own ⊢
    obtain ⟨spec, edit⟩ := Option.isSome_iff_exists.1 own
    rw [edit, given, payload, valid_ok, valid_ok]
    apply quiet_ofExcept
    intro err bad
    obtain ⟨fault, unfit, rfl⟩ := mapError_eq_error_iff.1 bad
    exact .edit (Snapshot.edited_fault unfit)

/-- The step of a well-formed task fails at the position of the task. -/
theorem step_fault (builtin : e.evaluator = runtime.evaluator) (index : Nat) (s : Snapshot) {t : Task}
    (well : t.WellFormed) :
    Quiet (fun err => ∃ cause, err = .task index t.kind cause ∧ TaskFault t.kind cause)
      (step e r c index (some s) t) := by
  apply Quiet.mapError (E := TaskFault t.kind)
  · exact (quiet_enter fun i => .interrupted t.kind i).bind fun _ => apply_fault builtin s well
  · intro cause fault
    exact ⟨cause, rfl, fault⟩

variable {env : Depot → Depot → Prop} {M : Moment → Prop} {d d' : Depot}

/-- A fold that fails comes to a task that fails on what the tasks before it make. -/
theorem ends_foldlM_error {tasks : List Task} {index : Nat} {s : Snapshot} {err : Error}
    (h : Routine.Ends env M ((tasks.zipIdx index).foldlM (stage e r c) s).run d (.error err) d') :
    ∃ before t behind s' d₁, tasks = before ++ t :: behind ∧
      Routine.Ends env M ((before.zipIdx index).foldlM (stage e r c) s).run d (.ok s') d₁ ∧
      Routine.Ends env M (step e r c (index + before.length) (some s') t).run d₁ (.error err) d' := by
  induction tasks generalizing index s d with
  | nil => cases (ends_pure_iff.1 h).1
  | cons t rest ih =>
    rw [List.zipIdx_cons, List.foldlM_cons] at h
    obtain ⟨s₁, u, first, later⟩ | ⟨_, fails, ⟨⟩⟩ := ends_bind_iff.1 h
    · obtain ⟨before, t', behind, s', d₁, rfl, built, fails⟩ := ih later
      refine ⟨t :: before, t', behind, s', d₁, rfl, ?_, ?_⟩
      · rw [List.zipIdx_cons, List.foldlM_cons]
        exact ends_bind_iff.2 (.inl ⟨s₁, u, first, built⟩)
      · rwa [List.length_cons, show index + (before.length + 1) = index + 1 + before.length by omega]
    · exact ⟨[], t, rest, s, d, rfl, ends_pure_iff.2 ⟨rfl, rfl⟩, fails⟩

/-- The build succeeds with the tasks before one, which fails on what they make. -/
inductive StoppedAt (e : Engine) (r : Revision) (c : Context) (env : Depot → Depot → Prop)
    (M : Moment → Prop) (d d' : Depot) : Error → Prop
  | task {before behind : List Task} {t : Task} {s : Snapshot} {d₁ : Depot} {cause : Error}
    (tasks : r.tasks = before ++ t :: behind)
    (built : Routine.Ends env M (execute e { r with tasks := before } c).run d (.ok s) d₁)
    (fails : Routine.Ends env M (step e r c before.length (some s) t).run d₁
      (.error (.task before.length t.kind cause)) d')
    (fault : TaskFault t.kind cause) :
    StoppedAt e r c env M d d' (.task before.length t.kind cause)

/-- How builds fail, whatever other calls do in between, and whenever they are interrupted. -/
structure Failures (e : Engine) (r : Revision) (c : Context) : Prop where
  /-- The checks of a request fail for its first fault, -/
  checks : ∀ err, r.validate = .error err ↔ r.Misshapen err
  /-- and then the build has failed before it does anything. -/
  refused : ∀ err, r.Misshapen err → execute e r c = throw err
  /-- A build fails in no other way, except at a task, for a reason that the kind of the task has. -/
  fails : ∀ env M d err d', Routine.Ends env M (execute e r c).run d (.error err) d' →
    r.Misshapen err ∨ r.validate = .ok () ∧ StoppedAt e r c env M d d' err
  /-- The cause is of a kind that the task may fail with, and tells of no other task. -/
  causes : ∀ env M d index kind cause d',
    Routine.Ends env M (execute e r c).run d (.error (.task index kind cause)) d' →
    cause.isPlain = true ∧ (r.validate = .ok () → cause.kind ∈ kind.faults)
  /-- Errors are of four kinds. -/
  kinds : ∀ env M d err d', Routine.Ends env M (execute e r c).run d (.error err) d' →
    err.kind ∈ [.validation, .resolution, .function, .cancelled]
  /-- What the executor guards against besides does not happen. -/
  sound : ∀ env M d err d', Routine.Ends env M (execute e r c).run d (.error err) d' →
    err.isDefensive = false

/-- A build is refused, or stops at a task. -/
theorem execute_fails (builtin : e.evaluator = runtime.evaluator) {err : Error}
    (h : Routine.Ends env M (execute e r c).run d (.error err) d') :
    r.Misshapen err ∨ r.validate = .ok () ∧ StoppedAt e r c env M d d' err := by
  cases valid : r.validate with
  | error err' =>
    have refused : execute e r c = throw err' := by
      unfold execute
      rw [valid]
      rfl
    rw [refused, ends_throw_iff] at h
    cases h.1
    exact .inl (Revision.validate_eq_error_iff.1 valid)
  | ok =>
    rw [execute_eq_fold e r c valid] at h
    obtain ⟨before, t, behind, s, d₁, tasks, built, fails⟩ := ends_foldlM_error h
    rw [Nat.zero_add] at fails
    have well : t.WellFormed := by
      have checked := (Revision.validate_eq_ok_iff.1 valid).2
      rw [tasks, validateTasks_append_iff, validateTasks_cons_iff, Task.validate_eq_ok_iff] at checked
      exact checked.2.1.1
    obtain ⟨cause, rfl, fault⟩ := (step_fault builtin _ s well).answer fails err rfl
    refine .inr ⟨rfl, .task tasks ?_ fails fault⟩
    rwa [execute_of_append e r c tasks valid]

/-- **How builds fail** if the functions are built in. -/
theorem build_failures (runtime : Runtime) (config : Config) (indexManifest : String) (r : Revision)
    (c : Context) : Failures ⟨config, runtime.evaluator, indexManifest⟩ r c where
  checks err := Revision.validate_eq_error_iff
  refused err misshapen := by
    unfold execute
    rw [Revision.validate_eq_error_iff.2 misshapen]
    rfl
  fails env M d err d' h := execute_fails rfl h
  causes env M d index kind cause d' h := by
    obtain misshapen | ⟨-, stopped⟩ := execute_fails rfl h
    · refine ⟨?_, fun valid => ?_⟩
      · cases misshapen
        rfl
      · rw [Revision.validate_eq_error_iff.2 misshapen] at valid
        cases valid
    · cases stopped with
      | task _ _ _ fault => exact ⟨fault.shape.2.1, fun _ => fault.shape.1⟩
  kinds env M d err d' h := by
    obtain misshapen | ⟨-, stopped⟩ := execute_fails rfl h
    · rw [misshapen.shape.1]
      exact List.mem_cons_self
    · cases stopped with
      | @task _ _ t _ _ _ _ _ _ fault =>
        have allowed : ∀ k ∈ t.kind.faults,
            k ∈ [ErrorKind.validation, .resolution, .function, .cancelled] := by
          cases t.kind <;> decide
        exact allowed _ fault.shape.1
  sound env M d err d' h := by
    obtain misshapen | ⟨-, stopped⟩ := execute_fails rfl h
    · exact misshapen.shape.2
    · cases stopped with
      | task _ _ _ fault => exact fault.shape.2.2

end Pipeline

end PackageDepot
