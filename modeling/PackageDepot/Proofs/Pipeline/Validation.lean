import PackageDepot.Pipeline.Validation
import PackageDepot.Proofs.Backend.Git

/-!
# Which requests are valid

`Task.validate_eq_ok_iff` and `Revision.validate_eq_ok_iff` say what the checks of a request come to: its
names are well-formed, each task is, whatever its position, and only the first one begins a package. So
tasks that do not begin a package are valid behind others as they are in front.
-/

namespace PackageDepot.Package

open Backend (bind_eq_ok_iff mapError_eq_ok_iff)

/-- A function has an image. -/
def EvalSpec.validate (s : EvalSpec) : Except ValidationFault Unit :=
  if s.image.isEmpty then .error .noImage else .ok ()

/-- A task has the one payload of its kind, and the payload says what it has to. -/
structure Task.WellFormed (t : Task) : Prop where
  payloads : t.payloads = 1
  own : t.hasOwnPayload = true
  clone : ∀ s, t.clone = some s → s.source.validate = .ok ()
  eval : ∀ s, t.eval = some s → s.validate = .ok ()
  edit : ∀ s, t.edit = some s → s.validate = .ok ()

/-- The check of a payload, which need not be there. -/
def checkPayload {α : Type} (payload : Option α) (check : α → Except ValidationFault Unit) :
    Except ValidationFault Unit :=
  match payload with
  | some a => check a
  | none => .ok ()

theorem checkPayload_eq_ok_iff {α : Type} {payload : Option α}
    {check : α → Except ValidationFault Unit} :
    checkPayload payload check = .ok () ↔ ∀ a, payload = some a → check a = .ok () := by
  cases payload with
  | none => exact ⟨fun _ => nofun, fun _ => rfl⟩
  | some a =>
    constructor
    · rintro h _ ⟨⟩
      exact h
    · intro h
      exact h a rfl

/-- The check of a task, one behind the other. -/
theorem Task.validate_eq (index : Nat) (t : Task) : t.validate index =
    if t.payloads ≠ 1 || !t.hasOwnPayload then .error (.payloadMismatch t.kind)
    else if t.isSeed && index ≠ 0 then .error (.notFirst t.kind)
    else (do
      checkPayload t.clone (·.source.validate)
      checkPayload t.eval EvalSpec.validate
      checkPayload t.edit EditSpec.validate) := by
  unfold Task.validate
  dsimp only
  split
  · rfl
  split
  · rfl
  unfold checkPayload EvalSpec.validate
  cases t.eval with
  | none => cases t.clone <;> cases t.edit <;> rfl
  | some s => cases t.clone <;> cases t.edit <;> dsimp only <;> split <;> rfl

theorem Task.validate_eq_ok_iff {index : Nat} {t : Task} :
    t.validate index = .ok () ↔ t.WellFormed ∧ (t.isSeed = true → index = 0) := by
  rw [Task.validate_eq]
  split
  · next mismatch =>
    refine ⟨nofun, fun ⟨well, _⟩ => ?_⟩
    simp [well.payloads, well.own] at mismatch
  next shape =>
  split
  · next late =>
    refine ⟨nofun, fun ⟨_, seed⟩ => ?_⟩
    rw [Bool.and_eq_true, decide_eq_true_eq] at late
    exact (late.2 (seed late.1)).elim
  next place =>
  have shape : t.payloads = 1 ∧ t.hasOwnPayload = true := by simpa using shape
  have seed : t.isSeed = true → index = 0 := by simpa using place
  rw [bind_eq_ok_iff]
  constructor
  · rintro ⟨⟨⟩, clone, rest⟩
    obtain ⟨⟨⟩, eval, edit⟩ := bind_eq_ok_iff.1 rest
    exact ⟨⟨shape.1, shape.2, checkPayload_eq_ok_iff.1 clone, checkPayload_eq_ok_iff.1 eval,
      checkPayload_eq_ok_iff.1 edit⟩, seed⟩
  · rintro ⟨well, -⟩
    refine ⟨(), checkPayload_eq_ok_iff.2 well.clone, ?_⟩
    exact bind_eq_ok_iff.2 ⟨(), checkPayload_eq_ok_iff.2 well.eval, checkPayload_eq_ok_iff.2 well.edit⟩

theorem validateTasks_cons_iff {index : Nat} {t : Task} {ts : List Task} :
    validateTasks index (t :: ts) = .ok () ↔
      t.validate index = .ok () ∧ validateTasks (index + 1) ts = .ok () := by
  rw [validateTasks, bind_eq_ok_iff]
  constructor
  · rintro ⟨u, ht, hr⟩
    exact ⟨mapError_eq_ok_iff.1 ht, hr⟩
  · rintro ⟨ht, hr⟩
    exact ⟨(), mapError_eq_ok_iff.2 ht, hr⟩

theorem validateTasks_append_iff {index : Nat} {ts us : List Task} :
    validateTasks index (ts ++ us) = .ok () ↔
      validateTasks index ts = .ok () ∧ validateTasks (index + ts.length) us = .ok () := by
  induction ts generalizing index with
  | nil => exact ⟨fun h => ⟨rfl, h⟩, fun h => h.2⟩
  | cons t ts ih =>
    rw [List.cons_append, validateTasks_cons_iff, validateTasks_cons_iff, ih, List.length_cons,
      show index + (ts.length + 1) = index + 1 + ts.length by omega]
    exact and_assoc.symm

/-- Tasks behind the first one are valid if each of them is and none begins a package. -/
theorem validateTasks_succ_iff {index : Nat} {ts : List Task} :
    validateTasks (index + 1) ts = .ok () ↔ ∀ t ∈ ts, t.WellFormed ∧ t.isSeed = false := by
  induction ts generalizing index with
  | nil => exact ⟨fun _ => nofun, fun _ => rfl⟩
  | cons t ts ih =>
    rw [validateTasks_cons_iff, Task.validate_eq_ok_iff, ih, List.forall_mem_cons]
    have place : (t.isSeed = true → index + 1 = 0) ↔ t.isSeed = false := by simp
    rw [place]

namespace Revision

/-- The names of a request are not empty and hold no colon. -/
def WellNamed (r : Revision) : Prop :=
  checkName "packageName" r.package = .ok () ∧ checkName "revision" r.revision = .ok () ∧
    checkName "repositoryName" r.repository = .ok ()

theorem validate_eq_ok_iff {r : Revision} :
    r.validate = .ok () ↔ r.WellNamed ∧ validateTasks 0 r.tasks = .ok () := by
  simp only [validate, bind_eq_ok_iff, mapError_eq_ok_iff, WellNamed]
  constructor
  · rintro ⟨_, h₁, _, h₂, _, h₃, h⟩
    exact ⟨⟨h₁, h₂, h₃⟩, h⟩
  · rintro ⟨⟨h₁, h₂, h₃⟩, h⟩
    exact ⟨(), h₁, (), h₂, (), h₃, h⟩

/-- The first task of a valid request is well-formed, and the others do not begin a package. -/
theorem validate_cons {r : Revision} (valid : r.validate = .ok ()) {t : Task} {rest : List Task}
    (tasks : r.tasks = t :: rest) : t.WellFormed ∧ ∀ u ∈ rest, u.isSeed = false := by
  have h := (validate_eq_ok_iff.1 valid).2
  rw [tasks, validateTasks_cons_iff, Task.validate_eq_ok_iff, validateTasks_succ_iff] at h
  exact ⟨h.1.1, fun u hu => (h.2 u hu).2⟩

end Revision

end PackageDepot.Package
