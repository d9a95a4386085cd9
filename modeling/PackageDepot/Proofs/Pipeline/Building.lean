import PackageDepot.Proofs.Pipeline.Validation
import PackageDepot.Proofs.Service.Runs

/-!
# What a build goes through

`Makes` says what one task makes of the snapshot before it, and `Trail` what tasks make one behind the
other. A build that succeeds goes along the trail of its tasks, whatever others do meanwhile and whatever
the function evaluator answers (`ends_execute_ok`, `ends_run_ok`).
-/

namespace PackageDepot.Pipeline

open Package Call Backend

/-- What a task makes, in a package with a name. -/
inductive Makes (e : Engine) (name : String) : Option Snapshot → Task → Snapshot → Prop
  | clone {current : Option Snapshot} {t : Task} {after : Snapshot} {lock : Lock} {files : Bundle}
    (kind : t.kind = .clone)
    (cloned : Snapshot.clone e.config.manifestFile name lock files = .ok after) :
    Makes e name current t after
  | init {current : Option Snapshot} {t : Task} {spec : InitSpec} (kind : t.kind = .init)
    (payload : t.init = some spec) :
    Makes e name current t (Snapshot.initial e.config.manifestFile name spec)
  | eval {t : Task} {before after : Snapshot} {spec : EvalSpec} {files : Bundle}
    (kind : t.kind = .eval) (payload : t.eval = some spec)
    (result : (e.evaluator (e.config.expandImage spec.image) spec.config before.files).result =
      .ok files)
    (evaluated : before.evaluated e.config.manifestFile (e.config.expandImage spec.image) files =
      .ok after) : Makes e name (some before) t after
  | edit {t : Task} {before after : Snapshot} {spec : EditSpec} (kind : t.kind = .edit)
    (payload : t.edit = some spec)
    (edited : before.edited e.config.manifestFile spec.patches = .ok after) :
    Makes e name (some before) t after

/-- What tasks make, one behind the other. -/
inductive Trail (e : Engine) (name : String) : Option Snapshot → List Task → Option Snapshot → Prop
  | nil (s : Option Snapshot) : Trail e name s [] s
  | cons {before : Option Snapshot} {t : Task} {after : Snapshot} {rest : List Task}
    {last : Option Snapshot} (makes : Makes e name before t after)
    (behind : Trail e name (some after) rest last) : Trail e name before (t :: rest) last

variable {e : Engine} {r : Revision} {c : Context} {env : Depot → Depot → Prop} {M : Moment → Prop}
  {d d' : Depot} {name : String}

theorem ends_valid_ok {α : Type} {x : Except ValidationFault α} {a : α}
    (h : Routine.Ends env M (valid x).run d (.ok a) d') : x = .ok a ∧ d' = d := by
  obtain ⟨hx, rfl⟩ := ends_ofExcept_iff.1 h
  exact ⟨mapError_eq_ok_iff.1 hx.symm, rfl⟩

theorem payload_ok {α : Type} {t : Task} {spec : Option α} {a : α} (h : payload t spec = .ok a) :
    spec = some a := by
  cases spec with
  | none => cases h
  | some b =>
    cases h
    rfl

theorem given_ok {t : Task} {current : Option Snapshot} {s : Snapshot}
    (h : given t current = .ok s) : current = some s := by
  cases current with
  | none => cases h
  | some b =>
    cases h
    rfl

/-- **What one task does**, by its kind. -/
theorem ends_apply_ok {current : Option Snapshot} {t : Task} {s : Snapshot}
    (h : Routine.Ends env M (apply e r current t c).run d (.ok s) d') :
    Makes e r.package current t s := by
  unfold apply at h
  dsimp only at h
  split at h
  · next kind =>
    obtain ⟨spec, u, -, h⟩ := ends_bind_ok h
    obtain ⟨resolved, v, -, h⟩ := ends_bind_ok h
    exact .clone kind (ends_ofExcept_iff.1 h).1.symm
  · next kind =>
    obtain ⟨spec, u, hp, h⟩ := ends_bind_ok h
    obtain ⟨hs, -⟩ := ends_pure_iff.1 h
    cases hs
    exact .init kind (payload_ok (ends_valid_ok hp).1)
  · next kind =>
    obtain ⟨before, u, hb, hx⟩ := ends_bind_ok h
    obtain ⟨spec, v, hp, hy⟩ := ends_bind_ok hx
    obtain ⟨files, w, hw, hz⟩ := ends_bind_ok hy
    obtain rfl := given_ok (ends_valid_ok hb).1
    exact .eval kind (payload_ok (ends_valid_ok hp).1) (ends_work_ok hw)
      (mapError_eq_ok_iff.1 (ends_ofExcept_iff.1 hz).1.symm)
  · next kind =>
    obtain ⟨before, u, hb, hx⟩ := ends_bind_ok h
    obtain ⟨spec, v, hp, hy⟩ := ends_bind_ok hx
    obtain rfl := given_ok (ends_valid_ok hb).1
    exact .edit kind (payload_ok (ends_valid_ok hp).1) (ends_valid_ok hy).1

/-- A task that succeeds was carried out in a context of its own. -/
theorem ends_step_ok {index : Nat} {current : Option Snapshot} {t : Task} {s : Snapshot}
    (h : Routine.Ends env M (step e r c index current t).run d (.ok s) d') :
    ∃ inner u, Routine.Ends env M (apply e r current t inner).run u (.ok s) d' := by
  obtain ⟨a, hx, ha⟩ := ends_mapError_iff.1 h
  obtain rfl := mapError_eq_ok_iff.1 ha.symm
  obtain ⟨inner, u, -, hy⟩ := ends_bind_ok hx
  exact ⟨inner, u, hy⟩

theorem ends_run_ok {index : Nat} {current last : Option Snapshot} {tasks : List Task}
    (h : Routine.Ends env M (run e r c index current tasks).run d (.ok last) d') :
    Trail e r.package current tasks last := by
  induction tasks generalizing index current d with
  | nil =>
    obtain ⟨hl, -⟩ := ends_pure_iff.1 h
    cases hl
    exact .nil last
  | cons t rest ih =>
    obtain ⟨s, u, hs, hr⟩ := ends_bind_ok h
    obtain ⟨inner, v, ha⟩ := ends_step_ok hs
    exact .cons (ends_apply_ok ha) (ih hr)

/-- **A build that succeeds** is one of a valid request, and its tasks were run. -/
theorem ends_execute_ok {s : Snapshot}
    (h : Routine.Ends env M (execute e r c).run d (.ok s) d') : r.validate = .ok () ∧
      Routine.Ends env M (run e r c 0 (start e r) r.tasks).run d (.ok (some s)) d' := by
  obtain ⟨_, u, hv, hx⟩ := ends_bind_ok h
  obtain ⟨valid, rfl⟩ := ends_ofExcept_iff.1 hv
  obtain ⟨last, v, hr, hy⟩ := ends_bind_ok hx
  cases last with
  | none => cases (ends_throw_iff.1 hy).1
  | some s' =>
    obtain ⟨hs, rfl⟩ := ends_pure_iff.1 hy
    cases hs
    exact ⟨valid.symm, hr⟩

end PackageDepot.Pipeline
