import PackageDepot.Proofs.Clock.Caller
import PackageDepot.Proofs.Pipeline.Stages
import PackageDepot.Proofs.Pipeline.Timeouts
import PackageDepot.Proofs.Service.Resolutions

/-!
# Deadlines of a build

What a task makes of a snapshot if nothing interrupts it (`Pipeline.outcome`) and how long this takes
(`Pipeline.time`) are functions of the request and the depot. A `Course` of a request lists the times of
tasks which all would succeed. Three bounds may cut a build short: the deadline of the call, the time that a
task may take, and the time at which the caller cancels. `deadlines` says that a build succeeds just if each
task ends strictly within all three of them (`Bounds.Allow`), and that else it fails at the first task that
does not, when the first bound of this task is over (`Bounds.expiry`). Without a bound, a task that takes for
ever is waited for. This is about tasks whose deadlines the machine's clock can tell (`Clocked`).
`runTo_of_allow`, `finishes_of_not_allow` and `hangs_of_not_allow` are the three ways in which one task goes,
and `runTo_schedule` passes over the tasks that end in time.
-/

namespace PackageDepot

open Package Call

/-- What may cut a build short: the deadline of the call, the time at which the caller cancels it, and the
time that each task may take. -/
structure Bounds where
  deadline : Option Time
  cancels : Option Time
  timeout : Option Nat

namespace Bounds

variable {b : Bounds} {start duration : ℕ∞}

/-- A task that is begun at a time and takes some time ends strictly within all bounds. -/
structure Allow (b : Bounds) (start duration : ℕ∞) : Prop where
  timeout : duration < Time.bound b.timeout
  deadline : start + duration < Time.bound b.deadline
  cancels : start + duration < Time.bound b.cancels

/-- When the first bound of a task that is begun at a time is over: at once, if it is over already. -/
noncomputable def expiry (b : Bounds) (start : ℕ∞) : ℕ∞ :=
  max start (min (min (Time.bound b.deadline) (Time.bound b.cancels)) (start + Time.bound b.timeout))

/-- A task that ends within its bounds is begun within them. -/
theorem Allow.early (allow : b.Allow start duration) :
    start < Time.bound b.deadline ∧ start < Time.bound b.cancels ∧ 0 < Time.bound b.timeout :=
  ⟨lt_of_le_of_lt le_self_add allow.deadline, lt_of_le_of_lt le_self_add allow.cancels,
    lt_of_le_of_lt zero_le allow.timeout⟩

/-- Where the bounds are not over at the start, this is the first of three times. -/
theorem expiry_eq (deadline : start ≤ Time.bound b.deadline) (cancels : start ≤ Time.bound b.cancels) :
    b.expiry start =
      min (Time.bound b.cancels) (min (Time.bound b.deadline) (start + Time.bound b.timeout)) := by
  rw [expiry, max_eq_right (le_min (le_min deadline cancels) le_self_add), min_comm (Time.bound b.deadline),
    min_assoc]

/-- A bound that is over at the start is over at once. -/
theorem expiry_eq_start (h : Time.bound b.deadline ≤ start ∨ Time.bound b.cancels ≤ start ∨
    start + Time.bound b.timeout ≤ start) : b.expiry start = start := by
  apply max_eq_left
  obtain h | h | h := h
  · exact (min_le_left _ _).trans ((min_le_left _ _).trans h)
  · exact (min_le_left _ _).trans ((min_le_right _ _).trans h)
  · exact (min_le_right _ _).trans h

/-- A task that does not end within its bounds has not ended when they are over. -/
theorem expiry_le (late : ¬ b.Allow start duration) : b.expiry start ≤ start + duration := by
  apply max_le le_self_add
  by_contra lasts
  simp only [min_le_iff, not_or, not_le] at lasts
  obtain ⟨⟨deadline, cancels⟩, timeout⟩ := lasts
  refine late ⟨?_, deadline, cancels⟩
  by_contra long
  exact (add_le_add_right (not_lt.1 long) start).not_gt timeout

end Bounds

/-- When the task at a position is begun if the tasks before it take these times. -/
def Time.after (t₀ : Time) (durations : List ℕ∞) (i : Nat) : ℕ∞ := t₀ + (durations.take i).sum

namespace Depot

/-- What a clone source resolves to. -/
def resolve (d : Depot) (e : Engine) (s : CloneSource) : Except Error Resolved :=
  match s.git, s.revision with
  | some location, none => d.resolveGit location
  | none, some r => d.resolveName e r.name
  | _, _ => .error (.validation .ambiguousSource)

end Depot

namespace Pipeline

/-- What a function comes to on a snapshot. -/
def evaluation (e : Engine) (s : Snapshot) (spec : EvalSpec) : Evaluation :=
  e.evaluator (e.config.expandImage spec.image) spec.config s.files

/-- The time that a task takes on a snapshot: only functions take any. -/
def time (e : Engine) (s : Snapshot) (t : Task) : Option Nat :=
  match t.kind, t.eval with
  | .eval, some spec => (evaluation e s spec).duration
  | _, _ => some 0

/-- What a task makes of a snapshot if nothing interrupts it. -/
def outcome (e : Engine) (r : Revision) (d : Depot) (s : Snapshot) (t : Task) : Except Error Snapshot :=
  let path := e.config.manifestFile
  match t.kind with
  | .clone => do
    let spec ← (payload t t.clone).mapError .validation
    let resolved ← d.resolve e spec.source
    Snapshot.clone path r.package resolved.lock resolved.files
  | .init => do
    let spec ← (payload t t.init).mapError .validation
    return Snapshot.initial path r.package spec
  | .eval => do
    let spec ← (payload t t.eval).mapError .validation
    let files ← (evaluation e s spec).result
    (s.evaluated path (e.config.expandImage spec.image) files).mapError .function
  | .edit => do
    let spec ← (payload t t.edit).mapError .validation
    (s.edited path spec.patches).mapError .validation

/-- From a snapshot on, each task would succeed on what the ones before it make, and takes the time that is
listed. Nothing is said about tasks behind one that takes for ever. -/
inductive Course (e : Engine) (r : Revision) (d : Depot) :
    Snapshot → List Task → List ℕ∞ → Snapshot → Prop
  | done (s : Snapshot) : Course e r d s [] [] s
  | task {s next final : Snapshot} {t : Task} {ts : List Task} {durations : List ℕ∞}
    (makes : outcome e r d s t = .ok next) (rest : Course e r d next ts durations final) :
    Course e r d s (t :: ts) (Time.bound (time e s t) :: durations) final
  | stalled {s final : Snapshot} {t : Task} {ts : List Task} {durations : List ℕ∞}
    (forever : time e s t = none) (all : ts.length = durations.length) :
    Course e r d s (t :: ts) (⊤ :: durations) final

end Pipeline

/-! ## What a task comes to -/

section Answers

variable {M : Moment → Prop} {c : Context} (quiet : c.Undisturbed M) (e : Engine) (d : Depot)

include quiet

theorem Resolve.source_answers (s : CloneSource) : Answers M (Resolve.source e s c) d (d.resolve e s) := by
  obtain ⟨origin, git, revision⟩ := s
  cases git with
  | none =>
    cases revision with
    | none => exact answers_throw _
    | some r => exact Resolve.name_answers quiet e d r.name
  | some location =>
    cases revision with
    | none => exact Resolve.git_answers quiet e d location
    | some r => exact answers_throw _

/-- Work that takes no time. -/
theorem Call.answers_work {α : Type} (result : Except Error α) :
    Answers M (work c (some 0) result) d result :=
  (answers_within quiet fun _ => .ok ()).bind_ok (answers_ofExcept result)

namespace Pipeline

/-- A task that takes no time makes its snapshot at once. -/
theorem apply_answers {r : Revision} {s : Snapshot} {t : Task} (instant : time e s t = some 0) :
    Answers M (apply e r (some s) t c) d (outcome e r d s t) := by
  have check {α : Type} (x : Except ValidationFault α) : Answers M (valid x) d (x.mapError .validation) :=
    answers_ofExcept _
  have here : Answers M (valid (given t (some s))) d (.ok s) := check _
  unfold apply outcome
  unfold time at instant
  cases kind : t.kind with
  | clone =>
    refine (check _).bind fun spec => (Resolve.source_answers quiet e d spec.source).bind fun _ => ?_
    exact answers_ofExcept _
  | init => exact (check _).bind fun _ => answers_pure _
  | eval =>
    refine here.bind_ok ?_
    cases eval : t.eval with
    | none => exact answers_throw _
    | some spec =>
      simp only [kind, eval] at instant
      refine (check (.ok spec)).bind_ok (Answers.bind (r := (evaluation e s spec).result) ?_ fun files => ?_)
      · rw [← evaluation, instant]
        exact answers_work quiet d _
      · exact answers_ofExcept _
  | edit => exact here.bind_ok ((check _).bind fun spec => check _)

end Pipeline

end Answers

namespace Call

variable {α β : Type} {c : Context}

/-- A call that waits for its work. -/
theorem work_run {duration : Option Nat} (lasting : duration ≠ some 0) (result : Except Error α)
    (f : Error → Error) (g : α → Call β) : (mapError f (work c duration result) >>= g).run =
      .step id (fun _ d => d) fun m _ =>
        match c.interrupt? m with
        | some i => .done (.error (f (.cancelled i)))
        | none => .wait id c duration fun i =>
          match i with
          | some i => .done (.error (f (.cancelled i)))
          | none => (mapError f (ofExcept result) >>= g).run := by
  have waits : work c duration result = within c (fun _ => .ok ()) >>= fun _ =>
      ExceptT.lift (Routine.await c duration) >>= fun i =>
        match i with
        | some i => throw (.cancelled i)
        | none => ofExcept result := by
    unfold work
    apply bind_congr
    intro _
    split
    · exact (lasting rfl).elim
    · rfl
  rw [waits, mapError_bind, bind_assoc, ExceptT.run_bind]
  show Routine.step id _ _ = Routine.step id _ _
  congr 1
  funext m d
  dsimp only
  cases c.interrupt? m with
  | some i => rfl
  | none =>
    show Routine.wait id c duration _ = Routine.wait id c duration _
    congr 1
    funext i
    cases i with
    | some i => rfl
    | none => rfl

end Call

/-! ## One task -/

namespace Pipeline

variable {β : Type} {e : Engine} {r : Revision} {c : Context} {s : Snapshot} {t : Task} {m : Moment}
  {d : Depot}

/-- A task is begun in its own context, and an error tells its position. -/
theorem step_run (index : Nat) (k : Snapshot → Call β) : (step e r c index (some s) t >>= k).run =
    .step id (fun _ d => d) fun m _ =>
      let inner := c.inTask index e.config.taskMilliseconds m
      match inner.interrupt? m with
      | some i => .done (.error (.task index t.kind (.cancelled i)))
      | none => (mapError (.task index t.kind) (apply e r (some s) t inner) >>= k).run := by
  unfold step
  rw [mapError_bind, bind_assoc, ExceptT.run_bind]
  show Routine.step id _ _ = Routine.step id _ _
  congr 1
  funext m d
  show Routine.bind (.done (Except.mapError _
    (match (c.inTask index e.config.taskMilliseconds m).interrupt? m with
      | some i => .error (.cancelled i)
      | none => .ok (c.inTask index e.config.taskMilliseconds m) : Except Error Context))) _ = _
  dsimp only
  generalize c.inTask index e.config.taskMilliseconds m = inner
  cases inner.interrupt? m with
  | some i => rfl
  | none => rfl

/-- A task that takes a time is waited for. -/
theorem advance_apply (lasting : time e s t ≠ some 0) (quiet : c.interrupt? m = none)
    (f : Error → Error) (k : Snapshot → Call β) : ∃ next,
      Job.advance m (mapError f (apply e r (some s) t c) >>= k).run d =
        (.blocked id c ((time e s t).map (m.now + ·)) next, d) ∧
      (∀ i, next (some i) = .done (.error (f (.cancelled i)))) ∧
      next none = (mapError f (Call.ofExcept (outcome e r d s t)) >>= k).run := by
  unfold time at lasting ⊢
  split at lasting
  · next spec kind eval =>
    have evaluates : apply e r (some s) t c =
        work c (evaluation e s spec).duration (evaluation e s spec).result >>= fun files =>
          Call.ofExcept ((s.evaluated e.config.manifestFile (e.config.expandImage spec.image)
            files).mapError .function) := by
      unfold apply
      rw [kind, eval]
      rfl
    have comes : outcome e r d s t = (evaluation e s spec).result >>= fun files =>
        (s.evaluated e.config.manifestFile (e.config.expandImage spec.image) files).mapError .function := by
      unfold outcome
      rw [kind, eval]
      rfl
    rw [evaluates, comes, mapError_bind, bind_assoc, work_run lasting]
    simp only [Job.advance, quiet, if_neg lasting]
    refine ⟨_, rfl, fun i => rfl, ?_⟩
    cases (evaluation e s spec).result with
    | ok files => rfl
    | error err => rfl
  · exact (lasting rfl).elim

/-- The bounds of a call that the caller cancels at a time, if ever. -/
def bounds (e : Engine) (c : Context) (cancels : Option Time) : Bounds :=
  ⟨c.deadline, cancels, e.config.taskMilliseconds⟩

variable {cancels : Option Time} {t₀ : Time} {index : Nat}

/-- The context of a task has not expired when the task is begun, if the bounds are not over. -/
theorem early_inTask (index : Nat) (deadline : t₀ < Time.bound c.deadline)
    (timeout : 0 < Time.bound e.config.taskMilliseconds) :
    t₀ < Time.bound (c.inTask index e.config.taskMilliseconds ⟨t₀, []⟩).deadline := by
  rw [Context.bound_inTask, lt_min_iff]
  refine ⟨deadline, ?_⟩
  simpa using (ENat.add_lt_add_iff_left (ENat.natCast_ne_top t₀)).2 timeout

/-- A task that is begun before its context expires goes on at once with what it makes, or waits for it. -/
theorem advance_step (early : t₀ < Time.bound (c.inTask index e.config.taskMilliseconds ⟨t₀, []⟩).deadline)
    (k : Snapshot → Call β) :
    (time e s t = some 0 ∧ ∀ next, outcome e r d s t = .ok next →
      Job.advance ⟨t₀, []⟩ (step e r c index (some s) t >>= k).run d =
        Job.advance ⟨t₀, []⟩ (k next).run d) ∨
    (time e s t ≠ some 0 ∧ ∃ next, Job.advance ⟨t₀, []⟩ (step e r c index (some s) t >>= k).run d =
        (.blocked id (c.inTask index e.config.taskMilliseconds ⟨t₀, []⟩)
          ((time e s t).map (t₀ + ·)) next, d) ∧
      (∀ i, next (some i) = .done (.error (.task index t.kind (.cancelled i)))) ∧
      ∀ made, outcome e r d s t = .ok made → next none = (k made).run) := by
  have quiet := Context.interrupt?_untouched early
  have begins : Job.advance ⟨t₀, []⟩ (step e r c index (some s) t >>= k).run d = Job.advance ⟨t₀, []⟩
      (mapError (.task index t.kind)
        (apply e r (some s) t (c.inTask index e.config.taskMilliseconds ⟨t₀, []⟩)) >>= k).run d := by
    rw [step_run]
    simp only [Job.advance, quiet]
  by_cases instant : time e s t = some 0
  · refine .inl ⟨instant, fun next makes => ?_⟩
    rw [begins, ExceptT.run_bind]
    apply Job.advance_bind (a := Except.ok next)
    have undisturbed : (c.inTask index e.config.taskMilliseconds ⟨t₀, []⟩).Undisturbed (· = ⟨t₀, []⟩) := by
      rintro m rfl
      exact quiet
    have answers := (apply_answers undisturbed e d (r := r) instant).mapError (.task index t.kind)
    rwa [makes] at answers
  · refine .inr ⟨instant, ?_⟩
    obtain ⟨next, blocked, interrupted, done⟩ :=
      advance_apply (r := r) (d := d) instant quiet (.task index t.kind) k
    refine ⟨next, begins.trans blocked, interrupted, fun made makes => ?_⟩
    rw [done, makes]
    rfl

/-- A task that ends within its bounds makes its snapshot, and the build goes on then. -/
theorem runTo_of_allow {n : Nat} (takes : time e s t = some n) (allow : (bounds e c cancels).Allow t₀ n)
    {made : Snapshot} (makes : outcome e r d s t = .ok made) (k : Snapshot → Call β) {limit : Time}
    (within : t₀ + n ≤ limit) : Schedule.runTo limit
        ((⟨c.scope, cancels⟩ : Caller).call t₀ (step e r c index (some s) t >>= k).run d) =
      Schedule.runTo limit ((⟨c.scope, cancels⟩ : Caller).call (t₀ + n) (k made).run d) := by
  obtain ⟨deadline, pending, timeout⟩ := allow.early
  have early := early_inTask index deadline timeout
  have moment : (⟨c.scope, cancels⟩ : Caller).moment t₀ = ⟨t₀, []⟩ := Caller.moment_pending pending.le
  obtain ⟨instant, on⟩ | ⟨lasting, next, blocked, -, done⟩ :=
    advance_step (r := r) (s := s) (t := t) (d := d) early k
  · obtain rfl : n = 0 := Option.some.inj (takes.symm.trans instant)
    apply Caller.runTo_call_congr
    rw [moment]
    exact on made makes
  · rw [takes] at blocked lasting
    rw [← done made makes]
    have working : (t₀ : ℕ∞) < Time.bound (some (t₀ + n)) := by
      have : n ≠ 0 := fun h => lasting (h ▸ rfl)
      simp only [Time.bound_some]
      exact_mod_cast Nat.lt_add_of_pos_right (Nat.pos_of_ne_zero this)
    refine Caller.runTo_of_done pending.le early working (by rw [moment]; exact blocked) rfl ?_ ?_ within
    · exact_mod_cast allow.cancels
    · rw [Context.bound_inTask, lt_min_iff]
      refine ⟨by exact_mod_cast allow.deadline, ?_⟩
      push_cast
      exact (ENat.add_lt_add_iff_left (ENat.natCast_ne_top t₀)).2 allow.timeout

/-- A task whose context is interrupted when it is begun fails at once. -/
theorem advance_step_interrupted {i : Interrupt}
    (h : (c.inTask index e.config.taskMilliseconds m).interrupt? m = some i) (k : Snapshot → Call β) :
    Job.advance m (step e r c index (some s) t >>= k).run d =
      (.finished (.error (.task index t.kind (.cancelled i))), d) := by
  rw [step_run]
  simp only [Job.advance, h]

/-- The end of a task that is begun at a time. -/
theorem bound_resume (duration : Option Nat) :
    Time.bound (duration.map (t₀ + ·)) = t₀ + Time.bound duration := by
  cases duration with
  | none => simp
  | some n => simp

/-- Only a task that takes some time can be cut short behind its start. -/
theorem time_pos_of_not_allow (late : ¬ (bounds e c cancels).Allow t₀ (Time.bound (time e s t)))
    (early : t₀ < Time.bound (c.inTask index e.config.taskMilliseconds ⟨t₀, []⟩).deadline)
    (pending : t₀ < Time.bound cancels) : 0 < Time.bound (time e s t) := by
  rw [Context.bound_inTask, lt_min_iff] at early
  rw [pos_iff_ne_zero]
  intro instant
  rw [instant] at late
  refine late ⟨?_, ?_, ?_⟩
  · by_contra none
    have : Time.bound e.config.taskMilliseconds = 0 := by simpa [bounds] using none
    simp [this] at early
  · simpa [bounds] using early.1
  · simpa [bounds] using pending

/-- A task that is begun when one of its bounds is over is interrupted at once. -/
theorem finishes_of_past (index : Nat)
    (past : Time.bound cancels < (t₀ : ℕ∞) ∨
      Time.bound (c.inTask index e.config.taskMilliseconds ⟨t₀, []⟩).deadline ≤ t₀) (k : Snapshot → Call β) :
    (bounds e c cancels).expiry t₀ = t₀ ∧
      ∃ reason, ((⟨c.scope, cancels⟩ : Caller).call t₀ (step e r c index (some s) t >>= k).run d).Finishes t₀
        (.error (.task index t.kind (.cancelled reason))) d := by
  constructor
  · rw [Context.bound_inTask, min_le_iff] at past
    apply Bounds.expiry_eq_start
    obtain cancelled | expired | timeout := past
    · exact .inr (.inl cancelled.le)
    · exact .inl expired
    · exact .inr (.inr timeout)
  obtain cancelled | pending := lt_or_ge (Time.bound cancels) (t₀ : ℕ∞)
  · have moment : (⟨c.scope, cancels⟩ : Caller).moment t₀ = ⟨t₀, [c.scope]⟩ :=
      Caller.moment_cancelled cancelled
    refine ⟨.cancelled, Caller.finishes_of_advance ?_⟩
    rw [moment]
    exact advance_step_interrupted (Context.interrupt?_cancelled Context.scope_inTask) k
  · have moment : (⟨c.scope, cancels⟩ : Caller).moment t₀ = ⟨t₀, []⟩ := Caller.moment_pending pending
    refine ⟨.expired, Caller.finishes_of_advance ?_⟩
    rw [moment]
    exact advance_step_interrupted (Context.interrupt?_expired (past.resolve_left pending.not_gt)) k

/-- A task that does not end within its bounds is interrupted when the first of them is over. -/
theorem finishes_of_not_allow (index : Nat)
    (late : ¬ (bounds e c cancels).Allow t₀ (Time.bound (time e s t)))
    (apart : ∀ u : Time, cancels = some u → t₀ + Time.bound (time e s t) ≠ u) {τ : Time}
    (expires : (bounds e c cancels).expiry t₀ = τ) (k : Snapshot → Call β) :
    ∃ reason, ((⟨c.scope, cancels⟩ : Caller).call t₀ (step e r c index (some s) t >>= k).run d).Finishes τ
      (.error (.task index t.kind (.cancelled reason))) d := by
  by_cases past : Time.bound cancels < (t₀ : ℕ∞) ∨
      Time.bound (c.inTask index e.config.taskMilliseconds ⟨t₀, []⟩).deadline ≤ t₀
  · obtain ⟨start, ends⟩ := finishes_of_past (r := r) (s := s) (t := t) (d := d) index past k
    obtain rfl : t₀ = τ := by exact_mod_cast start.symm.trans expires
    exact ends
  obtain ⟨pending, early⟩ : t₀ ≤ Time.bound cancels ∧
      t₀ < Time.bound (c.inTask index e.config.taskMilliseconds ⟨t₀, []⟩).deadline := by
    simpa only [not_or, not_lt, not_le] using past
  have moment : (⟨c.scope, cancels⟩ : Caller).moment t₀ = ⟨t₀, []⟩ := Caller.moment_pending pending
  obtain ⟨instant, -⟩ | ⟨lasting, next, blocked, interrupted, -⟩ :=
    advance_step (r := r) (s := s) (t := t) (d := d) early k
  · have later : t₀ < Time.bound cancels := by
      rw [Time.lt_bound_iff]
      intro u hu
      have := apart u hu
      rw [instant] at this
      exact lt_of_le_of_ne (Time.le_bound_iff.1 pending u hu) (by simpa using this)
    exact (Time.bound_pos_iff.1 (time_pos_of_not_allow late early later) instant).elim
  · have answers (i : Interrupt) : next (some i) =
        .done (Except.error (.task index t.kind (.cancelled i))) := interrupted i
    have deadline : (t₀ : ℕ∞) < Time.bound c.deadline :=
      (lt_min_iff.1 (Context.bound_inTask ▸ early)).1
    refine Caller.finishes_of_interrupt pending early ?_ (by rw [moment]; exact blocked)
      Context.scope_inTask ?_ ?_ ?_ _ answers
    · rw [bound_resume]
      simpa using (ENat.add_lt_add_iff_left (ENat.natCast_ne_top t₀)).2 (Time.bound_pos_iff.2 lasting)
    · rw [Context.bound_inTask, ← expires]
      exact (Bounds.expiry_eq (b := bounds e c cancels) deadline.le pending).symm
    · rw [bound_resume, ← expires]
      exact Bounds.expiry_le late
    · intro u hu same
      exact apart u hu (by rw [← bound_resume, same, Time.bound_some])

/-- A task that takes for ever is waited for without a bound. -/
theorem hangs_of_not_allow (index : Nat)
    (late : ¬ (bounds e c cancels).Allow t₀ (Time.bound (time e s t)))
    (never : (bounds e c cancels).expiry t₀ = ⊤) (k : Snapshot → Call β) :
    ((⟨c.scope, cancels⟩ : Caller).call t₀ (step e r c index (some s) t >>= k).run d).Hangs := by
  obtain ⟨⟨deadline, free⟩, untimed⟩ : (c.deadline = none ∧ cancels = none) ∧
      e.config.taskMilliseconds = none := by
    have unbounded := (max_eq_top.1 never).resolve_left (ENat.natCast_ne_top t₀)
    simpa only [min_eq_top, bounds, ENat.add_eq_top, ENat.natCast_ne_top, false_or,
      Time.bound_eq_top_iff] using unbounded
  have forever : time e s t = none := by
    rw [← Time.bound_eq_top_iff]
    by_contra ends
    have finite : Time.bound (time e s t) < ⊤ := lt_top_iff_ne_top.2 ends
    refine late ⟨?_, ?_, ?_⟩
    · simpa [bounds, untimed] using finite
    · simpa [bounds, deadline] using finite
    · simpa [bounds, free] using finite
  have expires : (c.inTask index e.config.taskMilliseconds ⟨t₀, []⟩).deadline = none := by
    rw [untimed]
    exact deadline
  have early : (t₀ : ℕ∞) < Time.bound (c.inTask index e.config.taskMilliseconds ⟨t₀, []⟩).deadline := by
    rw [expires]
    exact ENat.natCast_lt_top t₀
  obtain ⟨instant, -⟩ | ⟨-, next, blocked, -, -⟩ :=
    advance_step (r := r) (s := s) (t := t) (d := d) early k
  · cases forever.symm.trans instant
  · rw [forever] at blocked
    have moment : (⟨c.scope, cancels⟩ : Caller).moment t₀ = ⟨t₀, []⟩ :=
      Caller.moment_pending (by simp [free])
    rw [← moment] at blocked
    exact Caller.hangs_of_free blocked free rfl expires

end Pipeline

/-! ## One task after the other -/

namespace Bounds

variable {b : Bounds} {t₀ : Time} {durations : List ℕ∞} {i : Nat}

/-- The task at a position ends within all bounds, if the tasks before it take the times that are listed. -/
def InTime (b : Bounds) (t₀ : Time) (durations : List ℕ∞) (i : Nat) : Prop :=
  ∀ duration, durations[i]? = some duration → b.Allow (Time.after t₀ durations i) duration

/-- The task at a position is the first one that does not end within all bounds. -/
structure FirstLate (b : Bounds) (t₀ : Time) (durations : List ℕ∞) (i : Nat) : Prop where
  before : ∀ j < i, b.InTime t₀ durations j
  late : ¬ b.InTime t₀ durations i

theorem after_cons (n : Nat) : Time.after t₀ (n :: durations) (i + 1) = Time.after (t₀ + n) durations i := by
  simp [Time.after, add_assoc]

theorem after_succ {duration : ℕ∞} (here : durations[i]? = some duration) :
    Time.after t₀ durations (i + 1) = Time.after t₀ durations i + duration := by
  simp [Time.after, List.take_add_one, here, add_assoc]

theorem le_expiry (b : Bounds) (start : ℕ∞) : start ≤ b.expiry start := le_max_left _ _

theorem inTime_zero_iff {duration : ℕ∞} : b.InTime t₀ (duration :: durations) 0 ↔ b.Allow t₀ duration := by
  simp [InTime, Time.after]

theorem inTime_succ_iff {n : Nat} :
    b.InTime t₀ (n :: durations) (i + 1) ↔ b.InTime (t₀ + n) durations i := by
  simp [InTime, after_cons]

/-- If not all tasks end within their bounds, there is a first one that does not. -/
theorem exists_firstLate (h : ¬ ∀ i, b.InTime t₀ durations i) : ∃ i, b.FirstLate t₀ durations i := by
  classical
  have some := not_forall.1 h
  exact ⟨Nat.find some, fun j hj => not_not.1 (Nat.find_min some hj), Nat.find_spec some⟩

end Bounds

namespace Pipeline

variable {e : Engine} {r : Revision} {c : Context} {cancels : Option Time} {d : Depot} {s final : Snapshot}
  {ts : List Task} {durations : List ℕ∞} {t₀ : Time} {index i : Nat}

/-- The tasks from a position on, carried out for a caller. -/
def schedule (e : Engine) (r : Revision) (c : Context) (cancels : Option Time) (d : Depot) (t₀ : Time)
    (index : Nat) (s : Snapshot) (ts : List Task) : Schedule Depot (Except Error Snapshot) :=
  (⟨c.scope, cancels⟩ : Caller).call t₀ ((ts.zipIdx index).foldlM (stage e r c) s).run d

/-- As long as tasks end within their bounds, the build goes on with the others. -/
theorem runTo_schedule (index : Nat) (course : Course e r d s ts durations final) (all : i ≤ durations.length)
    (punctual : ∀ j < i, (bounds e c cancels).InTime t₀ durations j) : ∃ (τ : Time) (s' : Snapshot),
      τ = Time.after t₀ durations i ∧ Course e r d s' (ts.drop i) (durations.drop i) final ∧
      ∀ limit, τ ≤ limit → Schedule.runTo limit (schedule e r c cancels d t₀ index s ts) =
        Schedule.runTo limit (schedule e r c cancels d τ (index + i) s' (ts.drop i)) := by
  induction i generalizing t₀ index s ts durations with
  | zero => exact ⟨t₀, s, by simp [Time.after], course, fun _ _ => rfl⟩
  | succ i ih =>
    cases course with
    | done => cases all
    | stalled => exact (not_top_lt (Bounds.inTime_zero_iff.1 (punctual 0 i.succ_pos)).timeout).elim
    | @task _ next _ t ts durations makes rest =>
      have allow := Bounds.inTime_zero_iff.1 (punctual 0 i.succ_pos)
      cases takes : time e s t with
      | none =>
        rw [takes] at allow
        exact (not_top_lt allow.timeout).elim
      | some n =>
        rw [takes] at punctual allow
        have later (j : Nat) (hj : j < i) : (bounds e c cancels).InTime (t₀ + n) durations j :=
          Bounds.inTime_succ_iff.1 (punctual (j + 1) (Nat.succ_lt_succ hj))
        obtain ⟨τ, s', begun, rest', onward⟩ := ih (index + 1) rest (Nat.le_of_succ_le_succ all) later
        refine ⟨τ, s', ?_, rest', fun limit within => ?_⟩
        · rw [begun]
          exact (Bounds.after_cons n).symm
        · have enough : t₀ + n ≤ limit := by
            refine le_trans ?_ within
            have : ((t₀ + n : Nat) : ℕ∞) ≤ τ := begun ▸ le_self_add
            exact_mod_cast this
          rw [List.drop_succ_cons, show index + (i + 1) = index + 1 + i by omega, ← onward limit within]
          exact runTo_of_allow takes allow makes _ enough

/-- Tasks that all end within their bounds come to their snapshot. -/
theorem schedule_finishes (index : Nat) (course : Course e r d s ts durations final)
    (punctual : ∀ i, (bounds e c cancels).InTime t₀ durations i) :
    ∃ τ : Time, τ = Time.after t₀ durations durations.length ∧
      (schedule e r c cancels d t₀ index s ts).Finishes τ (.ok final) d := by
  obtain ⟨τ, s', begun, rest, onward⟩ :=
    runTo_schedule index course (Nat.le_refl _) fun j _ => punctual j
  refine ⟨τ, begun, fun limit within => ?_⟩
  rw [onward limit within]
  rw [List.drop_length] at rest
  generalize ts.drop durations.length = none at rest ⊢
  cases rest with
  | done => exact Caller.finishes_of_advance rfl limit within

section

variable (late : (bounds e c cancels).FirstLate t₀ durations i)

include late

/-- The first task that does not end within its bounds is come to. -/
theorem exists_late (index : Nat) (course : Course e r d s ts durations final) :
    ∃ (τ : Time) (s' : Snapshot) (t : Task) (rest : List Task), ts[i]? = some t ∧
      τ = Time.after t₀ durations i ∧ durations[i]? = some (Time.bound (time e s' t)) ∧
      ¬ (bounds e c cancels).Allow τ (Time.bound (time e s' t)) ∧
      ∀ limit, τ ≤ limit → Schedule.runTo limit (schedule e r c cancels d t₀ index s ts) =
        Schedule.runTo limit (schedule e r c cancels d τ (index + i) s' (t :: rest)) := by
  have inside : i < durations.length := by
    by_contra outside
    exact late.late fun duration h => by simp [List.getElem?_eq_none (not_lt.1 outside)] at h
  obtain ⟨τ, s', begun, rest, onward⟩ :=
    runTo_schedule index course inside.le late.before
  have found : durations[i]? = some durations[i] := List.getElem?_eq_getElem inside
  have refused : ¬ (bounds e c cancels).Allow τ durations[i] := by
    rw [begun]
    intro allow
    exact late.late fun duration h => (Option.some.inj (found.symm.trans h)) ▸ allow
  rw [List.drop_eq_getElem_cons inside] at rest
  generalize durations[i] = duration at rest found refused
  have here : ts[i]? = (ts.drop i)[0]? := by simp
  cases tasks : ts.drop i with
  | nil => rw [tasks] at rest; cases rest
  | cons t rest' =>
    rw [tasks] at rest here onward
    have takes : duration = Time.bound (time e s' t) := by
      cases rest with
      | task => rfl
      | stalled forever => rw [forever]; rfl
    rw [takes] at found refused
    exact ⟨τ, s', t, rest', here, begun, found, refused, onward⟩

/-- The first task that does not end within its bounds is interrupted when the first of them is over. -/
theorem schedule_fails (index : Nat) (course : Course e r d s ts durations final)
    (apart : ∀ (u : Time) (j : Nat), cancels = some u → j < durations.length →
      Time.after t₀ durations (j + 1) ≠ u)
    {τ : Time} (expires : (bounds e c cancels).expiry (Time.after t₀ durations i) = τ) :
    ∃ t reason, ts[i]? = some t ∧ (schedule e r c cancels d t₀ index s ts).Finishes τ
      (.error (.task (index + i) t.kind (.cancelled reason))) d := by
  obtain ⟨start, s', t, rest, here, begun, takes, refused, onward⟩ := exists_late late index course
  rw [← begun] at expires
  have apart' (u : Time) (hu : cancels = some u) : start + Time.bound (time e s' t) ≠ u := by
    rw [begun, ← Bounds.after_succ takes]
    exact apart u i hu (List.getElem?_eq_some_iff.1 takes).1
  obtain ⟨reason, ends⟩ := finishes_of_not_allow (r := r) (d := d) (index + i) refused apart' expires
    fun next => (rest.zipIdx (index + i + 1)).foldlM (stage e r c) next
  refine ⟨t, reason, here, fun limit within => ?_⟩
  have enough : start ≤ limit := by
    refine le_trans ?_ within
    exact_mod_cast expires ▸ Bounds.le_expiry (bounds e c cancels) start
  rw [onward limit enough]
  exact ends limit within

/-- If there is no bound, it is waited for. -/
theorem schedule_hangs (index : Nat) (course : Course e r d s ts durations final)
    (expires : (bounds e c cancels).expiry (Time.after t₀ durations i) = ⊤) :
    (schedule e r c cancels d t₀ index s ts).Hangs := by
  obtain ⟨start, s', t, rest, -, begun, -, refused, onward⟩ := exists_late late index course
  rw [← begun] at expires
  obtain ⟨τ, hangs⟩ := hangs_of_not_allow (r := r) (d := d) (index + i) refused expires
    fun next => (rest.zipIdx (index + i + 1)).foldlM (stage e r c) next
  refine ⟨max start τ, fun limit within => ?_⟩
  rw [onward limit (le_trans (le_max_left _ _) within)]
  exact hangs limit (le_trans (le_max_right _ _) within)

end

/-! ## Builds -/

/-- A build that a caller begins at a time. -/
def build (e : Engine) (r : Revision) (c : Context) (cancels : Option Time) (t₀ : Time) (d : Depot) :
    Schedule Depot (Except Error Snapshot) :=
  (⟨c.scope, cancels⟩ : Caller).call t₀ (execute e r c).run d

theorem build_eq (e : Engine) {r : Revision} (valid : r.validate = .ok ()) (c : Context)
    (cancels : Option Time) (t₀ : Time) (d : Depot) :
    build e r c cancels t₀ d = schedule e r c cancels d t₀ 0 (blank e r) r.tasks := by
  rw [build, execute_eq_fold e r c valid]
  rfl

/-- A clock that began at an instant tells the deadline of the call, and of each task that a build comes to
when it begins and when it has to end: no sum of an instant and the time that a task may take is an
overflow. -/
structure Clocked (e : Engine) (c : Context) (cancels : Option Time) (t₀ : Time) (durations : List ℕ∞)
    (origin : Instant) (deadline : Option Instant) : Prop where
  shown : origin.Tells c.deadline deadline
  kept : ∀ (i : Nat) (τ : Time), i < durations.length →
    (∀ j < i, (bounds e c cancels).InTime t₀ durations j) → Time.after t₀ durations i = τ →
    ∃ now narrowed, origin.add (.ofMilliseconds τ) = .ok now ∧
      taskDeadline e.config deadline now = .ok narrowed

/-- How a build ends whose tasks would all succeed, and take the times that are listed. -/
structure Timed (e : Engine) (r : Revision) (c : Context) (cancels : Option Time) (t₀ : Time) (d : Depot)
    (durations : List ℕ∞) (final : Snapshot) (origin : Instant) (deadline : Option Instant) : Prop where
  /-- Each task that the build comes to has the same deadline on the machine's clock. -/
  tells : ∀ (i : Nat) (τ : Time), i < durations.length →
    (∀ j < i, (bounds e c cancels).InTime t₀ durations j) → Time.after t₀ durations i = τ →
    ∃ now narrowed, origin.add (.ofMilliseconds τ) = .ok now ∧
      taskDeadline e.config deadline now = .ok narrowed ∧
      origin.Tells (c.inTask i e.config.taskMilliseconds ⟨τ, []⟩).deadline narrowed
  /-- It succeeds just if every task ends strictly within all bounds, -/
  succeeds_iff : (∃ τ s d', (build e r c cancels t₀ d).Finishes τ (.ok s) d') ↔
    ∀ i, (bounds e c cancels).InTime t₀ durations i
  /-- and then when the last task ends, with the snapshot that the tasks make. -/
  succeeds : (∀ i, (bounds e c cancels).InTime t₀ durations i) →
    ∃ τ : Time, τ = Time.after t₀ durations durations.length ∧
      (build e r c cancels t₀ d).Finishes τ (.ok final) d
  /-- Else there is a first task that does not. -/
  late : (¬ ∀ i, (bounds e c cancels).InTime t₀ durations i) →
    ∃ i, (bounds e c cancels).FirstLate t₀ durations i
  /-- The build fails at this task when the first of its bounds is over, -/
  fails : ∀ i, (bounds e c cancels).FirstLate t₀ durations i →
    ∀ τ : Time, (bounds e c cancels).expiry (Time.after t₀ durations i) = τ →
      ∃ t reason, r.tasks[i]? = some t ∧
        (build e r c cancels t₀ d).Finishes τ (.error (.task i t.kind (.cancelled reason))) d
  /-- which is when the task is begun or the first of the deadline, the time at which the caller cancels
  and the end of the time that the task may take, if that is later. -/
  soon : ∀ i, (bounds e c cancels).expiry (Time.after t₀ durations i) =
    max (Time.after t₀ durations i) (min (min (Time.bound c.deadline) (Time.bound cancels))
      (Time.after t₀ durations i + Time.bound e.config.taskMilliseconds))
  /-- Without a bound it does not end. -/
  hangs : ∀ i, (bounds e c cancels).FirstLate t₀ durations i →
    (bounds e c cancels).expiry (Time.after t₀ durations i) = ⊤ → (build e r c cancels t₀ d).Hangs

/-- **How deadlines cut a build short**, where the machine's clock can tell them. The caller does not cancel just
when a task ends. -/
theorem deadlines (e : Engine) {r : Revision} (valid : r.validate = .ok ()) (c : Context)
    (cancels : Option Time) (t₀ : Time) (d : Depot) {durations : List ℕ∞} {final : Snapshot}
    (course : Course e r d (blank e r) r.tasks durations final)
    (apart : ∀ (u : Time) (i : Nat), cancels = some u → i < durations.length →
      Time.after t₀ durations (i + 1) ≠ u) {origin : Instant} {deadline : Option Instant}
    (clocked : Clocked e c cancels t₀ durations origin deadline) :
    Timed e r c cancels t₀ d durations final origin deadline := by
  have built := build_eq e valid c cancels t₀ d
  have fails (i : Nat) (late : (bounds e c cancels).FirstLate t₀ durations i) (τ : Time)
      (expires : (bounds e c cancels).expiry (Time.after t₀ durations i) = τ) :
      ∃ t reason, r.tasks[i]? = some t ∧
        (build e r c cancels t₀ d).Finishes τ (.error (.task i t.kind (.cancelled reason))) d := by
    obtain ⟨t, reason, here, ends⟩ := schedule_fails late 0 course apart expires
    rw [Nat.zero_add] at ends
    exact ⟨t, reason, here, built ▸ ends⟩
  have hangs (i : Nat) (late : (bounds e c cancels).FirstLate t₀ durations i)
      (expires : (bounds e c cancels).expiry (Time.after t₀ durations i) = ⊤) :
      (build e r c cancels t₀ d).Hangs := built ▸ schedule_hangs late 0 course expires
  have succeeds (punctual : ∀ i, (bounds e c cancels).InTime t₀ durations i) :
      ∃ τ : Time, τ = Time.after t₀ durations durations.length ∧
        (build e r c cancels t₀ d).Finishes τ (.ok final) d :=
    built ▸ schedule_finishes 0 course punctual
  have tells (i : Nat) (τ : Time) (inside : i < durations.length)
      (reached : ∀ j < i, (bounds e c cancels).InTime t₀ durations j)
      (begun : Time.after t₀ durations i = τ) : ∃ now narrowed, origin.add (.ofMilliseconds τ) = .ok now ∧
        taskDeadline e.config deadline now = .ok narrowed ∧
        origin.Tells (c.inTask i e.config.taskMilliseconds ⟨τ, []⟩).deadline narrowed := by
    obtain ⟨now, narrowed, begins, told⟩ := clocked.kept i τ inside reached begun
    exact ⟨now, narrowed, begins, told, taskDeadline_tells begins clocked.shown told⟩
  refine ⟨tells, ⟨?_, ?_⟩, succeeds, Bounds.exists_firstLate, fails, fun _ => rfl, hangs⟩
  · rintro ⟨τ, s, d', ends⟩
    by_contra tardy
    obtain ⟨i, late⟩ := Bounds.exists_firstLate tardy
    cases expires : (bounds e c cancels).expiry (Time.after t₀ durations i) with
    | top => exact (hangs i late expires).not_finishes ends
    | coe τ' =>
      obtain ⟨t, reason, -, fails⟩ := fails i late τ' expires
      cases (ends.unique fails).2.1
  · intro punctual
    obtain ⟨τ, -, ends⟩ := succeeds punctual
    exact ⟨τ, final, d, ends⟩

/-! ## A function that takes for ever -/

namespace Stalled

/-- An engine whose functions take for ever, with a time in seconds for each task. -/
def engine (timeout : Option Nat) : Engine where
  config := { taskTimeout := timeout }
  evaluator := fun _ _ _ => ⟨none, .ok ∅⟩

/-- A function on a new package. -/
def request : Revision := ⟨"web", "v1", "apps", [.starting {}, .evaluating "set-labels" ∅]⟩

theorem course (timeout : Option Nat) : Course (engine timeout) request {} (blank (engine timeout) request)
    request.tasks [0, ⊤] (blank (engine timeout) request) :=
  .task rfl (.stalled rfl rfl)

theorem firstLate {b : Bounds} {t₀ : Time} (start : b.Allow t₀ 0) : b.FirstLate t₀ [0, ⊤] 1 where
  before j hj := by
    obtain rfl : j = 0 := Nat.lt_one_iff.1 hj
    exact Bounds.inTime_zero_iff.2 start
  late h := not_top_lt (h ⊤ rfl).timeout

/-- On a clock that began at zero, both tasks begin after 20 milliseconds and have a second. -/
theorem clocked : Clocked (engine (some 1)) ⟨[7], some 5000⟩ (some 3000) 20 [0, ⊤] { seconds := 0 }
    (some { seconds := 5 }) where
  shown := .some rfl
  kept i τ inside _ begun := by
    have both : Time.after 20 [0, ⊤] i = (20 : Time) := by
      have inside : i < 2 := inside
      obtain rfl | rfl : i = 0 ∨ i = 1 := by omega
      · simp [Time.after]
      · simp [Time.after]
    obtain rfl : τ = 20 := by exact_mod_cast begun.symm.trans both
    exact ⟨{ seconds := 0, nanos := 20000000 }, some { seconds := 1, nanos := 20000000 }, rfl, rfl⟩

end Stalled

open Stalled

/-- With a second for each task it is cut short at the end of this second, in front of the deadline of the
call and the time at which the caller cancels. -/
theorem deadlines_stalled : request.validate = .ok () ∧
    Course (engine (some 1)) request {} (blank (engine (some 1)) request) request.tasks [0, ⊤]
      (blank (engine (some 1)) request) ∧
    (∀ (u : Time) (i : Nat), some 3000 = some u → i < 2 → Time.after 20 [0, ⊤] (i + 1) ≠ u) ∧
    Clocked (engine (some 1)) ⟨[7], some 5000⟩ (some 3000) 20 [0, ⊤] { seconds := 0 }
      (some { seconds := 5 }) ∧
    ∃ t reason, request.tasks[1]? = some t ∧
      (build (engine (some 1)) request ⟨[7], some 5000⟩ (some 3000) 20 {}).Finishes 1020
        (.error (.task 1 t.kind (.cancelled reason))) {} := by
  have begun : Time.after 20 [0, ⊤] 1 = (20 : Time) := by simp [Time.after]
  have apart (u : Time) (i : Nat) (cancels : some 3000 = some u) (inside : i < 2) :
      Time.after 20 [0, ⊤] (i + 1) ≠ u := by
    cases cancels
    obtain rfl | rfl : i = 0 ∨ i = 1 := by omega
    · rw [begun]
      exact_mod_cast (by decide : (20 : Nat) ≠ 3000)
    · simp [Time.after]
  refine ⟨rfl, course _, apart, clocked, ?_⟩
  apply (deadlines (engine (some 1)) rfl ⟨[7], some 5000⟩ (some 3000) 20 {} (course _) apart clocked).fails 1
  · apply firstLate
    exact ⟨Time.lt_bound_iff (t := 0).2 (by decide), Time.lt_bound_iff (t := 20).2 (by decide),
      Time.lt_bound_iff (t := 20).2 (by decide)⟩
  · rw [begun]
    rfl

/-- Without a bound, the build of a request whose tasks would succeed neither succeeds nor fails. -/
theorem stalled_hangs : request.validate = .ok () ∧
    Course (engine none) request {} (blank (engine none) request) request.tasks [0, ⊤]
      (blank (engine none) request) ∧
    ¬ (bounds (engine none) ⟨[], none⟩ none).InTime 0 [0, ⊤] 1 ∧
    ∀ τ a d', ¬ (build (engine none) request ⟨[], none⟩ none 0 {}).Finishes τ a d' := by
  have late : (bounds (engine none) ⟨[], none⟩ none).FirstLate 0 [0, ⊤] 1 :=
    firstLate ⟨by simp [bounds, engine, Config.taskMilliseconds], by simp [bounds], by simp [bounds]⟩
  have expires : (bounds (engine none) ⟨[], none⟩ none).expiry (Time.after 0 [0, ⊤] 1) = ⊤ := by
    simp [Bounds.expiry, bounds, engine, Config.taskMilliseconds]
  refine ⟨rfl, course _, late.late, fun τ a d' => ?_⟩
  rw [build_eq (engine none) rfl]
  exact (schedule_hangs late 0 (course none) expires).not_finishes

end Pipeline

end PackageDepot
