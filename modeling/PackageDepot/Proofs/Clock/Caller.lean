import PackageDepot.Proofs.Clock.Lone

/-!
# One who waits for a routine

A `Caller` waits for one routine, and may cancel its scope at a time. `Caller.call` is the schedule of this
routine alone. The routine goes on without the clock until it waits; `runTo_of_done` and `finishes_of_interrupt`
say what is next then, and `hangs_of_free` when nothing is.
-/

namespace PackageDepot

/-- One who waits for a routine in a scope, and cancels it at a time, if ever. -/
structure Caller where
  scope : Scope
  cancels : Option Time := none

namespace Caller

open Job Schedule

variable {σ α : Type} {k : Caller} {t w τ limit : Time} {s u : σ} {a : α}

/-- What a step sees at a time, if the alarm of this time has not rung yet. -/
def moment (k : Caller) (now : Time) : Moment :=
  ⟨now, if k.cancels.any (· < now) then [k.scope] else []⟩

/-- The alarm that has not rung at a time yet. -/
def alarms (k : Caller) (now : Time) : List Alarm :=
  (k.cancels.filter (now ≤ ·)).toList.map fun t => ⟨t, k.scope⟩

/-- The routine alone, from a time on. -/
def call (k : Caller) (now : Time) (p : Routine σ α) (s : σ) : Schedule σ α :=
  ⟨k.moment now, k.alarms now, [.ready p], s⟩

theorem moment_pending (h : (t : ℕ∞) ≤ Time.bound k.cancels) : k.moment t = ⟨t, []⟩ := by
  have late : k.cancels.any (· < t) = false := by
    rw [Time.le_bound_iff] at h
    cases hc : k.cancels with
    | none => rfl
    | some c => simpa using h c hc
  simp [moment, late]

theorem moment_cancelled (h : Time.bound k.cancels < t) : k.moment t = ⟨t, [k.scope]⟩ := by
  cases hc : k.cancels with
  | none => simp [hc] at h
  | some c =>
    have early : c < t := by simpa [hc] using h
    simp [moment, hc, early]

theorem alarms_pending (h : (t : ℕ∞) ≤ Time.bound k.cancels) :
    k.alarms t = k.cancels.toList.map fun t => ⟨t, k.scope⟩ := by
  rw [Time.le_bound_iff] at h
  cases hc : k.cancels with
  | none => simp [alarms, hc]
  | some c => simp [alarms, hc, h c hc]

theorem mem_alarms {b : Alarm} :
    b ∈ k.alarms t ↔ k.cancels = some b.time ∧ t ≤ b.time ∧ b.scope = k.scope := by
  obtain ⟨time, scope⟩ := b
  simp only [alarms, List.mem_map, Option.mem_toList, Option.filter_eq_some_iff,
    decide_eq_true_eq, Alarm.mk.injEq]
  constructor
  · rintro ⟨u, ⟨cancels, later⟩, rfl, rfl⟩
    exact ⟨cancels, later, rfl⟩
  · rintro ⟨cancels, later, rfl⟩
    exact ⟨time, ⟨cancels, later⟩, rfl, rfl⟩

/-- What is to come at a time. -/
def forecast (k : Caller) (now : Time) : Forecast :=
  ⟨k.moment now, k.alarms now, fun _ set => (mem_alarms.1 set).2.1⟩

variable {p : Routine σ α} {abandon : σ → σ} {c : Context} {resume : Option Time}
  {next : Option Interrupt → Routine σ α}

/-- A context is interrupted when the caller cancels a scope around it, and at its deadline. -/
theorem interrupted_view_iff (pending : t ≤ Time.bound k.cancels) :
    c.Interrupted ((k.forecast t).view w) ↔
      k.scope <:+ c.scope ∧ Time.bound k.cancels ≤ w ∨ Time.bound c.deadline ≤ w := by
  have rung : (k.forecast t).moment.cancelled = [] := by
    show (k.moment t).cancelled = []
    rw [moment_pending pending]
  rw [Context.interrupted_view_iff, rung, Time.bound_le_iff, Time.bound_le_iff]
  constructor
  · rintro (⟨_, ⟨⟩, _⟩ | ⟨b, set, due, inside⟩ | expired)
    · obtain ⟨cancels, -, scope⟩ := mem_alarms.1 set
      exact .inl ⟨scope ▸ inside, _, cancels, due⟩
    · exact .inr expired
  · rintro (⟨inside, b, cancels, due⟩ | expired)
    · have later : t ≤ b := Time.le_bound_iff.1 pending b cancels
      exact .inr (.inl ⟨⟨b, k.scope⟩, mem_alarms.2 ⟨cancels, later, rfl⟩, due, inside⟩)
    · exact .inr (.inr expired)

/-- A routine that does not wait is done at once. -/
theorem finishes_of_advance (done : advance (k.moment t) p s = (.finished a, u)) :
    (k.call t p s).Finishes t a u := Forecast.finishes_ready (f := k.forecast t) done

/-- Routines that go on in the same way come to the same end. -/
theorem runTo_call_congr {q : Routine σ α} {s' : σ}
    (same : advance (k.moment t) p s = advance (k.moment t) q s') :
    runTo limit (k.call t p s) = runTo limit (k.call t q s') := by
  apply runTo_congr
  simp only [Schedule.poll, call, pollAll, Job.poll, same]

/-- Until the caller cancels, nothing rings. -/
theorem forecast_next (later : t < w) (cancels : w < Time.bound k.cancels)
    (first : ∀ b ∈ (k.forecast t).alarms, (k.forecast t).moment.now < b.time → w ≤ b.time) :
    (k.forecast t).next w first = k.forecast w := by
  have pending : (t : ℕ∞) ≤ Time.bound k.cancels := le_trans (by exact_mod_cast later.le) cancels.le
  have late (b : Alarm) (h : b ∈ k.alarms t) : t < b.time :=
    Nat.lt_trans later (Time.lt_bound_iff.1 cancels _ (mem_alarms.1 h).1)
  apply Forecast.ext
  · have silent : (k.alarms t).filter (·.time ≤ t) = [] := by simpa using late
    show (⟨w, (k.moment t).cancelled ++ ((k.alarms t).filter (·.time ≤ t)).map (·.scope)⟩ : Moment) = k.moment w
    rw [silent, moment_pending pending, moment_pending cancels.le]
    rfl
  · have kept : (k.alarms t).filter (t < ·.time) = k.alarms t := by simpa using late
    show (k.alarms t).filter (t < ·.time) = k.alarms w
    rw [kept, alarms_pending pending, alarms_pending cancels.le]

variable (pending : t ≤ Time.bound k.cancels) (early : t < Time.bound c.deadline)
  (working : t < Time.bound resume)
  (blocked : advance (k.moment t) p s = (.blocked abandon c resume next, u))

include pending early working blocked

omit working blocked in
theorem calm_moment : ¬ c.Interrupted (k.moment t) := by
  rw [moment_pending pending, Context.Interrupted, Context.interrupt?_untouched early]
  simp

/-- A routine that comes to wait goes on like one that waits. -/
theorem runTo_call : runTo limit (k.call t p s) =
    runTo limit ((k.forecast t).wait abandon c resume next u) :=
  Forecast.runTo_ready (f := k.forecast t) (calm_moment pending early) (Time.lt_bound_iff.1 working) blocked

/-- A routine whose work is done in time goes on then. -/
theorem runTo_of_done (works : resume = some w) (cancelled : w < Time.bound k.cancels)
    (expired : w < Time.bound c.deadline) (within : w ≤ limit) :
    runTo limit (k.call t p s) = runTo limit (k.call w (next none) u) := by
  subst works
  have later : t < w := by simpa using working
  have calm : ¬ c.Interrupted ((k.forecast t).view t) := by
    rw [interrupted_view_iff pending]
    rintro (⟨-, cancels⟩ | passed)
    · have : (t : ℕ∞) < Time.bound k.cancels := lt_trans (by exact_mod_cast later) cancelled
      exact this.not_ge cancels
    · exact early.not_ge passed
  have stop : ((k.forecast t).waits abandon c (some w) next u).next? limit = some w := by
    refine Forecast.next?_waits_eq_some_iff.2 ⟨⟨.inl rfl, later, within⟩, ?_⟩
    rintro v (works | expires | ⟨b, set, rfl⟩) - -
    · exact Nat.le_of_eq (Option.some.inj works)
    · exact Nat.le_of_lt (Time.lt_bound_iff.1 expired v expires)
    · exact Nat.le_of_lt (Time.lt_bound_iff.1 cancelled _ (mem_alarms.1 set).1)
  rw [runTo_call pending early working blocked, Forecast.runTo_wait calm (Time.lt_bound_iff.1 working) stop,
    forecast_next later cancelled]
  exact runTo_congr (Forecast.poll_done (f := k.forecast w) (calm_moment cancelled.le expired) rfl)

/-- A routine that waits is interrupted at the deadline of its context, or when the caller cancels, if its
work is not done before. -/
theorem finishes_of_interrupt (inside : k.scope <:+ c.scope)
    (first : min (Time.bound k.cancels) (Time.bound c.deadline) = w) (lasts : w ≤ Time.bound resume)
    (apart : ∀ b, k.cancels = some b → resume ≠ some b) (answer : Interrupt → α)
    (answers : ∀ i, next (some i) = .done (answer i)) :
    ∃ reason, (k.call t p s).Finishes w (answer reason) u := by
  have fails (v : Time) : c.Interrupted ((k.forecast t).view v) ↔ w ≤ v := by
    rw [interrupted_view_iff pending, and_iff_right inside, ← min_le_iff, first]
    exact Nat.cast_le
  have begun : t ≤ w := by
    have : (t : ℕ∞) ≤ w := by
      rw [← first]
      exact le_min pending early.le
    exact_mod_cast this
  have least : IsLeast {v | t ≤ v ∧ c.Interrupted ((k.forecast t).view v)} w :=
    ⟨⟨begun, (fails w).2 le_rfl⟩, fun v h => (fails v).1 h.2⟩
  obtain ⟨i, ends⟩ : ∃ i, ((k.forecast t).wait abandon c resume next u).Finishes w (answer i) u := by
    refine Forecast.wait_loses least (Time.le_bound_iff.1 lasts) (fun e works b set rings => ?_) answer answers
    rw [← rings] at works
    exact (apart _ (mem_alarms.1 set).1 works).elim
  exact ⟨i, Forecast.finishes_congr (fun limit _ => runTo_call pending early working blocked) ends⟩

omit pending early working in
/-- A routine that waits for ever hangs if nothing interrupts it. -/
theorem hangs_of_free (free : k.cancels = none) (forever : resume = none) (unbounded : c.deadline = none) :
    (k.call t p s).Hangs := by
  subst forever
  have pending : (t : ℕ∞) ≤ Time.bound k.cancels := by simp [free]
  refine ⟨0, fun limit _ => ?_⟩
  rw [runTo_call pending (by simp [unbounded]) (by simp) blocked]
  refine Forecast.hangs_wait fun v _ => ?_
  rw [interrupted_view_iff pending, free, unbounded]
  simp

end Caller

end PackageDepot
