import Mathlib.Data.ENat.Lattice
import PackageDepot.Clock.Schedule
import PackageDepot.Proofs.Clock.Context
import PackageDepot.Proofs.Routine.Prompt

/-!
# One routine on the virtual clock

`Schedule.Finishes` says when a schedule of one routine ends and with which answer, however much later the limit
of the schedule is. A `Forecast` is a moment with the alarms to come, any number of them, and `Forecast.view` what
a step sees at a later time, when the alarms of that time have rung. A routine that waits goes on at the first of
three times: the end of its work (`wait_wins`), the deadline of its context, and an alarm that cancels a scope
around (`wait_loses`). Where two of these are one time, the deadline is looked at first and the alarm last. The
clock stops at alarms that have nothing to do with the routine, too: `Leads` says that the forecast from there is
the same, and `reach` that the routine stands there as it stood before.
-/

namespace PackageDepot

/-- A time that something happens at, if ever, as a bound of other times. -/
def Time.bound : Option Time → ℕ∞
  | some t => t
  | none => ⊤

@[simp] theorem Time.bound_some (t : Time) : Time.bound (some t) = t := rfl

@[simp] theorem Time.bound_none : Time.bound none = ⊤ := rfl

theorem Time.le_bound_iff {t : Time} {b : Option Time} : (t : ℕ∞) ≤ Time.bound b ↔ ∀ u ∈ b, t ≤ u := by
  cases b with
  | none => simp
  | some u => simp

theorem Time.lt_bound_iff {t : Time} {b : Option Time} : (t : ℕ∞) < Time.bound b ↔ ∀ u ∈ b, t < u := by
  cases b with
  | none => simp
  | some u => simp

theorem Time.bound_le_iff {t : Time} {b : Option Time} : Time.bound b ≤ t ↔ ∃ u, b = some u ∧ u ≤ t := by
  cases b with
  | none => simp
  | some u => simp

theorem Time.bound_eq_iff {t : Time} {b : Option Time} : Time.bound b = t ↔ b = some t := by
  cases b with
  | none => simp
  | some u => simp

theorem Time.bound_eq_top_iff {b : Option Time} : Time.bound b = ⊤ ↔ b = none := by
  cases b with
  | none => simp
  | some u => simp

theorem Time.bound_pos_iff {b : Option Time} : 0 < Time.bound b ↔ b ≠ some 0 := by
  rw [pos_iff_ne_zero, Ne, not_iff_not]
  exact_mod_cast Time.bound_eq_iff (t := 0)

namespace Context

variable {c : Context} {label : Nat} {timeout : Option Nat} {m : Moment}

/-- The deadline of a task is the smaller one of that of the call and that of its own time. -/
theorem bound_inTask : Time.bound (c.inTask label timeout m).deadline =
    min (Time.bound c.deadline) (m.now + Time.bound timeout) := by
  cases timeout with
  | none => simp [inTask]
  | some ms =>
    simp only [inTask, withTimeout, child, Time.bound_some]
    cases c.deadline with
    | none => simp
    | some d =>
      dsimp only
      split
      · next earlier =>
        rw [min_eq_left]
        · rfl
        · simp only [Time.bound_some]
          exact_mod_cast earlier.le
      · next later =>
        rw [min_eq_right]
        · simp
        · simp only [Time.bound_some]
          exact_mod_cast Nat.le_of_not_lt later

theorem scope_inTask : c.scope <:+ (c.inTask label timeout m).scope := by
  cases timeout with
  | none => exact List.suffix_refl _
  | some ms => exact List.suffix_cons label c.scope

/-- Without a scope that was cancelled, only the deadline interrupts. -/
theorem interrupt?_untouched {now : Time} (h : (now : ℕ∞) < Time.bound c.deadline) :
    c.interrupt? ⟨now, []⟩ = none := by
  have passed : c.deadline.any (· ≤ now) = false := by
    rw [Time.lt_bound_iff] at h
    cases hd : c.deadline with
    | none => rfl
    | some d => simpa using h d hd
  simp [interrupt?, Moment.isCancelled, passed]

theorem interrupt?_expired {now : Time} (h : Time.bound c.deadline ≤ now) :
    c.interrupt? ⟨now, []⟩ = some .expired := by
  cases hd : c.deadline with
  | none => simp [hd] at h
  | some d =>
    have passed : d ≤ now := by simpa [hd] using h
    simp [interrupt?, Moment.isCancelled, hd, passed]

theorem interrupt?_cancelled {now : Time} {scope : Scope} (inside : scope <:+ c.scope) :
    c.interrupt? ⟨now, [scope]⟩ = some .cancelled := by
  have h : List.isSuffixOf scope c.scope = true := List.isSuffixOf_iff_suffix.2 inside
  simp [interrupt?, Moment.isCancelled, h]

end Context

namespace Job

variable {σ α β : Type} {m : Moment} {s u : σ}

/-- What is carried out without waiting is carried out on the way. -/
theorem advance_bind {p : Routine σ α} {f : α → Routine σ β} {a : α}
    (h : p.Promptly (· = m) (fun b t => b = a ∧ t = u) s) :
    advance m (p.bind f) s = advance m (f a) u := by
  induction p generalizing s with
  | done b =>
    obtain ⟨rfl, rfl⟩ := h
    rfl
  | step abandon effect next ih => exact ih m s (h m rfl)
  | wait abandon c d next ih => exact h.elim

end Job

namespace Schedule

variable {σ α : Type} {x y : Schedule σ α} {limit τ τ' : Time} {a b : α} {s t : σ}

/-- The only routine comes to its end at a time, with an answer and a state. -/
def Finishes (x : Schedule σ α) (τ : Time) (a : α) (t : σ) : Prop :=
  ∀ limit, τ ≤ limit → ∃ cancelled alarms, runTo limit x = ⟨⟨τ, cancelled⟩, alarms, [.finished a], t⟩

/-- The only routine does not come to its end: it is abandoned, however late the limit is. -/
def Hangs (x : Schedule σ α) : Prop := ∃ τ, ∀ limit, τ ≤ limit → (runTo limit x).results = [none]

/-- There is one end. -/
theorem Finishes.unique (h : x.Finishes τ a s) (h' : x.Finishes τ' b t) : τ = τ' ∧ a = b ∧ s = t := by
  obtain ⟨_, _, hx⟩ := h (max τ τ') (Nat.le_max_left _ _)
  obtain ⟨_, _, hx'⟩ := h' (max τ τ') (Nat.le_max_right _ _)
  rw [hx] at hx'
  simp only [Schedule.mk.injEq, Moment.mk.injEq, List.cons.injEq, Job.finished.injEq] at hx'
  exact ⟨hx'.1.1, hx'.2.2.1.1, hx'.2.2.2⟩

theorem Hangs.not_finishes (h : x.Hangs) : ¬ x.Finishes τ a s := by
  intro h'
  obtain ⟨τ', h⟩ := h
  obtain ⟨_, _, hx⟩ := h' (max τ τ') (Nat.le_max_left _ _)
  have := h (max τ τ') (Nat.le_max_right _ _)
  rw [hx] at this
  cases this

theorem runTo_next (active : x.settle.jobs.any Job.isActive = true)
    (next : x.settle.next? limit = some τ) : runTo limit x =
      runTo limit { x.settle with moment := { x.settle.moment with now := τ } } := by
  rw [runTo, if_pos active]
  split
  · next τ' next' =>
    obtain rfl : τ = τ' := Option.some.inj (next.symm.trans next')
    rfl
  · next none => cases next.symm.trans none

theorem runTo_last (active : x.settle.jobs.any Job.isActive = true)
    (last : x.settle.next? limit = none) : runTo limit x = x.settle.abandon limit := by
  rw [runTo, if_pos active]
  split
  · next found => cases last.symm.trans found
  · rfl

theorem runTo_congr (h : x.poll = y.poll) : runTo limit x = runTo limit y := by
  rw [runTo, runTo, settle, settle, h]

end Schedule

/-! ## What is to come -/

/-- A moment and the alarms to come. -/
@[ext] structure Forecast where
  moment : Moment
  alarms : List Alarm
  pending : ∀ a ∈ alarms, moment.now ≤ a.time

namespace Forecast

variable {f p q : Forecast} {c : Context} {t u : Time} {s : Scope}

/-- What a step sees at a time, when the alarms of this time have rung. -/
def view (f : Forecast) (t : Time) : Moment :=
  ⟨t, f.moment.cancelled ++ (f.alarms.filter (·.time ≤ t)).map (·.scope)⟩

theorem mem_view : s ∈ (f.view t).cancelled ↔
    s ∈ f.moment.cancelled ∨ ∃ a ∈ f.alarms, a.time ≤ t ∧ a.scope = s := by
  simp [view, and_assoc]

/-- The forecast behind the alarms of the moment, from a time before which no other one rings. -/
def next (f : Forecast) (t : Time) (first : ∀ a ∈ f.alarms, f.moment.now < a.time → t ≤ a.time) :
    Forecast where
  moment := ⟨t, (f.view f.moment.now).cancelled⟩
  alarms := f.alarms.filter (f.moment.now < ·.time)
  pending a ha := first a (List.mem_filter.1 ha).1 (by simpa using (List.mem_filter.1 ha).2)

/-- One forecast comes of another one as time goes on. -/
structure Leads (f p : Forecast) : Prop where
  alarms : p.alarms ⊆ f.alarms
  same : ∀ t s, p.moment.now ≤ t → (s ∈ (p.view t).cancelled ↔ s ∈ (f.view t).cancelled)

theorem Leads.refl (f : Forecast) : f.Leads f := ⟨List.Subset.refl _, fun _ _ _ => Iff.rfl⟩

theorem Leads.trans (h : f.Leads p) (h' : p.Leads q) (later : p.moment.now ≤ q.moment.now) :
    f.Leads q where
  alarms := List.Subset.trans h'.alarms h.alarms
  same t s after := (h'.same t s after).trans (h.same t s (Nat.le_trans later after))

theorem leads_next (first : ∀ a ∈ f.alarms, f.moment.now < a.time → t ≤ a.time)
    (later : f.moment.now ≤ t) : f.Leads (f.next t first) where
  alarms := List.filter_subset_self _
  same u s after := by
    have after : f.moment.now ≤ u := Nat.le_trans later after
    simp only [mem_view, next, List.mem_filter, decide_eq_true_eq]
    constructor
    · rintro ((rung | ⟨a, set, due, rfl⟩) | ⟨a, ⟨set, -⟩, due, rfl⟩)
      · exact .inl rung
      · exact .inr ⟨a, set, Nat.le_trans due after, rfl⟩
      · exact .inr ⟨a, set, due, rfl⟩
    · rintro (rung | ⟨a, set, due, rfl⟩)
      · exact .inl (.inl rung)
      · by_cases now : a.time ≤ f.moment.now
        · exact .inl (.inr ⟨a, set, now, rfl⟩)
        · exact .inr ⟨a, ⟨set, Nat.lt_of_not_le now⟩, due, rfl⟩

end Forecast

namespace Context

open Forecast

variable {c : Context} {m m' : Moment} {f p : Forecast} {t : Time}

/-- The order in which scopes were cancelled does not matter. -/
theorem interrupt?_congr (now : m.now = m'.now) (same : ∀ s, s ∈ m.cancelled ↔ s ∈ m'.cancelled) :
    c.interrupt? m = c.interrupt? m' := by
  have cancelled : m.isCancelled c.scope = m'.isCancelled c.scope := by
    rw [Bool.eq_iff_iff]
    simp [Moment.isCancelled, same]
  rw [interrupt?, interrupt?, cancelled, now]

theorem interrupt?_leads (leads : f.Leads p) (later : p.moment.now ≤ t) :
    c.interrupt? (p.view t) = c.interrupt? (f.view t) :=
  interrupt?_congr rfl fun s => leads.same t s later

theorem interrupted_leads (leads : f.Leads p) (later : p.moment.now ≤ t) :
    c.Interrupted (p.view t) ↔ c.Interrupted (f.view t) := by
  rw [Interrupted, Interrupted, interrupt?_leads leads later]

theorem interrupt?_eq_none (calm : ¬ c.Interrupted m) : c.interrupt? m = none := by
  simpa [Interrupted] using calm

theorem isCancelled_iff : m.isCancelled c.scope = true ↔ ∃ s ∈ m.cancelled, s <:+ c.scope := by
  simp [Moment.isCancelled]

/-- A context is interrupted for a scope that was cancelled, for an alarm that has rung, or for its deadline. -/
theorem interrupted_view_iff : c.Interrupted (f.view t) ↔ (∃ s ∈ f.moment.cancelled, s <:+ c.scope) ∨
    (∃ a ∈ f.alarms, a.time ≤ t ∧ a.scope <:+ c.scope) ∨ ∃ d, c.deadline = some d ∧ d ≤ t := by
  simp only [interrupted_iff, isCancelled_iff, mem_view]
  constructor
  · rintro (⟨s, rung | ⟨a, set, due, rfl⟩, inside⟩ | expired)
    · exact .inl ⟨s, rung, inside⟩
    · exact .inr (.inl ⟨a, set, due, inside⟩)
    · exact .inr (.inr expired)
  · rintro (⟨s, rung, inside⟩ | ⟨a, set, due, inside⟩ | expired)
    · exact .inl ⟨s, .inl rung, inside⟩
    · exact .inl ⟨a.scope, .inr ⟨a, set, due, rfl⟩, inside⟩
    · exact .inr expired

/-- What interrupts only behind the alarms of the moment is one of them. -/
theorem exists_alarm (h : c.Interrupted (f.view f.moment.now)) (calm : ¬ c.Interrupted f.moment) :
    ∃ a ∈ f.alarms, a.time = f.moment.now ∧ a.scope <:+ c.scope := by
  rw [interrupted_iff, isCancelled_iff] at calm
  obtain rung | ⟨a, set, due, inside⟩ | expired := interrupted_view_iff.1 h
  · exact (calm (.inl rung)).elim
  · exact ⟨a, set, Nat.le_antisymm due (f.pending a set), inside⟩
  · exact (calm (.inr expired)).elim

/-- An alarm that rings undoes no interrupt. -/
theorem interrupted_view (h : c.Interrupted f.moment) : c.Interrupted (f.view f.moment.now) := by
  have since : f.moment.Since (f.view f.moment.now) := ⟨Nat.le_refl _, List.subset_append_left _ _⟩
  exact interrupted_since since h

end Context

/-! ## A routine that waits -/

namespace Forecast

open Job Schedule

variable {σ α : Type} {f : Forecast} {abandon : σ → σ} {c : Context} {resume : Option Time}
  {next : Option Interrupt → Routine σ α} {s r : σ} {a : α} {t u limit : Time}

/-- A routine that waits, with the alarms to come. -/
def wait (f : Forecast) (abandon : σ → σ) (c : Context) (resume : Option Time)
    (next : Option Interrupt → Routine σ α) (s : σ) : Schedule σ α :=
  ⟨f.moment, f.alarms, [.blocked abandon c resume next], s⟩

/-- A routine that waits, behind the alarms of the moment. -/
def waits (f : Forecast) (abandon : σ → σ) (c : Context) (resume : Option Time)
    (next : Option Interrupt → Routine σ α) (s : σ) : Schedule σ α :=
  ⟨f.view f.moment.now, f.alarms.filter (f.moment.now < ·.time), [.blocked abandon c resume next], s⟩

theorem ring_wait : (f.wait abandon c resume next s).ring = f.waits abandon c resume next s := by
  simp only [ring, wait, waits, Nat.not_le]
  rfl

theorem poll_blocked {m : Moment} {alarms : List Alarm} (calm : ¬ c.Interrupted m)
    (working : ∀ e ∈ resume, m.now < e) :
    (⟨m, alarms, [.blocked abandon c resume next], s⟩ : Schedule σ α).poll =
      ⟨m, alarms, [.blocked abandon c resume next], s⟩ := by
  have busy : resume.any (· ≤ m.now) = false := by simpa [Option.any_eq_false] using working
  simp [Schedule.poll, pollAll, Job.poll, Context.interrupt?_eq_none calm, busy]

theorem settle_wait (calm : ¬ c.Interrupted (f.view f.moment.now))
    (working : ∀ e ∈ resume, f.moment.now < e) :
    (f.wait abandon c resume next s).settle = f.waits abandon c resume next s := by
  have before : ¬ c.Interrupted f.moment := fun h => calm (Context.interrupted_view h)
  have same : (f.wait abandon c resume next s).poll = f.wait abandon c resume next s :=
    poll_blocked before working
  rw [settle, same, ring_wait]
  exact poll_blocked calm working

theorem finishes_congr {x y : Schedule σ α} (same : ∀ limit, t ≤ limit → runTo limit x = runTo limit y)
    (h : y.Finishes t a s) : x.Finishes t a s := by
  intro limit within
  rw [same limit within]
  exact h limit within

/-- A routine that is begun, with the alarms to come. -/
def ready (f : Forecast) (p : Routine σ α) (s : σ) : Schedule σ α := ⟨f.moment, f.alarms, [.ready p], s⟩

/-- A routine that comes to wait goes on like one that waits. -/
theorem runTo_ready {p : Routine σ α} (calm : ¬ c.Interrupted f.moment)
    (working : ∀ e ∈ resume, f.moment.now < e)
    (blocked : advance f.moment p s = (.blocked abandon c resume next, r)) :
    runTo limit (f.ready p s) = runTo limit (f.wait abandon c resume next r) := by
  have polled : (f.ready p s).poll = f.wait abandon c resume next r := by
    simp only [Schedule.poll, ready, pollAll, Job.poll, blocked]
    rfl
  exact runTo_congr (polled.trans (poll_blocked calm working).symm)

/-- What is done at the first look is done at this moment. -/
theorem finishes_of_poll {x : Schedule σ α} (h : x.poll = ⟨f.moment, f.alarms, [.finished a], s⟩) :
    x.Finishes f.moment.now a s := by
  intro limit _
  have settled : x.settle =
      ⟨f.view f.moment.now, f.alarms.filter (¬ ·.time ≤ f.moment.now), [.finished a], s⟩ := by
    rw [settle, h]
    rfl
  rw [runTo, settled, if_neg (by simp [isActive])]
  exact ⟨_, _, rfl⟩

/-- A routine that does not wait is done at once. -/
theorem finishes_ready {p : Routine σ α} (done : advance f.moment p s = (.finished a, r)) :
    (f.ready p s).Finishes f.moment.now a r := by
  refine finishes_of_poll ?_
  simp only [Schedule.poll, ready, pollAll, Job.poll, done]

/-- The times at which the clock may stop for a routine that waits. -/
def Stops (f : Forecast) (c : Context) (resume : Option Time) (t : Time) : Prop :=
  resume = some t ∨ c.deadline = some t ∨ ∃ a ∈ f.alarms, a.time = t

theorem mem_stops (later : f.moment.now < t) :
    t ∈ (f.waits abandon c resume next s).alarms.map (·.time) ++
        (f.waits abandon c resume next s).jobs.flatMap wakes ↔ f.Stops c resume t := by
  simp only [waits, wakes, Stops, List.mem_append, List.mem_map, List.mem_filter, List.flatMap_cons,
    List.flatMap_nil, List.append_nil, Option.mem_toList, decide_eq_true_eq]
  constructor
  · rintro (⟨a, ⟨set, -⟩, rfl⟩ | works | expires)
    · exact .inr (.inr ⟨a, set, rfl⟩)
    · exact .inl works
    · exact .inr (.inl expires)
  · rintro (works | expires | ⟨a, set, rfl⟩)
    · exact .inr (.inl works)
    · exact .inr (.inr expires)
    · exact .inl ⟨a, ⟨set, later⟩, rfl⟩

theorem next?_waits_eq_some_iff : (f.waits abandon c resume next s).next? limit = some t ↔
    (f.Stops c resume t ∧ f.moment.now < t ∧ t ≤ limit) ∧
      ∀ u, f.Stops c resume u → f.moment.now < u → u ≤ limit → t ≤ u := by
  have mem (u : Time) : u ∈ ((f.waits abandon c resume next s).alarms.map (·.time) ++
      (f.waits abandon c resume next s).jobs.flatMap wakes).filter (fun u => f.moment.now < u && u ≤ limit) ↔
        f.Stops c resume u ∧ f.moment.now < u ∧ u ≤ limit := by
    simp only [List.mem_filter, Bool.and_eq_true, decide_eq_true_eq]
    exact and_congr_left fun h => mem_stops h.1
  rw [next?, List.min?_eq_some_iff]
  constructor
  · rintro ⟨stop, least⟩
    exact ⟨(mem t).1 stop, fun u stops later within => least u ((mem u).2 ⟨stops, later, within⟩)⟩
  · rintro ⟨stop, least⟩
    refine ⟨(mem t).2 stop, fun u stops => ?_⟩
    obtain ⟨stops, later, within⟩ := (mem u).1 stops
    exact least u stops later within

theorem exists_next? (abandon : σ → σ) (next : Option Interrupt → Routine σ α) (s : σ)
    (stop : f.Stops c resume t) (later : f.moment.now < t) (within : t ≤ limit) :
    ∃ u, (f.waits abandon c resume next s).next? limit = some u := by
  cases found : (f.waits abandon c resume next s).next? limit with
  | none =>
    rw [next?, List.min?_eq_none_iff, List.filter_eq_nil_iff] at found
    have never := found t ((mem_stops later).2 stop)
    rw [Bool.and_eq_true, decide_eq_true_eq, decide_eq_true_eq] at never
    exact (never ⟨later, within⟩).elim
  | some u => exact ⟨u, rfl⟩

/-- No alarm rings before the clock stops. -/
theorem le_of_next? (stop : (f.waits abandon c resume next s).next? limit = some t) :
    ∀ a ∈ f.alarms, f.moment.now < a.time → t ≤ a.time := by
  obtain ⟨⟨-, -, within⟩, least⟩ := next?_waits_eq_some_iff.1 stop
  intro a set after
  by_cases inside : a.time ≤ limit
  · exact least _ (.inr (.inr ⟨a, set, rfl⟩)) after inside
  · exact Nat.le_trans within (Nat.le_of_not_le inside)

/-- The clock goes on to the first time at which it may stop. -/
theorem runTo_wait (calm : ¬ c.Interrupted (f.view f.moment.now))
    (working : ∀ e ∈ resume, f.moment.now < e)
    (stop : (f.waits abandon c resume next s).next? limit = some t) :
    runTo limit (f.wait abandon c resume next s) =
      runTo limit ((f.next t (le_of_next? stop)).wait abandon c resume next s) := by
  have settled : (f.wait abandon c resume next s).settle = f.waits abandon c resume next s :=
    settle_wait calm working
  rw [runTo_next (by rw [settled]; rfl) (by rw [settled]; exact stop), settled]
  rfl

/-- What waits without being disturbed waits still when the clock has come to a time at which it may stop. -/
theorem reach (abandon : σ → σ) (next : Option Interrupt → Routine σ α) (s : σ)
    (stop : f.moment.now < u → f.Stops c resume u) (later : f.moment.now ≤ u)
    (calm : ∀ t, f.moment.now ≤ t → t < u → ¬ c.Interrupted (f.view t))
    (working : ∀ e ∈ resume, u ≤ e) :
    ∃ p : Forecast, f.Leads p ∧ p.moment.now = u ∧ ∀ limit, u ≤ limit →
      runTo limit (f.wait abandon c resume next s) = runTo limit (p.wait abandon c resume next s) := by
  -- By induction on the time that is left. The next stop is looked for with `u` as the limit: it is the same one
  -- for each later limit, so that the forecast does not depend on the limit.
  induction gap : u - f.moment.now using Nat.strongRecOn generalizing f with
  | ind n ih =>
    obtain now | before := Nat.eq_or_lt_of_le later
    · exact ⟨f, .refl f, now, fun _ _ => rfl⟩
    · obtain ⟨t, found⟩ := exists_next? abandon next s (stop before) before (Nat.le_refl u)
      obtain ⟨⟨stops, after, inside⟩, least⟩ := next?_waits_eq_some_iff.1 found
      have leads : f.Leads (f.next t (le_of_next? found)) := leads_next _ (Nat.le_of_lt after)
      have same (limit : Time) (within : u ≤ limit) :
          runTo limit (f.wait abandon c resume next s) =
            runTo limit ((f.next t (le_of_next? found)).wait abandon c resume next s) := by
        refine runTo_wait (calm _ (Nat.le_refl _) before)
          (fun e he => Nat.lt_of_lt_of_le before (working e he)) ?_
        refine next?_waits_eq_some_iff.2
          ⟨⟨stops, after, Nat.le_trans inside within⟩, fun v hv hl _ => ?_⟩
        by_cases early : v ≤ u
        · exact least v hv hl early
        · exact Nat.le_trans inside (Nat.le_of_not_le early)
      have stop' (_ : t < u) : (f.next t (le_of_next? found)).Stops c resume u := by
        refine (stop before).imp_right (Or.imp_right ?_)
        rintro ⟨a, set, rfl⟩
        exact ⟨a, List.mem_filter.2 ⟨set, by simpa using before⟩, rfl⟩
      have calm' (v : Time) (hv : t ≤ v) (hu : v < u) :
          ¬ c.Interrupted ((f.next t (le_of_next? found)).view v) := by
        rw [Context.interrupted_leads leads hv]
        exact calm v (Nat.le_trans (Nat.le_of_lt after) hv) hu
      have shorter : u - t < n := by
        rw [← gap]
        exact Nat.sub_lt_sub_left before after
      obtain ⟨p, leads', now, same'⟩ :=
        ih (u - t) shorter (f := f.next t (le_of_next? found)) stop' inside calm' rfl
      have order : t ≤ p.moment.now := by rw [now]; exact inside
      refine ⟨p, leads.trans leads' order, now, fun limit within => ?_⟩
      exact (same limit within).trans (same' limit within)

/-- What waits for ever and is not disturbed is abandoned in the end. -/
theorem hangs_wait (calm : ∀ t, f.moment.now ≤ t → ¬ c.Interrupted (f.view t)) :
    (runTo limit (f.wait abandon c none next s)).results = [none] := by
  -- By induction on the time up to the limit: the clock may still stop at alarms for others.
  induction gap : limit - f.moment.now using Nat.strongRecOn generalizing f with
  | ind n ih =>
    have now := calm _ (Nat.le_refl _)
    have working : ∀ e ∈ (none : Option Time), f.moment.now < e := by simp
    cases found : (f.waits abandon c none next s).next? limit with
    | none =>
      have settled : (f.wait abandon c none next s).settle = f.waits abandon c none next s :=
        settle_wait now working
      rw [runTo_last (by rw [settled]; rfl) (by rw [settled]; exact found), settled]
      rfl
    | some t =>
      obtain ⟨⟨-, after, within⟩, -⟩ := next?_waits_eq_some_iff.1 found
      have shorter : limit - t < n := by
        rw [← gap]
        exact Nat.sub_lt_sub_left (Nat.lt_of_lt_of_le after within) after
      rw [runTo_wait now working found]
      refine ih (limit - t) shorter (fun u hu => ?_) rfl
      rw [Context.interrupted_leads (leads_next _ (Nat.le_of_lt after)) hu]
      exact calm u (Nat.le_trans (Nat.le_of_lt after) hu)

/-- A context begins to fail only when the clock may stop. -/
theorem stops_of_isLeast (first : IsLeast {u | f.moment.now ≤ u ∧ c.Interrupted (f.view u)} t)
    (later : f.moment.now < t) : f.Stops c resume t := by
  have least {u : Time} (after : f.moment.now ≤ u) (fails : c.Interrupted (f.view u)) : t ≤ u :=
    first.2 ⟨after, fails⟩
  obtain rung | ⟨a, set, due, inside⟩ | ⟨d, deadline, passed⟩ := Context.interrupted_view_iff.1 first.1.2
  · have := least (Nat.le_refl _) (Context.interrupted_view_iff.2 (.inl rung))
    exact (Nat.not_le_of_lt later this).elim
  · have := least (f.pending a set)
      (Context.interrupted_view_iff.2 (.inr (.inl ⟨a, set, Nat.le_refl _, inside⟩)))
    exact .inr (.inr ⟨a, set, Nat.le_antisymm due this⟩)
  · have := least (Nat.le_max_left _ d)
      (Context.interrupted_view_iff.2 (.inr (.inr ⟨d, deadline, Nat.le_max_right _ _⟩)))
    obtain early | now := le_max_iff.1 this
    · exact (Nat.not_le_of_lt later early).elim
    · exact .inr (.inl (by rw [deadline, Nat.le_antisymm passed now]))

/-- What waits goes on when its work is done, if no alarm of this moment has rung yet. -/
theorem poll_done (calm : ¬ c.Interrupted f.moment) (works : resume = some f.moment.now) :
    (f.wait abandon c resume next s).poll = (f.ready (next none) s).poll := by
  simp [Schedule.poll, ready, wait, pollAll, Job.poll, Context.interrupt?_eq_none calm, works]

/-- What waits is interrupted at once, or else by an alarm of this moment. -/
theorem finishes_interrupted (answer : Interrupt → α) (answers : ∀ i, next (some i) = .done (answer i))
    (interrupted : c.Interrupted (f.view f.moment.now))
    (working : ¬ c.Interrupted f.moment → ∀ e ∈ resume, f.moment.now < e) :
    ∃ i, (f.wait abandon c resume next s).Finishes f.moment.now (answer i) s := by
  by_cases already : c.Interrupted f.moment
  · obtain ⟨i, found⟩ := Option.isSome_iff_exists.1 already
    have polled : (f.wait abandon c resume next s).poll =
        ⟨f.moment, f.alarms, [.finished (answer i)], s⟩ := by
      simp [Schedule.poll, wait, pollAll, Job.poll, found, answers, advance]
    exact ⟨i, finishes_of_poll polled⟩
  · obtain ⟨i, found⟩ := Option.isSome_iff_exists.1 interrupted
    have same : (f.wait abandon c resume next s).poll = f.wait abandon c resume next s :=
      poll_blocked already (working already)
    have settled : (f.wait abandon c resume next s).settle =
        ⟨f.view f.moment.now, f.alarms.filter (f.moment.now < ·.time), [.finished (answer i)], s⟩ := by
      rw [settle, same, ring_wait]
      simp [Schedule.poll, waits, pollAll, Job.poll, found, answers, advance]
    refine ⟨i, fun limit _ => ?_⟩
    rw [runTo, settled, if_neg (by simp [isActive])]
    exact ⟨_, _, rfl⟩

/-- What waits goes on when its work is done, if nothing interrupts it before or then. -/
theorem wait_wins (ends : resume = some t) (later : f.moment.now ≤ t)
    (calm : ∀ u, f.moment.now ≤ u → c.Interrupted (f.view u) → t < u) (answers : next none = .done a) :
    (f.wait abandon c resume next s).Finishes t a s := by
  have before (u : Time) (hu : f.moment.now ≤ u) (ht : u ≤ t) : ¬ c.Interrupted (f.view u) :=
    fun h => Nat.not_le_of_lt (calm u hu h) ht
  obtain ⟨p, leads, now, same⟩ := reach abandon next s (fun _ => .inl ends) later
    (fun u hu ht => before u hu (Nat.le_of_lt ht)) (by simp [ends])
  have still : ¬ c.Interrupted p.moment := fun h => by
    have h := Context.interrupted_view h
    rw [now, Context.interrupted_leads leads (Nat.le_of_eq now)] at h
    exact before t later (Nat.le_refl _) h
  have works : resume = some p.moment.now := by rw [now, ends]
  have done : (p.ready (next none) s).Finishes p.moment.now a s := finishes_ready (by rw [answers]; rfl)
  rw [now] at done
  refine finishes_congr (fun limit within => (same limit within).trans ?_) done
  exact runTo_congr (poll_done still works)

/-- What waits is interrupted when its context fails, if its work is not done before. An alarm of the time at
which the work is done comes too late. -/
theorem wait_loses (first : IsLeast {u | f.moment.now ≤ u ∧ c.Interrupted (f.view u)} t)
    (late : ∀ e ∈ resume, t ≤ e)
    (apart : ∀ e ∈ resume, ∀ a ∈ f.alarms, a.time = e → ¬ a.scope <:+ c.scope)
    (answer : Interrupt → α) (answers : ∀ i, next (some i) = .done (answer i)) :
    ∃ i, (f.wait abandon c resume next s).Finishes t (answer i) s := by
  obtain ⟨p, leads, now, same⟩ := reach abandon next s (stops_of_isLeast first) first.1.1
    (fun u hu ht h => Nat.not_le_of_lt ht (first.2 ⟨hu, h⟩)) late
  have fails : c.Interrupted (p.view p.moment.now) := by
    rw [now, Context.interrupted_leads leads (Nat.le_of_eq now)]
    exact first.1.2
  have working (calm : ¬ c.Interrupted p.moment) (e : Time) (he : e ∈ resume) : p.moment.now < e := by
    obtain ⟨a, set, rings, inside⟩ := Context.exists_alarm fails calm
    rw [now] at rings ⊢
    refine Nat.lt_of_le_of_ne (late e he) fun same => ?_
    exact apart e he a (leads.alarms set) (rings.trans same) inside
  obtain ⟨i, done⟩ : ∃ i, (p.wait abandon c resume next s).Finishes p.moment.now (answer i) s :=
    finishes_interrupted answer answers fails working
  rw [now] at done
  exact ⟨i, finishes_congr same done⟩

end Forecast

end PackageDepot
