import PackageDepot.Clock.Routine

/-!
# One thread and a virtual clock

`Schedule.run` carries out routines that share a state. One thread goes through them in order; each
goes on until it is done or waits. When all of them wait, the clock jumps to the next moment at which
one of them can go on. Scopes are cancelled by alarms, behind the routines that go on at that moment.
What is not done at the end of the time allowed is abandoned.
-/

namespace PackageDepot

/-- Cancels a scope at a time. -/
structure Alarm where
  time : Time
  scope : Scope
  deriving DecidableEq, Repr

/-- A routine as the thread finds it. -/
inductive Job (σ α : Type)
  | ready (p : Routine σ α)
  | blocked (abandon : σ → σ) (context : Context) (resume : Option Time)
      (next : Option Interrupt → Routine σ α)
  | finished (a : α)
  | abandoned

namespace Job

variable {σ α : Type}

/-- Go on with a routine until it is done or waits. -/
def advance (m : Moment) : Routine σ α → σ → Job σ α × σ
  | .done a, s => (.finished a, s)
  | .step _ effect next, s => advance m (next m s) (effect m s)
  | .wait abandon c duration next, s =>
    match c.interrupt? m with
    | some i => advance m (next (some i)) s
    | none =>
      if duration = some 0 then advance m (next none) s
      else (.blocked abandon c (duration.map (m.now + ·)) next, s)

/-- Let a routine go on if it can. An interrupt comes before the end of the work. -/
def poll (m : Moment) (j : Job σ α) (s : σ) : Job σ α × σ :=
  match j with
  | .ready p => advance m p s
  | .blocked _ c resume next =>
    match c.interrupt? m with
    | some i => advance m (next (some i)) s
    | none => if resume.any (· ≤ m.now) then advance m (next none) s else (j, s)
  | _ => (j, s)

/-- Let all routines go on, in order. -/
def pollAll (m : Moment) : List (Job σ α) → σ → List (Job σ α) × σ
  | [], s => ([], s)
  | j :: rest, s =>
    let (j, s) := poll m j s
    let (rest, s) := pollAll m rest s
    (j :: rest, s)

/-- The times at which a routine can go on. -/
def wakes : Job σ α → List Time
  | .blocked _ c resume _ => resume.toList ++ c.deadline.toList
  | _ => []

/-- The routine is still going on. -/
def isActive : Job σ α → Bool
  | .ready _ | .blocked .. => true
  | _ => false

/-- Abandon a routine that is not done. -/
def abandon (j : Job σ α) (s : σ) : Job σ α × σ :=
  match j with
  | .ready p => (.abandoned, p.abandon s)
  | .blocked a .. => (.abandoned, a s)
  | _ => (j, s)

/-- Abandon all routines that are not done. -/
def abandonAll : List (Job σ α) → σ → List (Job σ α) × σ
  | [], s => ([], s)
  | j :: rest, s =>
    let (j, s) := abandon j s
    let (rest, s) := abandonAll rest s
    (j :: rest, s)

/-- The result of a routine; there is none if it was abandoned. -/
def result? : Job σ α → Option α
  | .finished a => some a
  | _ => none

end Job

/-- Routines with the clock, the alarms that are set, and the state. -/
structure Schedule (σ α : Type) where
  moment : Moment
  alarms : List Alarm
  jobs : List (Job σ α)
  state : σ

namespace Schedule

variable {σ α : Type}

/-- Let all routines go on. -/
def poll (x : Schedule σ α) : Schedule σ α :=
  let (jobs, state) := Job.pollAll x.moment x.jobs x.state
  { x with jobs, state }

/-- Carry out the alarms that are due. -/
def ring (x : Schedule σ α) : Schedule σ α :=
  let due := x.alarms.filter (·.time ≤ x.moment.now)
  { x with
    alarms := x.alarms.filter (¬ ·.time ≤ x.moment.now)
    moment := { x.moment with cancelled := x.moment.cancelled ++ due.map (·.scope) } }

/-- All that happens at one moment. -/
def settle (x : Schedule σ α) : Schedule σ α := x.poll.ring.poll

theorem settle_now (x : Schedule σ α) : x.settle.moment.now = x.moment.now := rfl

/-- The next time at which something happens, if that is not behind a limit. -/
def next? (x : Schedule σ α) (limit : Time) : Option Time :=
  let times := x.alarms.map (·.time) ++ x.jobs.flatMap Job.wakes
  (times.filter fun t => x.moment.now < t && t ≤ limit).min?

theorem next?_bounds {x : Schedule σ α} {limit t : Time} (h : x.next? limit = some t) :
    x.moment.now < t ∧ t ≤ limit := by
  have := List.min?_mem h
  simpa using (List.mem_filter.1 this).2

/-- Abandon what is not done. -/
def abandon (x : Schedule σ α) (limit : Time) : Schedule σ α :=
  let (jobs, state) := Job.abandonAll x.jobs x.state
  { x with jobs, state, moment := { x.moment with now := max x.moment.now limit } }

/-- Go on from moment to moment until all routines are done or the limit is reached. -/
def runTo (limit : Time) (x : Schedule σ α) : Schedule σ α :=
  let y := x.settle
  if y.jobs.any Job.isActive then
    match _h : y.next? limit with
    | some t => runTo limit { y with moment := { y.moment with now := t } }
    | none => y.abandon limit
  else y
termination_by limit - x.moment.now
decreasing_by
  have hb := next?_bounds _h
  rw [settle_now] at hb
  exact Nat.sub_lt_sub_left (Nat.lt_of_lt_of_le hb.1 hb.2) hb.1

/-- The time that routines are allowed: a day. -/
def day : Nat := 86400000

/-- Carry out routines from a moment on. -/
def run (m : Moment) (alarms : List Alarm) (ps : List (Routine σ α)) (s : σ) : Schedule σ α :=
  runTo (m.now + day) ⟨m, alarms, ps.map .ready, s⟩

/-- The results of the routines. -/
def results (x : Schedule σ α) : List (Option α) := x.jobs.map Job.result?

end Schedule

end PackageDepot
