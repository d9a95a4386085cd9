import PackageDepot.Pipeline.Deadline
import PackageDepot.Proofs.Backend.Git
import PackageDepot.Proofs.Clock.Instant
import PackageDepot.Proofs.Toml.Integers

/-!
# Time limits that no deadline can keep

A time limit of up to 2⁶³ − 1 seconds is accepted, and is added to the instant at which a task begins. If no
instant is so late, that is an overflow (`taskDeadlines_error_iff`). So in the first second of the machine's
clock all configurations that are accepted have deadlines, and later none is safe that has the longest time limit
(`time_limits`). Where there are deadlines they are those of the virtual clock.
-/

namespace PackageDepot

open Backend (bind_eq_error_iff bind_eq_ok_iff)
open Instant (lastSecond)

namespace Config

variable {text : String} {config : Config} {n : Nat}

theorem nat?_ok {key : String} {t : Toml.Table} (h : nat? key t = .ok (some n)) :
    t.lookup key = some (.int n) := by
  unfold nat? at h
  split at h
  · cases h
  · next i found =>
    split at h
    · next nonneg =>
      cases h
      rw [found, Int.toNat_of_nonneg nonneg]
    · cases h
  · cases h

/-- A time limit that is accepted is an integer of 64 bits. -/
theorem taskTimeout_le (accepted : parse text = .ok config) (limited : config.taskTimeout = some n) :
    (n : Int) ≤ lastSecond := by
  unfold parse at accepted
  split at accepted
  · next t read =>
    simp only [ofTable, bind_eq_ok_iff] at accepted
    obtain ⟨_, -, timeout, found, _, -, accepted⟩ := accepted
    split at accepted
    · cases accepted
    · cases accepted
      obtain rfl : timeout = some n := limited
      exact ((Toml.Table.ofString?_fits read).lookup (nat?_ok found) n rfl).2
  · cases accepted

/-- A configuration with the longest time limit. -/
def patient : String := "task_timeout_secs = 9223372036854775807"

theorem parse_patient : parse patient = .ok { taskTimeout := some 9223372036854775807 } := by
  have read : (parse patient).toOption = some { taskTimeout := some 9223372036854775807 } := by
    decide +kernel
  cases accepted : parse patient with
  | ok config =>
    rw [accepted] at read
    exact congrArg Except.ok (Option.some.inj read)
  | error f =>
    rw [accepted] at read
    cases read

end Config

namespace Pipeline

variable {config : Config} {deadline : Option Instant} {now : Instant} {begins : List Instant}

theorem taskDeadline_unlimited (unlimited : config.taskTimeout = none) :
    taskDeadline config deadline now = .ok deadline := by
  rw [taskDeadline, Config.taskDuration, unlimited]
  rfl

theorem taskDeadline_limited {n : Nat} (limited : config.taskTimeout = some n) :
    taskDeadline config deadline now = (now.narrow deadline (.ofSeconds n)).map some := by
  rw [taskDeadline, Config.taskDuration, limited]
  rfl

/-- A task has no deadline if its time limit leads behind the last second. -/
theorem taskDeadline_error_iff : taskDeadline config deadline now = .error .overflow ↔
    ∃ n, config.taskTimeout = some n ∧ lastSecond < now.seconds + n := by
  cases limited : config.taskTimeout with
  | none =>
    rw [taskDeadline_unlimited limited]
    exact ⟨nofun, by rintro ⟨_, ⟨⟩, _⟩⟩
  | some n =>
    have narrowed : (now.narrow deadline (.ofSeconds n)).map some = .error .overflow ↔
        now.narrow deadline (.ofSeconds n) = .error .overflow := by
      cases now.narrow deadline (.ofSeconds n) with
      | ok i => exact ⟨nofun, nofun⟩
      | error o => exact ⟨fun _ => rfl, fun _ => rfl⟩
    rw [taskDeadline_limited limited, narrowed, Instant.narrow_error_iff,
      Instant.add_ofSeconds_error_iff]
    exact ⟨fun late => ⟨n, rfl, late⟩, by rintro ⟨_, ⟨⟩, late⟩; exact late⟩

/-- Tasks have deadlines unless one of them has none. -/
theorem taskDeadlines_error_iff : taskDeadlines config deadline begins = .error .overflow ↔
    ∃ n, config.taskTimeout = some n ∧ ∃ now ∈ begins, lastSecond < now.seconds + n := by
  have one : taskDeadlines config deadline begins = .error .overflow ↔
      ∃ now ∈ begins, taskDeadline config deadline now = .error .overflow := by
    induction begins with
    | nil => exact ⟨nofun, by rintro ⟨_, ⟨⟩, _⟩⟩
    | cons now rest ih =>
      rw [taskDeadlines, List.mapM_cons, bind_eq_error_iff]
      constructor
      · rintro (first | ⟨_, -, others⟩)
        · exact ⟨now, List.mem_cons_self, first⟩
        · obtain others | ⟨_, -, ⟨⟩⟩ := bind_eq_error_iff.1 others
          obtain ⟨next, begun, late⟩ := ih.1 others
          exact ⟨next, List.mem_cons_of_mem now begun, late⟩
      · rintro ⟨next, begun, late⟩
        cases first : taskDeadline config deadline now with
        | error o => exact .inl rfl
        | ok i =>
          obtain rfl | begun := List.mem_cons.1 begun
          · cases first.symm.trans late
          · exact .inr ⟨i, rfl, bind_eq_error_iff.2 (.inl (ih.2 ⟨next, begun, late⟩))⟩
  simp only [one, taskDeadline_error_iff]
  constructor
  · rintro ⟨now, begun, n, limited, late⟩
    exact ⟨n, limited, now, begun, late⟩
  · rintro ⟨n, limited, now, begun, late⟩
    exact ⟨now, begun, n, limited, late⟩

/-- **The deadline of a task on the machine's clock** is that of the context in which the task is carried out
on the virtual clock. -/
theorem taskDeadline_tells {origin : Instant} {c : Context} {label : Nat} {m : Moment}
    {narrowed : Option Instant} (begins : origin.add (.ofMilliseconds m.now) = .ok now)
    (shown : origin.Tells c.deadline deadline) (told : taskDeadline config deadline now = .ok narrowed) :
    origin.Tells (c.inTask label config.taskMilliseconds m).deadline narrowed := by
  unfold Config.taskMilliseconds
  cases limited : config.taskTimeout with
  | none =>
    rw [taskDeadline_unlimited limited] at told
    cases told
    exact shown
  | some n =>
    rw [taskDeadline_limited limited] at told
    cases inner : now.narrow deadline (.ofSeconds n) with
    | ok i =>
      rw [inner] at told
      cases told
      exact Instant.narrow_tells begins shown inner
    | error o =>
      rw [inner] at told
      cases told

/-! ## What comes of time limits -/

/-- What comes of time limits in a pipeline whose tasks begin at these instants. -/
structure TimeLimits (begins : List Instant) : Prop where
  /-- A time limit that is accepted is an integer of 64 bits. -/
  bounded : ∀ text config n, Config.parse text = .ok config → config.taskTimeout = some n →
    (n : Int) ≤ lastSecond
  /-- There is an overflow if the time limit leads behind the last second from where a task begins. The
  deadline of the call does not count. -/
  overflow : ∀ config deadline, taskDeadlines config deadline begins = .error .overflow ↔
    ∃ n, config.taskTimeout = some n ∧ ∃ now ∈ begins, lastSecond < now.seconds + n
  /-- In the first second of the clock every configuration that is accepted has deadlines for all tasks. -/
  early : (∀ now ∈ begins, now.seconds < 1) → ∀ text config deadline, Config.parse text = .ok config →
    ∃ deadlines, taskDeadlines config deadline begins = .ok deadlines
  /-- Later there is one that has none. -/
  late : (∃ now ∈ begins, 1 ≤ now.seconds) → ∃ text config, Config.parse text = .ok config ∧
    ∀ deadline, taskDeadlines config deadline begins = .error .overflow
  /-- The deadlines are those of the virtual clock. -/
  tells : ∀ config (origin : Instant) (c : Context) label (m : Moment) deadline, ∀ now ∈ begins,
    ∀ narrowed, origin.add (.ofMilliseconds m.now) = .ok now → origin.Tells c.deadline deadline →
    taskDeadline config deadline now = .ok narrowed →
    origin.Tells (c.inTask label config.taskMilliseconds m).deadline narrowed

/-- **Time limits** can be too long for any deadline, from the first full second of the clock on. -/
theorem time_limits (begins : List Instant) : TimeLimits begins where
  bounded _ _ _ accepted limited := Config.taskTimeout_le accepted limited
  overflow _ _ := taskDeadlines_error_iff
  early first _ config deadline accepted := by
    cases all : taskDeadlines config deadline begins with
    | ok deadlines => exact ⟨deadlines, rfl⟩
    | error o =>
      obtain ⟨n, limited, now, begun, late⟩ := taskDeadlines_error_iff.1 all
      have bound := Config.taskTimeout_le accepted limited
      have second := first now begun
      omega
  late := by
    rintro ⟨now, begun, second⟩
    refine ⟨_, _, Config.parse_patient, fun deadline => ?_⟩
    refine taskDeadlines_error_iff.2 ⟨_, rfl, now, begun, ?_⟩
    show lastSecond < now.seconds + 9223372036854775807
    rw [lastSecond]
    omega
  tells _ _ _ _ _ _ _ _ _ begun shown told := taskDeadline_tells begun shown told

/-- **The longest time limit leaves no deadline** for a task that begins a second after the clock did, and a
configuration with it is accepted. -/
theorem longest_limit_overflows : ∃ text config, Config.parse text = .ok config ∧
    taskDeadline config none { seconds := 1 } = .error .overflow :=
  ⟨_, _, Config.parse_patient, rfl⟩

end Pipeline

end PackageDepot
