import Mathlib.Data.List.Basic
import PackageDepot.Clock.Instant
import PackageDepot.Proofs.Clock.Context

/-!
# Instants and times

An instant and a duration stand for numbers of nanoseconds. Adding them adds these numbers, and is an overflow
if no instant stands for the sum (`add_ok_iff`, `add_ofSeconds_error_iff`). A clock that began at an instant tells the
times of a virtual one, as long as it can (`Instant.Tells`): then narrowing a deadline on the machine's clock is
narrowing it on the virtual one (`narrow_tells`).
-/

namespace PackageDepot

namespace Instant

variable {i j now origin : Instant} {d : Duration}

theorem before_iff : i.before j = true ↔ i.toNanos < j.toNanos := by
  have hi := i.nanos_lt
  have hj := j.nanos_lt
  simp only [before, toNanos, nanosPerSecond, Bool.or_eq_true, Bool.and_eq_true, decide_eq_true_eq] at hi hj ⊢
  omega

theorem ofParts_ok_iff {seconds : Int} {nanos : Nat} (first_le : -9223372036854775808 ≤ seconds)
    (nanos_lt : nanos < nanosPerSecond) :
    ofParts seconds nanos first_le nanos_lt = .ok j ↔ j.seconds = seconds ∧ j.nanos = nanos := by
  unfold ofParts
  split
  · next le_last =>
    constructor
    · rintro ⟨⟩
      exact ⟨rfl, rfl⟩
    · rintro ⟨rfl, rfl⟩
      rfl
  · next late =>
    refine ⟨nofun, ?_⟩
    rintro ⟨rfl, -⟩
    exact (late j.le_last).elim

/-- **A sum is the instant that stands for the sum**, if there is one. -/
theorem add_ok_iff : i.add d = .ok j ↔ j.toNanos = i.toNanos + d.toNanos := by
  have hi := i.nanos_lt
  have hj := j.nanos_lt
  have hd := d.nanos_lt
  unfold add
  split
  · next small =>
    rw [ofParts_ok_iff]
    simp only [toNanos, Duration.toNanos, nanosPerSecond] at *
    omega
  · next carry =>
    rw [ofParts_ok_iff]
    simp only [toNanos, Duration.toNanos, nanosPerSecond] at *
    omega

theorem ofParts_error_iff {seconds : Int} {nanos : Nat} (first_le : -9223372036854775808 ≤ seconds)
    (nanos_lt : nanos < nanosPerSecond) :
    ofParts seconds nanos first_le nanos_lt = .error .overflow ↔ lastSecond < seconds := by
  unfold ofParts
  split
  · next le_last => exact ⟨nofun, fun late => (Int.not_lt.2 le_last late).elim⟩
  · next late => exact ⟨fun _ => Int.not_le.1 late, fun _ => rfl⟩

/-- The seconds of a sum are too many if those of the whole seconds are. -/
theorem add_ofSeconds_error_iff {n : Nat} :
    i.add (.ofSeconds n) = .error .overflow ↔ lastSecond < i.seconds + n := by
  have whole : (Duration.ofSeconds n).nanos = 0 := rfl
  have small : i.nanos + (Duration.ofSeconds n).nanos < nanosPerSecond := i.nanos_lt
  rw [add, dif_pos small, ofParts_error_iff]
  rfl

/-- A deadline is narrowed to the earlier one of itself and the end of the duration. -/
theorem narrow_ok_iff {deadline : Option Instant} : now.narrow deadline d = .ok j ↔
    ∃ candidate, now.add d = .ok candidate ∧
      (deadline.elim candidate fun i => if i.before candidate then i else candidate) = j := by
  unfold narrow
  cases now.add d with
  | error o => exact ⟨nofun, by rintro ⟨_, ⟨⟩, _⟩⟩
  | ok candidate =>
    cases deadline with
    | none => exact ⟨fun h => ⟨candidate, rfl, Except.ok.inj h⟩, by rintro ⟨_, ⟨⟩, rfl⟩; rfl⟩
    | some i => exact ⟨fun h => ⟨candidate, rfl, Except.ok.inj h⟩, by rintro ⟨_, ⟨⟩, rfl⟩; rfl⟩

/-- The end of the duration is looked for whatever the deadline is. -/
theorem narrow_error_iff {deadline : Option Instant} :
    now.narrow deadline d = .error .overflow ↔ now.add d = .error .overflow := by
  unfold narrow
  cases now.add d with
  | error o => exact Iff.rfl
  | ok candidate => cases deadline <;> exact ⟨nofun, nofun⟩

/-! ## Times of a virtual clock -/

/-- A clock that began at an instant tells a time, if there is one. -/
def Tells (origin : Instant) : Option Time → Option Instant → Prop :=
  Option.Rel fun t i => origin.add (.ofMilliseconds t) = .ok i

theorem toNanos_ofMilliseconds (t : Nat) : (Duration.ofMilliseconds t).toNanos = t * 1000000 := by
  simp only [Duration.ofMilliseconds, Duration.toNanos, nanosPerSecond]
  omega

theorem tells_iff {t : Nat} : origin.add (.ofMilliseconds t) = .ok i ↔
    i.toNanos = origin.toNanos + (t * 1000000 : Nat) := by
  rw [add_ok_iff, toNanos_ofMilliseconds]

/-- Later times are later instants. -/
theorem before_iff_lt {t u : Nat} (first : origin.add (.ofMilliseconds t) = .ok i)
    (second : origin.add (.ofMilliseconds u) = .ok j) : i.before j = true ↔ t < u := by
  rw [tells_iff] at first second
  rw [before_iff, first, second]
  omega

/-- What is a number of seconds later on the machine's clock is so on the virtual one. -/
theorem add_ofSeconds_tells {t n : Nat} (begins : origin.add (.ofMilliseconds t) = .ok now) :
    now.add (.ofSeconds n) = .ok j ↔ origin.add (.ofMilliseconds (t + n * 1000)) = .ok j := by
  have seconds : (Duration.ofSeconds n).toNanos = n * nanosPerSecond := Nat.add_zero _
  rw [tells_iff] at begins
  rw [add_ok_iff, tells_iff, begins, seconds, nanosPerSecond]
  omega

/-- **Narrowing a deadline** on the machine's clock gives the instant of the deadline that is narrowed on the
virtual clock. -/
theorem narrow_tells {existing : Option Time} {deadline : Option Instant} {scope : Scope} {t n : Nat}
    (begins : origin.add (.ofMilliseconds t) = .ok now) (shown : origin.Tells existing deadline)
    (narrowed : now.narrow deadline (.ofSeconds n) = .ok j) :
    origin.Tells (Context.withTimeout ⟨scope, existing⟩ t (n * 1000)).deadline (some j) := by
  obtain ⟨candidate, sum, rfl⟩ := narrow_ok_iff.1 narrowed
  have later := (add_ofSeconds_tells begins).1 sum
  cases shown with
  | none => exact .some later
  | @some d earlier told =>
    have same := before_iff_lt told later
    refine .some (show origin.add (.ofMilliseconds (if d < t + n * 1000 then d else t + n * 1000)) =
      .ok (if earlier.before candidate then earlier else candidate) from ?_)
    by_cases first : earlier.before candidate = true
    · rw [if_pos first, if_pos (same.1 first)]
      exact told
    · rw [if_neg first, if_neg fun lt => first (same.2 lt)]
      exact later

end Instant

end PackageDepot
