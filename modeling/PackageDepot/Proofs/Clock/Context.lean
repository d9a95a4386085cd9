import PackageDepot.Clock.Context

/-!
# Interrupts over time

A context that is interrupted stays so (`interrupted_since`), and so is what is carried out inside it
(`interrupted_inTask`).
-/

namespace PackageDepot

/-- A moment that is not before another one: time may have passed, and more scopes may be cancelled. -/
structure Moment.Since (m₀ m : Moment) : Prop where
  now : m₀.now ≤ m.now
  cancelled : m₀.cancelled ⊆ m.cancelled

namespace Context

variable {c : Context} {m m₀ : Moment}

/-- A call in the context has to be given up. -/
def Interrupted (c : Context) (m : Moment) : Prop := (c.interrupt? m).isSome = true

/-- The context is not interrupted at any of these moments: it is not cancelled, nor is it past its deadline,
which a call gives up for in the same way. -/
def Undisturbed (c : Context) (M : Moment → Prop) : Prop := ∀ m, M m → c.interrupt? m = none

/-- The context that a task is carried out in, with the time that a task may take. -/
def inTask (c : Context) (label : Nat) (timeout : Option Nat) (m : Moment) : Context :=
  match timeout with
  | some ms => (c.child label).withTimeout m.now ms
  | none => c

theorem interrupted_iff :
    c.Interrupted m ↔ m.isCancelled c.scope = true ∨ ∃ d, c.deadline = some d ∧ d ≤ m.now := by
  unfold Interrupted interrupt?
  cases m.isCancelled c.scope with
  | true => simp
  | false =>
    cases c.deadline with
    | none => simp
    | some d => by_cases h : d ≤ m.now <;> simp [h]

theorem interrupted_since (since : m₀.Since m) (h : c.Interrupted m₀) : c.Interrupted m := by
  rw [interrupted_iff] at h ⊢
  obtain cancelled | ⟨d, deadline, passed⟩ := h
  · obtain ⟨s, hs, inside⟩ := List.any_eq_true.1 cancelled
    exact .inl (List.any_eq_true.2 ⟨s, since.cancelled hs, inside⟩)
  · exact .inr ⟨d, deadline, Nat.le_trans passed since.now⟩

/-- Cancelling a scope cancels what is inside, and a deadline is only ever made earlier. -/
theorem interrupted_inTask (label : Nat) (timeout : Option Nat) (h : c.Interrupted m) :
    (c.inTask label timeout m).Interrupted m := by
  cases timeout with
  | none => exact h
  | some ms =>
    rw [interrupted_iff] at h ⊢
    obtain cancelled | ⟨d, deadline, passed⟩ := h
    · obtain ⟨s, hs, inside⟩ := List.any_eq_true.1 cancelled
      refine .inl (List.any_eq_true.2 ⟨s, hs, ?_⟩)
      rw [List.isSuffixOf_iff_suffix] at inside ⊢
      exact inside.trans (List.suffix_cons label c.scope)
    · refine .inr ⟨_, rfl, ?_⟩
      simp only [child, deadline]
      split
      · exact passed
      · next later => exact Nat.le_trans (Nat.le_of_not_lt later) passed

end Context

end PackageDepot
