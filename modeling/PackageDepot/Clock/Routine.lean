import PackageDepot.Clock.Context

/-!
# Routines: calls that are carried out step by step

A `Routine σ α` is a call in progress over a state `σ` that it shares with other calls. It goes on by
atomic steps, between which other calls may make theirs, or it waits in a context until its work is
done or the context is interrupted. Each point at which it stands says what is left to be put in order
if the call is abandoned there (`abandon`), such as a lease that is to be given back.

Routines are a lawful monad. A `guarded` routine puts something in order wherever it is abandoned, and a
`holding` one behind its end too.
-/

namespace PackageDepot

/-- A call in progress. -/
inductive Routine (σ α : Type) : Type
  | done (a : α)
  /-- One atomic step; `effect` is its effect on the state, and `next` sees the state before it. -/
  | step (abandon : σ → σ) (effect : Moment → σ → σ) (next : Moment → σ → Routine σ α)
  /-- Wait in a context for work that takes a time, or for ever. -/
  | wait (abandon : σ → σ) (context : Context) (duration : Option Nat)
      (next : Option Interrupt → Routine σ α)

namespace Routine

variable {σ α β : Type}

/-- Go on with another routine. -/
def bind : Routine σ α → (α → Routine σ β) → Routine σ β
  | .done a, f => f a
  | .step abandon effect next, f => .step abandon effect fun m s => bind (next m s) f
  | .wait abandon c d next, f => .wait abandon c d fun i => bind (next i) f

instance : Monad (Routine σ) where
  pure := .done
  bind := bind

theorem bind_eq (p : Routine σ α) (f : α → Routine σ β) : p >>= f = bind p f := rfl

theorem bind_done (p : Routine σ α) : bind p .done = p := by
  induction p with
  | done a => rfl
  | step abandon effect next ih => simp [bind, ih]
  | wait abandon c d next ih => simp [bind, ih]

theorem bind_assoc {γ : Type} (p : Routine σ α) (f : α → Routine σ β) (g : β → Routine σ γ) :
    bind (bind p f) g = bind p fun a => bind (f a) g := by
  induction p with
  | done a => rfl
  | step abandon effect next ih => simp [bind, ih]
  | wait abandon c d next ih => simp [bind, ih]

instance : LawfulMonad (Routine σ) := .mk' (Routine σ)
  (fun p => bind_done p) (fun _ _ => rfl) (fun p f g => bind_assoc p f g)

/-- One atomic step that reads the state and changes it. -/
def act (f : Moment → σ → α × σ) : Routine σ α :=
  .step id (fun m s => (f m s).2) fun m s => .done (f m s).1

/-- One atomic step that reads the state. -/
def read (f : Moment → σ → α) : Routine σ α := act fun m s => (f m s, s)

/-- Wait for work that takes a time, or for ever. -/
def await (c : Context) (duration : Option Nat) : Routine σ (Option Interrupt) :=
  .wait id c duration .done

/-- What is to be put in order if a routine is abandoned where it stands. -/
def abandon : Routine σ α → σ → σ
  | .done _ => id
  | .step a _ _ => a
  | .wait a _ _ _ => a

/-- Put something in order wherever a routine is abandoned. -/
def guarded (release : σ → σ) : Routine σ α → Routine σ α
  | .done a => .done a
  | .step abandon effect next =>
    .step (release ∘ abandon) effect fun m s => guarded release (next m s)
  | .wait abandon c d next => .wait (release ∘ abandon) c d fun i => guarded release (next i)

/-- Carry out a routine and put something in order behind it, or where it is abandoned. -/
def holding (release : σ → σ) (p : Routine σ α) : Routine σ α :=
  bind (guarded release p) fun a => .step release (fun _ => release) fun _ _ => .done a

/-- The routine has come to its end. -/
def isDone : Routine σ α → Bool
  | .done _ => true
  | _ => false

end Routine

end PackageDepot
