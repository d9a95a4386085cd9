import PackageDepot.Proofs.Routine.Keeps

/-!
# Answers that are open

Answers of a kind are open as long as none of them is certain. `OpenUntil J A C p` says that the answers in `A`
stay open to `p` until it makes a step as `C` allows, provided that its steps are made in states that satisfy
`J`; they are `Pending` if they are open now as well. This is closed under `bind`, where the part behind may
rely on being behind an answer of the part in front. `Pending.move` is the step lemma for routines that share
a state.
-/

namespace PackageDepot.Routine

variable {σ α β : Type} {J : σ → Prop} {A : α → Prop} {C : Moment → σ → σ → Prop}

/-- No answer of this kind is certain. -/
def Open (A : α → Prop) (p : Routine σ α) : Prop := ∀ a, A a → ¬ p.Decided a

/-- Answers of this kind are open after each step, until one that is made in `J` is as `C` says. -/
def OpenUntil (J : σ → Prop) (A : α → Prop) (C : Moment → σ → σ → Prop) : Routine σ α → Prop
  | .done _ => True
  | .step _ effect next => ∀ m s, J s → (next m s).Open A ∧ OpenUntil J A C (next m s) ∨
      (∃ a, A a ∧ (next m s).Decided a) ∧ C m s (effect m s)
  | .wait _ _ _ next => ∀ i, (next i).Open A ∧ OpenUntil J A C (next i)

/-- Answers of this kind are open, and stay so until a step that is as `C` says. -/
def Pending (J : σ → Prop) (A : α → Prop) (C : Moment → σ → σ → Prop) (p : Routine σ α) : Prop :=
  p.Open A ∧ p.OpenUntil J A C

theorem open_done {a : α} (h : ¬ A a) : (done a : Routine σ α).Open A := by
  rintro _ ha rfl
  exact h ha

theorem pending_done {a : α} (h : ¬ A a) : (done a : Routine σ α).Pending J A C := ⟨open_done h, trivial⟩

/-- What comes in front decides no more than what comes behind one of its answers. -/
theorem Decided.of_bind [Inhabited σ] {p : Routine σ α} {f : α → Routine σ β} {b : β}
    (h : (p.bind f).Decided b) : ∃ a, (f a).Decided b := by
  induction p with
  | done a => exact ⟨a, h⟩
  | step abandon effect next ih => exact ih {} default (h {} default)
  | wait abandon c d next ih => exact ih none (h none)

theorem Open.bind [Inhabited σ] {B : β → Prop} {f : α → Routine σ β} (hf : ∀ a, (f a).Open B)
    (p : Routine σ α) : (p.bind f).Open B := by
  intro b hb decided
  obtain ⟨a, ha⟩ := decided.of_bind
  exact hf a b hb ha

/-- A part in front decides nothing, and leads to its answers. -/
theorem Pending.bind [Inhabited σ] {B : β → Prop} {p : Routine σ α} {f : α → Routine σ β}
    (hf : ∀ a, (f a).Open B)
    (behind : ∀ a, (∀ s, ∃ t, Within J p s a t) → (f a).OpenUntil J B C) :
    (p.bind f).Pending J B C := by
  refine ⟨.bind hf p, ?_⟩
  induction p with
  | done a => exact behind a fun s => ⟨s, .done a s⟩
  | step abandon effect next ih =>
    intro m s hj
    refine .inl ⟨.bind hf _, ih m s fun a comes => behind a fun s₀ => ?_⟩
    obtain ⟨t, rest⟩ := comes (effect m s)
    exact ⟨t, .step hj trivial rest⟩
  | wait abandon c d next ih =>
    refine fun i => ⟨.bind hf _, ih i fun a comes => behind a fun s₀ => ?_⟩
    obtain ⟨t, rest⟩ := comes s₀
    exact ⟨t, .wait i rest⟩

/-- **The step lemma.** -/
theorem Pending.move {p : Routine σ α} (hp : p.Pending J A C) (m : Moment) {s : σ}
    (hj : p.isDone = false → J s) : (p.move m s).1.Pending J A C ∨
      (∃ a, A a ∧ (p.move m s).1.Decided a) ∧ C m s (p.move m s).2 := by
  cases p with
  | done a => exact .inl hp
  | step abandon effect next => exact hp.2 m s (hj rfl)
  | wait abandon c d next =>
    simp only [Routine.move]
    cases c.interrupt? m with
    | some i => exact .inl (hp.2 (some i))
    | none =>
      cases d with
      | some d => exact .inl (hp.2 none)
      | none => exact .inl hp

end PackageDepot.Routine
