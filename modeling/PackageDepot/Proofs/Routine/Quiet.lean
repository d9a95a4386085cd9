import PackageDepot.Clock.Routine

/-!
# Quiet routines

A routine is quiet if none of its steps changes the state. `Quiet r Q p` says this of `p`, that `r` is
what is to be put in order wherever `p` stands, and that an answer of `p` satisfies `Q`. It is closed
under `bind` and `guarded`, so a quiet routine is recognised by its parts. `Returns` are the answers
that a routine can come to at all, whatever happens between its steps.
-/

namespace PackageDepot.Routine

variable {σ α β : Type}

/-- No step changes the state, `release` is put in order on the way, and the answer satisfies `Q`. -/
def Quiet (release : σ → σ) (Q : α → Prop) : Routine σ α → Prop
  | .done a => Q a
  | .step abandon effect next =>
    abandon = release ∧ ∀ m s, effect m s = s ∧ Quiet release Q (next m s)
  | .wait abandon _ _ next => abandon = release ∧ ∀ i, Quiet release Q (next i)

/-- The answers that a routine can come to. -/
inductive Returns (a : α) : Routine σ α → Prop
  | done : Returns a (.done a)
  | step {abandon effect next} (m : Moment) (s : σ) (h : Returns a (next m s)) :
    Returns a (.step abandon effect next)
  | wait {abandon c d next} (i : Option Interrupt) (h : Returns a (next i)) :
    Returns a (.wait abandon c d next)

theorem Quiet.mono {release : σ → σ} {Q R : α → Prop} {p : Routine σ α} (hp : Quiet release Q p)
    (h : ∀ a, Q a → R a) : Quiet release R p := by
  induction p with
  | done a => exact h a hp
  | step abandon effect next ih => exact ⟨hp.1, fun m s => ⟨(hp.2 m s).1, ih m s (hp.2 m s).2⟩⟩
  | wait abandon c d next ih => exact ⟨hp.1, fun i => ih i (hp.2 i)⟩

/-- The answer of a quiet routine is one that it can come to. -/
theorem Quiet.returns {release : σ → σ} {Q : α → Prop} {p : Routine σ α} (hp : Quiet release Q p) :
    Quiet release (fun a => Q a ∧ Returns a p) p := by
  induction p with
  | done a => exact ⟨hp, .done⟩
  | step abandon effect next ih =>
    refine ⟨hp.1, fun m s => ⟨(hp.2 m s).1, ?_⟩⟩
    exact (ih m s (hp.2 m s).2).mono fun a h => ⟨h.1, .step m s h.2⟩
  | wait abandon c d next ih =>
    exact ⟨hp.1, fun i => (ih i (hp.2 i)).mono fun a h => ⟨h.1, .wait i h.2⟩⟩

theorem Quiet.bind {release : σ → σ} {Q : α → Prop} {R : β → Prop} {p : Routine σ α}
    {f : α → Routine σ β} (hp : Quiet release Q p) (hf : ∀ a, Q a → Quiet release R (f a)) :
    Quiet release R (p.bind f) := by
  induction p with
  | done a => exact hf a hp
  | step abandon effect next ih => exact ⟨hp.1, fun m s => ⟨(hp.2 m s).1, ih m s (hp.2 m s).2⟩⟩
  | wait abandon c d next ih => exact ⟨hp.1, fun i => ih i (hp.2 i)⟩

theorem Quiet.guarded {release abandon : σ → σ} {Q : α → Prop} {p : Routine σ α}
    (hp : Quiet abandon Q p) : Quiet (release ∘ abandon) Q (p.guarded release) := by
  induction p with
  | done a => exact hp
  | step a effect next ih =>
    exact ⟨by rw [hp.1], fun m s => ⟨(hp.2 m s).1, ih m s (hp.2 m s).2⟩⟩
  | wait a c d next ih => exact ⟨by rw [hp.1], fun i => ih i (hp.2 i)⟩

theorem quiet_read {Q : α → Prop} {f : Moment → σ → α} (h : ∀ m s, Q (f m s)) :
    Quiet id Q (read f) :=
  ⟨rfl, fun m s => ⟨rfl, h m s⟩⟩

theorem quiet_await {Q : Option Interrupt → Prop} {c : Context} {d : Option Nat} (h : ∀ i, Q i) :
    Quiet (σ := σ) id Q (await c d) :=
  ⟨rfl, h⟩

theorem guarded_bind (release : σ → σ) (p : Routine σ α) (f : α → Routine σ β) :
    (p.bind f).guarded release = (p.guarded release).bind fun a => (f a).guarded release := by
  induction p with
  | done a => rfl
  | step abandon effect next ih => simp [Routine.bind, Routine.guarded, ih]
  | wait abandon c d next ih => simp [Routine.bind, Routine.guarded, ih]

end PackageDepot.Routine
