import PackageDepot.Proofs.Routine.Quiet

/-!
# Complete runs of one routine

`Ends env M p s a t` says that `p`, begun in the state `s`, can answer `a` and leave the state `t`. In
front of each of its steps the state may change as `env` allows, its steps are made at moments in `M`,
and its waiting ends in any way. `Alone M` is the run in which nothing else changes the state.
`ends_bind_iff` cuts a run in two; the equations of `Alone` are simp lemmas that carry a routine out.
-/

namespace PackageDepot.Routine

variable {σ α β : Type}

/-- A run to the end, among changes of the state by others. -/
inductive Ends (env : σ → σ → Prop) (M : Moment → Prop) : Routine σ α → σ → α → σ → Prop
  | done (a : α) (s : σ) : Ends env M (.done a) s a s
  | step {abandon effect next} {s s₁ : σ} {m : Moment} {a : α} {t : σ} (changes : env s s₁)
    (hm : M m) (rest : Ends env M (next m s₁) (effect m s₁) a t) :
    Ends env M (.step abandon effect next) s a t
  | wait {abandon c d next} {s : σ} (i : Option Interrupt) {a : α} {t : σ}
    (rest : Ends env M (next i) s a t) : Ends env M (.wait abandon c d next) s a t

/-- A run to the end while nothing else changes the state. -/
abbrev Alone (M : Moment → Prop) : Routine σ α → σ → α → σ → Prop := Ends Eq M

variable {env : σ → σ → Prop} {M : Moment → Prop}

/-- A routine comes to an end if there are moments for its steps. -/
theorem exists_alone (hM : ∃ m, M m) (p : Routine σ α) (s : σ) : ∃ a t, Alone M p s a t := by
  obtain ⟨m, hm⟩ := hM
  induction p generalizing s with
  | done a => exact ⟨a, s, .done a s⟩
  | step abandon effect next ih =>
    obtain ⟨a, t, rest⟩ := ih m s (effect m s)
    exact ⟨a, t, .step rfl hm rest⟩
  | wait abandon c d next ih =>
    obtain ⟨a, t, rest⟩ := ih none s
    exact ⟨a, t, .wait none rest⟩

@[simp] theorem ends_done_iff {a b : α} {s t : σ} :
    Ends env M (.done a) s b t ↔ b = a ∧ t = s := by
  constructor
  · rintro ⟨⟩
    exact ⟨rfl, rfl⟩
  · rintro ⟨rfl, rfl⟩
    exact .done ..

theorem ends_step_iff {abandon : σ → σ} {effect : Moment → σ → σ}
    {next : Moment → σ → Routine σ α} {s t : σ} {a : α} :
    Ends env M (.step abandon effect next) s a t ↔
      ∃ s₁ m, env s s₁ ∧ M m ∧ Ends env M (next m s₁) (effect m s₁) a t := by
  constructor
  · rintro ⟨⟩
    exact ⟨_, _, ‹_›, ‹_›, ‹_›⟩
  · rintro ⟨s₁, m, he, hm, rest⟩
    exact .step he hm rest

theorem ends_wait_iff {abandon : σ → σ} {c : Context} {d : Option Nat}
    {next : Option Interrupt → Routine σ α} {s t : σ} {a : α} :
    Ends env M (.wait abandon c d next) s a t ↔ ∃ i, Ends env M (next i) s a t := by
  constructor
  · rintro ⟨⟩
    exact ⟨_, ‹_›⟩
  · rintro ⟨i, rest⟩
    exact .wait i rest

/-- A run of two routines one behind the other. -/
theorem ends_bind_iff {p : Routine σ α} {f : α → Routine σ β} {s t : σ} {b : β} :
    Ends env M (p.bind f) s b t ↔ ∃ a u, Ends env M p s a u ∧ Ends env M (f a) u b t := by
  induction p generalizing s with
  | done a =>
    constructor
    · intro h
      exact ⟨a, s, .done a s, h⟩
    · rintro ⟨a', u, hp, hf⟩
      obtain ⟨rfl, rfl⟩ := ends_done_iff.1 hp
      exact hf
  | step abandon effect next ih =>
    simp only [Routine.bind, ends_step_iff, ih]
    constructor
    · rintro ⟨s₁, m, he, hm, a, u, hp, hf⟩
      exact ⟨a, u, ⟨s₁, m, he, hm, hp⟩, hf⟩
    · rintro ⟨a, u, ⟨s₁, m, he, hm, hp⟩, hf⟩
      exact ⟨s₁, m, he, hm, a, u, hp, hf⟩
  | wait abandon c d next ih =>
    simp only [Routine.bind, ends_wait_iff, ih]
    constructor
    · rintro ⟨i, a, u, hp, hf⟩
      exact ⟨a, u, ⟨i, hp⟩, hf⟩
    · rintro ⟨a, u, ⟨i, hp⟩, hf⟩
      exact ⟨i, a, u, hp, hf⟩

/-- What is put in order behind an abandoned routine does not matter to a run to the end. -/
@[simp] theorem ends_guarded_iff {release : σ → σ} {p : Routine σ α} {s t : σ} {a : α} :
    Ends env M (p.guarded release) s a t ↔ Ends env M p s a t := by
  induction p generalizing s with
  | done a => exact Iff.rfl
  | step abandon effect next ih => simp only [Routine.guarded, ends_step_iff, ih]
  | wait abandon c d next ih => simp only [Routine.guarded, ends_wait_iff, ih]

theorem ends_act_iff {f : Moment → σ → α × σ} {s t : σ} {a : α} :
    Ends env M (act f) s a t ↔ ∃ s₁ m, env s s₁ ∧ M m ∧ f m s₁ = (a, t) := by
  simp only [act, ends_step_iff, ends_done_iff]
  constructor
  · rintro ⟨s₁, m, he, hm, rfl, rfl⟩
    exact ⟨s₁, m, he, hm, rfl⟩
  · rintro ⟨s₁, m, he, hm, h⟩
    exact ⟨s₁, m, he, hm, by simp [h]⟩

theorem alone_act_iff {f : Moment → σ → α × σ} {s t : σ} {a : α} :
    Alone M (act f) s a t ↔ ∃ m, M m ∧ f m s = (a, t) := by
  refine ends_act_iff.trans ⟨?_, ?_⟩
  · rintro ⟨s₁, m, rfl, hm, h⟩
    exact ⟨m, hm, h⟩
  · rintro ⟨m, hm, h⟩
    exact ⟨s, m, rfl, hm, h⟩

/-- A routine that holds something gives it back at its end. -/
theorem alone_holding_iff (hM : ∃ m, M m) {release : σ → σ} {p : Routine σ α} {s t : σ} {a : α} :
    Alone M (p.holding release) s a t ↔ ∃ u, Alone M p s a u ∧ t = release u := by
  simp only [holding, Alone, ends_bind_iff, ends_guarded_iff, ends_step_iff, ends_done_iff]
  constructor
  · rintro ⟨b, u, hp, s₁, m, rfl, -, rfl, rfl⟩
    exact ⟨u, hp, rfl⟩
  · rintro ⟨u, hp, rfl⟩
    obtain ⟨m, hm⟩ := hM
    exact ⟨a, u, hp, u, m, rfl, hm, rfl, rfl⟩

/-- What a routine that holds something answers is what it answers before it gives that back. -/
theorem Ends.of_holding {release : σ → σ} {p : Routine σ α} {s t : σ} {a : α}
    (h : Ends env M (p.holding release) s a t) : ∃ u, Ends env M p s a u := by
  obtain ⟨b, u, hp, hr⟩ := ends_bind_iff.1 h
  obtain ⟨_, _, -, -, last⟩ := ends_step_iff.1 hr
  obtain ⟨rfl, -⟩ := ends_done_iff.1 last
  exact ⟨u, ends_guarded_iff.1 hp⟩

/-- A quiet routine leaves the state to the others. -/
theorem Quiet.among (refl : ∀ s, env s s) (trans : ∀ s t u, env s t → env t u → env s u)
    {release : σ → σ} {Q : α → Prop} {p : Routine σ α} (hp : Quiet release Q p) {s t : σ} {a : α}
    (h : Ends env M p s a t) : Q a ∧ env s t := by
  induction h with
  | done a s => exact ⟨hp, refl s⟩
  | step changes hm rest ih =>
    obtain ⟨he, hn⟩ := hp.2 _ _
    rw [he] at ih
    obtain ⟨ha, ht⟩ := ih hn
    exact ⟨ha, trans _ _ _ changes ht⟩
  | wait i rest ih => exact ih (hp.2 i)

/-- What holds of every answer of a quiet routine holds of that of a run, whatever the others do. -/
theorem Quiet.answer {release : σ → σ} {Q : α → Prop} {p : Routine σ α} (hp : Quiet release Q p)
    {s t : σ} {a : α} (h : Ends env M p s a t) : Q a := by
  induction h with
  | done a s => exact hp
  | step changes hm rest ih => exact ih (hp.2 _ _).2
  | wait i rest ih => exact ih (hp.2 i)

/-- The run in which the others do `others n` in front of the step with the number `n`. All steps are made
at one moment, and waiting is not interrupted. -/
def play (m : Moment) (others : Nat → σ → σ) (n : Nat) : Routine σ α → σ → α × σ
  | .done a, s => (a, s)
  | .step _ effect next, s =>
    play m others (n + 1) (next m (others n s)) (effect m (others n s))
  | .wait _ _ _ next, s => play m others n (next none) s

theorem ends_play {m : Moment} (hm : M m) {others : Nat → σ → σ} (h : ∀ n s, env s (others n s))
    (n : Nat) (p : Routine σ α) (s : σ) :
    Ends env M p s (p.play m others n s).1 (p.play m others n s).2 := by
  induction p generalizing n s with
  | done a => exact .done a s
  | step abandon effect next ih => exact .step (h n s) hm (ih m _ (n + 1) _)
  | wait abandon c d next ih => exact .wait none (ih none n s)

end PackageDepot.Routine
