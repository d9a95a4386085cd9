import PackageDepot.Proofs.Clock.Context
import PackageDepot.Proofs.Routine.Ends

/-!
# Undisturbed runs

`Solo M p s a t` is a run of `p` alone in which waiting goes by its context: it ends when the work is done,
or with an interrupt that the context has at one of the moments of the run. `Steady M p` says that the
moments of `M` are all the same to `p`, and that none of them interrupts it where it waits. A steady
routine has at most one such run (`Steady.unique`), so what it comes to is a function of the state.
-/

namespace PackageDepot.Routine

variable {σ α β : Type} {M : Moment → Prop}

/-- A run to the end while nothing else happens. Work that takes for ever does not end by itself. -/
inductive Solo (M : Moment → Prop) : Routine σ α → σ → α → σ → Prop
  | done (a : α) (s : σ) : Solo M (.done a) s a s
  | step {abandon effect next} {s : σ} {m : Moment} {a : α} {t : σ} (hm : M m)
    (rest : Solo M (next m s) (effect m s) a t) : Solo M (.step abandon effect next) s a t
  | finish {abandon c d next} {s : σ} {a : α} {t : σ} (rest : Solo M (next none) s a t) :
    Solo M (.wait abandon c (some d) next) s a t
  | interrupt {abandon c d next} {s : σ} {m : Moment} {i : Interrupt} {a : α} {t : σ} (hm : M m)
    (hi : c.interrupt? m = some i) (rest : Solo M (next (some i)) s a t) :
    Solo M (.wait abandon c d next) s a t

/-- Nothing that the routine does depends on which moment of `M` it is. -/
def Steady (M : Moment → Prop) : Routine σ α → Prop
  | .done _ => True
  | .step _ effect next =>
    (∀ m m' s, M m → M m' → effect m s = effect m' s ∧ next m s = next m' s) ∧
      ∀ m s, M m → Steady M (next m s)
  | .wait _ c _ next => c.Undisturbed M ∧ Steady M (next none)

/-- An undisturbed run is one in which nothing else changes the state. -/
theorem Solo.alone {p : Routine σ α} {s t : σ} {a : α} (h : Solo M p s a t) : Alone M p s a t := by
  induction h with
  | done a s => exact .done a s
  | step hm rest ih => exact .step rfl hm ih
  | finish rest ih => exact .wait none ih
  | interrupt hm hi rest ih => exact .wait _ ih

@[simp] theorem solo_done_iff {a b : α} {s t : σ} : Solo M (.done a) s b t ↔ b = a ∧ t = s := by
  constructor
  · rintro ⟨⟩
    exact ⟨rfl, rfl⟩
  · rintro ⟨rfl, rfl⟩
    exact .done ..

/-- An undisturbed run of two routines one behind the other. -/
theorem solo_bind_iff {p : Routine σ α} {f : α → Routine σ β} {s t : σ} {b : β} :
    Solo M (p.bind f) s b t ↔ ∃ a u, Solo M p s a u ∧ Solo M (f a) u b t := by
  constructor
  · intro h
    induction p generalizing s with
    | done a => exact ⟨a, s, .done a s, h⟩
    | step abandon effect next ih =>
      cases h with
      | step hm rest =>
        obtain ⟨a, u, hp, hf⟩ := ih _ _ rest
        exact ⟨a, u, .step hm hp, hf⟩
    | wait abandon c d next ih =>
      cases h with
      | finish rest =>
        obtain ⟨a, u, hp, hf⟩ := ih _ rest
        exact ⟨a, u, .finish hp, hf⟩
      | interrupt hm hi rest =>
        obtain ⟨a, u, hp, hf⟩ := ih _ rest
        exact ⟨a, u, .interrupt hm hi hp, hf⟩
  · rintro ⟨a, u, hp, hf⟩
    induction hp with
    | done a s => exact hf
    | step hm rest ih => exact .step hm (ih hf)
    | finish rest ih => exact .finish (ih hf)
    | interrupt hm hi rest ih => exact .interrupt hm hi (ih hf)

theorem Steady.bind {p : Routine σ α} {f : α → Routine σ β} (hp : Steady M p)
    (hf : ∀ a, Steady M (f a)) : Steady M (p.bind f) := by
  induction p with
  | done a => exact hf a
  | step abandon effect next ih =>
    refine ⟨fun m m' s hm hm' => ?_, fun m s hm => ih m s (hp.2 m s hm)⟩
    obtain ⟨he, hn⟩ := hp.1 m m' s hm hm'
    exact ⟨he, congrArg (Routine.bind · f) hn⟩
  | wait abandon c d next ih => exact ⟨hp.1, ih none hp.2⟩

/-- **A steady routine comes to one answer and one state.** -/
theorem Steady.unique {p : Routine σ α} (hp : Steady M p) {s t u : σ} {a b : α}
    (h : Solo M p s a t) (h' : Solo M p s b u) : b = a ∧ u = t := by
  induction h with
  | done a s => exact solo_done_iff.1 h'
  | @step _ _ _ s m _ _ hm rest ih =>
    cases h' with
    | @step _ _ _ _ m' _ _ hm' rest' =>
      obtain ⟨he, hn⟩ := hp.1 m m' s hm hm'
      rw [← he, ← hn] at rest'
      exact ih (hp.2 m s hm) rest'
  | finish rest ih =>
    cases h' with
    | finish rest' => exact ih hp.2 rest'
    | interrupt hm hi rest' => cases (hp.1 _ hm).symm.trans hi
  | interrupt hm hi rest ih => cases (hp.1 _ hm).symm.trans hi

end PackageDepot.Routine
