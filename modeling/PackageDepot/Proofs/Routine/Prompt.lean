import PackageDepot.Proofs.Routine.Ends

/-!
# Runs without waiting

`Promptly M Q p s` says that `p`, begun in `s` and left alone, comes to its end without waiting, at
whatever moments in `M` it makes its steps, and then `Q` holds of its answer and the state. Unlike a
statement about runs that end it promises the end as well.
-/

namespace PackageDepot.Routine

variable {σ α β : Type} {M : Moment → Prop}

/-- The routine comes to an end with `Q`, and does not wait for anything. -/
def Promptly (M : Moment → Prop) (Q : α → σ → Prop) : Routine σ α → σ → Prop
  | .done a, s => Q a s
  | .step _ effect next, s => ∀ m, M m → Promptly M Q (next m s) (effect m s)
  | .wait .., _ => False

theorem Promptly.mono {Q R : α → σ → Prop} {p : Routine σ α} {s : σ} (h : Promptly M Q p s)
    (hQ : ∀ a t, Q a t → R a t) : Promptly M R p s := by
  induction p generalizing s with
  | done a => exact hQ a s h
  | step abandon effect next ih => exact fun m hm => ih m s (h m hm)
  | wait abandon c d next ih => exact h

theorem Promptly.bind {Q : α → σ → Prop} {R : β → σ → Prop} {p : Routine σ α}
    {f : α → Routine σ β} {s : σ} (hp : Promptly M Q p s) (hf : ∀ a t, Q a t → Promptly M R (f a) t) :
    Promptly M R (p.bind f) s := by
  induction p generalizing s with
  | done a => exact hf a s hp
  | step abandon effect next ih => exact fun m hm => ih m s (hp m hm)
  | wait abandon c d next ih => exact hp.elim

theorem Promptly.guarded {Q : α → σ → Prop} {release : σ → σ} {p : Routine σ α} {s : σ}
    (h : Promptly M Q p s) : Promptly M Q (p.guarded release) s := by
  induction p generalizing s with
  | done a => exact h
  | step abandon effect next ih => exact fun m hm => ih m s (h m hm)
  | wait abandon c d next ih => exact h

/-- What a run of the routine alone ends with. -/
theorem Promptly.of_alone {Q : α → σ → Prop} {p : Routine σ α} {s t : σ} {a : α}
    (h : Promptly M Q p s) (run : Alone M p s a t) : Q a t := by
  induction run with
  | done a s => exact h
  | step changes hm rest ih =>
    subst changes
    exact ih (h _ hm)
  | wait i rest ih => exact h.elim

/-- What is held is given back at the end. -/
theorem Promptly.holding {Q : α → σ → Prop} {release : σ → σ} {p : Routine σ α} {s : σ}
    (h : Promptly M (fun a t => Q a (release t)) p s) : Promptly M Q (p.holding release) s :=
  h.guarded.bind fun _ _ ha _ _ => ha

end PackageDepot.Routine
