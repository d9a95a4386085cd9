import PackageDepot.Proofs.Routine.Keeps
import PackageDepot.Proofs.Traffic.History

/-!
# The course of a call

A call is `During` from the event that begins it to the one that ends it. What it answers is an answer to
which it can come if each of its steps is made on some depot of its course (`At.within`): so much is known
of an answer without knowing what others do between the steps.
-/

namespace PackageDepot

namespace Routine

variable {σ α : Type} {J K : σ → Prop} {p : Routine σ α} {s t : σ} {a : α}

/-- Where each step is made on any state of `J`, the state at the beginning does not matter. -/
theorem Within.restart (h : Within J p s a t) (s' : σ) : ∃ t', Within J p s' a t' := by
  induction h generalizing s' with
  | done a s => exact ⟨s', .done a s'⟩
  | step hj hm rest ih => exact ⟨_, .step hj hm rest⟩
  | wait i rest ih =>
    obtain ⟨t', rest'⟩ := ih s'
    exact ⟨t', .wait i rest'⟩

theorem Within.mono (h : Within J p s a t) (hJ : ∀ s, J s → K s) : Within K p s a t := by
  induction h with
  | done a s => exact .done a s
  | step hj hm rest ih => exact .step (hJ _ hj) hm ih
  | wait i rest ih => exact .wait i ih

/-- What a routine comes to behind a step it comes to in front of it. -/
theorem Within.unmove {m : Moment} {d : σ} (hd : p.isDone = false → J d)
    (h : Within J (p.move m d).1 s a t) : ∃ t', Within J p s a t' := by
  cases p with
  | done b => exact ⟨t, h⟩
  | step abandon effect next =>
    obtain ⟨t', rest⟩ := h.restart (effect m d)
    exact ⟨t', .step (hd rfl) trivial rest⟩
  | wait abandon c duration next =>
    simp only [move] at h
    split at h
    · exact ⟨t, .wait _ h⟩
    · exact ⟨t, .wait none h⟩
    · exact ⟨t, h⟩

end Routine

namespace Traffic

open Backend

/-- A call is under way at a time. -/
def During (x : Traffic) (i : Nat) : Prop := ∃ q p, x.At i q p ∧ p.isDone = false

/-- A call makes a step at a time. `x n` is the state in which the event `es n` happens. -/
def Steps (es : Nat → Event) (x : Nat → Traffic) (i a : Nat) : Prop := es a = .move i ∧ (x a).During i

/-- A call made a step on this depot, before a time. -/
def Stepped (es : Nat → Event) (x : Nat → Traffic) (i n : Nat) (d : Depot) : Prop :=
  ∃ a < n, Steps es x i a ∧ (x a).depot = d

variable {e : Engine} {m : Moment} {git : GitHost} {images : ImageHost} {secrets : Dict Credential}
  {es : Nat → Event} {n i : Nat} {q : Request} {p : Routine Depot Answer}

/-- **What a call is still to answer is an answer to its whole course.** -/
theorem At.within_course (h : (run e (opening m git images secrets) es n).At i q p) {a : Answer}
    {s t : Depot}
    (rest : Routine.Within (Stepped es (run e (opening m git images secrets) es) i n) p s a t) :
    ∃ t', Routine.Within (Stepped es (run e (opening m git images secrets) es) i n) (q.begin e)
      s a t' := by
  refine h.rec_run (C := fun b i q p => ∀ n, b ≤ n → ∀ t,
    Routine.Within (Stepped es (run e (opening m git images secrets) es) i n) p s a t →
    ∃ t', Routine.Within (Stepped es (run e (opening m git images secrets) es) i n) (q.begin e) s a t')
    ?_ ?_ ?_ n (Nat.le_refl n) t rest
  · intro b i q _ n _ t rest
    exact ⟨t, rest⟩
  · intro b i q p hev stands _ ih n hb t rest
    obtain ⟨t', rest'⟩ := rest.unmove fun going =>
      ⟨b, by omega, ⟨hev, q, p, stands, going⟩, rfl⟩
    exact ih n (by omega) t' rest'
  · intro b i q p ih n hb t rest
    exact ih n (by omega) t rest

end Traffic

end PackageDepot
