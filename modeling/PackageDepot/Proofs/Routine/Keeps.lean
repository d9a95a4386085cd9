import PackageDepot.Proofs.Routine.Ends
import PackageDepot.Proofs.Routine.Protocol

/-!
# Invariants that routines keep

`Keeps J I p` says that `p` keeps the invariant `I`: each of its steps does, and so does putting things in
order where it is abandoned, as long as its steps are made in states that satisfy `J`. It is closed under
`bind` and `holding`. A quiet part keeps everything, and the part behind it may rely on its answer being
one that it comes to in such states (`Quiet.keeps`). `Keeps.move` is the step lemma for routines that share
a state.
-/

namespace PackageDepot.Routine

variable {σ α β : Type} {J I : σ → Prop}

/-- Steps that are made in `J` keep `I`, and so does abandoning the routine. -/
def Keeps (J I : σ → Prop) : Routine σ α → Prop
  | .done _ => True
  | .step abandon effect next =>
    (∀ s, I s → I (abandon s)) ∧ ∀ m s, J s → I s → I (effect m s) ∧ Keeps J I (next m s)
  | .wait abandon _ _ next => (∀ s, I s → I (abandon s)) ∧ ∀ i, Keeps J I (next i)

/-- A run to the end whose steps are made in states that satisfy `J`, whatever these have to do with each
other. -/
abbrev Within (J : σ → Prop) : Routine σ α → σ → α → σ → Prop :=
  Ends (fun _ s => J s) fun _ => True

theorem Keeps.bind {p : Routine σ α} {f : α → Routine σ β} (hp : p.Keeps J I)
    (hf : ∀ a, (f a).Keeps J I) : (p.bind f).Keeps J I := by
  induction p with
  | done a => exact hf a
  | step abandon effect next ih =>
    refine ⟨hp.1, fun m s hj hi => ?_⟩
    obtain ⟨he, hn⟩ := hp.2 m s hj hi
    exact ⟨he, ih m s hn⟩
  | wait abandon c d next ih => exact ⟨hp.1, fun i => ih i (hp.2 i)⟩

theorem Keeps.guarded {release : σ → σ} {p : Routine σ α} (hr : ∀ s, I s → I (release s))
    (hp : p.Keeps J I) : (p.guarded release).Keeps J I := by
  induction p with
  | done a => exact hp
  | step abandon effect next ih =>
    refine ⟨fun s h => hr _ (hp.1 s h), fun m s hj hi => ?_⟩
    obtain ⟨he, hn⟩ := hp.2 m s hj hi
    exact ⟨he, ih m s hn⟩
  | wait abandon c d next ih => exact ⟨fun s h => hr _ (hp.1 s h), fun i => ih i (hp.2 i)⟩

theorem Keeps.holding {release : σ → σ} {p : Routine σ α} (hr : ∀ s, I s → I (release s))
    (hp : p.Keeps J I) : (p.holding release).Keeps J I :=
  (hp.guarded hr).bind fun _ => ⟨hr, fun _ s _ h => ⟨hr s h, trivial⟩⟩

/-- A quiet part keeps every invariant. -/
theorem Quiet.keeps {release : σ → σ} {Q : α → Prop} {p : Routine σ α} {f : α → Routine σ β}
    (hp : Quiet release Q p) (hr : ∀ s, I s → I (release s))
    (hf : ∀ a, Q a → (∀ s, ∃ t, Within J p s a t) → (f a).Keeps J I) : (p.bind f).Keeps J I := by
  induction p with
  | done a => exact hf a hp fun s => ⟨s, .done a s⟩
  | step abandon effect next ih =>
    refine ⟨fun s h => by rw [hp.1]; exact hr s h, fun m s hj hi => ?_⟩
    obtain ⟨same, hn⟩ := hp.2 m s
    rw [same]
    refine ⟨hi, ih m s hn fun a ha comes => hf a ha fun s₀ => ?_⟩
    obtain ⟨t, rest⟩ := comes (effect m s)
    exact ⟨t, .step hj trivial rest⟩
  | wait abandon c d next ih =>
    refine ⟨fun s h => by rw [hp.1]; exact hr s h, fun i => ?_⟩
    refine ih i (hp.2 i) fun a ha comes => hf a ha fun s₀ => ?_
    obtain ⟨t, rest⟩ := comes s₀
    exact ⟨t, .wait i rest⟩

/-- A routine that changes the state in one step. -/
theorem keeps_act {f : Moment → σ → α × σ} (h : ∀ m s, J s → I s → I (f m s).2) :
    (act f).Keeps J I :=
  ⟨fun _ hi => hi, fun m s hj hi => ⟨h m s hj hi, trivial⟩⟩

/-- **The step lemma.** -/
theorem Keeps.move {p : Routine σ α} (hp : p.Keeps J I) (m : Moment) {s : σ} (hj : J s) (hi : I s) :
    I (p.move m s).2 ∧ (p.move m s).1.Keeps J I := by
  cases p with
  | done a => exact ⟨hi, hp⟩
  | step abandon effect next => exact hp.2 m s hj hi
  | wait abandon c d next =>
    simp only [Routine.move]
    cases c.interrupt? m with
    | some i => exact ⟨hi, hp.2 (some i)⟩
    | none =>
      cases d with
      | some d => exact ⟨hi, hp.2 none⟩
      | none => exact ⟨hi, hp⟩

theorem Keeps.abandon {p : Routine σ α} (hp : p.Keeps J I) {s : σ} (hi : I s) : I (p.abandon s) := by
  cases p with
  | done a => exact hi
  | step abandon effect next => exact hp.1 s hi
  | wait abandon c d next => exact hp.1 s hi

end PackageDepot.Routine
