import PackageDepot.Proofs.Routine.Quiet

/-!
# Protocols of routines

A `Protocol` has phases. It says what is to be put in order if a routine is abandoned in a phase, which
steps lead from a phase to another one, and with which answers a routine may end in a phase. A routine
follows a protocol from a phase if all that it can do is allowed (`Follows`). `Routine.move` lets a
routine make its next step; `Follows.move` is the step lemma of every invariant of calls that share a
state. `Decided a p` says that `p` will answer `a`, whatever happens.
-/

namespace PackageDepot

/-- The steps that routines may make, by phases. -/
structure Protocol (σ α : Type) where
  Phase : Type
  /-- What is put in order if a routine is abandoned in a phase. -/
  release : Phase → σ → σ
  /-- A step at a moment, from a phase and a state to a state and a phase. -/
  Step : Phase → Moment → σ → σ → Phase → Prop
  /-- An answer with which a routine may end in a phase. -/
  Ends : Phase → α → Prop

namespace Routine

variable {σ α β : Type}

/-- All that a routine does from a phase on is allowed. The end of waiting is a step of its own, which
does not change the state. -/
def Follows (P : Protocol σ α) : Routine σ α → P.Phase → Prop
  | .done a, t => P.Ends t a
  | .step abandon effect next, t =>
    abandon = P.release t ∧ ∀ m s, ∃ u, P.Step t m s (effect m s) u ∧ Follows P (next m s) u
  | .wait abandon _ _ next, t =>
    abandon = P.release t ∧ ∀ m s i, ∃ u, P.Step t m s s u ∧ Follows P (next i) u

/-- Let a routine make its next step. Work ends at any time unless it takes for ever; an interrupt
comes first. -/
def move (m : Moment) : Routine σ α → σ → Routine σ α × σ
  | .done a, s => (.done a, s)
  | .step _ effect next, s => (next m s, effect m s)
  | .wait abandon c d next, s =>
    match c.interrupt? m, d with
    | some i, _ => (next (some i), s)
    | none, some _ => (next none, s)
    | none, none => (.wait abandon c d next, s)

/-- Whatever happens, the routine answers `a`. -/
def Decided (a : α) : Routine σ α → Prop
  | .done b => b = a
  | .step _ _ next => ∀ m s, Decided a (next m s)
  | .wait _ _ _ next => ∀ i, Decided a (next i)

variable {P : Protocol σ α}

/-- A quiet part of a routine stays in its phase. -/
theorem Quiet.follows {Q : β → Prop} {t : P.Phase} {p : Routine σ β} {f : β → Routine σ α}
    (hp : Quiet (P.release t) Q p) (stay : ∀ m s, P.Step t m s s t)
    (hf : ∀ b, Q b → (f b).Follows P t) : (p.bind f).Follows P t := by
  induction p with
  | done b => exact hf b hp
  | step abandon effect next ih =>
    refine ⟨hp.1, fun m s => ⟨t, ?_, ih m s (hp.2 m s).2⟩⟩
    rw [(hp.2 m s).1]
    exact stay m s
  | wait abandon c d next ih => exact ⟨hp.1, fun m s i => ⟨t, stay m s, ih i (hp.2 i)⟩⟩

/-- **The step lemma.** A step stays where it is or is one of the protocol. -/
theorem Follows.move {p : Routine σ α} {t : P.Phase} (h : p.Follows P t) (m : Moment) (s : σ) :
    p.move m s = (p, s) ∨ p.isDone = false ∧
      ∃ u, P.Step t m s (p.move m s).2 u ∧ (p.move m s).1.Follows P u := by
  cases p with
  | done a => exact .inl rfl
  | step abandon effect next => exact .inr ⟨rfl, h.2 m s⟩
  | wait abandon c d next =>
    simp only [Routine.move]
    cases c.interrupt? m with
    | some i => exact .inr ⟨rfl, h.2 m s (some i)⟩
    | none =>
      cases d with
      | some d => exact .inr ⟨rfl, h.2 m s none⟩
      | none => exact .inl rfl

/-- A routine that has not ended puts in order what its phase says. -/
theorem Follows.abandon {p : Routine σ α} {t : P.Phase} (h : p.Follows P t)
    (going : p.isDone = false) : p.abandon = P.release t := by
  cases p with
  | done a => simp [isDone] at going
  | step abandon effect next => exact h.1
  | wait abandon c d next => exact h.1

/-- In a phase from which no step leads on, a routine has ended. -/
theorem Follows.ended [Inhabited σ] {p : Routine σ α} {t : P.Phase} (h : p.Follows P t)
    (last : ∀ m s s' u, ¬ P.Step t m s s' u) : ∃ a, p = .done a ∧ P.Ends t a := by
  cases p with
  | done a => exact ⟨a, rfl, h⟩
  | step abandon effect next =>
    obtain ⟨u, hu, -⟩ := h.2 {} default
    exact (last _ _ _ _ hu).elim
  | wait abandon c d next =>
    obtain ⟨u, hu, -⟩ := h.2 {} default none
    exact (last _ _ _ _ hu).elim

/-- In phases that cannot be left, and that allow one answer only, this answer is decided. -/
theorem Follows.decided [Inhabited σ] {p : Routine σ α} {t : P.Phase} (h : p.Follows P t)
    {T : P.Phase → Prop} {a : α} (ht : T t) (ends : ∀ u b, T u → P.Ends u b → b = a)
    (closed : ∀ u m s s' v, T u → P.Step u m s s' v → T v) : p.Decided a := by
  induction p generalizing t with
  | done b => exact ends t b ht h
  | step abandon effect next ih =>
    intro m s
    obtain ⟨u, hu, hn⟩ := h.2 m s
    exact ih m s hn (closed _ _ _ _ _ ht hu)
  | wait abandon c d next ih =>
    intro i
    obtain ⟨u, hu, hn⟩ := h.2 {} default i
    exact ih i hn (closed _ _ _ _ _ ht hu)

/-- In phases that do not allow an answer, and that some state does not let a routine leave, the
answer is not decided. -/
theorem Follows.undecided {p : Routine σ α} {t : P.Phase} (h : p.Follows P t)
    {T : P.Phase → Prop} {a : α} (ht : T t) (ends : ∀ u, T u → ¬ P.Ends u a)
    (kept : ∀ u, T u → ∃ m s, ∀ s' v, P.Step u m s s' v → T v) : ¬ p.Decided a := by
  induction p generalizing t with
  | done b =>
    rintro rfl
    exact ends t ht h
  | step abandon effect next ih =>
    intro hd
    obtain ⟨m, s, hk⟩ := kept t ht
    obtain ⟨u, hu, hn⟩ := h.2 m s
    exact ih m s hn (hk _ _ hu) (hd m s)
  | wait abandon c d next ih =>
    intro hd
    obtain ⟨m, s, hk⟩ := kept t ht
    obtain ⟨u, hu, hn⟩ := h.2 m s none
    exact ih none hn (hk _ _ hu) (hd none)

/-- No two answers are decided. -/
theorem Decided.unique [Inhabited σ] {p : Routine σ α} {a b : α} (ha : p.Decided a)
    (hb : p.Decided b) : a = b := by
  induction p with
  | done c => exact ha.symm.trans hb
  | step abandon effect next ih => exact ih {} default (ha _ _) (hb _ _)
  | wait abandon c d next ih => exact ih none (ha _) (hb _)

/-- A routine whose answer is not decided has not come to its end. -/
theorem isDone_of_undecided {p : Routine σ α} (h : ∀ a, ¬ p.Decided a) : p.isDone = false := by
  cases p with
  | done a => exact (h a rfl).elim
  | step _ _ _ => rfl
  | wait _ _ _ _ => rfl

/-- What is decided stays decided. -/
theorem Decided.move {p : Routine σ α} {a : α} (h : p.Decided a) (m : Moment) (s : σ) :
    (p.move m s).1.Decided a := by
  cases p with
  | done b => exact h
  | step abandon effect next => exact h m s
  | wait abandon c d next =>
    simp only [Routine.move]
    cases c.interrupt? m with
    | some i => exact h _
    | none =>
      cases d with
      | some d => exact h _
      | none => exact h

end Routine

end PackageDepot
