import Mathlib.Logic.Function.Iterate
import PackageDepot.Proofs.Routine.Protocol

/-!
# Two routines that do likewise

A `Likeness` says in what the surroundings of two routines may differ: the moments at which they make a
step, and the states that they see. `Likewise L Q p q` says that `p` and `q` cannot tell these apart. They
make the same steps one by one: a step from states that are alike leads to states that are alike, and the
answers that they come to are related by `Q`. It is closed under `bind` and `holding`, so it is recognised
by the parts of a routine. `Likewise.move` is the step lemma; nothing is said in it about when the two
make their steps, so a routine among others may be compared with the same one left alone.
-/

namespace PackageDepot

/-- In what the surroundings of two routines may differ, and how long they may wait for work. -/
structure Likeness (σ : Type) where
  moments : Moment → Moment → Prop
  states : σ → σ → Prop
  works : Option Nat → Prop

namespace Likeness

variable {σ : Type} (L : Likeness σ)

/-- Two ways to change a state keep states alike. -/
def Carries (f g : σ → σ) : Prop := ∀ s t, L.states s t → L.states (f s) (g t)

/-- Two contexts are interrupted alike. -/
def Contexts (c c' : Context) : Prop :=
  ∀ m m', L.moments m m' → c.interrupt? m = c'.interrupt? m'

variable {L}

theorem carries_id : L.Carries id id := fun _ _ h => h

theorem Carries.comp {f g f' g' : σ → σ} (h : L.Carries f g) (h' : L.Carries f' g') :
    L.Carries (f ∘ f') (g ∘ g') :=
  fun _ _ alike => h _ _ (h' _ _ alike)

end Likeness

namespace Routine

variable {σ α β γ δ : Type} {L : Likeness σ}

/-- The routines make the same steps, and come to answers that are related by `Q`. -/
inductive Likewise (L : Likeness σ) (Q : α → β → Prop) : Routine σ α → Routine σ β → Prop
  | done {a : α} {b : β} (answers : Q a b) : Likewise L Q (.done a) (.done b)
  | step {abandon abandon' effect effect' next next'} (abandoned : L.Carries abandon abandon')
    (alike : ∀ m m' s t, L.moments m m' → L.states s t → L.states (effect m s) (effect' m' t))
    (rest : ∀ m m' s t, L.moments m m' → L.states s t → Likewise L Q (next m s) (next' m' t)) :
    Likewise L Q (.step abandon effect next) (.step abandon' effect' next')
  | wait {abandon abandon' c c' d next next'} (abandoned : L.Carries abandon abandon')
    (works : L.works d) (contexts : L.Contexts c c')
    (rest : ∀ m m', L.moments m m' →
      Likewise L Q (next (c.interrupt? m)) (next' (c'.interrupt? m'))) :
    Likewise L Q (.wait abandon c d next) (.wait abandon' c' d next')

variable {Q : α → β → Prop} {R : γ → δ → Prop} {p : Routine σ α} {q : Routine σ β}

theorem Likewise.bind {f : α → Routine σ γ} {g : β → Routine σ δ} (h : Likewise L Q p q)
    (hf : ∀ a b, Q a b → Likewise L R (f a) (g b)) : Likewise L R (p.bind f) (q.bind g) := by
  induction h with
  | done answers => exact hf _ _ answers
  | step abandoned alike rest ih => exact .step abandoned alike ih
  | wait abandoned works contexts rest ih => exact .wait abandoned works contexts ih

theorem Likewise.guarded {release release' : σ → σ} (hr : L.Carries release release')
    (h : Likewise L Q p q) : Likewise L Q (p.guarded release) (q.guarded release') := by
  induction h with
  | done answers => exact .done answers
  | step abandoned alike rest ih => exact .step (hr.comp abandoned) alike ih
  | wait abandoned works contexts rest ih => exact .wait (hr.comp abandoned) works contexts ih

theorem Likewise.holding {release release' : σ → σ} (hr : L.Carries release release')
    (h : Likewise L Q p q) : Likewise L Q (p.holding release) (q.holding release') :=
  (h.guarded hr).bind fun _ _ hab =>
    .step hr (fun _ _ s t _ hs => hr s t hs) fun _ _ _ _ _ _ => .done hab

/-- Single steps that keep states alike. -/
theorem likewise_act {f : Moment → σ → α × σ} {g : Moment → σ → β × σ}
    (alike : ∀ m m' s t, L.moments m m' → L.states s t → L.states (f m s).2 (g m' t).2)
    (answers : ∀ m m' s t, L.moments m m' → L.states s t → Q (f m s).1 (g m' t).1) :
    Likewise L Q (act f) (act g) :=
  .step Likeness.carries_id alike fun m m' s t hm hs => .done (answers m m' s t hm hs)

/-- Single steps that read states which are alike. -/
theorem likewise_read {f : Moment → σ → α} {g : Moment → σ → β}
    (h : ∀ m m' s t, L.moments m m' → L.states s t → Q (f m s) (g m' t)) :
    Likewise L Q (read f) (read g) :=
  likewise_act (fun _ _ _ _ _ hs => hs) h

theorem likewise_await {c c' : Context} {d : Option Nat} (works : L.works d) (hc : L.Contexts c c') :
    Likewise L Eq (await (σ := σ) c d) (await c' d) :=
  .wait Likeness.carries_id works hc fun m m' hm => .done (hc m m' hm)

/-- The next step of a routine that waits. -/
theorem move_wait {abandon : σ → σ} {c : Context} {d : Option Nat}
    {next : Option Interrupt → Routine σ α} (m : Moment) (s : σ)
    (goes : d ≠ none ∨ c.interrupt? m ≠ none) :
    move m (.wait abandon c d next) s = (next (c.interrupt? m), s) := by
  cases hi : c.interrupt? m with
  | some i => simp only [move, hi]
  | none =>
    cases d with
    | some d => simp only [move, hi]
    | none => simp [hi] at goes

/-- **The step lemma.** -/
theorem Likewise.move (h : Likewise L Q p q) {m m' : Moment} (hm : L.moments m m') {s t : σ}
    (hs : L.states s t) :
    L.states (p.move m s).2 (q.move m' t).2 ∧ Likewise L Q (p.move m s).1 (q.move m' t).1 := by
  cases h with
  | done answers => exact ⟨hs, .done answers⟩
  | step abandoned alike rest => exact ⟨alike m m' s t hm hs, rest m m' s t hm hs⟩
  | @wait _ _ c c' d _ _ abandoned works contexts rest =>
    by_cases goes : d ≠ none ∨ c.interrupt? m ≠ none
    · rw [move_wait m s goes, move_wait m' t (contexts m m' hm ▸ goes)]
      exact ⟨hs, rest m m' hm⟩
    · -- Both wait for ever.
      obtain ⟨rfl, quiet⟩ : d = none ∧ c.interrupt? m = none := by simpa using goes
      have quiet' : c'.interrupt? m' = none := contexts m m' hm ▸ quiet
      simp only [Routine.move, quiet, quiet']
      exact ⟨hs, .wait abandoned works contexts rest⟩

theorem Likewise.abandon (h : Likewise L Q p q) : L.Carries p.abandon q.abandon := by
  cases h with
  | done answers => exact Likeness.carries_id
  | step abandoned alike rest => exact abandoned
  | wait abandoned works contexts rest => exact abandoned

/-- They come to their ends together. -/
theorem Likewise.isDone_eq (h : Likewise L Q p q) : p.isDone = q.isDone := by
  cases h with
  | done answers => rfl
  | step abandoned alike rest => rfl
  | wait abandoned works contexts rest => rfl

/-- What is left of a routine after some of its steps, made at one moment while nothing else happens, with
the state. -/
def after (m : Moment) (n : Nat) (p : Routine σ α) (s : σ) : Routine σ α × σ :=
  (fun z => z.1.move m z.2)^[n] (p, s)

theorem after_succ (m : Moment) (n : Nat) (p : Routine σ α) (s : σ) :
    after m (n + 1) p s = (after m n p s).1.move m (after m n p s).2 :=
  Function.iterate_succ_apply' ..

theorem after_add (m : Moment) (n k : Nat) (p : Routine σ α) (s : σ) :
    after m (k + n) p s = after m k (after m n p s).1 (after m n p s).2 :=
  Function.iterate_add_apply ..

/-- Nothing is left to do behind the end. -/
theorem after_of_done {m : Moment} {n k : Nat} (hk : n ≤ k) {s : σ} {a : α}
    (done : (after m n p s).1 = .done a) : after m k p s = after m n p s := by
  rw [← Nat.sub_add_cancel hk, after_add, done]
  refine (Function.iterate_fixed rfl _).trans ?_
  exact Prod.ext done.symm rfl

/-- However long after its end, the same is left. -/
theorem after_eq_of_done {m : Moment} {n k : Nat} {s : σ} {a b : α}
    (hn : (after m n p s).1 = .done a) (hk : (after m k p s).1 = .done b) :
    after m k p s = after m n p s := by
  obtain h | h := Nat.le_total n k
  · exact after_of_done h hn
  · exact (after_of_done h hk).symm

/-- **A routine that waits for no endless work comes to its end**, left alone at one moment. -/
theorem Likewise.ends (h : Likewise L Q p q) (works : ¬ L.works none) {m : Moment} (hm : L.moments m m)
    {s t : σ} (hs : L.states s t) : ∃ n a, (after m n p s).1 = .done a := by
  induction h generalizing s t with
  | @done a b answers => exact ⟨0, a, rfl⟩
  | step abandoned alike rest ih =>
    obtain ⟨n, a, done⟩ := ih m m s t hm hs (alike m m s t hm hs)
    exact ⟨n + 1, a, by rw [after_add]; exact done⟩
  | @wait abandon _ c _ d next _ abandoned ends contexts rest ih =>
    obtain ⟨n, a, done⟩ := ih m m hm hs
    have moved : after m 1 (.wait abandon c d next) s = (next (c.interrupt? m), s) := by
      refine move_wait m s (.inl ?_)
      rintro rfl
      exact works ends
    exact ⟨n + 1, a, by rw [after_add, moved]; exact done⟩

end Routine

end PackageDepot
