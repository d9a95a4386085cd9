import PackageDepot.Proofs.Routine.Prompt
import PackageDepot.Proofs.Service.Answers
import PackageDepot.Proofs.Store.Lookup

/-!
# Calls that do not wait

`Call.Promptly M Q x d` says that the call `x`, left alone on the depot `d`, comes to its end without waiting,
and then with `Q`. `Call.AnswersUnless M P x d r` is what remains of `Answers` in a context that may be
interrupted: the depot stays as it is, and the answer is `r` or the interrupt. So if the call succeeds at all
then with `r` (`Call.Tries`).
-/

namespace PackageDepot

open Package

namespace Call

variable {α β : Type} {M : Moment → Prop} {Q : Except Error α → Depot → Prop} {c : Context} {d : Depot}
  {P : Prop}

/-- The call comes to an end with `Q`, left alone, and does not wait for anything. -/
abbrev Promptly (M : Moment → Prop) (Q : Except Error α → Depot → Prop) (x : Call α) (d : Depot) :
    Prop :=
  Routine.Promptly M Q x.run d

theorem Promptly.bind {x : Call α} {f : α → Call β} {S : Except Error β → Depot → Prop}
    (hx : Promptly M Q x d) (hok : ∀ a t, Q (.ok a) t → Promptly M S (f a) t)
    (herr : ∀ err t, Q (.error err) t → S (.error err) t) : Promptly M S (x >>= f) d := by
  rw [Promptly, ExceptT.run_bind]
  apply Routine.Promptly.bind hx
  intro a t ha
  cases a with
  | ok a => exact hok a t ha
  | error err => exact herr err t ha

/-- A call that goes on with the outcome of another one. -/
theorem Promptly.attempt_bind {x : Call α} {f : Except Error α → Call β}
    {S : Except Error β → Depot → Prop} (hx : Promptly M Q x d)
    (hf : ∀ a t, Q a t → Promptly M S (f a) t) : Promptly M S (attempt x >>= f) d := by
  rw [Promptly, attempt_run]
  exact Routine.Promptly.bind hx hf

/-- A call that begins by asking the depot. -/
theorem promptly_query_bind {f : Depot → Except Error α} {g : α → Call β}
    {S : Except Error β → Depot → Prop} (hok : ∀ a, f d = .ok a → Promptly M S (g a) d)
    (herr : ∀ err, f d = .error err → S (.error err) d) : Promptly M S (query f >>= g) d := by
  rw [Promptly, query_run]
  intro m _
  dsimp only
  cases hf : f d with
  | ok a => exact hok a hf
  | error err => exact herr err hf

/-- A call under a lease is refused if the lease is taken, and else gives it back at its end. -/
theorem promptly_withLease {k : Key} {x : Call α}
    (busy : d.store.isBusy k = true → Q (.error (.conflict k)) d)
    (free : d.store.isBusy k = false → Promptly M (fun a t => Q a (released k t)) x
      { d with store := d.store.acquire k }) : Promptly M Q (withLease k x) d := by
  intro m _
  dsimp only
  cases hb : d.store.isBusy k with
  | true => exact busy hb
  | false =>
    simp only [Bool.false_eq_true, if_false]
    exact Routine.Promptly.holding (free hb)

/-- The call leaves the depot as it is and answers this, or that it was interrupted, which happens only if `P`
holds. -/
def AnswersUnless (M : Moment → Prop) (P : Prop) (x : Call α) (d : Depot) (r : Except Error α) : Prop :=
  Promptly M (fun a t => t = d ∧ (a = r ∨ P ∧ ∃ i, a = .error (.cancelled i))) x d

theorem Answers.unless {x : Call α} {r : Except Error α} (h : Answers M x d r) : AnswersUnless M P x d r :=
  Routine.Promptly.mono h fun _ _ ⟨ha, ht⟩ => ⟨ht, .inl ha⟩

theorem AnswersUnless.answers {x : Call α} {r : Except Error α} (h : AnswersUnless M P x d r) (hP : ¬ P) :
    Answers M x d r :=
  Routine.Promptly.mono h fun _ _ ⟨ht, ha⟩ => ⟨ha.resolve_right fun stopped => hP stopped.1, ht⟩

/-- An interrupt is told only where the context is interrupted. -/
theorem answersUnless_within (f : Depot → Except Error α) :
    AnswersUnless M (¬ c.Undisturbed M) (within c f) d (f d) := by
  intro m hm
  dsimp only
  cases hi : c.interrupt? m with
  | some i =>
    refine ⟨rfl, .inr ⟨fun quiet => ?_, i, rfl⟩⟩
    rw [quiet m hm] at hi
    cases hi
  | none => exact ⟨rfl, .inl rfl⟩

theorem AnswersUnless.bind {x : Call α} {f : α → Call β} {r : Except Error α} {g : α → Except Error β}
    (hx : AnswersUnless M P x d r) (hf : ∀ a, AnswersUnless M P (f a) d (g a)) :
    AnswersUnless M P (x >>= f) d (r >>= g) := by
  refine Promptly.bind hx ?_ ?_
  · rintro a t ⟨rfl, rfl | ⟨-, i, h⟩⟩
    · exact hf a
    · cases h
  · rintro err t ⟨rfl, rfl | ⟨stopped, i, h⟩⟩
    · exact ⟨rfl, .inl rfl⟩
    · cases h
      exact ⟨rfl, .inr ⟨stopped, i, rfl⟩⟩

theorem AnswersUnless.bind_ok {x : Call α} {f : α → Call β} {a : α} {r : Except Error β}
    (hx : AnswersUnless M P x d (.ok a)) (hf : AnswersUnless M P (f a) d r) :
    AnswersUnless M P (x >>= f) d r := by
  refine Promptly.bind hx ?_ ?_
  · rintro b t ⟨rfl, h | ⟨-, i, h⟩⟩
    · cases h
      exact hf
    · cases h
  · rintro err t ⟨rfl, h | ⟨stopped, i, h⟩⟩
    · cases h
    · cases h
      exact ⟨rfl, .inr ⟨stopped, i, rfl⟩⟩

/-- A call that fails does not come to what is done behind it. -/
theorem AnswersUnless.error_bind {x : Call α} {f : α → Call β} {err : Error}
    (hx : AnswersUnless M P x d (.error err)) : AnswersUnless M P (x >>= f) d (.error err) := by
  refine Promptly.bind hx ?_ ?_
  · rintro a t ⟨-, h | ⟨-, i, h⟩⟩
    · cases h
    · cases h
  · rintro err' t ⟨rfl, h | ⟨stopped, i, h⟩⟩
    · cases h
      exact ⟨rfl, .inl rfl⟩
    · cases h
      exact ⟨rfl, .inr ⟨stopped, i, rfl⟩⟩

/-- Nothing is left of a lease. -/
theorem AnswersUnless.withLease {k : Key} {x : Call α} {r : Except Error α}
    (free : d.store.isBusy k = false)
    (hx : AnswersUnless M P x { d with store := d.store.acquire k } r) :
    AnswersUnless M P (withLease k x) d r := by
  refine promptly_withLease (fun busy => by cases busy.symm.trans free) fun _ => ?_
  apply Routine.Promptly.mono hx
  rintro a t ⟨rfl, ha⟩
  refine ⟨?_, ha⟩
  rw [Call.released, Store.release_acquire free]

/-- The call leaves the depot as it is, and does not succeed but with this answer. -/
def Tries (M : Moment → Prop) (x : Call α) (d : Depot) (r : Except Error α) : Prop :=
  Promptly M (fun a t => t = d ∧ ∀ b, a = .ok b → r = .ok b) x d

theorem AnswersUnless.tries {x : Call α} {r : Except Error α} (h : AnswersUnless M P x d r) :
    Tries M x d r := by
  apply Routine.Promptly.mono h
  rintro a t ⟨rfl, rfl | ⟨-, i, rfl⟩⟩
  · exact ⟨rfl, fun _ hb => hb⟩
  · exact ⟨rfl, nofun⟩

end Call

open Call

variable {M : Moment → Prop} (e : Engine) (d : Depot) (c : Context)

namespace Index

theorem discover_answersUnless (r : Repository) :
    AnswersUnless M (¬ c.Undisturbed M) (discover e r c) d (d.scan e r) := by
  unfold discover Depot.scan
  cases r.packageSource? with
  | none => exact (answers_pure []).unless
  | some source => exact (credential_answers d source).unless.bind fun _ => answersUnless_within _

theorem findDiscovered_answersUnless (k : Key) :
    AnswersUnless M (¬ c.Undisturbed M) (findDiscovered e k c) d (d.published e k) := by
  refine (answers_query _).unless.bind fun r => (discover_answersUnless e d c r).bind fun packages => ?_
  cases packages.find? fun p => p.package = k.package && p.location.ref = k.revision with
  | some p => exact (answers_pure (r, p)).unless
  | none => exact (answers_throw _).unless

/-- What is found under a key is published there, whatever the context is. -/
theorem findDiscovered_tries (k : Key) : Tries M (findDiscovered e k c) d (d.published e k) :=
  (findDiscovered_answersUnless e d c k).tries

end Index

end PackageDepot
