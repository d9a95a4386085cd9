import Mathlib.Data.List.Forall2
import PackageDepot.Proofs.Service.Likewise
import PackageDepot.Proofs.Traffic.Basic

/-!
# Traffic in two depots that are alike

Traffic goes on alike in two depots (`Traffic.Alike`) if the calls of both do likewise, one by one, and the
depots are alike. `Alike.next` is the step lemma, for events that do not touch the places outside, and
`Alike.run` the run lemma. What is answered in one of them is answered in the other one (`Alike.answered`).
-/

namespace PackageDepot

open Call

section

variable {α β : Type} {R : α → β → Prop} {l : List α} {l' : List β}

theorem forall₂_getElem? (h : List.Forall₂ R l l') (i : Nat) : Option.Rel R l[i]? l'[i]? := by
  induction h generalizing i with
  | nil => exact .none
  | cons first rest ih =>
    cases i with
    | zero => exact .some first
    | succ i => exact ih i

theorem forall₂_set (h : List.Forall₂ R l l') (i : Nat) {a : α} {b : β} (hab : R a b) :
    List.Forall₂ R (l.set i a) (l'.set i b) := by
  induction h generalizing i with
  | nil => exact .nil
  | cons first rest ih =>
    cases i with
    | zero => exact .cons hab rest
    | succ i => exact .cons first (ih i)

end

/-- The event begins only calls that do likewise, and leaves the places outside as they are. -/
def Event.Keeps (e : Engine) (L : Likeness Depot) : Event → Prop
  | .start q => Likewise L Eq (q.call e) (q.call e)
  | .outside .. => False
  | _ => True

namespace Traffic

variable {e : Engine} {L : Likeness Depot} {x y : Traffic}

/-- Two calls were begun for the same request, and do likewise unless both were dropped. -/
inductive Paired (L : Likeness Depot) :
    Request × Option (Routine Depot Answer) → Request × Option (Routine Depot Answer) → Prop
  | standing {q : Request} {p p' : Routine Depot Answer}
    (likewise : Routine.Likewise L (Matching Eq) p p') : Paired L (q, some p) (q, some p')
  | dropped (q : Request) : Paired L (q, none) (q, none)

/-- The same happened in both, as far as the calls can tell. -/
structure Alike (L : Likeness Depot) (x y : Traffic) : Prop where
  moment : x.moment = y.moment
  depot : L.states x.depot y.depot
  calls : List.Forall₂ (Paired L) x.calls y.calls

/-- Where no call stands, nothing moves. -/
theorem next_of_not_at {i : Nat} (h : ∀ q p, ¬ x.At i q p) :
    x.next e (.move i) = x ∧ x.next e (.drop i) = x := by
  unfold Traffic.next
  dsimp only
  split
  · next q p hp => exact (h q p hp).elim
  · exact ⟨rfl, rfl⟩

namespace Alike

/-- Under a number a call goes on in both, likewise, or in neither. -/
theorem standing (h : x.Alike L y) (i : Nat) :
    (∃ q p p', x.At i q p ∧ y.At i q p' ∧ Routine.Likewise L (Matching Eq) p p') ∨
      (∀ q p, ¬ x.At i q p) ∧ ∀ q p, ¬ y.At i q p := by
  have paired := forall₂_getElem? h.calls i
  unfold At
  generalize x.calls[i]? = c, y.calls[i]? = c' at paired
  cases paired with
  | none => exact .inr ⟨nofun, nofun⟩
  | some paired =>
    cases paired with
    | standing likewise => exact .inl ⟨_, _, _, rfl, rfl, likewise⟩
    | dropped q => exact .inr ⟨nofun, nofun⟩

/-- **The step lemma.** -/
theorem next (h : x.Alike L y) (refl : ∀ m, L.moments m m) {ev : Event} (keeps : ev.Keeps e L) :
    (x.next e ev).Alike L (y.next e ev) := by
  cases ev with
  | start q =>
    refine ⟨h.moment, h.depot, ?_⟩
    exact List.rel_append h.calls (.cons (.standing keeps) .nil)
  | move i =>
    obtain ⟨q, p, p', hp, hp', likewise⟩ | ⟨hx, hy⟩ := h.standing i
    · obtain ⟨states, rest⟩ := likewise.move (refl x.moment) h.depot
      rw [next_move hp, next_move hp', ← h.moment]
      exact ⟨rfl, states, forall₂_set h.calls i (.standing rest)⟩
    · rwa [(next_of_not_at hx).1, (next_of_not_at hy).1]
  | drop i =>
    obtain ⟨q, p, p', hp, hp', likewise⟩ | ⟨hx, hy⟩ := h.standing i
    · cases going : p.isDone with
      | true =>
        have going' := likewise.isDone_eq ▸ going
        have same : ∀ {z : Traffic} {p : Routine Depot Answer}, z.At i q p → p.isDone = true →
            z.next e (.drop i) = z := by
          intro z p hz done
          simp [Traffic.next, show z.calls[i]? = _ from hz, done]
        rwa [same hp going, same hp' going']
      | false =>
        rw [next_drop hp going, next_drop hp' (likewise.isDone_eq ▸ going)]
        exact ⟨h.moment, likewise.abandon _ _ h.depot, forall₂_set h.calls i (.dropped q)⟩
    · rwa [(next_of_not_at hx).2, (next_of_not_at hy).2]
  | pass time scopes => exact ⟨by simp only [Traffic.next, h.moment], h.depot, h.calls⟩
  | outside git images secrets => exact keeps.elim

/-- **The run lemma.** -/
theorem run (h : x.Alike L y) (refl : ∀ m, L.moments m m) {es : Nat → Event} (n : Nat)
    (keeps : ∀ k < n, (es k).Keeps e L) : (Traffic.run e x es n).Alike L (Traffic.run e y es n) := by
  induction n with
  | zero => exact h
  | succ n ih =>
    exact (ih fun k hk => keeps k (Nat.lt_succ_of_lt hk)).next refl (keeps n (Nat.lt_succ_self n))

/-- What is answered in one depot is answered in the other one. -/
theorem answered (h : x.Alike L y) (i : Nat) (a : Answer) : x.Answered i a ↔ y.Answered i a := by
  obtain ⟨q, p, p', hp, hp', likewise⟩ | ⟨hx, hy⟩ := h.standing i
  · constructor
    · rintro ⟨q', hq⟩
      obtain ⟨-, rfl⟩ := hp.unique hq
      cases likewise with
      | done same => exact ⟨q, same.eq ▸ hp'⟩
    · rintro ⟨q', hq⟩
      obtain ⟨-, rfl⟩ := hp'.unique hq
      cases likewise with
      | done same => exact ⟨q, same.eq ▸ hp⟩
  · exact ⟨fun ⟨q, hq⟩ => (hx q _ hq).elim, fun ⟨q, hq⟩ => (hy q _ hq).elim⟩

end Alike

end Traffic

end PackageDepot
