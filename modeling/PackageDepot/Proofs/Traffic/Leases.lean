import PackageDepot.Proofs.Traffic.History
import PackageDepot.Proofs.Traffic.Phases

/-!
# Leases and the calls that hold them

`Leased holds keys` is the invariant: the keys in flight are those whose lease a call holds, each once,
and no lease is held by two calls. A step of a call keeps what it holds, takes the lease of a key that is
not in flight, or gives its lease back (`Leasing`), and so does a call that is dropped; each of the three
keeps the invariant. `run_leased` is what follows for every run.
-/

namespace PackageDepot

open Package Call Backend

/-- What a step does to the lease of a call, and to the keys in flight. -/
inductive Leasing : Option Key → Option Key → List Key → List Key → Prop
  | keep (held : Option Key) (keys : List Key) : Leasing held held keys keys
  | take (k : Key) (keys : List Key) (free : k ∉ keys) : Leasing none (some k) keys (k :: keys)
  | give (k : Key) (keys : List Key) : Leasing (some k) none keys (keys.filter (· ≠ k))

/-- The keys in flight are those whose leases are held, and a lease has one holder. -/
structure Leased (holds : Nat → Key → Prop) (keys : List Key) : Prop where
  nodup : keys.Nodup
  mem_iff : ∀ k, k ∈ keys ↔ ∃ i, holds i k
  unique : ∀ i j k, holds i k → holds j k → i = j

namespace Leased

variable {holds after : Nat → Key → Prop} {keys keys' : List Key}

theorem empty (h : ∀ i k, ¬ holds i k) : Leased holds [] where
  nodup := List.nodup_nil
  mem_iff k := by simp [h]
  unique i j k hi := (h i k hi).elim

/-- One call keeps its lease, takes one or gives it back; the others hold what they held. -/
theorem step (h : Leased holds keys) {a b : Option Key} (hs : Leasing a b keys keys') {i : Nat}
    (ha : ∀ k, holds i k ↔ a = some k) (hb : ∀ k, after i k ↔ b = some k)
    (others : ∀ j k, j ≠ i → (after j k ↔ holds j k)) : Leased after keys' := by
  cases hs with
  | keep =>
    have same : after = holds := by
      funext j k
      by_cases hj : j = i
      · subst hj
        exact propext ((hb k).trans (ha k).symm)
      · exact propext (others j k hj)
    rw [same]
    exact h
  | take k _ free =>
    have mine : ∀ j, after i j ↔ k = j := fun j => by simp [hb]
    refine ⟨List.nodup_cons.2 ⟨free, h.nodup⟩, ?_, ?_⟩
    · intro j
      rw [List.mem_cons, h.mem_iff]
      constructor
      · rintro (rfl | ⟨l, hl⟩)
        · exact ⟨i, (mine j).2 rfl⟩
        · have hli : l ≠ i := by
            rintro rfl
            simp [ha] at hl
          exact ⟨l, (others l j hli).2 hl⟩
      · rintro ⟨l, hl⟩
        by_cases hli : l = i
        · subst hli
          exact .inl ((mine j).1 hl).symm
        · exact .inr ⟨l, (others l j hli).1 hl⟩
    · intro i₁ i₂ j h₁ h₂
      have alone : ∀ l, after l k → l = i := by
        intro l hl
        apply Classical.byContradiction
        intro hli
        exact free ((h.mem_iff k).2 ⟨l, (others l k hli).1 hl⟩)
      by_cases hj : k = j
      · subst hj
        exact (alone i₁ h₁).trans (alone i₂ h₂).symm
      · have away : ∀ l, after l j → l ≠ i := by
          rintro l hl rfl
          exact hj ((mine j).1 hl)
        exact h.unique i₁ i₂ j ((others i₁ j (away i₁ h₁)).1 h₁) ((others i₂ j (away i₂ h₂)).1 h₂)
  | give k =>
    have mine : ∀ j, ¬ after i j := fun j => by simp [hb]
    have away : ∀ l j, after l j → l ≠ i := by
      rintro l j hl rfl
      exact mine j hl
    refine ⟨h.nodup.filter _, ?_, ?_⟩
    · intro j
      rw [List.mem_filter, h.mem_iff]
      constructor
      · rintro ⟨⟨l, hl⟩, hj⟩
        have hli : l ≠ i := by
          rintro rfl
          have hkj := (ha j).1 hl
          simp [Option.some.inj hkj] at hj
        exact ⟨l, (others l j hli).2 hl⟩
      · rintro ⟨l, hl⟩
        have hl' := (others l j (away l j hl)).1 hl
        refine ⟨⟨l, hl'⟩, ?_⟩
        have hj : j ≠ k := by
          rintro rfl
          exact away l j hl (h.unique l i j hl' ((ha j).2 rfl))
        simpa using hj
    · intro i₁ i₂ j h₁ h₂
      exact h.unique i₁ i₂ j ((others i₁ j (away i₁ j h₁)).1 h₁) ((others i₂ j (away i₂ j h₂)).1 h₂)

end Leased

theorem Request.key?_of_write? {q : Request} {intent : Intent} {r : Revision} {c : Context}
    (h : q.write? = some (intent, r, c)) : q.key? = some r.key := by
  cases q <;> simp_all [Request.write?, Request.key?]

theorem released_injective {j k : Key} (h : released j = released k) : j = k := by
  have hs : ([k].filter (· ≠ j) : List Key) = [k].filter (· ≠ k) := by
    have hd := congrFun h { store := { inFlight := [k] } }
    exact congrArg (fun d : Depot => d.store.inFlight) hd
  apply Classical.byContradiction
  intro hjk
  simp [Ne.symm hjk] at hs

theorem released_ne_id (k : Key) : released k ≠ id := by
  intro h
  have hs : ([k].filter (· ≠ k) : List Key) = [k] := by
    have hd := congrFun h { store := { inFlight := [k] } }
    exact congrArg (fun d : Depot => d.store.inFlight) hd
  simp at hs

/-- A step of a call takes at most its lease, and gives back at most that. -/
theorem Advance.leasing {e : Engine} {q : Request} {t u : Phase} {m : Moment} {d d' : Depot}
    (h : Advance e q t m d d' u) :
    Leasing (q.lease? t) (q.lease? u) d.store.inFlight d'.store.inFlight := by
  cases h with
  | quiet h => exact .keep _ _
  | register => exact .keep none _
  | remove => exact .keep none _
  | purge => exact .keep none _
  | approve => exact .keep none _
  | @acquire _ _ k hk free =>
    have hl : q.lease? .leased = some k := hk
    rw [hl]
    exact .take k _ (by simpa [Store.isBusy] using free)
  | conflict => exact .keep none _
  | commit hq h =>
    show Leasing q.key? q.key? _ _
    rw [(Store.commit_ok h).inFlight_eq]
    exact .keep _ _
  | erase => exact .keep q.key? _
  | @finish _ _ k _ hk =>
    have hl : ∀ r, q.lease? (.wrote r) = some k := fun _ => hk
    rw [hl]
    exact .give k _
  | fail hq =>
    have hl : q.lease? .leased = _ := Request.key?_of_write? hq
    rw [hl]
    exact .give _ _
  | miss hq =>
    subst hq
    exact .give _ _

namespace Traffic

variable {e : Engine} {x : Traffic} {m : Moment} {git : GitHost} {images : ImageHost}
  {secrets : Dict Credential} {es : Nat → Event} {i : Nat} {q : Request} {p : Routine Depot Answer}

/-- Every call is in a phase of its request. -/
def Orderly (e : Engine) (x : Traffic) : Prop :=
  ∀ i q p, x.At i q p → ∃ t, p.Follows (q.protocol e) t

/-- A call holds the lease of its phase. -/
theorem holds_iff {t : Phase} (h : x.At i q p) (hf : p.Follows (q.protocol e) t) (k : Key) :
    x.Holds i k ↔ q.lease? t = some k := by
  have ha : p.abandon = (q.protocol e).release t := by
    cases hd : p.isDone with
    | false => exact hf.abandon hd
    | true =>
      cases p with
      | done a => cases t <;> first | rfl | exact hf.elim
      | step _ _ _ => cases hd
      | wait _ _ _ _ => cases hd
  have hk : x.Holds i k ↔ p.abandon = released k := by
    constructor
    · rintro ⟨r, p', h', hr⟩
      rwa [(h.unique h').2]
    · intro hr
      exact ⟨q, p, h, hr⟩
  rw [hk, ha]
  show Request.giveBack (q.lease? t) = released k ↔ _
  cases q.lease? t with
  | none => simp [Request.giveBack, Ne.symm (released_ne_id k)]
  | some j =>
    constructor
    · intro h
      rw [released_injective h]
    · rintro ⟨⟩
      rfl

theorem run_orderly (n : Nat) : (run e (opening m git images secrets) es n).Orderly e := by
  intro i q p h
  obtain ⟨t, ht, -⟩ := run_follows (Request.follows e q) (H := fun _ _ _ => True)
    (fun _ _ _ => trivial) (fun _ _ _ _ => trivial) (fun _ _ _ _ _ _ _ _ _ _ => trivial) n h
  exact ⟨t, ht⟩

theorem not_holds_of_not_at (h : ∀ q p, ¬ x.At i q p) (k : Key) : ¬ x.Holds i k := by
  rintro ⟨q, p, hp, -⟩
  exact h q p hp

/-- What one event does to the leases that are held. -/
theorem Change.leased {y : Traffic} {ev : Event} (hc : Change e x ev y)
    (orderly : x.Orderly e) (h : Leased x.Holds x.depot.store.inFlight) :
    Leased y.Holds y.depot.store.inFlight := by
  have other : ∀ {i : Nat}, (∀ r p', y.At i r p' ↔ x.At i r p') → ∀ k,
      y.Holds i k ↔ x.Holds i k := by
    intro i same k
    simp only [Holds, same]
  cases hc with
  | start q depot calls kept =>
    have same : y.Holds = x.Holds := by
      funext i k
      refine propext ⟨?_, ?_⟩
      · rintro ⟨r, p, hp, ha⟩
        obtain hx | ⟨rfl, rfl, rfl⟩ := calls i r p hp
        · exact ⟨r, p, hx, ha⟩
        · have hl := (holds_iff hp (Request.follows e r) k).1 ⟨r, _, hp, ha⟩
          cases r <;> cases hl
      · rintro ⟨r, p, hp, ha⟩
        exact ⟨r, p, kept i r p hp, ha⟩
    rw [same, depot]
    exact h
  | move i q p stands depot moved others =>
    obtain ⟨t, ht⟩ := orderly i q p stands
    obtain stay | ⟨-, u, hs, hu⟩ := ht.move x.moment x.depot
    · rw [stay] at moved depot
      have keep : Leasing (q.lease? t) (q.lease? t) x.depot.store.inFlight
          y.depot.store.inFlight := by
        rw [depot]
        exact .keep _ _
      exact h.step keep (holds_iff stands ht) (holds_iff moved ht)
        fun j k hj => other (others j · · hj) k
    · rw [← depot] at hs
      exact h.step hs.leasing (holds_iff stands ht) (holds_iff moved hu)
        fun j k hj => other (others j · · hj) k
  | drop i q p stands going depot dropped others =>
    obtain ⟨t, ht⟩ := orderly i q p stands
    have gives : Leasing (q.lease? t) none x.depot.store.inFlight y.depot.store.inFlight := by
      rw [depot, ht.abandon going]
      show Leasing _ none _ (Request.giveBack (q.lease? t) x.depot).store.inFlight
      cases q.lease? t with
      | none => exact .keep _ _
      | some k => exact .give k _
    refine h.step gives (holds_iff stands ht) ?_ fun j k hj => other (others j · · hj) k
    intro k
    simp [not_holds_of_not_at dropped k]
  | other ev registry store calls =>
    have same : y.Holds = x.Holds := by
      funext i k
      refine propext (other ?_ k)
      intro r p'
      rw [At, At, calls]
    rw [same, store]
    exact h

/-- **Leases**: at every moment of every run, the keys in flight are those whose leases calls hold. -/
theorem run_leased (n : Nat) :
    Leased (run e (opening m git images secrets) es n).Holds
      (run e (opening m git images secrets) es n).depot.store.inFlight := by
  induction n with
  | zero => exact .empty fun i k => not_holds_of_not_at (fun _ _ => not_at_opening) k
  | succ n ih => exact (run_change e _ es n).leased (run_orderly n) ih

end Traffic

end PackageDepot
