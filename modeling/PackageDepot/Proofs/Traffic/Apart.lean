import PackageDepot.Proofs.Service.Outlook
import PackageDepot.Proofs.Traffic.Leases

/-!
# Writers of different keys

A writer of one key sees nothing of a writer of another one. `Depot.Apart k hidden` relates depots that
differ only in what a writer of the key `hidden` does: its lease, its revision, and the times and the
numbers of revisions. Writes of `k` that do not clone `hidden` do likewise in such depots
(`Apart.write_likewise`), and each step of a write of `hidden` leads from a depot to such a one
(`Advance.apart`).
-/

namespace PackageDepot

open Package Call

/-- The depots differ at most under the key `hidden`, and in the times and the numbers of revisions. -/
structure Depot.Apart (k hidden : Key) (d d' : Depot) : Prop where
  git : d.git = d'.git
  images : d.images = d'.images
  secrets : d.secrets = d'.secrets
  registry : d.registry = d'.registry
  busy : d.store.isBusy k = d'.store.isBusy k
  shown : ∀ j, j ≠ hidden →
    (d.store.get? j).map Stored.substance = (d'.store.get? j).map Stored.substance

namespace Depot.Apart

variable {k hidden : Key} {d d' d'' : Depot}

theorem refl (d : Depot) : d.Apart k hidden d := ⟨rfl, rfl, rfl, rfl, rfl, fun _ _ => rfl⟩

theorem trans (h : d.Apart k hidden d') (h' : d'.Apart k hidden d'') : d.Apart k hidden d'' where
  git := h.git.trans h'.git
  images := h.images.trans h'.images
  secrets := h.secrets.trans h'.secrets
  registry := h.registry.trans h'.registry
  busy := h.busy.trans h'.busy
  shown j hj := (h.shown j hj).trans (h'.shown j hj)

/-- Both stores may be changed, as long as they agree. -/
theorem withStores (h : d.Apart k hidden d') {s s' : Store} (busy : s.isBusy k = s'.isBusy k)
    (shown : ∀ j, j ≠ hidden → (s.get? j).map Stored.substance = (s'.get? j).map Stored.substance) :
    ({ d with store := s } : Depot).Apart k hidden { d' with store := s' } where
  git := h.git
  images := h.images
  secrets := h.secrets
  registry := h.registry
  busy := busy
  shown := shown

end Depot.Apart

namespace Store

variable {s : Store} {j k : Key}

/-- Taking a lease makes its key busy, and no other one. -/
theorem isBusy_acquire : (s.acquire k).isBusy j = (decide (j = k) || s.isBusy j) := by
  by_cases h : j = k <;> simp [isBusy, acquire, h]

theorem isBusy_release : (s.release k).isBusy j = (!decide (j = k) && s.isBusy j) := by
  by_cases h : j = k <;> simp [isBusy, release, h]

end Store

/-- No context of a call, those of its tasks included, is interrupted at these moments. -/
structure Context.Calm (c : Context) (e : Engine) (M : Moment → Prop) : Prop where
  undisturbed : c.Undisturbed M
  tasks : ∀ label m, M m → (c.inTask label e.config.taskMilliseconds m).Undisturbed M

/-- Evaluations come to an end. -/
def Engine.Evaluates (e : Engine) : Prop :=
  ∀ image config files, (e.evaluator image config files).duration ≠ none

/-- Depots that differ in what a writer of the key `hidden` does, at any of these moments. -/
def Likeness.apart (M : Moment → Prop) (k hidden : Key) : Likeness Depot where
  moments m m' := M m ∧ M m'
  states := Depot.Apart k hidden
  works d := d ≠ none

namespace Apart

variable {M : Moment → Prop} {k hidden : Key} {e : Engine} {c : Context}

/-- What writers of other keys look at is the same in both. -/
def outlook (M : Moment → Prop) (k hidden : Key) : Outlook (.apart M k hidden) where
  Fit _ := True
  Grants _ _ := True
  anonymous _ := trivial
  registry h := h.registry
  secrets h := h.secrets
  access h _ _ _ := by rw [h.git]
  fit _ _ _ _ _ := trivial
  granted _ _ _ _ _ _ _ := trivial

theorem serves (calm : c.Calm e M) (evaluates : e.Evaluates) :
    (Likeness.apart M k hidden).Serves e c c where
  contexts m m' h := (calm.undisturbed m h.1).trans (calm.undisturbed m' h.2).symm
  tasks label m m' h n n' h' :=
    (calm.tasks label m h.1 n h'.1).trans (calm.tasks label m' h.2 n' h'.2).symm
  works := evaluates

theorem shows {j : Key} (h : j ≠ hidden) : (Likeness.apart M k hidden).Shows j :=
  fun _ _ alike => alike.shown j h

theorem owns (distinct : k ≠ hidden) : (Likeness.apart M k hidden).Owns k where
  shows := shows distinct
  busy _ _ alike := alike.busy
  acquired s t alike := alike.withStores
    (by rw [Store.isBusy_acquire, Store.isBusy_acquire, alike.busy]) alike.shown
  released s t alike := alike.withStores
    (by rw [Store.isBusy_release, Store.isBusy_release, alike.busy]) alike.shown
  commits m m' s t _ alike intent r snapshot own := by
    have there := congrArg Option.isSome (alike.shown k distinct)
    rw [Option.isSome_map, Option.isSome_map] at there
    obtain ⟨err, hs, ht⟩ | ⟨b, s', b', t', hs, ht⟩ :=
      Store.commit_alike (l := ⟨k, intent⟩) own there snapshot m.now m'.now
    · rw [hs, ht]
      exact .error err
    · rw [hs, ht]
      have hc := Store.commit_ok hs
      have hc' := Store.commit_ok ht
      have same : b.substance = b'.substance := hc.substance_eq.trans hc'.substance_eq.symm
      refine .ok ⟨same, alike.withStores ?_ fun j hj => ?_⟩
      · rw [Store.isBusy, hc.inFlight_eq, Store.isBusy, hc'.inFlight_eq]
        exact alike.busy
      · rw [hc.get?_eq, hc'.get?_eq]
        split
        · exact congrArg some same
        · exact alike.shown j hj

/-- A write does likewise in depots that differ under a key which is neither its own nor one that it
clones. -/
theorem write_likewise (calm : c.Calm e M) (evaluates : e.Evaluates) {r : Revision} {intent : Intent}
    (own : r.key = k) (distinct : k ≠ hidden) (cites : ¬ r.Cites hidden) :
    Likewise (.apart M k hidden) Eq (Service.write e r intent c) (Service.write e r intent c) := by
  subst own
  refine (outlook M r.key hidden).write (serves calm evaluates) (owns distinct) fun j hj => shows ?_
  rintro rfl
  exact cites hj

end Apart

/-- **What a step of a write changes** is hidden from writers of other keys. -/
theorem Advance.apart {e : Engine} {q : Request} {t u : Phase} {m : Moment} {d d' : Depot}
    (h : Advance e q t m d d' u) {intent : Intent} {r : Revision} {c : Context}
    (hq : q.write? = some (intent, r, c)) {k hidden : Key} (own : r.key = hidden)
    (distinct : k ≠ hidden) : d'.Apart k hidden d := by
  subst own
  have key := Request.key?_of_write? hq
  cases h with
  | quiet | approve | conflict => exact .refl d
  | register hq' | remove hq' | purge hq' | erase hq' | miss hq' =>
    subst hq'
    cases hq
  | acquire hk =>
    obtain rfl := Option.some.inj (hk.symm.trans key)
    exact (Depot.Apart.refl d).withStores (by simp [Store.isBusy_acquire, distinct]) fun _ _ => rfl
  | commit hq' h =>
    cases hq.symm.trans hq'
    have hc := Store.commit_ok h
    refine (Depot.Apart.refl d).withStores ?_ fun j hj => ?_
    · rw [Store.isBusy, hc.inFlight_eq]
      rfl
    · rw [hc.get?_eq, if_neg hj]
  | finish hk =>
    obtain rfl := Option.some.inj (hk.symm.trans key)
    exact (Depot.Apart.refl d).withStores (by simp [Store.isBusy_release, distinct]) fun _ _ => rfl
  | fail hq' =>
    cases hq.symm.trans hq'
    exact (Depot.Apart.refl d).withStores (by simp [Store.isBusy_release, distinct]) fun _ _ => rfl

/-- What a step of a write does to the keys of the store: nothing, or it puts its own behind them. -/
theorem Advance.places {q : Request} {t u : Phase} {m : Moment} {d d' : Depot}
    (h : Advance e q t m d d' u) {intent : Intent} {r : Revision} {c : Context}
    (hq : q.write? = some (intent, r, c)) :
    d'.store.revisions.map Stored.key = d.store.revisions.map Stored.key ∨
      d.store.get? r.key = none ∧
        d'.store.revisions.map Stored.key = d.store.revisions.map Stored.key ++ [r.key] := by
  cases h with
  | quiet | register | remove | approve | acquire | conflict | finish | fail | miss => exact .inl rfl
  | purge hq' | erase hq' =>
    subst hq'
    cases hq
  | @commit _ _ intent r c snapshot b store hq' h =>
    cases hq.symm.trans hq'
    have hc := Store.commit_ok h
    cases intent with
    | create => exact .inr ⟨(hc.created rfl).1, hc.places⟩
    | replace => exact .inl hc.places

end PackageDepot
