import PackageDepot.Proofs.Clock.Context
import PackageDepot.Proofs.Routine.Likewise
import PackageDepot.Proofs.Service.ReadOnly

/-!
# Two calls that do likewise

`Routine.Likewise` for calls, one lemma for each way to make one. Their outcomes match: two successes that
are related, or the same error.
-/

namespace PackageDepot

open Package

variable {α β γ δ : Type} {Q : α → β → Prop} {R : γ → δ → Prop}

/-- Two outcomes match: both are successes, which are related, or they are the same error. -/
inductive Matching (Q : α → β → Prop) : Except Error α → Except Error β → Prop
  | ok {a : α} {b : β} (h : Q a b) : Matching Q (.ok a) (.ok b)
  | error (err : Error) : Matching Q (.error err) (.error err)

theorem matching_refl (r : Except Error α) : Matching Eq r r := by
  cases r with
  | ok a => exact .ok rfl
  | error err => exact .error err

theorem Matching.mono {Q' : α → β → Prop} {r : Except Error α} {s : Except Error β}
    (h : Matching Q r s) (hQ : ∀ a b, Q a b → Q' a b) : Matching Q' r s := by
  cases h with
  | ok h => exact .ok (hQ _ _ h)
  | error err => exact .error err

theorem Matching.eq {r s : Except Error α} (h : Matching Eq r s) : r = s := by
  cases h with
  | ok h => rw [h]
  | error err => rfl

theorem matching_of_eq {r s : Except Error α} (h : r = s) : Matching Eq r s := h ▸ matching_refl r

theorem Matching.mapError {r : Except Error α} {s : Except Error β} (f : Error → Error)
    (h : Matching Q r s) : Matching Q (r.mapError f) (s.mapError f) := by
  cases h with
  | ok h => exact .ok h
  | error err => exact .error (f err)

namespace Call

variable {L : Likeness Depot} {c c' : Context}

/-- The calls make the same steps, and their outcomes match. -/
abbrev Likewise (L : Likeness Depot) (Q : α → β → Prop) (x : Call α) (y : Call β) : Prop :=
  Routine.Likewise L (Matching Q) x.run y.run

theorem likewise_ofExcept {r : Except Error α} {s : Except Error β} (h : Matching Q r s) :
    Likewise L Q (ofExcept r) (ofExcept s) :=
  .done h

theorem likewise_pure {a : α} {b : β} (h : Q a b) : Likewise L Q (pure a) (pure b) := .done (.ok h)

theorem likewise_throw (err : Error) : Likewise L Q (throw err) (throw err) := .done (.error err)

theorem likewise_query {f : Depot → Except Error α} {g : Depot → Except Error β}
    (h : ∀ s t, L.states s t → Matching Q (f s) (g t)) : Likewise L Q (query f) (query g) :=
  Routine.likewise_read fun _ _ s t _ hs => h s t hs

theorem likewise_read {f : Depot → α} {g : Depot → β} (h : ∀ s t, L.states s t → Q (f s) (g t)) :
    Likewise L Q (read f) (read g) :=
  likewise_query (f := fun d => .ok (f d)) (g := fun d => .ok (g d)) fun s t hs => .ok (h s t hs)

/-- Steps that fail alike, or succeed alike and leave states that are alike. -/
theorem likewise_update {f : Moment → Depot → Except Error (α × Depot)}
    {g : Moment → Depot → Except Error (β × Depot)}
    (h : ∀ m m' s t, L.moments m m' → L.states s t →
      Matching (fun a b => Q a.1 b.1 ∧ L.states a.2 b.2) (f m s) (g m' t)) :
    Likewise L Q (update f) (update g) := by
  refine Routine.likewise_act (fun m m' s t hm hs => ?_) fun m m' s t hm hs => ?_
  · have outcome := h m m' s t hm hs
    generalize f m s = x, g m' t = y at outcome
    cases outcome with
    | ok alike => exact alike.2
    | error err => exact hs
  · have outcome := h m m' s t hm hs
    generalize f m s = x, g m' t = y at outcome
    cases outcome with
    | ok alike => exact .ok alike.1
    | error err => exact .error err

theorem likewise_within (hc : L.Contexts c c') {f : Depot → Except Error α}
    {g : Depot → Except Error β} (h : ∀ s t, L.states s t → Matching Q (f s) (g t)) :
    Likewise L Q (within c f) (within c' g) := by
  apply Routine.likewise_read
  intro m m' s t hm hs
  rw [hc m m' hm]
  cases c'.interrupt? m' with
  | some i => exact .error _
  | none => exact h s t hs

/-- A call goes on with what another one answers, or fails with it. -/
theorem Likewise.bind {x : Call α} {y : Call β} {f : α → Call γ} {g : β → Call δ}
    (h : Likewise L Q x y) (hf : ∀ a b, Q a b → Likewise L R (f a) (g b)) :
    Likewise L R (x >>= f) (y >>= g) := by
  rw [Likewise, ExceptT.run_bind, ExceptT.run_bind]
  apply Routine.Likewise.bind h
  intro a b matching
  cases matching with
  | ok h => exact hf _ _ h
  | error err => exact .done (.error err)

theorem Likewise.attempt {x : Call α} {y : Call β} (h : Likewise L Q x y) :
    Likewise L (Matching Q) (attempt x) (attempt y) := by
  rw [Likewise, Call.attempt, Call.attempt, ExceptT.run_lift, ExceptT.run_lift, Routine.map_eq,
    Routine.map_eq]
  exact Routine.Likewise.bind h fun _ _ matching => .done (.ok matching)

theorem Likewise.mapError {x : Call α} {y : Call β} (f : Error → Error) (h : Likewise L Q x y) :
    Likewise L Q (mapError f x) (mapError f y) :=
  Routine.Likewise.bind h fun _ _ matching => .done (matching.mapError f)

/-- Work that takes no time, or that may be waited for. -/
theorem likewise_work (hc : L.Contexts c c') {duration : Option Nat}
    (works : L.works duration) (result : Except Error α) :
    Likewise L Eq (work c duration result) (work c' duration result) := by
  refine (likewise_within (Q := Eq) hc fun _ _ _ => .ok rfl).bind fun _ _ _ => ?_
  split
  · exact likewise_ofExcept (matching_refl result)
  · refine Likewise.bind (Q := Eq) (x := ExceptT.lift (Routine.await c _))
      (y := ExceptT.lift (Routine.await c' _)) ?_ fun i _ same => ?_
    · exact Routine.Likewise.bind (Routine.likewise_await works hc) fun _ _ same => .done (.ok same)
    · subst same
      cases i with
      | some i => exact likewise_throw _
      | none => exact likewise_ofExcept (matching_refl result)

/-- The context of a task, unless it is interrupted already. -/
def entered (c : Context) (label : Nat) (timeout : Option Nat) (m : Moment) : Except Error Context :=
  match (c.inTask label timeout m).interrupt? m with
  | some i => .error (.cancelled i)
  | none => .ok (c.inTask label timeout m)

theorem enter_eq (c : Context) (label : Nat) (timeout : Option Nat) :
    enter c label timeout = ExceptT.mk (Routine.read fun m _ => entered c label timeout m) := rfl

/-- The contexts of tasks are interrupted alike if all of them are that may be entered. -/
theorem likewise_enter {label : Nat} {timeout : Option Nat}
    (inside : ∀ m m', L.moments m m' →
      L.Contexts (c.inTask label timeout m) (c'.inTask label timeout m')) :
    Likewise L L.Contexts (enter c label timeout) (enter c' label timeout) := by
  rw [enter_eq, enter_eq]
  refine Routine.likewise_read fun m m' s t hm _ => ?_
  unfold entered
  rw [inside m m' hm m m' hm]
  cases (c'.inTask label timeout m').interrupt? m' with
  | some i => exact .error (.cancelled i)
  | none => exact .ok (inside m m' hm)

/-- Work under a lease that is free alike. -/
theorem likewise_withLease {k : Key} {x : Call α} {y : Call β}
    (busy : ∀ s t, L.states s t → s.store.isBusy k = t.store.isBusy k)
    (acquired : L.Carries (fun d => { d with store := d.store.acquire k })
      fun d => { d with store := d.store.acquire k })
    (released : L.Carries (released k) (released k)) (h : Likewise L Q x y) :
    Likewise L Q (withLease k x) (withLease k y) := by
  have taken : Likewise L Eq (acquire k) (acquire k) := by
    refine Routine.likewise_act (fun m m' s t _ hs => ?_) fun m m' s t _ hs => ?_
    · rw [busy s t hs]
      split
      · exact hs
      · exact acquired s t hs
    · rw [busy s t hs]
      split
      · exact .error _
      · exact .ok rfl
  exact taken.bind fun _ _ _ => Routine.Likewise.holding released h

theorem likewise_mapM {f g : α → Call β} (l : List α)
    (h : ∀ a ∈ l, Likewise L Eq (f a) (g a)) : Likewise L Eq (l.mapM f) (l.mapM g) := by
  induction l with
  | nil =>
    rw [List.mapM_nil, List.mapM_nil]
    exact likewise_pure rfl
  | cons a l ih =>
    rw [List.mapM_cons, List.mapM_cons]
    refine (h a List.mem_cons_self).bind fun b _ hb => ?_
    subst hb
    refine (ih fun a ha => h a (List.mem_cons_of_mem _ ha)).bind fun bs _ hbs => ?_
    subst hbs
    exact likewise_pure rfl

end Call

end PackageDepot
