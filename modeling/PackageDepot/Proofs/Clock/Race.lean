import PackageDepot.Proofs.Clock.Lone
import PackageDepot.Service.Call

/-!
# Work against its context

Work is done in a context while any number of alarms cancel scopes. `Race` says how the two end, given the times
at which the context fails, and `race` that they end so.
-/

namespace PackageDepot

/-- How work ends in a context that fails at some times, if it is done at a time, or never. -/
structure Race {α : Type} (x : Schedule Depot (Except Error α)) (fails : Time → Prop) (done : Option Time)
    (result : Except Error α) (d : Depot) : Prop where
  /-- Work that is done before the context fails for the first time ends then, with its own result. -/
  wins : ∀ t, done = some t → (∀ u, x.moment.now ≤ u → fails u → t < u) → x.Finishes t result d
  /-- Other work is cancelled when the context fails for the first time. -/
  loses : ∀ t, IsLeast {u | x.moment.now ≤ u ∧ fails u} t → (∀ u, done = some u → t ≤ u) →
    ∃ i, x.Finishes t (.error (.cancelled i)) d
  /-- Without either there is no end. -/
  lasts : done = none → (∀ u, x.moment.now ≤ u → ¬ fails u) → x.Hangs
  /-- So its own result, if that tells of no cancellation, is what comes of work that is done before. -/
  own : (∀ i, result ≠ .error (.cancelled i)) → ((∃ t, x.Finishes t result d) ↔
    ∃ t, done = some t ∧ ∀ u, x.moment.now ≤ u → fails u → t < u)

/-- Only times from now on matter. -/
theorem Race.congr {α : Type} {x : Schedule Depot (Except Error α)} {fails fails' : Time → Prop}
    {done : Option Time} {result : Except Error α} {d : Depot} (h : Race x fails done result d)
    (same : ∀ t, x.moment.now ≤ t → (fails t ↔ fails' t)) : Race x fails' done result d := by
  have sets : {u | x.moment.now ≤ u ∧ fails' u} = {u | x.moment.now ≤ u ∧ fails u} := by
    ext u
    exact and_congr_right fun later => (same u later).symm
  have calm (t : Time) : (∀ u, x.moment.now ≤ u → fails' u → t < u) ↔
      ∀ u, x.moment.now ≤ u → fails u → t < u :=
    forall₂_congr fun u later => imp_congr_left (same u later).symm
  exact {
    wins := fun t ends early => h.wins t ends ((calm t).1 early)
    loses := fun t first late => h.loses t (by rwa [sets] at first) late
    lasts := fun endless never => h.lasts endless fun u later => mt (same u later).1 (never u later)
    own := fun proper => by simpa only [calm] using h.own proper }

namespace Call

variable {α : Type} {c : Context} {duration : Option Nat} {result : Except Error α} {d : Depot} {m : Moment}

/-- What comes of waiting for work. -/
def ending (result : Except Error α) : Option Interrupt → Except Error α
  | some i => .error (.cancelled i)
  | none => result

/-- Waiting for work ends the call. -/
theorem await_run : ((do
      match ← ExceptT.lift (Routine.await c duration) with
      | some i => throw (.cancelled i)
      | none => ExceptT.mk (pure result)) : Call α).run =
    .wait id c duration fun i => .done (ending result i) := by
  show Routine.wait id c duration _ = Routine.wait id c duration _
  congr 1
  funext i
  cases i with
  | some i => rfl
  | none => rfl

theorem work_eq : (work c duration result).run = .step id (fun _ d => d) fun m _ =>
    match c.interrupt? m with
    | some i => .done (.error (.cancelled i))
    | none => if duration = some 0 then .done result
      else .wait id c duration fun i => .done (ending result i) := by
  unfold work
  rw [ExceptT.run_bind]
  show Routine.step id _ _ = Routine.step id _ _
  congr 1
  funext m d
  dsimp only
  cases c.interrupt? m with
  | some i => rfl
  | none =>
    obtain _ | _ | n := duration
    · exact await_run
    · rfl
    · exact await_run

theorem advance_work_interrupted {i : Interrupt} (h : c.interrupt? m = some i) :
    Job.advance m (work c duration result).run d = (.finished (.error (.cancelled i)), d) := by
  rw [work_eq, Job.advance, h]
  rfl

theorem advance_work_now (calm : c.interrupt? m = none) :
    Job.advance m (work c (some 0) result).run d = (.finished result, d) := by
  rw [work_eq, Job.advance, calm]
  rfl

theorem advance_work (calm : c.interrupt? m = none) (lasting : duration ≠ some 0) :
    Job.advance m (work c duration result).run d =
      (.blocked id c (duration.map (m.now + ·)) fun i => .done (ending result i), d) := by
  rw [work_eq, Job.advance, calm]
  simp [Job.advance, lasting, calm]

end Call

namespace Forecast

open Job Schedule Call

variable {α : Type} {f : Forecast} {c : Context} {duration : Option Nat} {result : Except Error α} {d : Depot}
  {t limit : Time}

/-- Work in a context, alone with the alarms to come. -/
def work (f : Forecast) (c : Context) (duration : Option Nat) (result : Except Error α) (d : Depot) :
    Schedule Depot (Except Error α) := f.ready (Call.work c duration result).run d

/-- Work that is neither interrupted nor done at once waits. -/
theorem runTo_work (calm : ¬ c.Interrupted f.moment) (lasting : duration ≠ some 0) :
    runTo limit (f.work c duration result d) =
      runTo limit (f.wait id c (duration.map (f.moment.now + ·)) (fun i => .done (ending result i)) d) := by
  have lasts : ∀ e ∈ duration.map (f.moment.now + ·), f.moment.now < e := by
    intro e he
    obtain ⟨n, rfl, rfl⟩ := Option.map_eq_some_iff.1 he
    exact Nat.lt_add_of_pos_right (Nat.pos_of_ne_zero fun h => lasting (by rw [h]))
  exact runTo_ready calm lasts (advance_work (Context.interrupt?_eq_none calm) lasting)

theorem work_interrupted (already : c.Interrupted f.moment) :
    ∃ i, (f.work c duration result d).Finishes f.moment.now (.error (.cancelled i)) d := by
  obtain ⟨i, found⟩ := Option.isSome_iff_exists.1 already
  exact ⟨i, finishes_ready (advance_work_interrupted found)⟩

theorem work_now (calm : ¬ c.Interrupted f.moment) :
    (f.work c (some 0) result d).Finishes f.moment.now result d :=
  finishes_ready (advance_work_now (Context.interrupt?_eq_none calm))

/-- Work that is done before its context fails gives its own result. -/
theorem work_wins (ends : duration.map (f.moment.now + ·) = some t)
    (calm : ∀ u, f.moment.now ≤ u → c.Interrupted (f.view u) → t < u) :
    (f.work c duration result d).Finishes t result d := by
  obtain ⟨n, rfl, rfl⟩ := Option.map_eq_some_iff.1 ends
  have later : f.moment.now ≤ f.moment.now + n := Nat.le_add_right _ _
  have first : ¬ c.Interrupted f.moment := fun h =>
    Nat.not_le_of_lt (calm _ (Nat.le_refl _) (Context.interrupted_view h)) later
  by_cases now : n = 0
  · subst now
    exact work_now first
  · exact finishes_congr (fun _ _ => runTo_work first (by simpa using now)) (wait_wins ends later calm rfl)

/-- Other work is cancelled when its context fails. -/
theorem work_loses (first : IsLeast {u | f.moment.now ≤ u ∧ c.Interrupted (f.view u)} t)
    (late : ∀ e ∈ duration.map (f.moment.now + ·), t ≤ e)
    (apart : ∀ e ∈ duration.map (f.moment.now + ·), ∀ a ∈ f.alarms, a.time = e →
      ¬ a.scope <:+ c.scope) :
    ∃ i, (f.work c duration result d).Finishes t (.error (.cancelled i)) d := by
  by_cases already : c.Interrupted f.moment
  · have now : t = f.moment.now :=
      Nat.le_antisymm (first.2 ⟨Nat.le_refl _, Context.interrupted_view already⟩) first.1.1
    rw [now]
    exact work_interrupted already
  · by_cases lasting : duration = some 0
    · subst lasting
      have now : t = f.moment.now := Nat.le_antisymm (late _ rfl) first.1.1
      subst now
      obtain ⟨a, set, rings, inside⟩ := Context.exists_alarm first.1.2 already
      exact (apart _ rfl a set rings inside).elim
    · obtain ⟨i, done⟩ : ∃ i, (f.wait id c (duration.map (f.moment.now + ·))
          (fun i => .done (ending result i)) d).Finishes t (.error (.cancelled i)) d :=
        wait_loses first late apart (fun i => (.error (.cancelled i) : Except Error α)) fun _ => rfl
      exact ⟨i, finishes_congr (fun _ _ => runTo_work already lasting) done⟩

/-- Work that is never done in a context that never fails does not end. -/
theorem work_lasts (calm : ∀ u, f.moment.now ≤ u → ¬ c.Interrupted (f.view u)) :
    (f.work c none result d).Hangs := by
  have first : ¬ c.Interrupted f.moment := fun h => calm _ (Nat.le_refl _) (Context.interrupted_view h)
  refine ⟨0, fun limit _ => ?_⟩
  rw [runTo_work first (by simp)]
  exact hangs_wait calm

/-- **The race** between work and the context that it is done in. -/
theorem race (apart : ∀ e ∈ duration.map (f.moment.now + ·), ∀ a ∈ f.alarms, a.time = e →
      ¬ a.scope <:+ c.scope) :
    Race (f.work c duration result d) (fun t => c.Interrupted (f.view t)) (duration.map (f.moment.now + ·))
      result d where
  wins _ ends calm := work_wins ends calm
  loses _ first late := work_loses first late apart
  lasts endless calm := by
    obtain rfl := Option.map_eq_none_iff.1 endless
    exact work_lasts calm
  own proper := by
    constructor
    · rintro ⟨t, ends⟩
      by_cases fails : ∃ u, f.moment.now ≤ u ∧ c.Interrupted (f.view u)
      · obtain ⟨first, least⟩ : ∃ u, IsLeast {u | f.moment.now ≤ u ∧ c.Interrupted (f.view u)} u :=
          ⟨_, isLeast_csInf fails⟩
        by_cases late : ∀ e ∈ duration.map (f.moment.now + ·), first ≤ e
        · obtain ⟨i, lost⟩ := work_loses least late apart
          exact (proper i (ends.unique lost).2.1).elim
        · obtain ⟨e, he, early⟩ : ∃ e ∈ duration.map (f.moment.now + ·), ¬ first ≤ e := by
            simpa only [not_forall, exists_prop] using late
          exact ⟨e, he, fun u hu h => Nat.lt_of_lt_of_le (Nat.lt_of_not_le early) (least.2 ⟨hu, h⟩)⟩
      · cases duration with
        | none => exact ((work_lasts fun u hu h => fails ⟨u, hu, h⟩).not_finishes ends).elim
        | some n => exact ⟨f.moment.now + n, rfl, fun u hu h => (fails ⟨u, hu, h⟩).elim⟩
    · rintro ⟨t, ends, calm⟩
      exact ⟨t, work_wins ends calm⟩

end Forecast

end PackageDepot
