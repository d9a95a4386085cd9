import PackageDepot.Proofs.Pipeline.Stages

/-!
# What an undisturbed build comes to

In a context that is never interrupted, and without a time for each task, what a build comes to depends on
the request, the engine and the depot only (`execute_steady`). So it makes sense to speak of the snapshot
that the first tasks make, and of the first task that fails on what is made before it. `left_fold` is the
statement that a build is the strict left fold of its tasks, with its failures.
-/

namespace PackageDepot

open Package Call Backend

namespace Call

variable {α β : Type} {M : Moment → Prop} {c : Context} {s t : Depot}

/-- What the call does is the same at all moments of `M`. -/
abbrev Steady (M : Moment → Prop) (x : Call α) : Prop := Routine.Steady M x.run

theorem Steady.bind {x : Call α} {f : α → Call β} (hx : Steady M x) (hf : ∀ a, Steady M (f a)) :
    Steady M (x >>= f) := by
  rw [Steady, ExceptT.run_bind]
  apply Routine.Steady.bind hx
  intro a
  cases a with
  | ok a => exact hf a
  | error err => exact trivial

theorem Steady.mapError {x : Call α} (f : Error → Error) (hx : Steady M x) :
    Steady M (mapError f x) :=
  Routine.Steady.bind hx fun _ => trivial

theorem steady_query (f : Depot → Except Error α) : Steady M (query f) :=
  ⟨fun _ _ _ _ _ => ⟨rfl, rfl⟩, fun _ _ _ => trivial⟩

theorem steady_read (f : Depot → α) : Steady M (read f) := steady_query fun d => .ok (f d)

theorem steady_within (quiet : c.Undisturbed M) (f : Depot → Except Error α) :
    Steady M (within c f) := by
  rw [← bind_pure (within c f), Steady, within_run]
  refine ⟨fun m m' d hm hm' => ⟨rfl, ?_⟩, fun m d hm => ?_⟩
  · simp only [quiet m hm, quiet m' hm']
  · simp only [quiet m hm, bind_pure]
    exact trivial

theorem steady_work (quiet : c.Undisturbed M) (duration : Option Nat) (result : Except Error α) :
    Steady M (work c duration result) := by
  apply (steady_within quiet _).bind
  intro _
  split
  · exact trivial
  · refine Steady.bind (x := ExceptT.lift (Routine.await c _)) ⟨quiet, trivial⟩ fun i => ?_
    cases i with
    | some i => exact trivial
    | none => exact trivial

/-- A task that has no time of its own is carried out in the context of the call. -/
theorem steady_enter_bind (quiet : c.Undisturbed M) (label : Nat) {f : Context → Call β}
    (hf : Steady M (f c)) : Steady M (enter c label none >>= f) := by
  rw [Steady, enter_run]
  refine ⟨fun m m' d hm hm' => ⟨rfl, ?_⟩, fun m d hm => ?_⟩
  · simp only [Context.inTask, quiet m hm, quiet m' hm']
  · simp only [Context.inTask, quiet m hm]
    exact hf

theorem solo_pure_iff {a : α} {b : Except Error α} :
    Routine.Solo M (pure a : Call α).run s b t ↔ b = .ok a ∧ t = s := Routine.solo_done_iff

theorem solo_bind_iff {x : Call α} {f : α → Call β} {b : Except Error β} :
    Routine.Solo M (x >>= f).run s b t ↔
      (∃ a u, Routine.Solo M x.run s (.ok a) u ∧ Routine.Solo M (f a).run u b t) ∨
        ∃ err, Routine.Solo M x.run s (.error err) t ∧ b = .error err := by
  rw [ExceptT.run_bind, Routine.bind_eq, Routine.solo_bind_iff]
  constructor
  · rintro ⟨a, u, hx, hf⟩
    cases a with
    | ok a => exact .inl ⟨a, u, hx, hf⟩
    | error err =>
      obtain ⟨rfl, rfl⟩ := Routine.solo_done_iff.1 hf
      exact .inr ⟨err, hx, rfl⟩
  · rintro (⟨a, u, hx, hf⟩ | ⟨err, hx, rfl⟩)
    · exact ⟨.ok a, u, hx, hf⟩
    · exact ⟨.error err, t, hx, .done _ _⟩

theorem solo_mapError_iff {f : Error → Error} {x : Call α} {b : Except Error α} :
    Routine.Solo M (mapError f x).run s b t ↔
      ∃ r, Routine.Solo M x.run s r t ∧ b = r.mapError f := by
  show Routine.Solo M (Except.mapError f <$> x.run) s b t ↔ _
  rw [Routine.map_eq, Routine.solo_bind_iff]
  constructor
  · rintro ⟨r, u, hx, hb⟩
    obtain ⟨rfl, rfl⟩ := Routine.solo_done_iff.1 hb
    exact ⟨r, hx, rfl⟩
  · rintro ⟨r, hx, rfl⟩
    exact ⟨r, t, hx, .done _ _⟩

/-- A call that only reads leaves the state as it is. -/
theorem Quiet.solo {E : Error → Prop} {x : Call α} (hx : Call.Quiet E x) {b : Except Error α}
    (h : Routine.Solo M x.run s b t) : t = s := (hx.ends h.alone).1

end Call

section

variable {M : Moment → Prop} {c : Context}

namespace Index

theorem credential_steady (source : GitSource) : Steady M (credential source) := by
  unfold credential
  split
  · exact trivial
  · exact steady_query _

theorem findDiscovered_steady (quiet : c.Undisturbed M) (e : Engine) (k : Key) :
    Steady M (findDiscovered e k c) := by
  refine (steady_query _).bind fun r => Steady.bind ?_ fun packages => ?_
  · unfold discover
    split
    · exact trivial
    · exact (credential_steady _).bind fun _ => steady_within quiet _
  · split
    · exact trivial
    · exact trivial

theorem lookup_steady (quiet : c.Undisturbed M) (e : Engine) (k : Key) :
    Steady M (lookup e k c) := by
  apply (steady_read _).bind
  intro s
  cases s with
  | some s => exact trivial
  | none =>
    refine (findDiscovered_steady quiet e k).bind fun ⟨r, p⟩ => ?_
    dsimp only
    split
    · exact trivial
    · exact (credential_steady _).bind fun _ => (steady_within quiet _).bind fun _ => trivial

end Index

namespace Resolve

theorem git_steady (quiet : c.Undisturbed M) (l : GitLocation) : Steady M (git l c) := by
  refine Steady.bind ?_ fun credential => (steady_within quiet _).bind fun fetched => ?_
  · apply (steady_read _).bind
    intro source
    cases source with
    | some source => exact Index.credential_steady source
    | none => exact trivial
  · dsimp only
    split
    · exact trivial
    · exact trivial

theorem revision_steady (quiet : c.Undisturbed M) (e : Engine) (k : Key) :
    Steady M (revision e k c) := by
  apply ((Index.lookup_steady quiet e k).mapError _).bind
  intro content
  split
  · dsimp only
    split
    · exact trivial
    · exact trivial
  · exact trivial

theorem source_steady (quiet : c.Undisturbed M) (e : Engine) (s : CloneSource) :
    Steady M (source e s c) := by
  unfold source
  split
  · exact git_steady quiet _
  · split
    · exact revision_steady quiet e _
    · exact trivial
  · exact trivial

end Resolve

namespace Pipeline

variable {e : Engine} {r : Revision}

theorem apply_steady (quiet : c.Undisturbed M) (current : Option Snapshot) (t : Task) :
    Steady M (apply e r current t c) := by
  have check : ∀ {α : Type} (x : Except ValidationFault α), Steady M (valid x) := fun _ => trivial
  unfold apply
  split
  · exact (check _).bind fun spec => (Resolve.source_steady quiet e spec.source).bind fun _ => trivial
  · exact (check _).bind fun _ => trivial
  · exact (check _).bind fun before => (check _).bind fun spec =>
      (steady_work quiet _ _).bind fun _ => trivial
  · exact (check _).bind fun before => (check _).bind fun spec => check _

theorem step_steady (quiet : c.Undisturbed M) (untimed : e.config.taskMilliseconds = none)
    (index : Nat) (current : Option Snapshot) (t : Task) :
    Steady M (step e r c index current t) := by
  unfold step
  rw [untimed]
  exact (steady_enter_bind quiet index (apply_steady quiet current t)).mapError _

theorem run_steady (quiet : c.Undisturbed M) (untimed : e.config.taskMilliseconds = none)
    (index : Nat) (current : Option Snapshot) (tasks : List Task) :
    Steady M (run e r c index current tasks) := by
  induction tasks generalizing index current with
  | nil => exact trivial
  | cons t rest ih => exact (step_steady quiet untimed index current t).bind fun _ => ih _ _

/-- **What an undisturbed build does is the same at all times.** -/
theorem execute_steady (quiet : c.Undisturbed M) (untimed : e.config.taskMilliseconds = none) :
    Steady M (execute e r c) := by
  refine Steady.bind (x := Call.ofExcept r.validate) trivial fun _ =>
    (run_steady quiet untimed 0 _ r.tasks).bind fun s => ?_
  cases s with
  | some s => exact trivial
  | none => exact trivial

end Pipeline

end

end PackageDepot
