import PackageDepot.Proofs.Clock.Context
import PackageDepot.Proofs.Routine.Ends
import PackageDepot.Proofs.Service.ReadOnly

/-!
# Complete runs of calls

The equations of `Routine.Ends` for calls: each says of one way to make a call which answers it can come
to, and which state it leaves. A call that runs alone sees the state that it left itself.
-/

namespace PackageDepot.Call

open Package Routine

variable {α β : Type} {env : Depot → Depot → Prop} {M : Moment → Prop} {s t : Depot}

/-- Work in a context, with what is done behind it. -/
theorem within_run (c : Context) (f : Depot → Except Error α) (g : α → Call β) :
    (within c f >>= g).run = .step id (fun _ d => d) fun m d =>
      match c.interrupt? m with
      | some i => .done (.error (.cancelled i))
      | none => (ofExcept (f d) >>= g).run := by
  rw [ExceptT.run_bind]
  show Routine.step id _ _ = Routine.step id _ _
  congr 1
  funext m d
  dsimp only
  cases c.interrupt? m with
  | some i => rfl
  | none => rfl

/-- A task is begun in a context of its own, unless that is interrupted already. -/
theorem enter_run (c : Context) (label : Nat) (timeout : Option Nat) (g : Context → Call β) :
    (enter c label timeout >>= g).run = .step id (fun _ d => d) fun m _ =>
      match (c.inTask label timeout m).interrupt? m with
      | some i => .done (.error (.cancelled i))
      | none => (g (c.inTask label timeout m)).run := by
  rw [ExceptT.run_bind]
  show Routine.step id _ _ = Routine.step id _ _
  congr 1
  funext m d
  show Routine.bind (.done (match (c.inTask label timeout m).interrupt? m with
    | some i => .error (.cancelled i)
    | none => .ok (c.inTask label timeout m) : Except Error Context)) _ = _
  cases (c.inTask label timeout m).interrupt? m with
  | some i => rfl
  | none => rfl

theorem ends_pure_iff {a : α} {b : Except Error α} :
    Ends env M (pure a : Call α).run s b t ↔ b = .ok a ∧ t = s := ends_done_iff

theorem ends_throw_iff {err : Error} {b : Except Error α} :
    Ends env M (throw err : Call α).run s b t ↔ b = .error err ∧ t = s := ends_done_iff

theorem ends_ofExcept_iff {r b : Except Error α} :
    Ends env M (ofExcept r).run s b t ↔ b = r ∧ t = s := ends_done_iff

/-- A call goes on with what another one answers, or fails with it. -/
theorem ends_bind_iff {x : Call α} {f : α → Call β} {b : Except Error β} :
    Ends env M (x >>= f).run s b t ↔
      (∃ a u, Ends env M x.run s (.ok a) u ∧ Ends env M (f a).run u b t) ∨
        ∃ err, Ends env M x.run s (.error err) t ∧ b = .error err := by
  rw [ExceptT.run_bind, Routine.bind_eq, Routine.ends_bind_iff]
  constructor
  · rintro ⟨a, u, hx, hf⟩
    cases a with
    | ok a => exact .inl ⟨a, u, hx, hf⟩
    | error err =>
      obtain ⟨rfl, rfl⟩ := ends_done_iff.1 hf
      exact .inr ⟨err, hx, rfl⟩
  · rintro (⟨a, u, hx, hf⟩ | ⟨err, hx, rfl⟩)
    · exact ⟨.ok a, u, hx, hf⟩
    · exact ⟨.error err, t, hx, .done _ _⟩

/-- A call that succeeds goes on with the success of its first part. -/
theorem ends_bind_ok {x : Call α} {f : α → Call β} {b : β}
    (h : Ends env M (x >>= f).run s (.ok b) t) :
    ∃ a u, Ends env M x.run s (.ok a) u ∧ Ends env M (f a).run u (.ok b) t := by
  obtain first | ⟨err, -, he⟩ := ends_bind_iff.1 h
  · exact first
  · cases he

theorem ends_query_iff {f : Depot → Except Error α} {b : Except Error α} :
    Ends env M (query f).run s b t ↔ (∃ m, M m) ∧ env s t ∧ b = f t := by
  refine ends_act_iff.trans ⟨?_, ?_⟩
  · rintro ⟨u, m, hu, hm, h⟩
    cases h
    exact ⟨⟨m, hm⟩, hu, rfl⟩
  · rintro ⟨⟨m, hm⟩, ht, rfl⟩
    exact ⟨t, m, ht, hm, rfl⟩

theorem ends_read_iff {f : Depot → α} {b : Except Error α} :
    Ends env M (read f).run s b t ↔ (∃ m, M m) ∧ env s t ∧ b = .ok (f t) :=
  ends_query_iff (f := fun d => .ok (f d))

/-- A call that runs alone and begins by reading the state goes on with what it read. -/
theorem alone_read_bind_iff {f : Depot → α} {g : α → Call β} {b : Except Error β} :
    Alone M (read f >>= g).run s b t ↔ (∃ m, M m) ∧ Alone M (g (f s)).run s b t := by
  rw [read_run, Alone, ends_step_iff]
  constructor
  · rintro ⟨_, m, rfl, hm, rest⟩
    exact ⟨⟨m, hm⟩, rest⟩
  · rintro ⟨⟨m, hm⟩, rest⟩
    exact ⟨s, m, rfl, hm, rest⟩

/-- Work in a context reads the state, unless the context is interrupted. -/
theorem ends_within_iff {c : Context} {f : Depot → Except Error α} {b : Except Error α} :
    Ends env M (within c f).run s b t ↔ ∃ m, M m ∧ env s t ∧
      ((∃ i, c.interrupt? m = some i ∧ b = .error (.cancelled i)) ∨
        c.interrupt? m = none ∧ b = f t) := by
  refine ends_act_iff.trans ⟨?_, ?_⟩
  · rintro ⟨u, m, hu, hm, h⟩
    cases hi : c.interrupt? m with
    | some i =>
      simp only [hi, Prod.mk.injEq] at h
      obtain ⟨rfl, rfl⟩ := h
      exact ⟨m, hm, hu, .inl ⟨i, hi, rfl⟩⟩
    | none =>
      simp only [hi, Prod.mk.injEq] at h
      obtain ⟨rfl, rfl⟩ := h
      exact ⟨m, hm, hu, .inr ⟨hi, rfl⟩⟩
  · rintro ⟨m, hm, ht, ⟨i, hi, rfl⟩ | ⟨hi, rfl⟩⟩
    · exact ⟨t, m, ht, hm, by simp [hi]⟩
    · exact ⟨t, m, ht, hm, by simp [hi]⟩

/-- Work that is done in spite of its context answers its result. -/
theorem ends_work_ok {c : Context} {duration : Option Nat} {result : Except Error α} {a : α}
    (h : Ends env M (work c duration result).run s (.ok a) t) : result = .ok a := by
  obtain ⟨_, u, -, h⟩ := ends_bind_ok h
  split at h
  · exact (ends_done_iff.1 h).1.symm
  · obtain ⟨i, v, -, h⟩ := ends_bind_ok h
    cases i with
    | some i => cases (ends_throw_iff.1 h).1
    | none => exact (ends_done_iff.1 h).1.symm

theorem ends_attempt_iff {x : Call α} {b : Except Error (Except Error α)} :
    Ends env M (attempt x).run s b t ↔ ∃ r, Ends env M x.run s r t ∧ b = .ok r := by
  rw [attempt, ExceptT.run_lift, Routine.map_eq, Routine.ends_bind_iff]
  constructor
  · rintro ⟨r, u, hx, hb⟩
    obtain ⟨rfl, rfl⟩ := ends_done_iff.1 hb
    exact ⟨r, hx, rfl⟩
  · rintro ⟨r, hx, rfl⟩
    exact ⟨r, t, hx, .done _ _⟩

theorem ends_mapError_iff {f : Error → Error} {x : Call α} {b : Except Error α} :
    Ends env M (mapError f x).run s b t ↔ ∃ r, Ends env M x.run s r t ∧ b = r.mapError f := by
  show Ends env M (Except.mapError f <$> x.run) s b t ↔ _
  rw [Routine.map_eq, Routine.ends_bind_iff]
  constructor
  · rintro ⟨r, u, hx, hb⟩
    obtain ⟨rfl, rfl⟩ := ends_done_iff.1 hb
    exact ⟨r, hx, rfl⟩
  · rintro ⟨r, hx, rfl⟩
    exact ⟨r, t, hx, .done _ _⟩

/-- A call for every element of a list, where each leaves the state as it is: all of them succeed, and
every answer is one to its element, or one of them fails. -/
theorem alone_mapM {f : α → Call β} {P : α → β → Prop} {E : Error → Prop} {l : List α}
    (hf : ∀ a ∈ l, ∀ b t, Alone M (f a).run s b t → t = s ∧
      ((∃ v, b = .ok v ∧ P a v) ∨ ∃ err, b = .error err ∧ E err))
    {b : Except Error (List β)} (h : Alone M (l.mapM f).run s b t) : t = s ∧
      ((∃ ps : List (α × β), ps.map Prod.fst = l ∧ b = .ok (ps.map Prod.snd) ∧
        ∀ p ∈ ps, P p.1 p.2) ∨ ∃ err, b = .error err ∧ E err) := by
  induction l generalizing b with
  | nil =>
    rw [List.mapM_nil] at h
    obtain ⟨rfl, rfl⟩ := ends_pure_iff.1 h
    exact ⟨rfl, .inl ⟨[], rfl, rfl, nofun⟩⟩
  | cons a l ih =>
    rw [List.mapM_cons] at h
    have first := hf a List.mem_cons_self
    have ih := @ih fun a' ha => hf a' (List.mem_cons_of_mem a ha)
    obtain ⟨v, u, ha, hr⟩ | ⟨err, ha, rfl⟩ := ends_bind_iff.1 h
    · obtain ⟨rfl, ⟨v', hv, here⟩ | ⟨err, hv, -⟩⟩ := first _ u ha
      · cases hv
        obtain ⟨vs, w, hl, hp⟩ | ⟨err, hl, rfl⟩ := ends_bind_iff.1 hr
        · obtain ⟨rfl, rfl⟩ := ends_pure_iff.1 hp
          obtain ⟨rfl, ⟨ps, rfl, hps, there⟩ | ⟨err, hps, -⟩⟩ := ih hl
          · cases hps
            refine ⟨rfl, .inl ⟨(a, v) :: ps, rfl, rfl, fun p hp => ?_⟩⟩
            obtain rfl | hp := List.mem_cons.1 hp
            · exact here
            · exact there p hp
          · cases hps
        · obtain ⟨rfl, ⟨ps, -, hps, -⟩ | ⟨err', hps, herr⟩⟩ := ih hl
          · cases hps
          · cases hps
            exact ⟨rfl, .inr ⟨_, rfl, herr⟩⟩
      · cases hv
    · obtain ⟨rfl, ⟨v, hv, -⟩ | ⟨err', hv, herr⟩⟩ := first _ t ha
      · cases hv
      · cases hv
        exact ⟨rfl, .inr ⟨_, rfl, herr⟩⟩

/-- A call that changes the state in one step changes nothing if it fails. -/
theorem alone_update_iff {f : Moment → Depot → Except Error (α × Depot)} {b : Except Error α} :
    Alone M (Call.update f).run s b t ↔ ∃ m, M m ∧
      ((∃ a, f m s = .ok (a, t) ∧ b = .ok a) ∨
        ∃ err, f m s = .error err ∧ b = .error err ∧ t = s) := by
  refine alone_act_iff.trans ⟨?_, ?_⟩
  · rintro ⟨m, hm, h⟩
    refine ⟨m, hm, ?_⟩
    cases hf : f m s with
    | ok a =>
      simp only [hf, Prod.mk.injEq] at h
      obtain ⟨rfl, rfl⟩ := h
      exact .inl ⟨a.1, rfl, rfl⟩
    | error err =>
      simp only [hf, Prod.mk.injEq] at h
      obtain ⟨rfl, rfl⟩ := h
      exact .inr ⟨err, rfl, rfl, rfl⟩
  · rintro ⟨m, hm, ⟨a, hf, rfl⟩ | ⟨err, hf, rfl, rfl⟩⟩
    · exact ⟨m, hm, by simp [hf]⟩
    · exact ⟨m, hm, by simp [hf]⟩

theorem alone_acquire_iff {k : Key} {b : Except Error Unit} :
    Alone M (acquire k).run s b t ↔ (∃ m, M m) ∧
      (s.store.isBusy k = true ∧ b = .error (.conflict k) ∧ t = s ∨
        s.store.isBusy k = false ∧ b = .ok () ∧ t = { s with store := s.store.acquire k }) := by
  refine alone_act_iff.trans ⟨?_, ?_⟩
  · rintro ⟨m, hm, h⟩
    refine ⟨⟨m, hm⟩, ?_⟩
    cases hb : s.store.isBusy k with
    | true =>
      simp only [hb, if_true, Prod.mk.injEq] at h
      obtain ⟨rfl, rfl⟩ := h
      exact .inl ⟨rfl, rfl, rfl⟩
    | false =>
      simp only [hb, Bool.false_eq_true, if_false, Prod.mk.injEq] at h
      obtain ⟨rfl, rfl⟩ := h
      exact .inr ⟨rfl, rfl, rfl⟩
  · rintro ⟨⟨m, hm⟩, ⟨hb, rfl, rfl⟩ | ⟨hb, rfl, rfl⟩⟩
    · exact ⟨m, hm, by simp [hb]⟩
    · exact ⟨m, hm, by simp [hb]⟩

/-- A call under a lease that is free works on the state with the lease taken, and gives the lease
back. -/
theorem alone_withLease_iff {k : Key} {x : Call α} {b : Except Error α} :
    Alone M (withLease k x).run s b t ↔ (∃ m, M m) ∧
      (s.store.isBusy k = true ∧ b = .error (.conflict k) ∧ t = s ∨
        s.store.isBusy k = false ∧ ∃ u,
          Alone M x.run { s with store := s.store.acquire k } b u ∧ t = released k u) := by
  rw [withLease, Alone, ends_bind_iff]
  constructor
  · rintro (⟨a, u, ha, hx⟩ | ⟨err, ha, rfl⟩)
    · obtain ⟨hM, ⟨-, h, -⟩ | ⟨free, -, rfl⟩⟩ := alone_acquire_iff.1 ha
      · cases h
      · exact ⟨hM, .inr ⟨free, (alone_holding_iff hM).1 hx⟩⟩
    · obtain ⟨hM, ⟨busy, h, rfl⟩ | ⟨-, h, -⟩⟩ := alone_acquire_iff.1 ha
      · cases h
        exact ⟨hM, .inl ⟨busy, rfl, rfl⟩⟩
      · cases h
  · rintro ⟨hM, ⟨busy, rfl, rfl⟩ | ⟨free, hx⟩⟩
    · exact .inr ⟨_, alone_acquire_iff.2 ⟨hM, .inl ⟨busy, rfl, rfl⟩⟩, rfl⟩
    · refine .inl ⟨(), _, alone_acquire_iff.2 ⟨hM, .inr ⟨free, rfl, rfl⟩⟩, ?_⟩
      exact (alone_holding_iff hM).2 hx

/-- A call that only reads leaves the state as it is when it runs alone. -/
theorem Quiet.ends {E : Error → Prop} {x : Call α} (hx : Call.Quiet E x) {b : Except Error α}
    (h : Alone M x.run s b t) : t = s ∧ ∀ err, b = .error err → E err := by
  obtain ⟨hb, ht⟩ := Routine.Quiet.among (fun _ => rfl) (fun _ _ _ => Eq.trans) hx h
  exact ⟨ht.symm, hb⟩

end PackageDepot.Call
