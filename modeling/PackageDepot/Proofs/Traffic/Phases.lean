import PackageDepot.Proofs.Service.Writing
import PackageDepot.Proofs.Traffic.Basic

/-!
# The phases of a request

`Request.protocol` is the protocol that the call of a request follows (`Request.follows`). Its steps,
`Advance`, are all that calls do to a depot: a write asks for the repository, takes the lease, builds
quietly, commits or gives up, and gives the lease back; a deletion erases under the lease; taking a
repository out is one step and the purge another one.
-/

namespace PackageDepot

open Package Call

/-- The point that the call of a request has come to. -/
inductive Phase
  /-- Nothing was done yet. -/
  | fresh
  /-- The lease may be taken: the repository of a write was found and holds packages. -/
  | approved
  | leased
  /-- The lease is still held, but what was asked for is done. -/
  | wrote (r : Reply)
  /-- The repository was taken out, but its revisions were not. -/
  | removed
  /-- There was nothing to delete, and the lease was given back. -/
  | missed
  | answered (a : Answer)

namespace Request

/-- The key whose lease is held in a phase. -/
def lease? (q : Request) : Phase → Option Key
  | .leased | .wrote _ => q.key?
  | _ => none

/-- The phase that a call begins in. -/
def opening : Request → Phase
  | .delete .. => .approved
  | _ => .fresh

end Request

/-- The steps of the call of a request. -/
inductive Advance (e : Engine) (q : Request) : Phase → Moment → Depot → Depot → Phase → Prop
  | quiet {t : Phase} (m : Moment) (d : Depot) (h : t = .fresh ∨ t = .leased ∨ t = .missed) :
    Advance e q t m d d t
  | register {m : Moment} {d : Depot} {r : Repository} {registry : Registry} (hq : q = .register r)
    (h : d.registry.register r = .ok registry) :
    Advance e q .fresh m d { d with registry } (.answered (.ok .done))
  | remove {m : Moment} {d : Depot} {n : String} {r : Repository} {registry : Registry}
    (hq : q = .unregister n) (h : d.registry.unregister n = .ok (r, registry)) :
    Advance e q .fresh m d { d with registry } .removed
  | purge {m : Moment} {d : Depot} {n : String} (hq : q = .unregister n) :
    Advance e q .removed m d { d with store := d.store.purge n } (.answered (.ok .done))
  | approve {m : Moment} {d : Depot} {intent : Intent} {r : Revision} {c : Context} {g : Repository}
    (hq : q.write? = some (intent, r, c)) (found : d.registry.get? r.repository = some g)
    (holds : g.holdsPackages = true) : Advance e q .fresh m d d .approved
  | acquire {m : Moment} {d : Depot} {k : Key} (hk : q.key? = some k)
    (free : d.store.isBusy k = false) :
    Advance e q .approved m d { d with store := d.store.acquire k } .leased
  | conflict {m : Moment} {d : Depot} {k : Key} (hk : q.key? = some k)
    (busy : d.store.isBusy k = true) :
    Advance e q .approved m d d (.answered (.error (.conflict k)))
  | commit {m : Moment} {d : Depot} {intent : Intent} {r : Revision} {c : Context}
    {snapshot : Snapshot} {b : Stored} {store : Store} (hq : q.write? = some (intent, r, c))
    (h : d.store.commit ⟨r.key, intent⟩ r snapshot m.now = .ok (b, store)) :
    Advance e q .leased m d { d with store } (.wrote (.files (.ofKey r.key b.files)))
  | erase {m : Moment} {d : Depot} {k : Key} {c : Context} (hq : q = .delete k c)
    (there : (d.store.get? k).isSome = true) :
    Advance e q .leased m d { d with store := d.store.erase k } (.wrote .done)
  | finish {m : Moment} {d : Depot} {k : Key} {r : Reply} (hk : q.key? = some k) :
    Advance e q (.wrote r) m d (released k d) (.answered (.ok r))
  | fail {m : Moment} {d : Depot} {intent : Intent} {r : Revision} {c : Context} {err : Error}
    (hq : q.write? = some (intent, r, c)) (h : r.Fails e intent c err) :
    Advance e q .leased m d (released r.key d) (.answered (.error err))
  | miss {m : Moment} {d : Depot} {k : Key} {c : Context} (hq : q = .delete k c) :
    Advance e q .leased m d (released k d) .missed

/-- The answers with which a call may end. -/
def Phase.Ends (q : Request) : Phase → Answer → Prop
  | .fresh, a => (∀ err, a = .error err → err.Calm) ∧ (q.isReadOnly = false → ∃ err, a = .error err)
  | .missed, a => ∃ err, a = .error err ∧ err.Calm
  | .answered b, a => a = b
  | _, _ => False

namespace Request

/-- To give back the lease that is held, if one is. -/
def giveBack : Option Key → Depot → Depot
  | some k => released k
  | none => id

/-- The protocol of the call of a request. -/
def protocol (e : Engine) (q : Request) : Protocol Depot Answer where
  Phase := Phase
  release t := giveBack (q.lease? t)
  Step := Advance e q
  Ends := Phase.Ends q

variable (e : Engine)

theorem follows_of_quiet {q : Request} (hr : q.isReadOnly = true)
    (h : Call.Quiet Error.Calm (q.call e)) : (q.begin e).Follows (q.protocol e) Phase.fresh := by
  have hf := Routine.Quiet.follows (P := q.protocol e) (t := Phase.fresh) (f := .done) h
    (fun m d => Advance.quiet m d (.inl rfl)) fun a ha => ⟨ha, fun hn => ?_⟩
  · rwa [Routine.bind_done] at hf
  · rw [hr] at hn
    cases hn

/-- A call whose first step, made with nothing to put in order, may change the depot or fail. -/
theorem update_follows {P : Protocol Depot Answer} {t : P.Phase} {α : Type} (ht : P.release t = id)
    {f : Moment → Depot → Except Error (α × Depot)} {g : α → Call Reply}
    (hok : ∀ m d a d', f m d = .ok (a, d') → ∃ u, P.Step t m d d' u ∧ (g a).run.Follows P u)
    (herr : ∀ m d err, f m d = .error err → ∃ u, P.Step t m d d u ∧ P.Ends u (.error err)) :
    (Call.update f >>= g).run.Follows P t := by
  rw [update_run]
  refine ⟨ht.symm, fun m d => ?_⟩
  dsimp only
  cases h : f m d with
  | ok a => exact hok m d a.1 a.2 h
  | error err => exact herr m d err h

/-- A call that fails before it has done anything. -/
theorem ends_fresh {q : Request} {err : Error} (h : err.Calm) :
    Phase.Ends q .fresh (.error err) := by
  refine ⟨?_, fun _ => ⟨err, rfl⟩⟩
  rintro _ ⟨⟩
  exact h

theorem register_follows (r : Repository) :
    ((Request.register r).begin e).Follows ((Request.register r).protocol e) Phase.fresh := by
  apply update_follows rfl
  · intro m d a d' h
    cases hr : d.registry.register r with
    | ok registry =>
      rw [hr] at h
      cases h
      exact ⟨.answered (.ok .done), Advance.register rfl hr, rfl⟩
    | error err =>
      rw [hr] at h
      cases h
  · intro m d err h
    cases hr : d.registry.register r with
    | ok registry =>
      rw [hr] at h
      cases h
    | error err =>
      rw [hr] at h
      cases h
      exact ⟨.fresh, Advance.quiet m d (.inl rfl), ends_fresh (Registry.register_calm hr)⟩

theorem unregister_follows (n : String) :
    ((Request.unregister n).begin e).Follows ((Request.unregister n).protocol e) Phase.fresh := by
  rw [begin, call, Service.unregister, bind_assoc]
  apply update_follows rfl
  · intro m d a d' h
    cases hr : d.registry.unregister n with
    | ok b =>
      rw [hr] at h
      cases h
      refine ⟨.removed, Advance.remove rfl hr, ?_⟩
      rw [bind_assoc]
      apply update_follows rfl
      · intro m d a d' h
        cases h
        exact ⟨.answered (.ok .done), Advance.purge rfl, rfl⟩
      · intro m d err h
        cases h
    | error err =>
      rw [hr] at h
      cases h
  · intro m d err h
    cases hr : d.registry.unregister n with
    | ok b =>
      rw [hr] at h
      cases h
    | error err =>
      rw [hr] at h
      cases h
      exact ⟨.fresh, Advance.quiet m d (.inl rfl), ends_fresh (Registry.unregister_calm hr)⟩

/-- A call under a lease, once the lease may be taken: it is refused, or it goes on with the lease in
its hands. -/
theorem withLease_follows {q : Request} {k : Key} (hk : q.key? = some k) {α : Type} {x : Call α}
    {f : Except Error α → Routine Depot Answer}
    (hf : f (.error (.conflict k)) = .done (.error (.conflict k)))
    (hx : ((x.run.guarded (released k)).bind fun r =>
      .step (released k) (fun _ => released k) fun _ _ => f r).Follows (q.protocol e) Phase.leased) :
    ((withLease k x).run.bind f).Follows (q.protocol e) Phase.approved := by
  refine ⟨rfl, ?_⟩
  intro m d
  dsimp only
  by_cases hb : d.store.isBusy k = true
  · refine ⟨.answered (.error (.conflict k)), ?_, ?_⟩
    · rw [if_pos hb]
      exact Advance.conflict hk hb
    · rw [if_pos hb]
      show Routine.Follows _ (f (.error (.conflict k))) _
      rw [hf]
      rfl
  · refine ⟨.leased, ?_, ?_⟩
    · rw [if_neg hb]
      exact Advance.acquire hk (by simpa using hb)
    · rw [if_neg hb]
      show Routine.Follows _ (Routine.bind (Routine.bind (Routine.guarded _ _) _) f) _
      rw [Routine.bind_assoc]
      exact hx

/-- A write under its lease: it builds quietly and commits, or it fails. -/
theorem leased_follows {q : Request} {r : Revision} {intent : Intent} {c : Context}
    (hq : q.write? = some (intent, r, c)) (hk : q.key? = some r.key)
    {f : Except Error RevisionFiles → Routine Depot Answer}
    (hok : ∀ a, f (.ok a) = .done (.ok (.files a)))
    (herr : ∀ err, f (.error err) = .done (.error err)) :
    (((do
      let stored ← Service.prepare e r intent c >>= Service.commit ⟨r.key, intent⟩ r
      return RevisionFiles.ofKey r.key stored.files : Call RevisionFiles).run.guarded
        (released r.key)).bind fun a =>
      .step (released r.key) (fun _ => released r.key) fun _ _ => f a).Follows (q.protocol e)
        Phase.leased := by
  have release : (q.protocol e).release Phase.leased = released r.key := by
    simp [protocol, giveBack, lease?, hk]
  have fails : ∀ err, r.Fails e intent c err →
      (Routine.step (released r.key) (fun _ => released r.key) fun _ _ =>
        f (.error err)).Follows (q.protocol e) Phase.leased := by
    intro err h
    refine ⟨release.symm, fun m d => ⟨.answered (.error err), Advance.fail hq h, ?_⟩⟩
    rw [herr]
    rfl
  rw [bind_assoc, ExceptT.run_bind, Routine.bind_eq, Routine.guarded_bind, Routine.bind_assoc]
  refine Routine.Quiet.follows (Q := fun a => ∀ err, a = .error err → r.Fails e intent c err)
    ?_ (fun m d => Advance.quiet m d (.inr (.inl rfl))) fun a ha => ?_
  · rw [release]
    exact (Service.prepare_quiet e r intent c).guarded
  · cases a with
    | error err => exact fails err (ha err rfl)
    | ok snapshot =>
      dsimp only
      rw [Service.commit, update_run]
      refine ⟨release.symm, ?_⟩
      intro m d
      dsimp only
      cases hc : d.store.commit ⟨r.key, intent⟩ r snapshot m.now with
      | error err =>
        refine ⟨.leased, Advance.quiet m d (.inr (.inl rfl)), fails err ?_⟩
        obtain ⟨hi, rfl⟩ | ⟨-, -, rfl⟩ := Store.commit_error rfl hc
        · exact ⟨.inl rfl, fun hr => by simp [hr] at hi⟩
        · exact ⟨.inl rfl, fun _ => .inl rfl⟩
      | ok a =>
        refine ⟨.wrote (.files (.ofKey r.key a.1.files)), Advance.commit hq hc, ?_⟩
        refine ⟨?_, fun m d => ⟨.answered (.ok (.files (.ofKey r.key a.1.files))), ?_, ?_⟩⟩
        · simp [protocol, giveBack, lease?, hk]
        · exact Advance.finish hk
        · rw [hok]
          rfl

theorem write_follows {q : Request} {r : Revision} {intent : Intent} {c : Context}
    (hq : q.write? = some (intent, r, c)) (hk : q.key? = some r.key) :
    (Service.write e r intent c >>= fun a => pure (Reply.files a)).run.Follows (q.protocol e)
      Phase.fresh := by
  rw [Service.write_eq, bind_assoc]
  refine ⟨rfl, ?_⟩
  intro m d
  show ∃ u, Advance e q Phase.fresh m d d u ∧
    (Routine.bind (.done (d.registry.find r.repository)) _).Follows (q.protocol e) u
  rw [Routine.bind]
  cases hf : d.registry.find r.repository with
  | error err =>
    exact ⟨.fresh, Advance.quiet m d (.inl rfl), ends_fresh (Registry.find_calm hf)⟩
  | ok g =>
    have found := Registry.find_ok_iff.1 hf
    show ∃ u, Advance e q Phase.fresh m d d u ∧ Routine.Follows (q.protocol e)
      ((if !g.holdsPackages then _ else _) >>= fun a => pure (Reply.files a) : Call Reply).run u
    cases hg : g.holdsPackages with
    | false =>
      exact ⟨.fresh, Advance.quiet m d (.inl rfl), ends_fresh rfl⟩
    | true =>
      refine ⟨.approved, Advance.approve hq found hg, ?_⟩
      exact withLease_follows e hk rfl (leased_follows e hq hk (fun _ => rfl) fun _ => rfl)

/-- What is done behind a deletion that found nothing: it asks what is published there and fails. -/
theorem missed_follows {q : Request} (k : Key) (c : Context) :
    Routine.Follows (q.protocol e) ((do
      match ← attempt (Index.isDiscovered e k c) with
      | .ok true => throw (.validation (.readOnly k))
      | _ => throw (.notFound (.revision k)) : Call Unit) >>= fun _ => pure Reply.done).run
      Phase.missed := by
  rw [bind_assoc, attempt_run]
  refine Routine.Quiet.follows (Index.isDiscovered_quiet e k c)
    (fun m d => Advance.quiet m d (.inr (.inr rfl))) fun a _ => ?_
  split
  · exact ⟨_, rfl, rfl⟩
  · exact ⟨_, rfl, rfl⟩

theorem delete_follows (k : Key) (c : Context) :
    ((Request.delete k c).begin e).Follows ((Request.delete k c).protocol e) Phase.approved := by
  rw [begin, call, Service.delete, bind_assoc, attempt_run, Service.deleteCreated,
    ExceptT.run_bind, Routine.bind_eq, Routine.bind_assoc]
  refine withLease_follows e rfl rfl ⟨rfl, ?_⟩
  intro m d
  show ∃ u, Advance e _ Phase.leased m d { d with store := d.store.erase k } u ∧
    (Routine.bind (.done (Except.ok (d.store.get? k).isSome)) _).Follows
      ((Request.delete k c).protocol e) u
  rw [Routine.bind]
  cases hg : d.store.get? k with
  | some b =>
    refine ⟨.wrote .done, Advance.erase rfl (by simp [hg]), ?_⟩
    exact ⟨rfl, fun m d => ⟨.answered (.ok .done), Advance.finish rfl, rfl⟩⟩
  | none =>
    rw [Store.erase_of_get?_none hg]
    refine ⟨.leased, Advance.quiet m d (.inr (.inl rfl)), rfl, ?_⟩
    intro m d
    refine ⟨.missed, Advance.miss rfl, ?_⟩
    exact missed_follows e k c

/-- **The protocol of requests**: the call of a request makes no other steps than these. -/
theorem follows (q : Request) : (q.begin e).Follows (q.protocol e) q.opening := by
  cases q with
  | register r => exact register_follows e r
  | unregister n => exact unregister_follows e n
  | create r c => exact write_follows e rfl rfl
  | update r c => exact write_follows e rfl rfl
  | delete k c => exact delete_follows e k c
  | repository n =>
    exact follows_of_quiet e rfl ((Service.repository_quiet n).bind fun _ => quiet_pure _)
  | repositories => exact follows_of_quiet e rfl ((quiet_read _).bind fun _ => quiet_pure _)
  | get k c => exact follows_of_quiet e rfl ((Service.get_quiet e k c).bind fun _ => quiet_pure _)
  | spec k => exact follows_of_quiet e rfl ((Service.spec_quiet k).bind fun _ => quiet_pure _)
  | list f c => exact follows_of_quiet e rfl ((Index.list_quiet e f c).bind fun _ => quiet_pure _)
  | functions c =>
    exact follows_of_quiet e rfl ((Index.functions_quiet c).bind fun _ => quiet_pure _)

end Request

end PackageDepot
