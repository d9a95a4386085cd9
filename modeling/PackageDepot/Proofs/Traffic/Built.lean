import PackageDepot.Proofs.Backend.Git
import PackageDepot.Proofs.Routine.Keeps
import PackageDepot.Proofs.Service.Writing
import PackageDepot.Proofs.Traffic.Course

/-!
# Where stored revisions come from

Everything that traffic leaves in a store was built there: `run_written` gives for a stored revision the
call that built it, by steps of its own, and `run_built` a build of its request on depots of the run. The
invariant is carried by `Keeps`, since the protocol of a request says that something is committed and not
what: only the write itself knows that it commits the answer of its build.
-/

namespace PackageDepot

open Package Call Backend

namespace Call

variable {α β : Type} {J I : Depot → Prop}

/-- Steps of a call that are made in `J` keep `I`, and so does abandoning the call. -/
abbrev Keeps (J I : Depot → Prop) (x : Call α) : Prop := Routine.Keeps J I x.run

theorem keeps_pure (a : α) : Keeps J I (pure a : Call α) := trivial

theorem keeps_throw (err : Error) : Keeps J I (throw err : Call α) := trivial

theorem Keeps.bind {x : Call α} {f : α → Call β} (hx : Keeps J I x) (hf : ∀ a, Keeps J I (f a)) :
    Keeps J I (x >>= f) := by
  rw [Keeps, ExceptT.run_bind]
  apply Routine.Keeps.bind hx
  intro a
  cases a with
  | ok a => exact hf a
  | error err => exact trivial

/-- A call that only reads, with what is done behind it. -/
theorem Quiet.keeps_bind {E : Error → Prop} {x : Call α} {f : α → Call β} (hx : Quiet E x)
    (hf : ∀ a, (∀ d, ∃ t, Routine.Within J x.run d (.ok a) t) → Keeps J I (f a)) :
    Keeps J I (x >>= f) := by
  rw [Keeps, ExceptT.run_bind]
  refine Routine.Quiet.keeps hx (fun _ h => h) fun a _ comes => ?_
  cases a with
  | ok a => exact hf a comes
  | error err => exact trivial

theorem Quiet.keeps {E : Error → Prop} {x : Call α} (hx : Quiet E x) : Keeps J I x := by
  have h := Quiet.keeps_bind (J := J) (I := I) (f := pure) hx fun a _ => keeps_pure a
  rwa [bind_pure] at h

/-- A call that changes the state in one step. -/
theorem keeps_update {f : Moment → Depot → Except Error (α × Depot)}
    (h : ∀ m d a d', J d → I d → f m d = .ok (a, d') → I d') : Keeps J I (update f) := by
  apply Routine.keeps_act
  intro m d hj hi
  cases hf : f m d with
  | ok a => exact h m d a.1 a.2 hj hi hf
  | error err => exact hi

/-- A call under a lease, where leases do not matter. -/
theorem Keeps.withLease {x : Call α} (k : Key)
    (leases : ∀ d d' : Depot, d'.registry = d.registry → d'.store.revisions = d.store.revisions →
      I d → I d') (hx : Keeps J I x) : Keeps J I (withLease k x) := by
  refine Keeps.bind (x := acquire k) (Routine.keeps_act fun m d _ hi => ?_) fun _ => ?_
  · split
    · exact hi
    · exact leases d _ rfl rfl hi
  · exact Routine.Keeps.holding (fun d hi => leases d _ rfl rfl hi) hx

end Call

/-- Every revision in the store is such. -/
def Depot.Stores (P : Stored → Prop) (d : Depot) : Prop := ∀ b ∈ d.store.revisions, P b

/-- A build of the request, all of whose steps were made in `J`, came to what is stored. -/
def Stored.Built (e : Engine) (J : Depot → Prop) (b : Stored) : Prop :=
  ∃ c d t, Routine.Within J (Pipeline.execute e b.spec c).run d (.ok ⟨b.files, b.kptfile⟩) t

theorem Stored.Built.mono {e : Engine} {J K : Depot → Prop} {b : Stored} (h : b.Built e J)
    (hJ : ∀ d, J d → K d) : b.Built e K := by
  obtain ⟨c, d, t, built⟩ := h
  exact ⟨c, d, t, built.mono hJ⟩

theorem Depot.Stores.sublist {P : Stored → Prop} {d d' : Depot} (h : d.Stores P)
    (fewer : d'.store.revisions.Sublist d.store.revisions) : d'.Stores P :=
  fun b hb => h b (fewer.mem hb)

theorem Depot.Stores.congr {P : Stored → Prop} {d d' : Depot} (h : d.Stores P)
    (revisions : d'.store.revisions = d.store.revisions) : d'.Stores P := by
  rw [Depot.Stores, revisions]
  exact h

/-- A commit adds one revision, or puts it in the place of another one. -/
theorem Store.Committed.stores {P : Stored → Prop} {l : Lease} {r : Revision} {snapshot : Snapshot}
    {d : Depot} {b : Stored} {store : Store} (h : Store.Committed l r snapshot d.store b store)
    (before : d.Stores P) (hb : P b) : Depot.Stores P { d with store } := by
  intro o ho
  cases hi : l.intent with
  | create =>
    rw [(h.created hi).2, List.mem_append, List.mem_singleton] at ho
    obtain ho | rfl := ho
    · exact before o ho
    · exact hb
  | replace =>
    rw [(h.replaced hi).2] at ho
    obtain ⟨o', ho', rfl⟩ := List.mem_map.1 ho
    split
    · exact hb
    · exact before o' ho'

namespace Service

variable {e : Engine} {r : Revision} {intent : Intent} {c : Context} {J : Depot → Prop}
  {P : Stored → Prop}

/-- What a write prepares is what its build comes to. -/
theorem ends_prepare_ok {env : Depot → Depot → Prop} {M : Moment → Prop} {d d' : Depot}
    {s : Snapshot} (h : Routine.Ends env M (prepare e r intent c).run d (.ok s) d') :
    ∃ u, Routine.Ends env M (Pipeline.execute e r c).run u (.ok s) d' := by
  obtain ⟨_, u, -, hx⟩ := ends_bind_ok h
  dsimp only at hx
  split at hx
  · obtain ⟨found, v, -, hy⟩ := ends_bind_ok hx
    cases found with
    | true =>
      obtain ⟨_, w, hz, -⟩ := ends_bind_ok hy
      cases (ends_throw_iff.1 hz).1
    | false => exact ⟨v, hy⟩
  · exact ⟨u, hx⟩

/-- **A write commits what it built.** -/
theorem write_keeps (intent : Intent) (c : Context) (hP : ∀ b, b.spec = r → b.Built e J → P b) :
    Keeps J (Depot.Stores P) (write e r intent c) := by
  rw [write_eq]
  apply (repository_quiet r.repository).keeps.bind
  intro g
  dsimp only
  split
  · exact keeps_throw (α := RevisionFiles) _
  refine Keeps.withLease r.key (fun d d' _ revisions h => h.congr revisions) ?_
  rw [bind_assoc]
  apply (prepare_quiet e r intent c).keeps_bind
  intro snapshot comes
  refine Keeps.bind (keeps_update fun m d b d' _ before h => ?_) fun b => keeps_pure _
  cases hc : d.store.commit ⟨r.key, intent⟩ r snapshot m.now with
  | error err =>
    rw [hc] at h
    cases h
  | ok p =>
    rw [hc] at h
    cases h
    have committed := Store.commit_ok hc
    obtain ⟨t, prepared⟩ := comes d
    obtain ⟨u, built⟩ := ends_prepare_ok prepared
    refine committed.stores before (hP _ committed.spec_eq ⟨c, u, t, ?_⟩)
    rw [committed.spec_eq, committed.files_eq, committed.kptfile_eq]
    exact built

theorem delete_keeps (e : Engine) (k : Key) (c : Context) :
    Keeps J (Depot.Stores P) (delete e k c) := by
  have erase : Keeps J (Depot.Stores P) (deleteCreated k) := by
    refine Keeps.bind (Keeps.withLease k (fun d d' _ revisions h => h.congr revisions)
      (keeps_update fun m d a d' _ before h => ?_)) fun found => ?_
    · cases h
      exact before.sublist List.filter_sublist
    · cases found with
      | true => exact keeps_pure _
      | false => exact keeps_throw _
  unfold delete
  rw [Keeps, attempt_run]
  apply Routine.Keeps.bind erase
  intro a
  cases a with
  | ok _ => exact trivial
  | error err =>
    dsimp only
    split
    · refine Quiet.keeps (E := fun _ => True) ?_
      refine (Index.isDiscovered_quiet e k c).attempt_bind (fun found => ?_) fun err' _ => ?_
      · cases found with
        | true => exact quiet_throw trivial
        | false => exact quiet_throw trivial
      · exact quiet_throw trivial
    · exact keeps_throw _

end Service

/-- Every request keeps what is true of all that it may build. -/
theorem Request.keeps {e : Engine} {J : Depot → Prop} {P : Stored → Prop} {q : Request}
    (hP : ∀ intent r c, q.write? = some (intent, r, c) → ∀ b, b.spec = r → b.Built e J → P b) :
    Routine.Keeps J (Depot.Stores P) (q.begin e) := by
  cases q with
  | register r =>
    refine Call.Keeps.bind (keeps_update fun m d a d' _ before h => ?_) fun _ => keeps_pure _
    obtain ⟨registry, -, h⟩ := bind_eq_ok_iff.1 h
    cases h
    exact before.congr rfl
  | unregister n =>
    refine Call.Keeps.bind (Call.Keeps.bind (keeps_update fun m d a d' _ before h => ?_) fun _ =>
      Call.Keeps.bind (keeps_update fun m d a d' _ before h => ?_) fun _ => keeps_pure _)
        fun _ => keeps_pure _
    · obtain ⟨p, -, h⟩ := bind_eq_ok_iff.1 h
      cases h
      exact before.congr rfl
    · cases h
      exact before.sublist List.filter_sublist
  | create r c =>
    exact (Service.write_keeps .create c (hP .create r c rfl)).bind fun _ => keeps_pure _
  | update r c =>
    exact (Service.write_keeps .replace c (hP .replace r c rfl)).bind fun _ => keeps_pure _
  | delete k c => exact (Service.delete_keeps e k c).bind fun _ => keeps_pure _
  | repository n => exact ((Service.repository_quiet n).bind fun _ => quiet_pure _).keeps
  | repositories => exact ((quiet_read (E := Error.Calm) _).bind fun _ => quiet_pure _).keeps
  | get k c => exact ((Service.get_quiet e k c).bind fun _ => quiet_pure _).keeps
  | spec k => exact ((Service.spec_quiet k).bind fun _ => quiet_pure _).keeps
  | list f c => exact ((Index.list_quiet e f c).bind fun _ => quiet_pure _).keeps
  | functions c => exact ((Index.functions_quiet c).bind fun _ => quiet_pure _).keeps

namespace Traffic

/-- The depot is one that the run comes through before a time. -/
def Passed (e : Engine) (x : Traffic) (es : Nat → Event) (n : Nat) (d : Depot) : Prop :=
  ∃ a < n, (run e x es a).depot = d

/-- A call that was asked to write a revision built what is stored, by steps of its own before a time. -/
structure Wrote (e : Engine) (es : Nat → Event) (x : Nat → Traffic) (i n : Nat) (b : Stored) : Prop where
  asked : ∃ q intent c, (x n).Asked i q ∧ q.write? = some (intent, b.spec, c)
  built : b.Built e (Stepped es x i n)

variable {e : Engine} {x y : Traffic} {ev : Event} {J : Nat → Depot → Prop} {I : Depot → Prop}

/-- What one event does to an invariant that all requests keep, where `J` is about the depots on which a
call makes its steps. -/
theorem Change.keeps (hc : Change e x ev y)
    (begins : ∀ q, ev = .start q → (q.begin e).Keeps (J x.calls.length) I)
    (congr : ∀ d d' : Depot, d'.registry = d.registry → d'.store = d.store → I d → I d')
    (hj : ∀ i, ev = .move i → x.During i → J i x.depot) (hi : I x.depot)
    (calls : ∀ i q p, x.At i q p → p.Keeps (J i) I) :
    I y.depot ∧ ∀ i q p, y.At i q p → p.Keeps (J i) I := by
  cases hc with
  | start r depot came stay =>
    refine ⟨by rwa [depot], fun i q p h => ?_⟩
    obtain hx | ⟨rfl, rfl, rfl⟩ := came i q p h
    · exact calls i q p hx
    · exact begins q rfl
  | move j r p' stands depot moved others =>
    have keeps := calls j r p' stands
    have step : I (p'.move x.moment x.depot).2 ∧ (p'.move x.moment x.depot).1.Keeps (J j) I := by
      cases going : p'.isDone with
      | false => exact keeps.move x.moment (hj j rfl ⟨r, p', stands, going⟩) hi
      | true =>
        cases p' with
        | done a => exact ⟨hi, keeps⟩
        | step _ _ _ => cases going
        | wait _ _ _ _ => cases going
    obtain ⟨after, goes⟩ := step
    refine ⟨by rwa [depot], fun i q p h => ?_⟩
    by_cases hij : i = j
    · subst hij
      obtain ⟨rfl, rfl⟩ := moved.unique h
      exact goes
    · exact calls i q p ((others i q p hij).1 h)
  | drop j r p' stands going depot dropped others =>
    refine ⟨by rw [depot]; exact (calls j r p' stands).abandon hi, fun i q p h => ?_⟩
    by_cases hij : i = j
    · subst hij
      exact (dropped q p h).elim
    · exact calls i q p ((others i q p hij).1 h)
  | other ev registry store same =>
    refine ⟨congr _ _ registry store hi, fun i q p h => calls i q p ?_⟩
    rwa [At, same] at h

variable {m : Moment} {git : GitHost} {images : ImageHost} {secrets : Dict Credential}
  {es : Nat → Event}

/-- **The run lemma of invariants that requests keep**, as long as the depots on which a call makes its steps
satisfy `J`. -/
theorem run_keeps (n : Nat)
    (begins : ∀ a < n, ∀ q, es a = .start q →
      (q.begin e).Keeps (J (run e (opening m git images secrets) es a).calls.length) I)
    (congr : ∀ d d' : Depot, d'.registry = d.registry → d'.store = d.store → I d → I d')
    (opens : I (opening m git images secrets).depot)
    (stepped : ∀ a < n, ∀ i, Steps es (run e (opening m git images secrets) es) i a →
      J i (run e (opening m git images secrets) es a).depot) :
    I (run e (opening m git images secrets) es n).depot ∧
      ∀ i q p, (run e (opening m git images secrets) es n).At i q p → p.Keeps (J i) I := by
  induction n with
  | zero => exact ⟨opens, fun i q p h => (not_at_opening h).elim⟩
  | succ n ih =>
    obtain ⟨hi, calls⟩ := ih (fun a ha => begins a (by omega)) fun a ha => stepped a (by omega)
    exact (run_change e _ es n).keeps (begins n (by omega)) congr
      (fun i hev during => stepped n (by omega) i ⟨hev, during⟩) hi calls

/-- **What is stored was written** by a call that built it. -/
theorem run_written (e : Engine) (m : Moment) (git : GitHost) (images : ImageHost)
    (secrets : Dict Credential) (es : Nat → Event) (n : Nat) :
    (run e (opening m git images secrets) es n).depot.Stores fun b =>
      ∃ i, Wrote e es (run e (opening m git images secrets) es) i n b := by
  refine (run_keeps (J := fun i => Stepped es (run e (opening m git images secrets) es) i n) n
    ?_ ?_ ?_ fun a ha i steps => ⟨a, ha, steps, rfl⟩).1
  · intro a ha q hev
    have begun := at_start e (run e (opening m git images secrets) es a) q
    rw [← hev] at begun
    refine Request.keeps ?_
    rintro intent r c write b rfl built
    exact ⟨_, ⟨q, intent, c, begun.asked.run ha, write⟩, built⟩
  · intro d d' _ store before
    exact before.congr (congrArg Store.revisions store)
  · intro b hb
    cases hb

/-- **What is stored was built** in the run, on the depots that it came through. -/
theorem run_built (e : Engine) (m : Moment) (git : GitHost) (images : ImageHost)
    (secrets : Dict Credential) (es : Nat → Event) (n : Nat) :
    (run e (opening m git images secrets) es n).depot.Stores
      (Stored.Built e (Passed e (opening m git images secrets) es n)) := by
  intro b hb
  obtain ⟨i, wrote⟩ := run_written e m git images secrets es n b hb
  apply wrote.built.mono
  rintro d ⟨a, ha, -, rfl⟩
  exact ⟨a, ha, rfl⟩

end Traffic

end PackageDepot
