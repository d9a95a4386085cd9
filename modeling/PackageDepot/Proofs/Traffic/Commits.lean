import PackageDepot.Proofs.Routine.Open
import PackageDepot.Proofs.Traffic.Built
import PackageDepot.Proofs.Traffic.Effects

/-!
# What a write commits

A write has built what it commits, and by steps of its own (`Settles.built`). The protocol of a request says
that some snapshot is committed, and that this makes the success certain; which one it is follows from the
write itself, whose success is open until it commits what its build came to (`Request.write_pending`).
-/

namespace PackageDepot

open Package Call Backend

/-- The answer is a success. -/
def Granted (a : Answer) : Prop := ∃ reply, a = .ok reply

theorem not_granted (err : Error) : ¬ Granted (.error err) := by
  rintro ⟨_, ⟨⟩⟩

/-- A step commits what a build of the request came to, all of whose steps were made in `J`. -/
def CommitsBuilt (e : Engine) (J : Depot → Prop) (intent : Intent) (r : Revision) (c : Context)
    (m : Moment) (d d' : Depot) : Prop :=
  ∃ s u t b store, Routine.Within J (Pipeline.execute e r c).run u (.ok s) t ∧
    d.store.commit ⟨r.key, intent⟩ r s m.now = .ok (b, store) ∧ d' = { d with store }

namespace Request

variable {e : Engine} {q : Request} {J : Depot → Prop} {C : Moment → Depot → Depot → Prop}
  {r : Revision} {intent : Intent} {c : Context}

section Leased

variable {f : Except Error RevisionFiles → Routine Depot Answer}
  (herr : ∀ err, f (.error err) = .done (.error err))

include herr

/-- Behind a failure the lease is given back and the error is answered. -/
theorem failed_pending (k : Key) (err : Error) : (Routine.step (released k) (fun _ => released k)
    fun _ _ => f (.error err)).Pending J Granted C := by
  constructor
  · intro a granted decided
    have last := decided {} default
    rw [herr] at last
    cases last
    exact not_granted err granted
  · intro m d _
    rw [herr]
    exact .inl (Routine.pending_done (not_granted err))

/-- A write under its lease leaves its success open until it commits what it built. -/
theorem leased_pending (hok : ∀ a, f (.ok a) = .done (.ok (.files a))) :
    (((do
      let stored ← Service.prepare e r intent c >>= Service.commit ⟨r.key, intent⟩ r
      return RevisionFiles.ofKey r.key stored.files : Call RevisionFiles).run.guarded
        (released r.key)).bind fun a =>
      .step (released r.key) (fun _ => released r.key) fun _ _ => f a).Pending J Granted
        (CommitsBuilt e J intent r c) := by
  rw [bind_assoc, ExceptT.run_bind, Routine.bind_eq, Routine.guarded_bind, Routine.bind_assoc]
  refine .bind (fun prepared => ?_) fun prepared comes => ?_
  · cases prepared with
    | error err => exact (failed_pending (J := J) (C := fun _ _ _ => True) herr r.key err).1
    | ok snapshot =>
      -- Before the commit the store may still refuse it.
      dsimp only
      rw [Service.commit, update_run]
      intro a granted decided
      obtain ⟨d, refuses⟩ := exists_refusal r intent
      obtain ⟨err, refused⟩ := refuses snapshot 0
      have rest := decided {} d
      dsimp only at rest
      rw [refused] at rest
      exact (failed_pending (J := J) (C := fun _ _ _ => True) herr r.key err).1 a granted rest
  · cases prepared with
    | error err => exact (failed_pending herr r.key err).2
    | ok snapshot =>
      dsimp only
      rw [Service.commit, update_run]
      intro m d _
      dsimp only
      cases hc : d.store.commit ⟨r.key, intent⟩ r snapshot m.now with
      | error err => exact .inl (failed_pending herr r.key err)
      | ok p =>
        refine .inr ⟨⟨.ok (.files (.ofKey r.key p.1.files)), ⟨_, rfl⟩, fun _ _ => ?_⟩, ?_⟩
        · rw [hok]
          rfl
        · obtain ⟨t, ends⟩ := comes default
          obtain ⟨u, built⟩ := Service.ends_prepare_ok (Routine.ends_guarded_iff.1 ends)
          exact ⟨snapshot, u, t, p.1, p.2, built, hc, rfl⟩

end Leased

/-- A call under a lease may be refused, or it goes on with the lease in its hands. -/
theorem withLease_pending {k : Key} {α : Type} {x : Call α} {f : Except Error α → Routine Depot Answer}
    (hf : f (.error (.conflict k)) = .done (.error (.conflict k)))
    (hx : ((x.run.guarded (released k)).bind fun r =>
      .step (released k) (fun _ => released k) fun _ _ => f r).Pending J Granted C) :
    ((withLease k x).run.bind f).Pending J Granted C := by
  have refused : (f (.error (.conflict k))).Pending J Granted C := by
    rw [hf]
    exact Routine.pending_done (not_granted _)
  constructor
  · intro a granted decided
    have busy : Store.isBusy { inFlight := [k] } k = true := by simp [Store.isBusy]
    have rest := decided {} { store := { inFlight := [k] } }
    dsimp only at rest
    rw [if_pos busy] at rest
    exact refused.1 a granted rest
  · intro m d _
    refine .inl ?_
    dsimp only
    by_cases hb : d.store.isBusy k = true
    · rw [if_pos hb]
      exact refused
    · rw [if_neg hb]
      show (Routine.bind (Routine.bind (Routine.guarded _ _) _) f).Pending J Granted C
      rw [Routine.bind_assoc]
      exact hx

/-- **The success of a write is open until it commits what it built.** -/
theorem write_pending (hq : q.write? = some (intent, r, c)) :
    (q.begin e).Pending J Granted (CommitsBuilt e J intent r c) := by
  have hk := key?_of_write? hq
  constructor
  · rintro _ ⟨reply, rfl⟩
    have fresh : q.opening.Undone := by obtain ⟨-, rfl⟩ | ⟨-, rfl⟩ := write?_eq_some hq <;> trivial
    exact undecided (by simp [hk]) (follows e q) fresh reply
  · have begins : q.begin e = (Service.write e r intent c >>= fun a => pure (Reply.files a)).run := by
      obtain ⟨rfl, rfl⟩ | ⟨rfl, rfl⟩ := write?_eq_some hq <;> rfl
    rw [begins, Service.write_eq, bind_assoc]
    intro m d _
    refine .inl ?_
    show (Routine.bind (.done (d.registry.find r.repository)) _).Pending J Granted _
    rw [Routine.bind]
    cases d.registry.find r.repository with
    | error err => exact Routine.pending_done (not_granted err)
    | ok g =>
      show ((if !g.holdsPackages then _ else _) >>= fun a => pure (Reply.files a) :
        Call Reply).run.Pending J Granted _
      cases g.holdsPackages with
      | false => exact Routine.pending_done (not_granted _)
      | true => exact withLease_pending rfl (leased_pending (fun _ => rfl) fun _ => rfl)

end Request

namespace Traffic

variable {e : Engine} {m : Moment} {git : GitHost} {images : ImageHost} {secrets : Dict Credential}
  {es : Nat → Event} {n i : Nat} {q : Request} {intent : Intent} {r : Revision} {c : Context}

/-- **A write that takes effect commits what it built**, by steps of its own. -/
theorem Settles.built {reply : Reply} (hev : es n = .move i)
    (h : (run e (opening m git images secrets) es n).Settles i q (.ok reply))
    (hq : q.write? = some (intent, r, c)) : ∃ s d t,
      Routine.Within (Stepped es (run e (opening m git images secrets) es) i (n + 1))
        (Pipeline.execute e r c).run d (.ok s) t ∧
      (run e (opening m git images secrets) es n).Commits i intent r s := by
  obtain ⟨p, stands, undecided, decided⟩ := h
  have known : p.Pending (Stepped es (run e (opening m git images secrets) es) i (n + 1)) Granted
      (CommitsBuilt e (Stepped es (run e (opening m git images secrets) es) i (n + 1)) intent r c) ∨
      ∃ a, Granted a ∧ p.Decided a := by
    refine stands.rec_run (C := fun b i q p => ∀ N, b ≤ N → q.write? = some (intent, r, c) →
      p.Pending (Stepped es (run e (opening m git images secrets) es) i N) Granted
        (CommitsBuilt e (Stepped es (run e (opening m git images secrets) es) i N) intent r c) ∨
      ∃ a, Granted a ∧ p.Decided a) ?_ ?_ ?_ (n + 1) (by omega) hq
    · intro b i q _ N _ hq
      exact .inl (Request.write_pending hq)
    · intro b i q p hev stands _ ih N hb hq
      obtain pending | ⟨a, granted, decided⟩ := ih N (by omega) hq
      · obtain still | ⟨decided, -⟩ := pending.move
          (run e (opening m git images secrets) es b).moment fun going =>
            ⟨b, by omega, ⟨hev, q, p, stands, going⟩, rfl⟩
        · exact .inl still
        · exact .inr decided
      · exact .inr ⟨a, granted, decided.move _ _⟩
    · intro b i q p ih N hb hq
      exact ih N (by omega) hq
  obtain pending | ⟨a, -, early⟩ := known
  · obtain still | ⟨-, s, u, t, b, store, built, committed, after⟩ := pending.move
      (run e (opening m git images secrets) es n).moment fun going =>
        ⟨n, by omega, ⟨hev, q, p, stands, going⟩, rfl⟩
    · exact (still.1 _ ⟨reply, rfl⟩ decided).elim
    · exact ⟨s, u, t, built, q, p, b, store, stands, committed, after⟩
  · exact (undecided a early).elim

/-- A write that takes effect has written what is stored then. -/
theorem Settles.wrote {reply : Reply} (hev : es n = .move i)
    (h : (run e (opening m git images secrets) es n).Settles i q (.ok reply))
    (hq : q.write? = some (intent, r, c)) : ∃ b,
      (run e (opening m git images secrets) es (n + 1)).depot.store.get? r.key = some b ∧ b.spec = r ∧
      Wrote e es (run e (opening m git images secrets) es) i (n + 1) b := by
  obtain ⟨s, d, t, built, commits⟩ := h.built hev hq
  have asked : (run e (opening m git images secrets) es (n + 1)).Asked i q := by
    obtain ⟨p, stands, -⟩ := h
    exact stands.asked.next e (es n)
  have content := commits.content e
  rw [← hev] at content
  obtain ⟨b, stored, same⟩ := Option.map_eq_some_iff.1 content
  have spec : b.spec = r := congrArg Substance.spec same
  have files : b.files = s.files := congrArg Substance.files same
  have kptfile : b.kptfile = s.kptfile := congrArg Substance.kptfile same
  refine ⟨b, stored, spec, ⟨q, intent, c, asked, spec ▸ hq⟩, c, d, t, ?_⟩
  rw [spec, files, kptfile]
  exact built

/-- A step commits one snapshot at most. -/
theorem Commits.unique {x : Traffic} {intent' : Intent} {s s' : Snapshot} (h : x.Commits i intent r s)
    (h' : x.Commits i intent' r s') : s = s' := by
  have same := (h.content {}).symm.trans (h'.content {})
  simp only [Option.some.injEq, Substance.mk.injEq, true_and] at same
  obtain ⟨files, kptfile⟩ := s
  obtain ⟨files', kptfile'⟩ := s'
  obtain ⟨rfl, rfl⟩ := same
  rfl

/-- What a write leaves is what its own build came to. -/
theorem Effect.built {k : Key} {v : Substance}
    (h : (run e (opening m git images secrets) es n).Effect (es n) k (some v)) :
    ∃ i q intent c d t, es n = .move i ∧ (run e (opening m git images secrets) es n).Asked i q ∧
      q.write? = some (intent, v.spec, c) ∧
      Routine.Within (Stepped es (run e (opening m git images secrets) es) i (n + 1))
        (Pipeline.execute e v.spec c).run d (.ok ⟨v.files, v.kptfile⟩) t := by
  generalize hev : es n = ev at h
  cases h with
  | @create i r c f kptfile h commits =>
    obtain ⟨s, d, t, built, commits'⟩ := h.built hev rfl
    cases commits'.unique commits
    exact ⟨i, _, _, c, d, t, rfl, h.choose_spec.1.asked, rfl, built⟩
  | @update i r c f kptfile h commits =>
    obtain ⟨s, d, t, built, commits'⟩ := h.built hev rfl
    cases commits'.unique commits
    exact ⟨i, _, _, c, d, t, rfl, h.choose_spec.1.asked, rfl, built⟩

end Traffic

end PackageDepot
