import PackageDepot.Proofs.Traffic.Leases

/-!
# When a request takes effect

The success of a write or a deletion becomes certain at one step, the commit or the removal under the
lease (`settles_iff`): before it the store could still stand against it (`undecided`), and behind it only
the lease is left to be given back. `Change.content` and `Effect.content` say that the revision under a
key changes at these steps and at purges, to what they leave there, and at no others.
-/

namespace PackageDepot

open Package Call Backend

/-- What a request that takes effect does to the revision under its key, and what it answers. -/
inductive Outcome (k : Key) (old new : Option Stored) : Request → Reply → Prop
  | create {r : Revision} {c : Context} {b : Stored} (key : r.key = k) (absent : old = none)
    (spec : b.spec = r) (stored : new = some b) :
    Outcome k old new (.create r c) (.files (.ofKey k b.files))
  | update {r : Revision} {c : Context} {b : Stored} (key : r.key = k) (present : old.isSome = true)
    (spec : b.spec = r) (stored : new = some b) :
    Outcome k old new (.update r c) (.files (.ofKey k b.files))
  | delete {c : Context} (gone : new = none) : Outcome k old new (.delete k c) .done

namespace Phase

/-- Nothing was written or deleted, at least so far. -/
def Undone : Phase → Prop
  | .fresh | .approved | .leased | .missed | .answered (.error _) => True
  | _ => False

end Phase

/-- There is a depot in which a revision cannot be committed. -/
theorem exists_refusal (r : Revision) (intent : Intent) : ∃ d : Depot, ∀ s now,
    ∃ err, d.store.commit ⟨r.key, intent⟩ r s now = .error err := by
  cases intent with
  | create =>
    let b : Stored := ⟨r, ∅, .named r.package, 0, 0, 0⟩
    have there : Store.get? { revisions := [b] } r.key = some b := by simp [Store.get?, b, Stored.key]
    exact ⟨{ store := { revisions := [b] } }, fun s now =>
      ⟨.alreadyExists (.revision r.key), by simp [Store.commit, there]⟩⟩
  | replace =>
    exact ⟨{}, fun s now => ⟨.notFound (.revision r.key), by simp [Store.commit, Store.get?]⟩⟩

namespace Request

variable {e : Engine} {q : Request} {t : Phase} {p : Routine Depot Answer}

theorem write?_eq_some {intent : Intent} {r : Revision} {c : Context}
    (h : q.write? = some (intent, r, c)) :
    intent = .create ∧ q = .create r c ∨ intent = .replace ∧ q = .update r c := by
  cases q <;> cases h
  · exact .inl ⟨rfl, rfl⟩
  · exact .inr ⟨rfl, rfl⟩

/-- A depot in which a request can do nothing: what it builds is refused, and what it deletes is not there. -/
theorem exists_obstacle (q : Request) : ∃ d : Depot,
    (∀ intent r c, q.write? = some (intent, r, c) → ∀ s now,
      ∃ err, d.store.commit ⟨r.key, intent⟩ r s now = .error err) ∧
    ∀ k c, q = .delete k c → d.store.get? k = none := by
  cases q with
  | create r c =>
    obtain ⟨d, refuses⟩ := exists_refusal r .create
    refine ⟨d, ?_, nofun⟩
    rintro _ _ _ ⟨⟩
    exact refuses
  | update r c =>
    obtain ⟨d, refuses⟩ := exists_refusal r .replace
    refine ⟨d, ?_, nofun⟩
    rintro _ _ _ ⟨⟩
    exact refuses
  | _ => exact ⟨{}, nofun, fun _ _ _ => rfl⟩

/-- A call that is dropped leaves repositories and revisions as they are. -/
theorem release_kept (e : Engine) (q : Request) (t : Phase) (d : Depot) :
    ((q.protocol e).release t d).registry = d.registry ∧
    ((q.protocol e).release t d).store.revisions = d.store.revisions := by
  show (giveBack (q.lease? t) d).registry = d.registry ∧
    (giveBack (q.lease? t) d).store.revisions = d.store.revisions
  cases q.lease? t with
  | none => exact ⟨rfl, rfl⟩
  | some j => exact ⟨rfl, rfl⟩

/-- A call that is dropped leaves git as it is. -/
theorem release_git (e : Engine) (q : Request) (t : Phase) (d : Depot) :
    ((q.protocol e).release t d).git = d.git := by
  show (giveBack (q.lease? t) d).git = d.git
  cases q.lease? t with
  | none => rfl
  | some j => rfl

/-- As long as nothing is done, the store may still stand against the request. -/
theorem undecided (hk : q.key?.isSome) (hf : p.Follows (q.protocol e) t) (ht : t.Undone) (r : Reply) :
    ¬ p.Decided (.ok r) := by
  apply hf.undecided (T := Phase.Undone) ht
  · intro u hu he
    have hr : q.isReadOnly = false := by cases q <;> first | rfl | cases hk
    cases u with
    | fresh =>
      obtain ⟨err, h⟩ := he.2 hr
      cases h
    | missed =>
      obtain ⟨err, h, -⟩ := he
      cases h
    | answered a =>
      cases he
      exact hu
    | _ => exact he
  · intro u hu
    obtain ⟨d, refuses, gone⟩ := exists_obstacle q
    refine ⟨{}, d, ?_⟩
    intro d' v hs
    cases hs with
    | quiet => exact hu
    | register hq => exact absurd hk (by simp [hq, key?])
    | remove hq => exact absurd hk (by simp [hq, key?])
    | purge => exact hu.elim
    | approve => trivial
    | acquire => trivial
    | conflict => trivial
    | commit hq h =>
      obtain ⟨err, refused⟩ := refuses _ _ _ hq _ _
      cases h.symm.trans refused
    | erase hq h =>
      have hg := gone _ _ hq
      simp [hg] at h
    | finish => exact hu.elim
    | fail => trivial
    | miss => trivial

/-- A commit or a removal changes the revision under the key of its request, and no other. -/
theorem outcome_of_wrote {m : Moment} {d d' : Depot} {k : Key} {r : Reply} (hk : q.key? = some k)
    (h : Advance e q t m d d' (.wrote r)) :
    Outcome k (d.store.get? k) (d'.store.get? k) q r ∧
      ∀ j, j ≠ k → d'.store.get? j = d.store.get? j := by
  cases h with
  | quiet _ _ h => simp at h
  | commit hq h =>
    have hc := Store.commit_ok h
    obtain ⟨hi, rfl⟩ | ⟨hi, rfl⟩ := write?_eq_some hq
    · cases hk
      refine ⟨.create rfl (hc.created hi).1 hc.spec_eq (by simp [hc.get?_eq]), fun j hj => ?_⟩
      simp [hc.get?_eq, hj]
    · cases hk
      refine ⟨.update rfl (hc.replaced hi).1 hc.spec_eq (by simp [hc.get?_eq]), fun j hj => ?_⟩
      simp [hc.get?_eq, hj]
  | erase hq h =>
    subst hq
    cases hk
    exact ⟨.delete (by simp [Store.get?_erase]), fun j hj => by simp [Store.get?_erase, hj]⟩

/-- A call that was answered has ended. -/
theorem eq_done_of_answered {a : Answer} (hf : p.Follows (q.protocol e) (Phase.answered a)) :
    p = .done a := by
  obtain ⟨b, rfl, rfl⟩ := hf.ended fun m s s' v hs => by
    cases hs with
    | quiet _ _ h => simp at h
  rfl

/-- Behind what was done the answer is certain. -/
theorem decided_of_wrote {r : Reply} (hf : p.Follows (q.protocol e) (Phase.wrote r)) :
    p.Decided (.ok r) := by
  apply hf.decided (T := fun u => u = Phase.wrote r ∨ u = Phase.answered (.ok r)) (.inl rfl)
  · rintro u b (rfl | rfl) he
    · exact he.elim
    · exact he
  · rintro u m s s' v (rfl | rfl) hs
    · cases hs with
      | quiet _ _ h => simp at h
      | finish => exact .inr rfl
    · cases hs with
      | quiet _ _ h => simp at h

end Request

namespace Traffic

variable {e : Engine} {x : Traffic} {i : Nat} {q : Request} {p : Routine Depot Answer}

/-- **The step at which a request takes effect** is its commit or its removal. -/
theorem settles_iff (orderly : x.Orderly e) (hk : q.key?.isSome) (r : Reply) :
    x.Settles i q (.ok r) ↔ ∃ p, x.At i q p ∧ p.Follows (q.protocol e) Phase.leased ∧
      Advance e q .leased x.moment x.depot (p.move x.moment x.depot).2 (.wrote r) ∧
      (p.move x.moment x.depot).1.Follows (q.protocol e) (Phase.wrote r) := by
  constructor
  · rintro ⟨p, hp, before, after⟩
    obtain ⟨t, hf⟩ := orderly i q p hp
    refine ⟨p, hp, ?_⟩
    obtain stay | ⟨-, u, hs, hu⟩ := hf.move x.moment x.depot
    · rw [stay] at after
      exact (before _ after).elim
    · have done : ¬ u.Undone := fun hu' => Request.undecided hk hu hu' r after
      generalize (p.move x.moment x.depot).2 = d' at hs ⊢
      cases hs with
      | quiet _ _ h => obtain rfl | rfl | rfl := h <;> exact (done trivial).elim
      | register hq => simp [hq, Request.key?] at hk
      | remove hq => simp [hq, Request.key?] at hk
      | purge hq => simp [hq, Request.key?] at hk
      | approve => exact (done trivial).elim
      | acquire => exact (done trivial).elim
      | conflict => exact (done trivial).elim
      | commit hq h =>
        have same := (Request.decided_of_wrote hu).unique after
        cases same
        exact ⟨hf, .commit hq h, hu⟩
      | erase hq h =>
        have same := (Request.decided_of_wrote hu).unique after
        cases same
        exact ⟨hf, .erase hq h, hu⟩
      | finish => exact (before _ (Request.decided_of_wrote hf)).elim
      | fail => exact (done trivial).elim
      | miss => exact (done trivial).elim
  · rintro ⟨p, hp, hf, -, hu⟩
    refine ⟨p, hp, ?_, Request.decided_of_wrote hu⟩
    intro b hb
    have same := (hb.move x.moment x.depot).unique (Request.decided_of_wrote hu)
    subst same
    exact Request.undecided hk hf trivial r hb

/-- Taking a repository out ends with success at the purge. -/
theorem ends_unregister_iff (orderly : x.Orderly e) (n : String) :
    x.Ends i (.unregister n) (.ok .done) ↔ ∃ p, x.At i (.unregister n) p ∧
      p.Follows ((Request.unregister n).protocol e) Phase.removed ∧ p.isDone = false ∧
      (p.move x.moment x.depot).2 = { x.depot with store := x.depot.store.purge n } ∧
      (p.move x.moment x.depot).1 = .done (.ok .done) := by
  constructor
  · rintro ⟨p, hp, going, last⟩
    obtain ⟨t, hf⟩ := orderly i _ p hp
    refine ⟨p, hp, ?_⟩
    obtain stay | ⟨-, u, hs, hu⟩ := hf.move x.moment x.depot
    · rw [stay] at last
      subst last
      cases going
    · rw [last] at hu
      generalize (p.move x.moment x.depot).2 = d' at hs ⊢
      cases hs with
      | quiet _ _ h =>
        obtain rfl | rfl | rfl := h
        · obtain ⟨err, he⟩ := hu.2 rfl
          cases he
        · exact hu.elim
        · obtain ⟨err, he, -⟩ := hu
          cases he
      | register hq => cases hq
      | remove => exact hu.elim
      | purge hq =>
        cases hq
        exact ⟨hf, going, rfl, last⟩
      | approve => exact hu.elim
      | acquire => exact hu.elim
      | conflict => cases hu
      | commit => exact hu.elim
      | erase => exact hu.elim
      | finish hk => cases hk
      | fail => cases hu
      | miss => obtain ⟨err, he, -⟩ := hu; cases he
  · rintro ⟨p, hp, -, going, -, last⟩
    exact ⟨p, hp, going, last⟩

/-- What the steps of a call leave under a key, where they take no effect on it. -/
theorem get?_of_advance {t u : Phase} {m : Moment} {d d' : Depot} (h : Advance e q t m d d' u)
    (k : Key) : d'.store.get? k = d.store.get? k ∨
      t = .leased ∧ (∃ r, u = .wrote r) ∧ q.key? = some k ∨
      t = .removed ∧ q = .unregister k.repository ∧ u = .answered (.ok .done) ∧
        d'.store.get? k = none := by
  cases h with
  | quiet | register | remove | approve | acquire | conflict | finish | fail | miss => exact .inl rfl
  | @purge _ _ n hq =>
    by_cases hk : k.repository = n
    · subst hk
      exact .inr (.inr ⟨rfl, hq, rfl, by simp [Store.get?_purge]⟩)
    · exact .inl (by simp [Store.get?_purge, hk])
  | @commit _ _ _ r _ _ _ _ hq h =>
    by_cases hk : k = r.key
    · subst hk
      exact .inr (.inl ⟨rfl, ⟨_, rfl⟩, Request.key?_of_write? hq⟩)
    · exact .inl (by simp [(Store.commit_ok h).get?_eq, hk])
  | @erase _ _ j _ hq h =>
    by_cases hk : k = j
    · subst hk
      exact .inr (.inl ⟨rfl, ⟨_, rfl⟩, by simp [hq, Request.key?]⟩)
    · exact .inl (by simp [Store.get?_erase, hk])

/-- The steps of a call leave git as it is. -/
theorem git_of_advance {t u : Phase} {m : Moment} {d d' : Depot} (h : Advance e q t m d d' u) :
    d'.git = d.git := by
  cases h with
  | quiet | register | remove | purge | approve | acquire | conflict | commit | erase | finish | fail
  | miss => rfl

/-- Git is changed only from outside. -/
theorem next_git (orderly : x.Orderly e) (ev : Event) : (x.next e ev).depot.git = x.depot.git ∨
    ∃ git images secrets, ev = .outside git images secrets ∧ (x.next e ev).depot.git = git := by
  cases ev with
  | start q => exact .inl rfl
  | move i =>
    rw [next]
    split
    · next q p stands =>
      obtain ⟨t, hf⟩ := orderly i q p stands
      obtain stay | ⟨-, u, hs, -⟩ := hf.move x.moment x.depot
      · rw [stay]
        exact .inl rfl
      · exact .inl (git_of_advance hs)
    · exact .inl rfl
  | drop i =>
    rw [next]
    split
    · next q p stands =>
      obtain ⟨t, hf⟩ := orderly i q p stands
      split
      · exact .inl rfl
      · next going =>
        rw [hf.abandon (Bool.eq_false_iff.2 going)]
        exact .inl (Request.release_git e q t x.depot)
    · exact .inl rfl
  | pass time scopes => exact .inl rfl
  | outside git images secrets => exact .inr ⟨git, images, secrets, rfl, rfl⟩

/-- A request takes effect under its lease, with its outcome. -/
theorem Settles.outcome (orderly : x.Orderly e) {k : Key} (hk : q.key? = some k) {r : Reply}
    (h : x.Settles i q (.ok r)) : x.Holds i k ∧
      Outcome k (x.depot.store.get? k) ((x.next e (.move i)).depot.store.get? k) q r := by
  obtain ⟨p, stands, hf, hs, hu⟩ := (settles_iff orderly (by simp [hk]) r).1 h
  rw [next_move stands]
  exact ⟨(holds_iff stands hf k).2 hk, (Request.outcome_of_wrote hk hs).1⟩

/-- The step by which a write takes effect commits a snapshot with the files that are answered. -/
theorem Settles.commits (orderly : x.Orderly e) {intent : Intent} {r : Revision} {c : Context} {reply : Reply}
    (hq : q.write? = some (intent, r, c)) (h : x.Settles i q (.ok reply)) :
    ∃ f kptfile, reply = .files f ∧ x.Commits i intent r ⟨f.files, kptfile⟩ := by
  have hk := Request.key?_of_write? hq
  obtain ⟨p, stands, -, advance, -⟩ := (settles_iff orderly (by simp [hk]) reply).1 h
  generalize after : (p.move x.moment x.depot).2 = d' at advance
  cases advance with
  | @commit _ _ _ _ _ snapshot b store hq' committed =>
    cases hq.symm.trans hq'
    have same : snapshot = ⟨b.files, snapshot.kptfile⟩ := by rw [(Store.commit_ok committed).files_eq]
    rw [same] at committed
    exact ⟨_, snapshot.kptfile, rfl, q, p, b, store, stands, committed, after⟩
  | erase hd => simp [hd, Request.write?] at hq

/-- A write whose success becomes certain takes effect. -/
theorem Settles.takes_effect (orderly : x.Orderly e) {intent : Intent} {r : Revision} {c : Context}
    {f : RevisionFiles} (hq : q.write? = some (intent, r, c)) (h : x.Settles i q (.ok (.files f))) :
    ∃ kptfile, x.Effect (.move i) r.key (some ⟨r, f.files, kptfile⟩) := by
  obtain ⟨_, kptfile, ⟨⟩, commits⟩ := h.commits orderly hq
  obtain ⟨rfl, rfl⟩ | ⟨rfl, rfl⟩ := Request.write?_eq_some hq
  · exact ⟨kptfile, .create h commits⟩
  · exact ⟨kptfile, .update h commits⟩

/-- What a request does whose success becomes certain is an effect on its key. -/
theorem Settles.effect (orderly : x.Orderly e) {k : Key} (hk : q.key? = some k) {reply : Reply}
    (h : x.Settles i q (.ok reply)) : x.Effect (.move i) k ((x.next e (.move i)).content k) := by
  cases q with
  | create r c =>
    cases hk
    obtain ⟨f, kptfile, rfl, commits⟩ := h.commits orderly rfl
    rw [commits.content e]
    exact .create h commits
  | update r c =>
    cases hk
    obtain ⟨f, kptfile, rfl, commits⟩ := h.commits orderly rfl
    rw [commits.content e]
    exact .update h commits
  | delete j c =>
    cases hk
    obtain ⟨-, ho⟩ := h.outcome orderly rfl
    cases ho with
    | delete gone =>
      rw [content, gone]
      exact .delete h
  | _ => cases hk

/-- **The revision under a key changes only by effects on it.** -/
theorem Change.get?_or_effect {y : Traffic} {ev : Event} (hc : Change e x ev y)
    (orderly : x.Orderly e) (k : Key) :
    y.depot.store.get? k = x.depot.store.get? k ∨ x.Effect ev k (y.content k) := by
  cases hc with
  | start q depot calls kept =>
    rw [depot]
    exact .inl rfl
  | move i q p stands depot moved others =>
    rw [content, depot]
    obtain ⟨t, hf⟩ := orderly i q p stands
    obtain stay | ⟨going, u, hs, hu⟩ := hf.move x.moment x.depot
    · rw [stay]
      exact .inl rfl
    · obtain same | ⟨rfl, ⟨r, rfl⟩, hk⟩ | ⟨rfl, rfl, rfl, gone⟩ := get?_of_advance hs k
      · exact .inl same
      · refine .inr ?_
        have settles := (settles_iff orderly (by simp [hk]) r).2 ⟨p, stands, hf, hs, hu⟩
        have effect := settles.effect orderly hk
        rwa [content, next_move stands] at effect
      · refine .inr ?_
        rw [gone]
        exact .purge ⟨p, stands, going, Request.eq_done_of_answered hu⟩ rfl
  | drop i q p stands going depot dropped others =>
    obtain ⟨t, hf⟩ := orderly i q p stands
    rw [Store.get?, Store.get?, depot, hf.abandon going, (Request.release_kept e q t _).2]
    exact .inl rfl
  | other ev registry store calls =>
    rw [store]
    exact .inl rfl

/-- Taking a repository out ends with nothing left under its keys. -/
theorem Ends.purged (orderly : x.Orderly e) {n : String} (h : x.Ends i (.unregister n) (.ok .done))
    {k : Key} (hk : k.repository = n) : (x.next e (.move i)).depot.store.get? k = none := by
  obtain ⟨p, stands, -, -, purge, -⟩ := (ends_unregister_iff orderly n).1 h
  rw [next_move stands, purge]
  simp [Store.get?_purge, hk]

/-- **An effect leaves under its key what it says.** -/
theorem Effect.content (orderly : x.Orderly e) {ev : Event} {k : Key} {v : Option Substance}
    (h : x.Effect ev k v) : (x.next e ev).content k = v := by
  cases h with
  | create _ commits => exact commits.content e
  | update _ commits => exact commits.content e
  | delete h =>
    obtain ⟨-, ho⟩ := h.outcome orderly rfl
    cases ho with
    | delete gone => simp [Traffic.content, gone]
  | purge h hk => simp [Traffic.content, h.purged orderly hk]

end Traffic

end PackageDepot
