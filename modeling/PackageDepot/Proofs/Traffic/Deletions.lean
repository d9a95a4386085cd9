import PackageDepot.Proofs.Service.Prompt
import PackageDepot.Proofs.Traffic.Leases
import PackageDepot.Proofs.Traffic.Sequential

/-!
# Deleting a revision twice

A deletion that succeeds takes a revision out of the store and does nothing else. The next one of the same key
finds nothing to take out, so it changes nothing and fails. It looks for the cause among what is published:
where the created revision had covered a published one, that one comes to light and is read-only
(`deletions_differ`), and everywhere else the key is not found. `deletions` is the statement for every depot
that traffic leads to.
-/

namespace PackageDepot

open Package Backend Call

/-- A package is published under a key: the repository of the key is registered, and a scan of it comes out
and shows the package. -/
def Depot.PublishedAs (d : Depot) (e : Engine) (k : Key) : Prop :=
  ∃ r ps p, d.registry.get? k.repository = some r ∧ d.scan e r = .ok ps ∧ p ∈ ps ∧
    p.package = k.package ∧ p.location.ref = k.revision

/-- What is published under a key is found there. -/
theorem Depot.published_ok_iff {d : Depot} {e : Engine} {k : Key} :
    (∃ x, d.published e k = .ok x) ↔ d.PublishedAs e k := by
  unfold published
  constructor
  · rintro ⟨x, h⟩
    obtain ⟨r, hr, h⟩ := bind_eq_ok_iff.1 h
    obtain ⟨ps, hps, h⟩ := bind_eq_ok_iff.1 h
    have found := Registry.find_ok_iff.1 (mapError_eq_ok_iff.1 hr)
    cases hp : ps.find? fun p => p.package = k.package && p.location.ref = k.revision with
    | none =>
      rw [hp] at h
      cases h
    | some p =>
      have named := List.find?_some hp
      rw [Bool.and_eq_true, decide_eq_true_iff, decide_eq_true_iff] at named
      exact ⟨r, ps, p, found, hps, List.mem_of_find?_eq_some hp, named⟩
  · rintro ⟨r, ps, p, found, hps, hp, package, ref⟩
    obtain ⟨q, hq⟩ : ∃ q, ps.find? (fun p => p.package = k.package && p.location.ref = k.revision) =
        some q := by
      apply Option.isSome_iff_exists.1
      exact List.find?_isSome.2 ⟨p, hp, by simp [package, ref]⟩
    have registered := Registry.find_ok_iff.2 found
    refine ⟨(r, q), bind_eq_ok_iff.2 ⟨r, mapError_eq_ok_iff.2 registered, ?_⟩⟩
    refine bind_eq_ok_iff.2 ⟨ps, hps, ?_⟩
    rw [hq]

/-- The depot without a created revision. -/
def Depot.without (d : Depot) (k : Key) : Depot := { d with store := d.store.erase k }

/-- Taking a revision out that is not there leaves the depot as it is. -/
theorem Depot.without_of_absent {d : Depot} {k : Key} (absent : d.store.get? k = none) :
    d.without k = d := by
  rw [without, Store.erase_of_get?_none absent]

variable {M : Moment → Prop} {e : Engine} {d : Depot} {k : Key}

/-! ## Looking for a published package -/

namespace Index

/-- Nothing is reported as published but what is. -/
theorem isDiscovered_prompt (c : Context) :
    Promptly M (fun a t => t = d ∧ (a = .ok true → d.PublishedAs e k)) (isDiscovered e k c) d := by
  apply Promptly.attempt_bind (findDiscovered_tries e d c k)
  rintro a t ⟨rfl, found⟩
  cases a with
  | ok x => exact ⟨rfl, fun _ => Depot.published_ok_iff.1 ⟨x, found x rfl⟩⟩
  | error err =>
    dsimp only
    split
    · exact ⟨rfl, nofun⟩
    · exact ⟨rfl, nofun⟩

/-- And all that is, in a context that is not interrupted. -/
theorem isDiscovered_undisturbed {c : Context} (quiet : c.Undisturbed M) :
    Promptly M (fun a t => t = d ∧ (a = .ok true ↔ d.PublishedAs e k)) (isDiscovered e k c) d := by
  apply Promptly.attempt_bind (findDiscovered_answers e d quiet k)
  rintro a t ⟨rfl, rfl⟩
  rw [← Depot.published_ok_iff]
  cases t.published e k with
  | ok x => exact ⟨rfl, fun _ => ⟨x, rfl⟩, fun _ => rfl⟩
  | error err =>
    dsimp only
    split
    · exact ⟨rfl, nofun, nofun⟩
    · exact ⟨rfl, nofun, nofun⟩

end Index

/-! ## One deletion -/

namespace Service

/-- A key that is free is taken out, and it is told whether it was there. -/
theorem deleteIfExists_prompt (free : d.store.isBusy k = false) :
    Promptly M (fun a t => a = .ok (d.store.get? k).isSome ∧ t = d.without k) (deleteIfExists k) d := by
  refine promptly_withLease (fun busy => by cases busy.symm.trans free) fun _ m _ => ⟨rfl, ?_⟩
  show { d with store := ((d.store.erase k).acquire k).release k } = d.without k
  rw [Store.release_acquire (s := d.store.erase k) free, Depot.without]

theorem deleteCreated_stored (free : d.store.isBusy k = false) (stored : d.store.get? k ≠ none) :
    Promptly M (fun a t => a = .ok () ∧ t = d.without k) (deleteCreated k) d := by
  apply Promptly.bind (deleteIfExists_prompt free)
  · rintro a t ⟨ha, rfl⟩
    rw [Option.isSome_iff_ne_none.2 stored] at ha
    cases ha
    exact ⟨rfl, rfl⟩
  · rintro err t ⟨h, -⟩
    cases h

theorem deleteCreated_absent (free : d.store.isBusy k = false) (absent : d.store.get? k = none) :
    Answers M (deleteCreated k) d (.error (.notFound (.revision k))) := by
  apply Promptly.bind (deleteIfExists_prompt free)
  · rintro a t ⟨ha, rfl⟩
    rw [absent] at ha
    cases ha
    exact ⟨rfl, Depot.without_of_absent absent⟩
  · rintro err t ⟨h, -⟩
    cases h

theorem deleteCreated_busy (busy : d.store.isBusy k = true) :
    Answers M (deleteCreated k) d (.error (.conflict k)) := by
  have refused : Answers M (deleteIfExists k) d (.error (.conflict k)) :=
    promptly_withLease (fun _ => ⟨rfl, rfl⟩) fun free => by cases busy.symm.trans free
  apply Promptly.bind refused
  · rintro a t ⟨h, -⟩
    cases h
  · rintro err t ⟨h, rfl⟩
    cases h
    exact ⟨rfl, rfl⟩

/-- **A stored revision is deleted**, in any context. -/
theorem delete_stored (free : d.store.isBusy k = false) (stored : d.store.get? k ≠ none) (c : Context) :
    Promptly M (fun a t => a = .ok () ∧ t = d.without k) (delete e k c) d := by
  apply Promptly.attempt_bind (deleteCreated_stored free stored)
  rintro a t ⟨rfl, rfl⟩
  exact ⟨rfl, rfl⟩

theorem delete_busy (busy : d.store.isBusy k = true) (c : Context) :
    Answers M (delete e k c) d (.error (.conflict k)) := by
  apply Promptly.attempt_bind (deleteCreated_busy busy)
  rintro a t ⟨rfl, rfl⟩
  exact ⟨rfl, rfl⟩

/-- **A key that is not stored** is looked for among what is published: nothing changes, and the answer is
read-only or not found as the look comes out. -/
theorem delete_absent (free : d.store.isBusy k = false) (absent : d.store.get? k = none) {c : Context}
    {P : Except Error Bool → Prop}
    (looks : Promptly M (fun a t => t = d ∧ P a) (Index.isDiscovered e k c) d) :
    Promptly M (fun a t => t = d ∧ ∃ found, P found ∧ (found = .ok true ∧
        a = .error (.validation (.readOnly k)) ∨
      found ≠ .ok true ∧ a = .error (.notFound (.revision k)))) (delete e k c) d := by
  apply Promptly.attempt_bind (deleteCreated_absent free absent)
  rintro a t ⟨rfl, rfl⟩
  apply Promptly.attempt_bind looks
  rintro found t ⟨rfl, holds⟩
  match found, holds with
  | .ok true, holds => exact ⟨rfl, _, holds, .inl ⟨rfl, rfl⟩⟩
  | .ok false, holds => exact ⟨rfl, _, holds, .inr ⟨nofun, rfl⟩⟩
  | .error err, holds => exact ⟨rfl, _, holds, .inr ⟨nofun, rfl⟩⟩

/-- A deletion that succeeds has found the key free and stored. -/
theorem alone_delete_ok {c : Context} {d' : Depot}
    (h : Routine.Alone M (delete e k c).run d (.ok ()) d') :
    d.store.isBusy k = false ∧ d.store.get? k ≠ none ∧ d' = d.without k := by
  cases free : d.store.isBusy k with
  | true =>
    obtain ⟨conflict, -⟩ := Routine.Promptly.of_alone (delete_busy free c) h
    cases conflict
  | false =>
    by_cases absent : d.store.get? k = none
    · obtain ⟨-, _, -, ⟨-, refused⟩ | ⟨-, refused⟩⟩ :=
        Routine.Promptly.of_alone (delete_absent free absent (Index.isDiscovered_prompt c)) h
      · cases refused
      · cases refused
    · exact ⟨rfl, absent, (Routine.Promptly.of_alone (delete_stored free absent c) h).2⟩

end Service

/-! ## Two deletions -/

/-- What a deletion comes to that is made right after another one of the same key. -/
structure DeletedAgain (e : Engine) (d : Depot) (k : Key) : Prop where
  /-- Whatever its context is, it changes nothing and fails: the key is not found, or what is published under
  it is read-only. -/
  refused : ∀ M c, Promptly M (fun a t => t = d ∧ (a = .error (.notFound (.revision k)) ∨
    d.PublishedAs e k ∧ a = .error (.validation (.readOnly k)))) (Service.delete e k c) d
  /-- In a context that is not interrupted the key is not found if nothing is published under it. -/
  absent : ¬ d.PublishedAs e k → ∀ M c, c.Undisturbed M →
    Answers M (Service.delete e k c) d (.error (.notFound (.revision k)))
  /-- And what is published is said to be so. -/
  published : d.PublishedAs e k → ∀ M c, c.Undisturbed M →
    Answers M (Service.delete e k c) d (.error (.validation (.readOnly k)))

theorem deletedAgain_of_absent (free : d.store.isBusy k = false) (absent : d.store.get? k = none) :
    DeletedAgain e d k where
  refused M c := by
    apply Routine.Promptly.mono (Service.delete_absent free absent (Index.isDiscovered_prompt c))
    rintro a t ⟨rfl, found, shown, ⟨rfl, rfl⟩ | ⟨-, rfl⟩⟩
    · exact ⟨rfl, .inr ⟨shown rfl, rfl⟩⟩
    · exact ⟨rfl, .inl rfl⟩
  absent unpublished M c quiet := by
    apply Routine.Promptly.mono
      (Service.delete_absent free absent (Index.isDiscovered_undisturbed (e := e) quiet))
    rintro a t ⟨rfl, found, shown, ⟨rfl, -⟩ | ⟨-, rfl⟩⟩
    · exact (unpublished (shown.1 rfl)).elim
    · exact ⟨rfl, rfl⟩
  published there M c quiet := by
    apply Routine.Promptly.mono
      (Service.delete_absent free absent (Index.isDiscovered_undisturbed (e := e) quiet))
    rintro a t ⟨rfl, found, shown, ⟨-, rfl⟩ | ⟨hidden, -⟩⟩
    · exact ⟨rfl, rfl⟩
    · exact (hidden (shown.2 there)).elim

namespace Traffic

/-- What deletions come to at a moment of traffic. -/
structure Deletions (e : Engine) (x : Traffic) : Prop where
  /-- Between calls, whatever is stored can be deleted, in any context. -/
  succeeds : x.Idle → ∀ k, x.depot.store.get? k ≠ none → ∀ M c,
    Promptly M (fun a t => a = .ok () ∧ t = x.depot.without k) (Service.delete e k c) x.depot
  /-- A deletion that succeeds has taken the revision out of the store, and done nothing else. -/
  once : ∀ M k c d', Routine.Alone M (Service.delete e k c).run x.depot (.ok ()) d' →
    x.depot.store.get? k ≠ none ∧ d' = x.depot.without k
  /-- A second one right after it changes nothing and fails. -/
  twice : ∀ M k c d', Routine.Alone M (Service.delete e k c).run x.depot (.ok ()) d' →
    DeletedAgain e d' k

variable {m : Moment} {git : GitHost} {images : ImageHost} {secrets : Dict Credential}
  {es : Nat → Event} {n : Nat}

/-- Between calls no lease is taken. -/
theorem free_of_idle (idle : (run e (opening m git images secrets) es n).Idle) (k : Key) :
    (run e (opening m git images secrets) es n).depot.store.isBusy k = false := by
  rw [Store.isBusy, Bool.eq_false_iff]
  intro busy
  obtain ⟨i, q, p, stands, abandon⟩ := (run_leased n).mem_iff k |>.1 (List.contains_iff_mem.1 busy)
  have ended := idle i q p stands
  cases p with
  | done a => exact released_ne_id k abandon.symm
  | step _ _ _ => cases ended
  | wait _ _ _ _ => cases ended

/-- **Deletions**: at every moment of every run a second deletion of a key changes nothing. It does not find
the key, unless a package is published under it. -/
theorem deletions (e : Engine) (m : Moment) (git : GitHost) (images : ImageHost)
    (secrets : Dict Credential) (es : Nat → Event) (n : Nat) :
    Deletions e (run e (opening m git images secrets) es n) where
  succeeds idle k stored _ c := Service.delete_stored (free_of_idle idle k) stored c
  once _ _ _ _ h := (Service.alone_delete_ok h).2
  twice M k c d' h := by
    obtain ⟨free, -, rfl⟩ := Service.alone_delete_ok h
    exact deletedAgain_of_absent free ((Store.get?_erase _ k k).trans (if_pos rfl))

/-! ## A revision that covers a published one -/

namespace Covered

/-- The repository of the shelf, where the package is published under the key of the created revision. -/
def host : GitHost := Shelf.empty.setRef "host/apps" "v1" ⟨"c1", .ofList [("web/Kptfile", "")]⟩

/-- The context of the second deletion. -/
def again : Context := ⟨[3], none⟩

/-- The revision is created, published and deleted twice. -/
def script : List Event :=
  [.start (.register Shelf.repository), .move 0, .start (.create Shelf.revision ⟨[1], none⟩)] ++
    List.replicate 8 (.move 1) ++
  [.outside host ∅ ∅, .start (.delete Shelf.revision.key ⟨[2], none⟩)] ++
    List.replicate 3 (.move 2) ++
  [.start (.delete Shelf.revision.key again)] ++ List.replicate 8 (.move 3)

def events (n : Nat) : Event := script[n]?.getD (.pass 0 [])

def course : Nat → Traffic := run {} (opening {} Shelf.empty ∅ ∅) events

end Covered

/-- A second deletion comes right after one that succeeded, when all other calls have ended and no context is
interrupted. It fails, but not because the revision is not found. -/
theorem deletions_differ :
    (Covered.course 16).Idle ∧
    (Covered.course 16).At 2 (.delete Shelf.revision.key ⟨[2], none⟩) (.done (.ok .done)) ∧
    Covered.events 16 = .start (.delete Shelf.revision.key Covered.again) ∧
    Covered.again.interrupt? (Covered.course 25).moment = none ∧
    ∃ err, err.kind ≠ .notFound ∧
      (Covered.course 25).At 3 (.delete Shelf.revision.key Covered.again) (.done (.error err)) := by
  refine ⟨Shelf.idle_of_ended (by decide +kernel), ?_, rfl, ?_, ?_⟩
  · rfl
  · rfl
  · exact ⟨.validation (.readOnly Shelf.revision.key), nofun, rfl⟩

end Traffic

end PackageDepot
