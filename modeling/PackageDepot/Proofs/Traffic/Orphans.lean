import PackageDepot.Proofs.Traffic.History
import PackageDepot.Proofs.Traffic.Registration

/-!
# Revisions without a repository

A write asks for its repository once, at its first step. A creation that is overtaken by the removal of
its repository may commit behind the purge, and what it commits is an orphan. `Orphans` says that
orphans are made in this way and, if a call that takes a repository out is dropped between its two
steps, by leaving the purge out; in no other way. It also says whom a revision that is stored behind the
return of such a call comes from. `race_leaves_orphan` runs the shortest of these races.
-/

namespace PackageDepot.Traffic

open Package Call Backend

/-- Nothing is registered under a name for packages, and nobody is going to purge it. -/
def Forsaken (x : Traffic) (name : String) : Prop :=
  ¬ x.depot.Registers name ∧ ∀ i, ¬ x.Purging i name

/-- A revision is stored whose repository is not registered, and nobody is going to purge it. -/
def Orphaned (x : Traffic) (k : Key) : Prop :=
  x.depot.store.get? k ≠ none ∧ x.Forsaken k.repository

/-- A creation asks for its repository at the time `a` and commits at the time `c`. -/
def Creation (e : Engine) (es : Nat → Event) (x : Nat → Traffic) (k : Key) (a c : Nat) : Prop :=
  a < c ∧ ∃ i r ctx f, r.key = k ∧
    es a = .move i ∧ (x a).At i (.create r ctx) ((Request.create r ctx).begin e) ∧
    es c = .move i ∧ (x c).Settles i (.create r ctx) (.ok (.files f))

/-- A repository is taken out of the registry. -/
def Removal (es : Nat → Event) (x : Nat → Traffic) (name : String) (b : Nat) : Prop :=
  ∃ j, es b = .move j ∧ (x b).Settles j (.unregister name) (.ok .done)

/-- A repository is registered under a name. -/
def Registration (es : Nat → Event) (x : Nat → Traffic) (name : String) (b : Nat) : Prop :=
  ∃ j r, es b = .move j ∧ r.name = name ∧ (x b).Ends j (.register r) (.ok .done)

/-- How orphans are made. `x n` is the state in which the event `es n` happens. -/
structure Orphans (e : Engine) (es : Nat → Event) (x : Nat → Traffic) : Prop where
  /-- Behind an orphan there is a creation that asked for its repository before the repository was
  removed, and committed when it was purged, or else a purge that was left out. -/
  made : ∀ n k, (x n).Orphaned k →
    (∃ a b c, a < b ∧ b < c ∧ c < n ∧ Creation e es x k a c ∧ Removal es x k.repository b ∧
      (x c).Forsaken k.repository) ∨
    ∃ b j, b < n ∧ es b = .drop j ∧ (x b).Purging j k.repository
  /-- And such a creation makes an orphan. -/
  overtaken : ∀ a c k, Creation e es x k a c → (x c).Forsaken k.repository → (x (c + 1)).Orphaned k
  /-- A purge that is left out makes an orphan of what is stored, unless another call is going to purge
  it or the repository was registered again. -/
  dropped : ∀ b j k, es b = .drop j → (x b).Purging j k.repository →
    (∀ i, (x b).Purging i k.repository → i = j) → ((x (b + 1)).Orphaned k ↔
      (x b).depot.store.get? k ≠ none ∧ ¬ (x b).depot.Registers k.repository)
  /-- What is stored behind the return of a call that took its repository out was created by a call that
  asked for the repository when it was registered again, or else before it was removed. -/
  returned : ∀ u j name, es u = .move j → (x u).Ends j (.unregister name) (.ok .done) →
    ∃ b, b < u ∧ es b = .move j ∧ (x b).Settles j (.unregister name) (.ok .done) ∧
      ∀ t k, u < t → k.repository = name → (x t).depot.store.get? k ≠ none →
        ∃ a c, u < c ∧ c < t ∧ Creation e es x k a c ∧
          ((∃ g, b < g ∧ g < a ∧ Registration es x name g) ∨ a < b)

variable {e : Engine} {m : Moment} {git : GitHost} {images : ImageHost} {secrets : Dict Credential}
  {es : Nat → Event} {i : Nat} {name : String}

/-- What holds at one time and not at a later one holds for the last time in between. -/
theorem exists_last {P : Nat → Prop} {a n : Nat} (han : a ≤ n) (ha : P a) (hn : ¬ P n) :
    ∃ b, a ≤ b ∧ b < n ∧ P b ∧ ∀ c, b < c → c ≤ n → ¬ P c := by
  induction han with
  | refl => exact (hn ha).elim
  | @step n han ih =>
    have last : ∀ c, n < c → c ≤ n + 1 → ¬ P c := by
      intro c hnc hcn
      obtain rfl : c = n + 1 := by omega
      exact hn
    by_cases hp : P n
    · exact ⟨n, han, by omega, hp, last⟩
    · obtain ⟨b, hab, hbn, hb, after⟩ := ih hp
      refine ⟨b, hab, by omega, hb, fun c hbc hcn => ?_⟩
      by_cases hc : c ≤ n
      · exact after c hbc hc
      · exact last c (by omega) hcn

/-- A creation that commits once found its repository registered. -/
theorem creation_of_settles {n : Nat} {r : Revision} {c : Context} {f : RevisionFiles}
    (hev : es n = .move i) (h : (run e (opening m git images secrets) es n).Settles i (.create r c)
      (.ok (.files f))) :
    ∃ a, Creation e es (run e (opening m git images secrets) es) r.key a n ∧
      (run e (opening m git images secrets) es a).depot.Registers r.repository := by
  obtain ⟨p, hp, hf, -, -⟩ := (settles_iff (run_orderly n) rfl _).1 h
  have moved : p ≠ (Request.create r c).begin e := by
    rintro rfl
    have held := (holds_iff hp hf r.key).2 rfl
    have fresh := (holds_iff hp (Request.follows e _) r.key).1 held
    cases fresh
  obtain first | ⟨a, han, hea, ha⟩ := hp.began
  · exact (moved first).elim
  · refine ⟨a, ⟨han, i, r, c, f, rfl, hea, ha, hev, h⟩, ?_⟩
    apply Classical.byContradiction
    intro refused
    obtain ⟨err, failed⟩ := create_refused (e := e) (c := c)
      (m := (run e (opening m git images secrets) es a).moment) refused
    have after : (run e (opening m git images secrets) es (a + 1)).At i (.create r c)
        (.done (.error err)) := by
      have next := ha.moved e
      rw [failed, ← hea] at next
      exact next
    have ended := (after.done_run (show a + 1 ≤ n by omega)).unique hp
    rw [← ended.2] at hf
    exact hf.elim

theorem run_registers_lost {a n : Nat} (han : a ≤ n)
    (ha : (run e (opening m git images secrets) es a).depot.Registers name)
    (hn : ¬ (run e (opening m git images secrets) es n).depot.Registers name) :
    ∃ b, a ≤ b ∧ b < n ∧ Removal es (run e (opening m git images secrets) es) name b := by
  obtain ⟨b, hab, hbn, before, after⟩ := exists_last han
    (P := fun b => (run e (opening m git images secrets) es b).depot.Registers name) ha hn
  have gone := after (b + 1) (by omega) (by omega)
  exact ⟨b, hab, hbn, (run_change e _ es b).registers_lost (run_orderly b) before gone⟩

theorem run_registers_gained {a n : Nat} (han : a ≤ n)
    (ha : ¬ (run e (opening m git images secrets) es a).depot.Registers name)
    (hn : (run e (opening m git images secrets) es n).depot.Registers name) :
    ∃ b, a ≤ b ∧ b < n ∧ Registration es (run e (opening m git images secrets) es) name b := by
  obtain ⟨b, hab, hbn, before, after⟩ := exists_last han
    (P := fun b => ¬ (run e (opening m git images secrets) es b).depot.Registers name) ha
    (fun h => h hn)
  have gained := Classical.not_not.1 (after (b + 1) (by omega) (by omega))
  exact ⟨b, hab, hbn, (run_change e _ es b).registers_gained (run_orderly b) before gained⟩

/-- A revision that was not there and is there was created. -/
theorem Effect.created {x : Traffic} (orderly : x.Orderly e) {ev : Event} {k : Key}
    (absent : x.depot.store.get? k = none) {v : Option Substance} (hv : v ≠ none)
    (h : x.Effect ev k v) : ∃ i r c f, ev = .move i ∧ r.key = k ∧
      x.Settles i (.create r c) (.ok (.files f)) := by
  cases h with
  | create h => exact ⟨_, _, _, _, rfl, rfl, h⟩
  | update h =>
    have ho := (h.outcome orderly rfl).2
    cases ho with
    | update _ present => simp [absent] at present
  | delete => exact (hv rfl).elim
  | purge => exact (hv rfl).elim

/-- A revision that comes to be stored at a step is what a creation commits. -/
theorem creation_of_appears {n : Nat} {k : Key}
    (absent : (run e (opening m git images secrets) es n).depot.store.get? k = none)
    (there : (run e (opening m git images secrets) es (n + 1)).depot.store.get? k ≠ none) :
    ∃ a i r c f, r.key = k ∧ es n = .move i ∧
      (run e (opening m git images secrets) es n).Settles i (.create r c) (.ok (.files f)) ∧
      Creation e es (run e (opening m git images secrets) es) k a n ∧
      (run e (opening m git images secrets) es a).depot.Registers k.repository := by
  obtain same | effect := (run_change e (opening m git images secrets) es n).get?_or_effect
    (run_orderly n) k
  · exact (there (same.trans absent)).elim
  · obtain ⟨i, r, c, f, hev, rfl, h⟩ := effect.created (run_orderly n) absent
      (by simpa [content] using there)
    obtain ⟨a, ha, found⟩ := creation_of_settles hev h
    exact ⟨a, i, r, c, f, rfl, hev, h, ha, found⟩

/-- A call that purges once made its removal step. -/
theorem Purging.removal {n : Nat}
    (h : (run e (opening m git images secrets) es n).Purging i name) : ∃ b < n, es b = .move i ∧
      (run e (opening m git images secrets) es b).Settles i (.unregister name) (.ok .done) := by
  induction n with
  | zero =>
    obtain ⟨p, hp, -⟩ := h
    exact (not_at_opening hp).elim
  | succ n ih =>
    obtain before | ⟨hev, hs⟩ := Purging.before h
    · obtain ⟨b, hb, removal⟩ := ih before
      exact ⟨b, by omega, removal⟩
    · exact ⟨n, by omega, hev, hs⟩

/-- While a creation makes a step, nobody is registered, removed or done purging. -/
theorem forsaken_of_create {x : Traffic} (orderly : x.Orderly e) {r : Revision} {c : Context}
    {p : Routine Depot Answer} (hp : x.At i (.create r c) p) :
    (x.next e (.move i)).Forsaken name ↔ x.Forsaken name := by
  have hc := next_change e x (.move i)
  constructor
  · rintro ⟨gone, idle⟩
    constructor
    · intro found
      obtain ⟨j, hj, hs⟩ := hc.registers_lost orderly found gone
      cases hj
      cases hs.request hp
    · intro j purging
      obtain still | ⟨hj, hs⟩ | hj := purging.next orderly (.move i)
      · exact idle j still
      · cases hj
        cases hs.request hp
      · cases hj
  · rintro ⟨gone, idle⟩
    constructor
    · intro found
      obtain ⟨j, r', hj, -, hs⟩ := hc.registers_gained orderly gone found
      cases hj
      cases hs.request hp
    · intro j purging
      obtain still | ⟨hj, hs⟩ := purging.before
      · exact idle j still
      · cases hj
        cases hs.request hp

/-- A repository becomes forsaken when the purge is done, and then none of its revisions is stored, or
when the purge is left out. -/
theorem forsaken_next {x : Traffic} (orderly : x.Orderly e) {ev : Event} {k : Key}
    (h : (x.next e ev).Forsaken k.repository) : x.Forsaken k.repository ∨
      (x.next e ev).depot.store.get? k = none ∨
      ∃ j, ev = .drop j ∧ x.Purging j k.repository := by
  obtain ⟨gone, idle⟩ := h
  by_cases found : x.depot.Registers k.repository
  · obtain ⟨j, rfl, hs⟩ := (next_change e x ev).registers_lost orderly found gone
    exact (idle j (hs.removed orderly).2).elim
  · by_cases purging : ∃ j, x.Purging j k.repository
    · obtain ⟨j, hj⟩ := purging
      obtain still | ⟨rfl, ends⟩ | rfl := hj.next orderly ev
      · exact (idle j still).elim
      · exact .inr (.inl (ends.purged orderly rfl))
      · exact .inr (.inr ⟨j, rfl, hj⟩)
    · exact .inl ⟨found, fun j hj => purging ⟨j, hj⟩⟩

/-- What is left behind a call that is dropped before it purges. -/
theorem Purging.left {x : Traffic} (orderly : x.Orderly e) (h : x.Purging i name) :
    (x.next e (.drop i)).depot.registry = x.depot.registry ∧
      (x.next e (.drop i)).depot.store.revisions = x.depot.store.revisions ∧
      ¬ (x.next e (.drop i)).Purging i name := by
  obtain ⟨p, hp, going, -⟩ := h
  obtain ⟨t, hf⟩ := orderly i _ p hp
  obtain ⟨registry, revisions⟩ := Request.release_kept e (.unregister name) t x.depot
  rw [next_drop hp going, hf.abandon going]
  refine ⟨registry, revisions, ?_⟩
  rintro ⟨p', hp', -⟩
  simp [At, List.getElem?_set] at hp'

/-- A step that makes an orphan is a commit, or leaves the purge out. -/
theorem orphaned_next {n : Nat} {k : Key}
    (h : (run e (opening m git images secrets) es (n + 1)).Orphaned k) :
    (run e (opening m git images secrets) es n).Orphaned k ∨
    (∃ a, Creation e es (run e (opening m git images secrets) es) k a n ∧
      (run e (opening m git images secrets) es a).depot.Registers k.repository ∧
      (run e (opening m git images secrets) es n).Forsaken k.repository) ∨
    ∃ j, es n = .drop j ∧ (run e (opening m git images secrets) es n).Purging j k.repository := by
  obtain ⟨there, forsaken⟩ := h
  obtain before | gone | purge := forsaken_next (run_orderly n) forsaken
  · by_cases stored : (run e (opening m git images secrets) es n).depot.store.get? k = none
    · obtain ⟨a, i, r, c, f, -, -, -, made, found⟩ := creation_of_appears stored there
      exact .inr (.inl ⟨a, made, found, before⟩)
    · exact .inl ⟨stored, before⟩
  · exact (there gone).elim
  · exact .inr (.inr purge)

/-- A creation that asks for its repository before a time, and commits when the repository is gone, is
overtaken by a removal. -/
theorem Creation.overtaken {a c : Nat} {k : Key}
    (h : Creation e es (run e (opening m git images secrets) es) k a c)
    (found : (run e (opening m git images secrets) es a).depot.Registers k.repository)
    (gone : ¬ (run e (opening m git images secrets) es c).depot.Registers k.repository) :
    ∃ b, a < b ∧ b < c ∧ Removal es (run e (opening m git images secrets) es) k.repository b := by
  obtain ⟨hac, i, r, ctx, f, -, hea, ha, -, -⟩ := h
  obtain ⟨b, hab, hbc, j, hj, removal⟩ := run_registers_lost (by omega) found gone
  refine ⟨b, ?_, hbc, j, hj, removal⟩
  have hne : a ≠ b := by
    rintro rfl
    cases hea.symm.trans hj
    cases removal.request ha
  omega

/-- **How orphans are made**, in every run of every depot. -/
theorem run_orphans (e : Engine) (m : Moment) (git : GitHost) (images : ImageHost)
    (secrets : Dict Credential) (es : Nat → Event) :
    Orphans e es (run e (opening m git images secrets) es) where
  made n k h := by
    induction n with
    | zero => exact (h.1 rfl).elim
    | succ n ih =>
      obtain before | ⟨a, made, found, forsaken⟩ | ⟨j, hj, purging⟩ := orphaned_next h
      · obtain ⟨a, b, c, hab, hbc, hcn, made⟩ | ⟨b, j, hb, dropped⟩ := ih before
        · exact .inl ⟨a, b, c, hab, hbc, by omega, made⟩
        · exact .inr ⟨b, j, by omega, dropped⟩
      · obtain ⟨b, hab, hbn, removal⟩ := made.overtaken found forsaken.1
        exact .inl ⟨a, b, n, hab, hbn, by omega, made, removal, forsaken⟩
      · exact .inr ⟨n, j, by omega, hj, purging⟩
  overtaken a c k hc hf := by
    obtain ⟨-, i, r, ctx, f, rfl, -, -, hev, hs⟩ := hc
    have ho := (hs.outcome (run_orderly c) rfl).2
    obtain ⟨p, hp, -⟩ := hs
    rw [run, hev]
    refine ⟨?_, (forsaken_of_create (run_orderly c) hp).2 hf⟩
    cases ho with
    | create _ _ _ stored => simp [stored]
  dropped b j k hev purging alone := by
    obtain ⟨registry, revisions, idle⟩ := purging.left (e := e) (run_orderly b)
    rw [run, hev, Orphaned, Forsaken, Depot.Registers, registry, Store.get?, revisions]
    constructor
    · rintro ⟨there, gone, -⟩
      exact ⟨there, gone⟩
    · rintro ⟨there, gone⟩
      refine ⟨there, gone, ?_⟩
      intro i hi
      obtain before | ⟨moved, -⟩ := hi.before
      · have same := alone i before
        subst same
        exact idle hi
      · cases moved
  returned u j name hev h := by
    have purging : (run e (opening m git images secrets) es u).Purging j name := by
      obtain ⟨p, hp, hf, -⟩ := (ends_unregister_iff (run_orderly u) name).1 h
      exact (purging_iff (run_orderly u)).2 ⟨p, hp, hf⟩
    obtain ⟨b, hbu, hb, removal⟩ := purging.removal
    refine ⟨b, hbu, hb, removal, ?_⟩
    intro t k hut hk there
    subst hk
    have absent : (run e (opening m git images secrets) es (u + 1)).depot.store.get? k = none := by
      rw [run, hev]
      exact h.purged (run_orderly u) rfl
    obtain ⟨c, huc, hct, before, after⟩ := exists_last (a := u + 1) (n := t) (by omega)
      (P := fun n => (run e (opening m git images secrets) es n).depot.store.get? k = none)
      absent there
    obtain ⟨a, -, -, -, -, -, -, -, made, found⟩ :=
      creation_of_appears before (after (c + 1) (by omega) (by omega))
    refine ⟨a, c, by omega, hct, made, ?_⟩
    by_cases hab : a < b
    · exact .inr hab
    · refine .inl ?_
      obtain ⟨-, i, r, ctx, f, -, hea, ha, -, -⟩ := made
      have hne : a ≠ b := by
        rintro rfl
        cases hea.symm.trans hb
        cases removal.request ha
      have gone : ¬ (run e (opening m git images secrets) es (b + 1)).depot.Registers k.repository := by
        rw [run, hb]
        exact (removal.removed (run_orderly b)).1
      obtain ⟨g, hbg, hga, again⟩ := run_registers_gained (by omega) gone found
      exact ⟨g, by omega, hga, again⟩

/-! ## The race -/

namespace Race

def repository : Repository := .ofGit "apps" { repo := "host/apps" }

/-- A package with nothing to do but to start it. -/
def revision : Revision := { package := "web", revision := "v1", repository := "apps" }

/-- A creation finds the repository, which is then taken out; the creation goes on and commits. -/
def script : List Event :=
  [.start (.register repository), .move 0, .start (.create revision ⟨[], none⟩), .move 1,
    .start (.unregister "apps"), .move 2, .move 2] ++ List.replicate 6 (.move 1) ++
  [.start (.get revision.key ⟨[], none⟩), .move 3]

def events (n : Nat) : Event := script[n]?.getD (.pass 0 [])

/-- The depot of the race, which begins with nothing outside. -/
def course : Nat → Traffic := run {} (opening {} ∅ ∅ ∅) events

end Race

/-- When all calls of the race have ended, and the repository was taken out with success, a revision of
it is stored and can be read, though its repository is not registered. -/
theorem race_leaves_orphan :
    (Race.course 7).Answered 2 (.ok .done) ∧
    (∀ i name, ¬ (Race.course 15).Purging i name) ∧
    (Race.course 15).depot.store.get? Race.revision.key ≠ none ∧
    ¬ (Race.course 15).depot.Registers Race.revision.repository ∧
    ∃ v, (Race.course 15).Answered 3 (.ok (.view v)) := by
  refine ⟨⟨.unregister "apps", rfl⟩, ?_, ?_, ?_, ?_⟩
  · rintro i name ⟨p, hp, going, -⟩
    have ended : ∀ c ∈ (Race.course 15).calls, c.2.all Routine.isDone = true := by decide +kernel
    have done := ended _ (List.mem_of_getElem? hp)
    simp [going] at done
  · have there : ((Race.course 15).depot.store.get? Race.revision.key).isSome = true := by
      decide +kernel
    intro h
    simp [h] at there
  · rintro ⟨g, found, -⟩
    have gone : (Race.course 15).depot.registry.contains "apps" = false := by decide +kernel
    rw [Dict.contains, show (Race.course 15).depot.registry.get? "apps" = some g from found] at gone
    cases gone
  · exact ⟨_, _, rfl⟩

end PackageDepot.Traffic
