import PackageDepot.Proofs.Service.Agreement
import PackageDepot.Proofs.Traffic.DeadContexts
import PackageDepot.Proofs.Traffic.Orphans

/-!
# One call after another

In a `Sequential` run each call is begun when all calls before it have ended, and none is dropped; what is
outside may change at any time. Such a run makes no orphans (`Sequential.not_orphaned`), so between two
calls each stored revision has its repository, and the readers agree (`reads_agree`).
-/

namespace PackageDepot.Traffic

open Package Backend Call

/-- No call is under way. -/
def Idle (x : Traffic) : Prop := ∀ i q p, x.At i q p → p.isDone = true

/-- Each call has ended before the next one is begun, and no call is dropped. -/
structure Sequential (e : Engine) (x : Traffic) (es : Nat → Event) : Prop where
  start : ∀ n q, es n = .start q → (run e x es n).Idle
  kept : ∀ n i, es n ≠ .drop i

variable {e : Engine} {m : Moment} {git : GitHost} {images : ImageHost} {secrets : Dict Credential}
  {es : Nat → Event} {n : Nat}

/-- At most one call is under way. -/
theorem Sequential.unique (sequential : Sequential e (opening m git images secrets) es) (n : Nat)
    {i j : Nat} {q r : Request} {p s : Routine Depot Answer}
    (hi : (run e (opening m git images secrets) es n).At i q p) (going : p.isDone = false)
    (hj : (run e (opening m git images secrets) es n).At j r s) (going' : s.isDone = false) :
    i = j := by
  induction n generalizing q r p s with
  | zero => exact (not_at_opening hi).elim
  | succ n ih =>
    -- A call that goes on was under way before, when no new one may be begun.
    have alone : ∀ {k l t u v}, (run e (opening m git images secrets) es n).Asked k t →
        (run e (opening m git images secrets) es (n + 1)).At k t u → u.isDone = false →
          ¬ (es n = .start v ∧ l = (run e (opening m git images secrets) es n).calls.length) := by
      rintro k l t u v asked hk going ⟨begun, -⟩
      obtain ⟨u', before, going'⟩ := hk.undone_before asked going
      have done := sequential.start n v begun k t u' before
      rw [going'] at done
      cases done
    obtain asked | begun := hi.asked_or_begun
    · obtain asked' | begun' := hj.asked_or_begun
      · obtain ⟨p', before, hp'⟩ := hi.undone_before asked going
        obtain ⟨s', before', hs'⟩ := hj.undone_before asked' going'
        exact ih before hp' before' hs'
      · exact (alone asked hi going begun').elim
    · obtain asked' | begun' := hj.asked_or_begun
      · exact (alone asked' hj going' begun).elim
      · rw [begun.2, begun'.2]

/-- No removal comes between the first step of a creation and its commit. -/
theorem Sequential.not_overtaken (sequential : Sequential e (opening m git images secrets) es) {k : Key}
    {a b c : Nat} (hab : a < b) (hbc : b < c) {name : String}
    (made : Creation e es (run e (opening m git images secrets) es) k a c)
    (removal : Removal es (run e (opening m git images secrets) es) name b) : False := by
  obtain ⟨-, i, r, ctx, f, -, -, asks, -, p, stands, before, -⟩ := made
  obtain ⟨j, -, p', stands', before', -⟩ := removal
  obtain ⟨s, there, going⟩ := stands.undone_since (Nat.le_of_lt hbc)
    (asks.asked.run (Nat.le_of_lt hab)) (Routine.isDone_of_undecided before)
  have same := sequential.unique b there going stands' (Routine.isDone_of_undecided before')
  subst same
  cases (there.unique stands').1

/-- **A sequential run makes no orphans.** -/
theorem Sequential.not_orphaned (sequential : Sequential e (opening m git images secrets) es) (n : Nat)
    (k : Key) : ¬ (run e (opening m git images secrets) es n).Orphaned k := by
  induction n with
  | zero =>
    rintro ⟨there, -⟩
    exact there rfl
  | succ n ih =>
    intro orphaned
    obtain before | ⟨a, made, found, forsaken⟩ | ⟨j, dropped, -⟩ := orphaned_next orphaned
    · exact ih before
    · obtain ⟨b, hab, hbn, removal⟩ := made.overtaken found forsaken.1
      exact sequential.not_overtaken hab hbn made removal
    · exact sequential.kept n j dropped

/-- Between two calls each stored revision has its repository. -/
theorem Sequential.housed (sequential : Sequential e (opening m git images secrets) es)
    (idle : (run e (opening m git images secrets) es n).Idle) :
    (run e (opening m git images secrets) es n).depot.Housed := by
  intro k stored
  have registered : (run e (opening m git images secrets) es n).depot.Registers k.repository := by
    apply Classical.byContradiction
    intro gone
    refine sequential.not_orphaned n k ⟨?_, gone, ?_⟩
    · exact Option.isSome_iff_ne_none.1 stored
    · rintro i ⟨p, hp, going, -⟩
      rw [idle i _ p hp] at going
      cases going
  obtain ⟨r, found, -⟩ := registered
  exact ⟨r, found⟩

/-- **Readers agree** between two calls of a sequential run, if all repositories can be scanned and paths
are as git has them. -/
theorem reads_agree (e : Engine) (m : Moment) (git : GitHost) (images : ImageHost)
    (secrets : Dict Credential) (es : Nat → Event)
    (sequential : Sequential e (opening m git images secrets) es) (n : Nat)
    (idle : (run e (opening m git images secrets) es n).Idle)
    (scannable : (run e (opening m git images secrets) es n).depot.Scannable e)
    (plain : (run e (opening m git images secrets) es n).depot.git.Plain) :
    ∃ entries, ReadsAgree e (run e (opening m git images secrets) es n).depot entries :=
  ⟨_, readsAgree_of_housed (run_tidy e m git images secrets es n)
    (run_valid e m git images secrets es n) (sequential.housed idle) scannable plain⟩

/-! ## A creation and a publication -/

namespace Shelf

def repository : Repository := .ofGit "apps" { repo := "host/apps" }

/-- A package that is begun by a task. -/
def revision : Revision :=
  { package := "web", revision := "v1", repository := "apps", tasks := [.starting {}] }

def empty : GitHost := GitHost.setRef ∅ "host/apps" "main" ⟨"c0", ∅⟩

/-- The repository with a package that is published in it. -/
def stocked : GitHost := empty.setRef "host/apps" "v1" ⟨"c1", .ofList [("db/Kptfile", "")]⟩

def found : Discovered := ⟨"db", ⟨"host/apps", "v1", "db"⟩, "c1"⟩

/-- A revision is created, and then another one is published. -/
def script : List Event :=
  [.start (.register repository), .move 0, .start (.create revision ⟨[1], none⟩)] ++
    List.replicate 8 (.move 1) ++ [.outside stocked ∅ ∅]

def events (n : Nat) : Event := script[n]?.getD (.pass 0 [])

def course : Nat → Traffic := run {} (opening {} empty ∅ ∅) events

/-- All calls have ended, as can be computed. -/
def ended (x : Traffic) : Bool := x.calls.all fun c => c.2.all Routine.isDone

theorem idle_of_ended {x : Traffic} (h : ended x = true) : x.Idle := by
  intro i q p hp
  have done := List.all_eq_true.1 h _ (List.mem_of_getElem? hp)
  simpa using done

/-- Nothing is begun or dropped at a time, unless a call is begun when all have ended. -/
def orderly (n : Nat) : Bool :=
  match events n with
  | .start _ => ended (course n)
  | .drop _ => false
  | _ => true

theorem orderly_at (n : Nat) : orderly n = true := by
  by_cases hn : n < 12
  · have all : ∀ n < 12, orderly n = true := by decide +kernel
    exact all n hn
  · have beyond : events n = .pass 0 [] := by
      have none : script[n]? = none := List.getElem?_eq_none (Nat.le_of_not_lt hn)
      rw [events, none]
      rfl
    rw [orderly, beyond]

theorem sequential : Sequential {} (opening {} empty ∅ ∅) events where
  start n q h := by
    have calm := orderly_at n
    rw [orderly, h] at calm
    exact idle_of_ended calm
  kept n i h := by
    have calm := orderly_at n
    rw [orderly, h] at calm
    cases calm

theorem registered : (course 12).depot.registry.toList = [("apps", repository)] := by
  decide +kernel

theorem scannable : (course 12).depot.Scannable {} := by
  rintro name r found -
  have entry := Dict.get?_eq_some_iff.1 found
  rw [registered, List.mem_singleton] at entry
  cases entry
  exact ⟨[Shelf.found], rfl⟩

end Shelf

/-- The readers agree when a revision was created and another one was published. -/
theorem reads_agree_on_shelf :
    Sequential {} (opening {} Shelf.empty ∅ ∅) Shelf.events ∧ (Shelf.course 12).Idle ∧
    (Shelf.course 12).depot.Scannable {} ∧ (Shelf.course 12).depot.git.Plain ∧
    ((Shelf.course 12).depot.store.get? Shelf.revision.key).isSome = true ∧
    (Shelf.course 12).depot.scan {} Shelf.repository = .ok [Shelf.found] ∧
    ∃ entries, ReadsAgree {} (Shelf.course 12).depot entries := by
  have idle : (Shelf.course 12).Idle := Shelf.idle_of_ended (by decide +kernel)
  have plain : (Shelf.course 12).depot.git.Plain := by decide +kernel
  refine ⟨Shelf.sequential, idle, Shelf.scannable, plain, by decide +kernel, rfl, ?_⟩
  exact reads_agree {} {} Shelf.empty ∅ ∅ Shelf.events Shelf.sequential 12 idle Shelf.scannable plain

end PackageDepot.Traffic
