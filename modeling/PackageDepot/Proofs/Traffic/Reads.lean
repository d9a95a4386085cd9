import PackageDepot.Proofs.Traffic.History
import PackageDepot.Proofs.Service.ReadOnly

/-!
# What readers of a key see

A call that reads a key follows `reader`: it looks the key up in the store, and perhaps once more if it
misses it, until it finds a revision or has to search what is published. `At.read` goes back from an answer to
the step that read the store: what was there at that step decides the answer.
-/

namespace PackageDepot

open Package Call Backend

/-- How far a reader of a key has come. -/
inductive Reading
  /-- It looks the key up, which it may have missed before. -/
  | looking (missed : Bool)
  | found (missed : Bool) (s : Stored)
  /-- The store does not have the key. -/
  | absent

/-- The steps of a reader of a key. -/
inductive Reading.Step (k : Key) : Reading → Moment → Depot → Depot → Reading → Prop
  | miss {m : Moment} {d : Depot} (h : d.store.get? k = none) :
    Step k (.looking false) m d d (.looking true)
  | found {m : Moment} {d : Depot} {missed : Bool} {s : Stored} (h : d.store.get? k = some s) :
    Step k (.looking missed) m d d (.found missed s)
  | absent {m : Moment} {d : Depot} {missed : Bool} (h : d.store.get? k = none) :
    Step k (.looking missed) m d d .absent
  | search (m : Moment) (d : Depot) : Step k .absent m d d .absent

/-- The protocol of reading a key, with the answers for a revision that is found and for none. -/
def reader (k : Key) (found : Bool → Stored → Answer → Prop) (absent : Answer → Prop) :
    Protocol Depot Answer where
  Phase := Reading
  release _ := id
  Step := Reading.Step k
  Ends
    | .looking _, _ => False
    | .found missed s, a => found missed s a
    | .absent, a => absent a

namespace Request

variable (e : Engine)

/-- The answer for a key that is not in the store: what is published there, if anything is. -/
def published (k : Key) (c : Context) : Call Reply := do
  let content ← Index.lookupDiscovered e k c
  return .view ⟨.ofKey k content.files,
    (Kptfile.ofBundle e.config.manifestFile content.files).toOption⟩

/-- The answer for a revision that is found, with its manifest as it was stored, or as it is read from the
files if the key was missed before. -/
def Shows (k : Key) (missed : Bool) (s : Stored) (a : Answer) : Prop :=
  a = .ok (.view ⟨.ofKey k s.files, if missed then (Kptfile.ofBundle e.config.manifestFile s.files).toOption
    else some s.kptfile⟩)

theorem get_follows (k : Key) (c : Context) : ((Request.get k c).begin e).Follows
    (reader k (Shows e k) fun a => (published e k c).run.Returns a) (Reading.looking false) := by
  rw [begin, call, Service.get, bind_assoc, read_run]
  refine ⟨rfl, ?_⟩
  intro m d
  dsimp only
  cases h : d.store.get? k with
  | some s => exact ⟨.found false s, .found h, rfl⟩
  | none =>
    refine ⟨.looking true, .miss h, ?_⟩
    dsimp only
    rw [Index.lookup, bind_assoc, bind_assoc, read_run]
    refine ⟨rfl, ?_⟩
    intro m d
    dsimp only
    cases h : d.store.get? k with
    | some s => exact ⟨.found true s, .found h, rfl⟩
    | none =>
      refine ⟨.absent, .absent h, ?_⟩
      have quiet : Call.Quiet Error.Calm (published e k c) :=
        ((Index.lookupDiscovered_quiet e k c).mono fun _ => LookupFault.calm).bind fun _ => quiet_pure _
      have ends := Routine.Quiet.follows (P := reader k (Shows e k)
        fun a => (published e k c).run.Returns a) (t := Reading.absent) (f := .done) quiet.returns
        (fun m s => .search m s) fun a h => h.2
      rwa [Routine.bind_done] at ends

theorem spec_follows (k : Key) : ((Request.spec k).begin e).Follows
    (reader k (fun _ s a => a = .ok (.spec s.spec)) fun a => a = .error (.notFound (.revision k)))
    (Reading.looking false) := by
  rw [begin, call, Service.spec, bind_assoc, query_run]
  refine ⟨rfl, ?_⟩
  intro m d
  dsimp only
  rw [Store.find]
  cases h : d.store.get? k with
  | some s => exact ⟨.found false s, .found h, rfl⟩
  | none => exact ⟨.absent, .absent h, rfl⟩

end Request

namespace Traffic

variable {e : Engine} {m : Moment} {git : GitHost} {images : ImageHost} {secrets : Dict Credential}
  {es : Nat → Event}

/-- A reader looked a key up at a time before, and found this there. -/
def Looked (es : Nat → Event) (x : Nat → Traffic) (i : Nat) (k : Key) (found : Option Stored) (n : Nat) : Prop :=
  ∃ b < n, es b = .move i ∧ (x b).depot.store.get? k = found

/-- **A reader answers by what the store had under its key at one of its steps.** -/
theorem At.read {q : Request} {k : Key} {found : Bool → Stored → Answer → Prop} {absent : Answer → Prop}
    (hq : (q.begin e).Follows (reader k found absent) (Reading.looking false)) {n i : Nat} {a : Answer}
    (h : (run e (opening m git images secrets) es n).At i q (.done a)) :
    ∃ b < n, es b = .move i ∧
      match (run e (opening m git images secrets) es b).depot.store.get? k with
      | some s => ∃ missed, found missed s a ∧
        (missed = true → Looked es (run e (opening m git images secrets) es) i k none b)
      | none => absent a := by
  let missing (missed : Bool) (b i : Nat) : Prop :=
    missed = true → Looked es (run e (opening m git images secrets) es) i k none b
  let H (n i : Nat) : Reading → Prop
    | .looking missed => missing missed n i
    | .found missed s => ∃ b < n, (es b = .move i ∧ missing missed b i) ∧
      (run e (opening m git images secrets) es b).depot.store.get? k = some s
    | .absent => Looked es (run e (opening m git images secrets) es) i k none n
  have keep : ∀ n i t, H n i t → H (n + 1) i t := by
    have later {n i : Nat} (looked : Looked es (run e (opening m git images secrets) es) i k none n) :
        Looked es (run e (opening m git images secrets) es) i k none (n + 1) := by
      obtain ⟨b, hb, hs⟩ := looked
      exact ⟨b, by omega, hs⟩
    intro n i t ht
    cases t with
    | looking missed => exact fun before => later (ht before)
    | found missed s =>
      obtain ⟨b, hb, hs⟩ := ht
      exact ⟨b, by omega, hs⟩
    | absent => exact later ht
  have came : ∃ t, (Routine.done a).Follows (reader k found absent) t ∧ H n i t := by
    refine run_follows hq (H := H) (fun _ _ _ => nofun) keep ?_ n h
    intro n i p t u hev _ _ ht hs
    generalize (run e (opening m git images secrets) es (n + 1)).depot = d' at hs
    cases hs with
    | miss h => exact fun _ => ⟨n, by omega, hev, h⟩
    | found h => exact ⟨n, by omega, ⟨hev, ht⟩, h⟩
    | absent h => exact ⟨n, by omega, hev, h⟩
    | search => exact keep n i .absent ht
  obtain ⟨t, hf, ht⟩ := came
  cases t with
  | looking missed => exact hf.elim
  | found missed s =>
    obtain ⟨b, hb, ⟨hi, before⟩, hs⟩ := ht
    refine ⟨b, hb, hi, ?_⟩
    rw [hs]
    exact ⟨missed, hf, before⟩
  | absent =>
    obtain ⟨b, hb, hi, hs⟩ := ht
    refine ⟨b, hb, hi, ?_⟩
    rw [hs]
    exact hf

end Traffic

end PackageDepot
