import PackageDepot.Proofs.Service.Reading
import PackageDepot.Proofs.Traffic.Registration

/-!
# Writes are all or nothing

Every depot that traffic can lead to is tidy (`run_tidy`). `AllOrNothing` is about a write that runs
alone on a depot: one that fails leaves the depot as it was, whatever stage it failed at, and what one
that is answered has stored is what all readers agree on afterwards (`Written`). `write_all_or_nothing`
is the statement for every depot that traffic can lead to.
-/

namespace PackageDepot

open Package Call Backend

/-- A write of the revision `r` that was answered with the files `f`, from the depot `d` to the depot
`d'`, where `b` is stored. -/
structure Written (e : Engine) (r : Revision) (intent : Intent) (f : RevisionFiles) (b : Stored)
    (d d' : Depot) : Prop where
  /-- Nothing but the store was changed. -/
  rest : d' = { d with store := d'.store }
  /-- The same leases are taken as before. -/
  leases : d'.store.inFlight = d.store.inFlight
  stored : d'.store.get? r.key = some b
  request : b.spec = r
  answer : f = .ofKey r.key b.files
  /-- The other revisions are the same, in the same order. -/
  others : d'.store.revisions.filter (fun o => o.key ≠ r.key) =
    d.store.revisions.filter fun o => o.key ≠ r.key
  /-- A new key comes behind the others, and a key that was there keeps its place. -/
  places : d'.store.revisions.map Stored.key = if intent = .create
    then d.store.revisions.map Stored.key ++ [r.key] else d.store.revisions.map Stored.key
  /-- The revision is read with the files of the answer. -/
  get : ∀ M c a t, Routine.Alone M (Service.get e r.key c).run d' a t ↔
    (∃ m, M m) ∧ a = .ok ⟨f, some b.kptfile⟩ ∧ t = d'
  /-- The request is read as it was given. -/
  spec : ∀ M a t, Routine.Alone M (Service.spec r.key).run d' a t ↔
    (∃ m, M m) ∧ a = .ok r ∧ t = d'
  /-- A listing of everything shows the key once, unless it is interrupted. -/
  list : ∀ M c a t, Routine.Alone M (Service.list e {} c).run d' a t → t = d' ∧
    ((∃ entries, a = .ok entries ∧
      entries.filter (fun s => s.key = r.key) = [⟨r.key, .created, b.kptfile.lock⟩]) ∨
      ∃ err, a = .error err ∧ c.Interrupts M err)
  /-- And a listing does come to an end. -/
  listed : ∀ M c, (∃ m, M m) → ∃ a, Routine.Alone M (Service.list e {} c).run d' a d'

/-- A write changes nothing, or it changes what it says and reads back. -/
structure AllOrNothing (e : Engine) (r : Revision) (intent : Intent) (c : Context) (d : Depot) :
    Prop where
  failed : ∀ M err d', Routine.Alone M (Service.write e r intent c).run d (.error err) d' → d' = d
  written : ∀ M f d', Routine.Alone M (Service.write e r intent c).run d (.ok f) d' →
    ∃ b, Written e r intent f b d d'

/-- A commit keeps a depot tidy. -/
theorem Store.Committed.tidy {l : Lease} {spec : Revision} {snapshot : Snapshot} {d : Depot}
    {b : Stored} {store : Store} (h : Store.Committed l spec snapshot d.store b store)
    (tidy : d.Tidy) : Depot.Tidy { d with store } where
  keys := h.nodup tidy.keys
  named := tidy.named

/-- Fewer revisions are still tidy. -/
theorem Depot.Tidy.sublist {d d' : Depot} (tidy : d.Tidy) (registry : d'.registry = d.registry)
    (fewer : d'.store.revisions.Sublist d.store.revisions) : d'.Tidy where
  keys := (fewer.map Stored.key).nodup tidy.keys
  named := by
    rw [registry]
    exact tidy.named

/-- Only the repositories and the revisions matter. -/
theorem Depot.Tidy.congr {d d' : Depot} (tidy : d.Tidy) (registry : d'.registry = d.registry)
    (revisions : d'.store.revisions = d.store.revisions) : d'.Tidy where
  keys := by
    rw [revisions]
    exact tidy.keys
  named := by
    rw [registry]
    exact tidy.named

/-- **Tidiness is kept** by every step of a call. -/
theorem Advance.tidy {e : Engine} {q : Request} {t u : Phase} {m : Moment} {d d' : Depot}
    (h : Advance e q t m d d' u) (tidy : d.Tidy) : d'.Tidy := by
  cases h with
  | quiet | approve | acquire | conflict | finish | fail | miss =>
    exact tidy.congr rfl rfl
  | register _ h =>
    refine ⟨tidy.keys, fun n g found => ?_⟩
    obtain before | ⟨rfl, rfl⟩ := Registry.get?_of_register h found
    · exact tidy.named n g before
    · rfl
  | remove _ h =>
    exact ⟨tidy.keys, fun n g found => tidy.named n g (Registry.get?_of_unregister h found)⟩
  | purge => exact tidy.sublist rfl List.filter_sublist
  | commit _ h => exact (Store.commit_ok h).tidy tidy
  | erase => exact tidy.sublist rfl List.filter_sublist

/-- A write that runs alone on a tidy depot is all or nothing. -/
theorem allOrNothing_of_tidy (e : Engine) (r : Revision) (intent : Intent) (c : Context) {d : Depot}
    (tidy : d.Tidy) : AllOrNothing e r intent c d := by
  constructor
  · intro M err d' h
    obtain ⟨err', -, same⟩ | ⟨g, snapshot, b, store, -, -, -, ha, -⟩ := Service.alone_write e h
    · exact same
    · cases ha
  · intro M f d' h
    obtain ⟨err, ha, -⟩ | ⟨g, snapshot, b, store, found, -, committed, ha, rfl⟩ :=
      Service.alone_write e h
    · cases ha
    cases ha
    have stored : store.get? r.key = some b := by
      rw [committed.get?_eq]
      exact if_pos rfl
    have after := committed.tidy tidy
    have summary : b.summary = ⟨r.key, .created, b.kptfile.lock⟩ := by
      rw [Stored.summary, committed.key_eq]
    refine ⟨b, ?_⟩
    exact {
      rest := rfl
      leases := committed.inFlight_eq
      stored := stored
      request := committed.spec_eq
      answer := rfl
      others := committed.others
      places := committed.places
      get := fun M c a t => Service.alone_get_iff stored
      spec := fun M a t => by
        apply (Service.alone_spec_iff stored).trans
        rw [committed.spec_eq]
      list := fun M c a t h => by
        rw [← summary]
        exact Index.alone_list after stored found h
      listed := fun M c hM => by
        obtain ⟨a, t, h⟩ := Routine.exists_alone hM (Service.list e {} c).run { d with store }
        obtain ⟨rfl, -⟩ := Index.alone_list after stored found h
        exact ⟨a, h⟩ }

namespace Traffic

variable {e : Engine} {x y : Traffic} {ev : Event}

/-- What one event does to an invariant of repositories and revisions that each step of a call keeps. -/
theorem Change.invariant {I : Depot → Prop} (hc : Change e x ev y) (orderly : x.Orderly e)
    (advance : ∀ q t m d d' u, Advance e q t m d d' u → I d → I d')
    (congr : ∀ d d' : Depot, d'.registry = d.registry →
      d'.store.revisions = d.store.revisions → I d → I d') (h : I x.depot) : I y.depot := by
  cases hc with
  | start q depot calls kept =>
    rw [depot]
    exact h
  | move i q p stands depot moved others =>
    rw [depot]
    obtain ⟨t, hf⟩ := orderly i q p stands
    obtain stay | ⟨-, u, hs, -⟩ := hf.move x.moment x.depot
    · rw [stay]
      exact h
    · exact advance _ _ _ _ _ _ hs h
  | drop i q p stands going depot dropped others =>
    obtain ⟨t, hf⟩ := orderly i q p stands
    obtain ⟨registry, revisions⟩ := Request.release_kept e q t x.depot
    rw [depot, hf.abandon going]
    exact congr _ _ registry revisions h
  | other ev registry store calls =>
    exact congr _ _ registry (congrArg Store.revisions store) h

/-- **The run lemma of such invariants.** -/
theorem run_invariant {I : Depot → Prop} {m : Moment} {git : GitHost} {images : ImageHost}
    {secrets : Dict Credential} {es : Nat → Event}
    (advance : ∀ q t m d d' u, Advance e q t m d d' u → I d → I d')
    (congr : ∀ d d' : Depot, d'.registry = d.registry →
      d'.store.revisions = d.store.revisions → I d → I d')
    (opens : I (opening m git images secrets).depot) (n : Nat) :
    I (run e (opening m git images secrets) es n).depot := by
  induction n with
  | zero => exact opens
  | succ n ih => exact (run_change e _ es n).invariant (run_orderly n) advance congr ih

/-- Every depot that traffic leads to is tidy. -/
theorem run_tidy (e : Engine) (m : Moment) (git : GitHost) (images : ImageHost)
    (secrets : Dict Credential) (es : Nat → Event) (n : Nat) :
    (run e (opening m git images secrets) es n).depot.Tidy :=
  run_invariant (fun _ _ _ _ _ _ h => h.tidy) (fun _ _ registry revisions h =>
    h.congr registry revisions) ⟨List.nodup_nil, nofun⟩ n

/-- **Writes are all or nothing**, whatever was done to the depot before, and by whomever. -/
theorem write_all_or_nothing (e : Engine) (m : Moment) (git : GitHost) (images : ImageHost)
    (secrets : Dict Credential) (es : Nat → Event) (n : Nat) (r : Revision) (intent : Intent)
    (c : Context) :
    AllOrNothing e r intent c (run e (opening m git images secrets) es n).depot :=
  allOrNothing_of_tidy e r intent c (run_tidy e m git images secrets es n)

end Traffic

end PackageDepot
