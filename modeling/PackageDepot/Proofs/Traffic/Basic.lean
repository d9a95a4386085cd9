import PackageDepot.Proofs.Routine.Protocol
import PackageDepot.Proofs.Store.Lookup
import PackageDepot.Service.Basic

/-!
# Traffic: calls of many clients at one depot

A `Traffic` is a depot with the calls that were begun on it, each at the point where it stands. An
`Event` begins a call, lets one make its next atomic step, drops one, lets time pass or changes the
places outside; nothing is said about who goes first. `Traffic.run` carries out a sequence of events on
a new depot, so a statement about all sequences is one about all interleavings of all calls.

`Traffic.Holds` says who holds the lease of a key: the call that would give it back if it were dropped.
`Traffic.Settles` is the step by which an answer becomes certain, `Traffic.Commits` the one by which a snapshot
is committed, and `Effect` says what a step does to the revision under a key.
-/

namespace PackageDepot

open Package Backend

instance : Inhabited Depot := ⟨{}⟩

/-- What a client asks of a depot. -/
inductive Request
  | register (r : Repository)
  | unregister (name : String)
  | repository (name : String)
  | repositories
  | create (r : Revision) (c : Context)
  | update (r : Revision) (c : Context)
  | delete (k : Key) (c : Context)
  | get (k : Key) (c : Context)
  | spec (k : Key)
  | list (f : Filter) (c : Context)
  | functions (c : Context)

/-- What is answered. -/
inductive Reply
  | done
  | repository (r : Repository)
  | repositories (rs : List Repository)
  | files (f : RevisionFiles)
  | view (v : RevisionView)
  | spec (r : Revision)
  | listing (entries : List Summary)
  | functions (fs : List Function)

/-- A reply or an error. -/
abbrev Answer := Except Error Reply

namespace Request

/-- The call that answers a request. -/
def call (e : Engine) : Request → Call Reply
  | .register r => do Service.register r; return .done
  | .unregister name => do Service.unregister name; return .done
  | .repository name => return .repository (← Service.repository name)
  | .repositories => return .repositories (← Service.repositories)
  | .create r c => return .files (← Service.create e r c)
  | .update r c => return .files (← Service.update e r c)
  | .delete k c => do Service.delete e k c; return .done
  | .get k c => return .view (← Service.get e k c)
  | .spec k => return .spec (← Service.spec k)
  | .list f c => return .listing (← Service.list e f c)
  | .functions c => return .functions (← Service.functions c)

/-- The call before its first step. -/
def begin (e : Engine) (q : Request) : Routine Depot Answer := (q.call e).run

/-- The revision that a request writes, with its intent and its context. -/
def write? : Request → Option (Intent × Revision × Context)
  | .create r c => some (.create, r, c)
  | .update r c => some (.replace, r, c)
  | _ => none

/-- The key whose lease a request takes. -/
def key? : Request → Option Key
  | .create r _ | .update r _ => some r.key
  | .delete k _ => some k
  | _ => none

/-- The request changes nothing. -/
def isReadOnly : Request → Bool
  | .repository _ | .repositories | .get .. | .spec _ | .list .. | .functions _ => true
  | _ => false

end Request

/-- A depot in use: the calls that were begun, each with what is left of it, or nothing if it was
dropped. -/
structure Traffic where
  moment : Moment
  depot : Depot
  calls : List (Request × Option (Routine Depot Answer))

/-- What may happen next. -/
inductive Event
  | start (q : Request)
  | move (i : Nat)
  | drop (i : Nat)
  /-- Time passes, and scopes are cancelled. -/
  | pass (time : Nat) (scopes : List Scope)
  /-- Others change the places that hold packages, images and secrets. -/
  | outside (git : GitHost) (images : ImageHost) (secrets : Dict Credential)

namespace Traffic

/-- A new depot with these places outside. -/
def opening (m : Moment) (git : GitHost) (images : ImageHost) (secrets : Dict Credential) : Traffic :=
  ⟨m, { git, images, secrets }, []⟩

/-- Carry out an event. -/
def next (e : Engine) (x : Traffic) : Event → Traffic
  | .start q => { x with calls := x.calls ++ [(q, some (q.begin e))] }
  | .move i =>
    match x.calls[i]? with
    | some (q, some p) =>
      let after := p.move x.moment x.depot
      { x with depot := after.2, calls := x.calls.set i (q, some after.1) }
    | _ => x
  | .drop i =>
    match x.calls[i]? with
    | some (q, some p) =>
      if p.isDone then x
      else { x with depot := p.abandon x.depot, calls := x.calls.set i (q, none) }
    | _ => x
  | .pass time scopes => { x with moment := ⟨x.moment.now + time, x.moment.cancelled ++ scopes⟩ }
  | .outside git images secrets => { x with depot := { x.depot with git, images, secrets } }

/-- Carry out a sequence of events. -/
def run (e : Engine) (x : Traffic) (es : Nat → Event) : Nat → Traffic
  | 0 => x
  | n + 1 => (run e x es n).next e (es n)

/-- A call that was begun, and was not dropped, stands at `p`. -/
def At (x : Traffic) (i : Nat) (q : Request) (p : Routine Depot Answer) : Prop :=
  x.calls[i]? = some (q, some p)

/-- A call was begun for this request. -/
def Asked (x : Traffic) (i : Nat) (q : Request) : Prop := ∃ p, x.calls[i]? = some (q, p)

/-- A call holds the lease of a key: dropped where it stands, it gives it back. -/
def Holds (x : Traffic) (i : Nat) (k : Key) : Prop :=
  ∃ q p, x.At i q p ∧ p.abandon = Call.released k

/-- A call has ended with an answer. -/
def Answered (x : Traffic) (i : Nat) (a : Answer) : Prop := ∃ q, x.At i q (.done a)

/-- The next step of a call makes its answer certain. -/
def Settles (x : Traffic) (i : Nat) (q : Request) (a : Answer) : Prop :=
  ∃ p, x.At i q p ∧ (∀ b, ¬ p.Decided b) ∧ (p.move x.moment x.depot).1.Decided a

/-- The next step of a call is its last one. -/
def Ends (x : Traffic) (i : Nat) (q : Request) (a : Answer) : Prop :=
  ∃ p, x.At i q p ∧ p.isDone = false ∧ (p.move x.moment x.depot).1 = .done a

/-- The next step of a call commits a snapshot as a revision. -/
def Commits (x : Traffic) (i : Nat) (intent : Intent) (r : Revision) (s : Snapshot) : Prop :=
  ∃ q p b store, x.At i q p ∧ x.depot.store.commit ⟨r.key, intent⟩ r s x.moment.now = .ok (b, store) ∧
    (p.move x.moment x.depot).2 = { x.depot with store }

/-- What the store has under a key: a request, files and a manifest. -/
def content (x : Traffic) (k : Key) : Option Substance := (x.depot.store.get? k).map Stored.substance

/-- An event takes effect on a key and leaves this content there: a write whose success it makes
certain, which commits the files that are answered with a manifest, a deletion, or the purge at the end of
taking a repository out. -/
inductive Effect (x : Traffic) : Event → Key → Option Substance → Prop
  | create {i : Nat} {r : Revision} {c : Context} {f : RevisionFiles} {kptfile : Kptfile}
    (h : x.Settles i (.create r c) (.ok (.files f))) (commits : x.Commits i .create r ⟨f.files, kptfile⟩) :
    Effect x (.move i) r.key (some ⟨r, f.files, kptfile⟩)
  | update {i : Nat} {r : Revision} {c : Context} {f : RevisionFiles} {kptfile : Kptfile}
    (h : x.Settles i (.update r c) (.ok (.files f))) (commits : x.Commits i .replace r ⟨f.files, kptfile⟩) :
    Effect x (.move i) r.key (some ⟨r, f.files, kptfile⟩)
  | delete {i : Nat} {k : Key} {c : Context} (h : x.Settles i (.delete k c) (.ok .done)) :
    Effect x (.move i) k none
  | purge {i : Nat} {n : String} {k : Key} (h : x.Ends i (.unregister n) (.ok .done))
    (hk : k.repository = n) : Effect x (.move i) k none

variable {e : Engine} {x : Traffic} {i : Nat} {q : Request} {p : Routine Depot Answer}

theorem At.unique {r : Request} {p' : Routine Depot Answer} (h : x.At i q p) (h' : x.At i r p') :
    q = r ∧ p = p' := by
  have hs := Option.some.inj (h.symm.trans h')
  exact ⟨congrArg Prod.fst hs, Option.some.inj (congrArg Prod.snd hs)⟩

theorem Settles.request {r : Request} {a : Answer} (h : x.Settles i r a) (hp : x.At i q p) :
    r = q := by
  obtain ⟨p', hp', -⟩ := h
  exact (hp'.unique hp).1

theorem Ends.request {r : Request} {a : Answer} (h : x.Ends i r a) (hp : x.At i q p) : r = q := by
  obtain ⟨p', hp', -⟩ := h
  exact (hp'.unique hp).1

theorem At.asked (h : x.At i q p) : x.Asked i q := ⟨some p, h⟩

theorem Asked.unique {r : Request} (h : x.Asked i q) (h' : x.Asked i r) : q = r := by
  obtain ⟨p, hp⟩ := h
  obtain ⟨p', hp'⟩ := h'
  exact congrArg Prod.fst (Option.some.inj (hp.symm.trans hp'))

/-- A call is never made another one. -/
theorem Asked.next (h : x.Asked i q) (e : Engine) (ev : Event) : (x.next e ev).Asked i q := by
  obtain ⟨p, hp⟩ := h
  have hlt : i < x.calls.length := (List.getElem?_eq_some_iff.1 hp).1
  have replaced : ∀ j r p', x.calls[j]? = some (r, some p') → ∀ p'',
      ∃ o, (x.calls.set j (r, p''))[i]? = some (q, o) := by
    intro j r p' hj p''
    by_cases hij : j = i
    · subst hij
      obtain ⟨rfl, -⟩ := Prod.mk.inj (Option.some.inj (hp.symm.trans hj))
      exact ⟨p'', by simp [hlt]⟩
    · exact ⟨p, by rw [List.getElem?_set_ne hij, hp]⟩
  cases ev with
  | start r => exact ⟨p, by rw [Traffic.next, List.getElem?_append_left hlt, hp]⟩
  | move j =>
    rw [Traffic.next]
    split
    · next r p' hj => exact replaced j r p' hj _
    · exact ⟨p, hp⟩
  | drop j =>
    rw [Traffic.next]
    split
    · next r p' hj =>
      split
      · exact ⟨p, hp⟩
      · exact replaced j r p' hj none
    · exact ⟨p, hp⟩
  | pass time scopes => exact ⟨p, hp⟩
  | outside git images secrets => exact ⟨p, hp⟩

theorem Asked.run {es : Nat → Event} {a b : Nat} (hab : a ≤ b) (h : (run e x es a).Asked i q) :
    (run e x es b).Asked i q := by
  induction hab with
  | refl => exact h
  | step _ ih => exact ih.next e _

theorem next_move (h : x.At i q p) :
    x.next e (.move i) = { x with
      depot := (p.move x.moment x.depot).2
      calls := x.calls.set i (q, some (p.move x.moment x.depot).1) } := by
  simp only [next, show x.calls[i]? = _ from h]

/-- What is committed is what the key has then. -/
theorem Commits.content {intent : Intent} {r : Revision} {s : Snapshot} (h : x.Commits i intent r s)
    (e : Engine) : (x.next e (.move i)).content r.key = some ⟨r, s.files, s.kptfile⟩ := by
  obtain ⟨q, p, b, store, stands, committed, after⟩ := h
  have hc := Store.commit_ok committed
  rw [Traffic.content, next_move stands, after]
  dsimp only
  rw [hc.get?_eq, if_pos rfl, Option.map_some, hc.substance_eq]

theorem At.moved (h : x.At i q p) (e : Engine) :
    (x.next e (.move i)).At i q (p.move x.moment x.depot).1 := by
  have hlt : i < x.calls.length := (List.getElem?_eq_some_iff.1 h).1
  rw [next_move h]
  simp [At, hlt]

/-- A call that is begun stands at its first step. -/
theorem at_start (e : Engine) (x : Traffic) (q : Request) :
    (x.next e (.start q)).At x.calls.length q (q.begin e) := by
  simp [At, next]

theorem next_drop (h : x.At i q p) (going : p.isDone = false) :
    x.next e (.drop i) =
      { x with depot := p.abandon x.depot, calls := x.calls.set i (q, none) } := by
  simp [next, show x.calls[i]? = _ from h, going]

/-- The calls after one of them was replaced. -/
theorem at_set {x y : Traffic} {j : Nat} {c : Request × Option (Routine Depot Answer)}
    (h : y.calls = x.calls.set j c) (hij : i ≠ j) : y.At i q p ↔ x.At i q p := by
  rw [At, h, List.getElem?_set_ne (Ne.symm hij), At]

/-- **What an event does**: it begins a call, lets one move, drops one, or leaves all calls, the
registry and the store as they are. -/
inductive Change (e : Engine) (x : Traffic) : Event → Traffic → Prop
  | start {y : Traffic} (q : Request) (depot : y.depot = x.depot)
    (calls : ∀ i r p, y.At i r p → x.At i r p ∨ i = x.calls.length ∧ r = q ∧ p = q.begin e)
    (kept : ∀ i r p, x.At i r p → y.At i r p) : Change e x (.start q) y
  | move {y : Traffic} (i : Nat) (q : Request) (p : Routine Depot Answer) (stands : x.At i q p)
    (depot : y.depot = (p.move x.moment x.depot).2)
    (moved : y.At i q (p.move x.moment x.depot).1)
    (others : ∀ j r p', j ≠ i → (y.At j r p' ↔ x.At j r p')) : Change e x (.move i) y
  | drop {y : Traffic} (i : Nat) (q : Request) (p : Routine Depot Answer) (stands : x.At i q p)
    (going : p.isDone = false) (depot : y.depot = p.abandon x.depot)
    (dropped : ∀ r p', ¬ y.At i r p')
    (others : ∀ j r p', j ≠ i → (y.At j r p' ↔ x.At j r p')) : Change e x (.drop i) y
  | other {y : Traffic} (ev : Event) (registry : y.depot.registry = x.depot.registry)
    (store : y.depot.store = x.depot.store) (calls : y.calls = x.calls) : Change e x ev y

theorem next_change (e : Engine) (x : Traffic) (ev : Event) : Change e x ev (x.next e ev) := by
  cases ev with
  | start q =>
    refine .start q rfl (fun i r p h => ?_) fun i r p h => ?_
    · simp only [At, next] at h
      rw [List.getElem?_append] at h
      split at h
      · exact .inl h
      · next hlt =>
        obtain ⟨hi, hs⟩ := List.getElem?_eq_some_iff.1 h
        have hz : i - x.calls.length = 0 := by simpa using hi
        simp only [hz, List.getElem_cons_zero, Prod.mk.injEq, Option.some.injEq] at hs
        exact .inr ⟨by omega, hs.1.symm, hs.2.symm⟩
    · have hlt : i < x.calls.length := (List.getElem?_eq_some_iff.1 h).1
      rw [At, next, List.getElem?_append_left hlt]
      exact h
  | move i =>
    cases hc : x.calls[i]? with
    | none => exact .other _ (by simp [next, hc]) (by simp [next, hc]) (by simp [next, hc])
    | some c =>
      obtain ⟨q, _ | p⟩ := c
      · exact .other _ (by simp [next, hc]) (by simp [next, hc]) (by simp [next, hc])
      · have hlt : i < x.calls.length := (List.getElem?_eq_some_iff.1 hc).1
        rw [next_move hc]
        exact .move i q p hc rfl (by simp [At, hlt]) fun j r p' hj => at_set rfl hj
  | drop i =>
    cases hc : x.calls[i]? with
    | none => exact .other _ (by simp [next, hc]) (by simp [next, hc]) (by simp [next, hc])
    | some c =>
      obtain ⟨q, _ | p⟩ := c
      · exact .other _ (by simp [next, hc]) (by simp [next, hc]) (by simp [next, hc])
      · cases hd : p.isDone with
        | true =>
          exact .other _ (by simp [next, hc, hd]) (by simp [next, hc, hd]) (by simp [next, hc, hd])
        | false =>
          have hlt : i < x.calls.length := (List.getElem?_eq_some_iff.1 hc).1
          rw [next_drop hc hd]
          exact .drop i q p hc hd rfl (fun r p' => by simp [At, hlt]) fun j r p' hj => at_set rfl hj
  | pass time scopes => exact .other _ rfl rfl rfl
  | outside git images secrets => exact .other _ rfl rfl rfl

end Traffic

end PackageDepot
