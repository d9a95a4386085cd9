import PackageDepot.Proofs.Store.Ledger
import PackageDepot.Proofs.Traffic.Deletions

/-!
# Calls to the store, one after another

An `Op` is a call to the store. `Ledger.step` says what it does to an association list, and `Op.done` that it
does the same to what the store means (`Store.ledger`), at the moment at which it commits. `Op.runAll_done`
carries this along a sequence of calls, of any length, in which leases may be kept from one call to another.
-/

namespace PackageDepot

open Package Call

/-- A call to the store. A lease that is reserved is kept until it is committed or released. -/
inductive Op
  | put (spec : Revision) (snapshot : Snapshot)
  | write (lease : Lease) (spec : Revision) (snapshot : Snapshot)
  | reserve (lease : Lease)
  | commit (lease : Lease) (spec : Revision) (snapshot : Snapshot)
  | release (k : Key)
  | delete (k : Key)
  | deleteIfExists (k : Key)
  | purge (repository : String)

/-- What a call to the store answers. -/
inductive Receipt
  | entry (e : Entry)
  | done
  | there (b : Bool)
  | count (n : Nat)

/-- The call that is made. -/
def Op.call : Op → Call Receipt
  | .put spec snapshot => do return .entry (← Service.put spec snapshot).entry
  | .write lease spec snapshot => do
    Service.reserve lease
    return .entry (← Service.commitKept lease spec snapshot).entry
  | .reserve lease => do
    Service.reserve lease
    return .done
  | .commit lease spec snapshot => do return .entry (← Service.commitKept lease spec snapshot).entry
  | .release k => do
    Call.release k
    return .done
  | .delete k => do
    Service.deleteCreated k
    return .done
  | .deleteIfExists k => do return .there (← Service.deleteIfExists k)
  | .purge repository => do return .count (← Service.purge repository)

/-! ## What a call does to an association list -/

namespace Ledger

/-- Commit, and give the lease back in any case. -/
def use (now : Time) (l : Ledger) (lease : Lease) (spec : Revision) (snapshot : Snapshot) :
    Except Error Receipt × Ledger :=
  match l.commit lease spec snapshot now with
  | .ok (e, l') => (.ok (.entry e), l'.release lease.key)
  | .error err => (.error err, l.release lease.key)

/-- Take a lease and commit with it. -/
def write (now : Time) (l : Ledger) (lease : Lease) (spec : Revision) (snapshot : Snapshot) :
    Except Error Receipt × Ledger :=
  match l.reserve lease with
  | .ok l' => l'.use now lease spec snapshot
  | .error err => (.error err, l)

/-- What a call answers, and what becomes of the list. -/
def step (now : Time) (l : Ledger) : Op → Except Error Receipt × Ledger
  | .put spec snapshot => l.write now ⟨spec.key, .create⟩ spec snapshot
  | .write lease spec snapshot => l.write now lease spec snapshot
  | .reserve lease =>
    match l.reserve lease with
    | .ok l' => (.ok .done, l')
    | .error err => (.error err, l)
  | .commit lease spec snapshot => l.use now lease spec snapshot
  | .release k => (.ok .done, l.release k)
  | .delete k =>
    if k ∈ l.leased then (.error (.conflict k), l)
    else if (l.get? k).isSome then (.ok .done, l.erase k)
    else (.error (.notFound (.revision k)), l)
  | .deleteIfExists k =>
    if k ∈ l.leased then (.error (.conflict k), l) else (.ok (.there (l.get? k).isSome), l.erase k)
  | .purge repository => (.ok (.count (l.ofRepository repository).length), l.purge repository)

/-- Calls one after another, each at its time. -/
def run (l : Ledger) : List (Time × Op) → List (Except Error Receipt) × Ledger
  | [] => ([], l)
  | (now, op) :: rest =>
    let (answer, l) := l.step now op
    let (answers, l) := l.run rest
    (answer :: answers, l)

variable {l : Ledger} {now : Time}

theorem reserve_entries {lease : Lease} {l' : Ledger} (h : l.reserve lease = .ok l') :
    l'.entries = l.entries := by
  unfold reserve at h
  split at h
  · cases h
  split at h
  · cases h
  · cases h
  · cases h
    rfl

theorem use_error {lease : Lease} {spec : Revision} {snapshot : Snapshot} {err : Error}
    (h : (l.use now lease spec snapshot).1 = .error err) :
    (l.use now lease spec snapshot).2.entries = l.entries := by
  unfold use at h ⊢
  split at h
  · cases h
  · rfl

theorem write_error {lease : Lease} {spec : Revision} {snapshot : Snapshot} {err : Error}
    (h : (l.write now lease spec snapshot).1 = .error err) :
    (l.write now lease spec snapshot).2.entries = l.entries := by
  unfold write at h ⊢
  cases reserved : l.reserve lease with
  | ok l' =>
    rw [reserved] at h
    exact (use_error h).trans (reserve_entries reserved)
  | error err => rfl

/-- **A call that fails changes nothing.** -/
theorem step_error {op : Op} {err : Error} (h : (l.step now op).1 = .error err) :
    (l.step now op).2.entries = l.entries := by
  cases op with
  | put spec snapshot => exact write_error h
  | write lease spec snapshot => exact write_error h
  | reserve lease =>
    rw [step] at h ⊢
    split at h
    · cases h
    · rfl
  | commit lease spec snapshot => exact use_error h
  | release k => cases h
  | delete k =>
    rw [step] at h ⊢
    by_cases busy : k ∈ l.leased
    · rw [if_pos busy]
    · by_cases there : (l.get? k).isSome = true
      · rw [if_neg busy, if_pos there] at h
        cases h
      · rw [if_neg busy, if_neg there]
  | deleteIfExists k =>
    rw [step] at h ⊢
    by_cases busy : k ∈ l.leased
    · rw [if_pos busy]
    · rw [if_neg busy] at h
      cases h
  | purge repository => cases h

end Ledger

/-! ## What a call does to the store -/

variable {M : Moment → Prop} {d : Depot}

theorem Store.mem_leased {s : Store} {k : Key} : k ∈ s.ledger.leased ↔ s.isBusy k = true :=
  List.contains_iff_mem.symm

theorem Store.ledger_reserve (s : Store) (l : Lease) : s.ledger.reserve l =
    if s.isBusy l.key = true then .error (.conflict l.key)
    else (s.permit l).map fun _ => (s.acquire l.key).ledger := by
  unfold Ledger.reserve permit
  rw [ledger_get?]
  simp only [mem_leased]
  split
  · rfl
  · cases l.intent with
    | create =>
      cases s.get? l.key with
      | none => rfl
      | some b => rfl
    | replace =>
      cases s.get? l.key with
      | none => rfl
      | some b => rfl

/-- What was done to the store means what `f` does to a ledger at some moment, and nothing else changed. -/
structure Done (M : Moment → Prop) (f : Time → Ledger → Except Error Receipt × Ledger) (d : Depot)
    (a : Except Error Receipt) (t : Depot) : Prop where
  step : ∃ m, M m ∧ (a, t.store.ledger) = f m.now d.store.ledger
  ordered : t.store.Ordered
  rest : t = { d with store := t.store }

namespace Call

variable {α β : Type} {Q : Except Error α → Depot → Prop}

theorem Promptly.map {x : Call α} {f : α → β} {R : Except Error β → Depot → Prop} (hx : Promptly M Q x d)
    (h : ∀ a t, Q a t → R (a.map f) t) : Promptly M R (do return f (← x)) d :=
  hx.bind (fun a t ha => h (.ok a) t ha) fun err t ha => h (.error err) t ha

/-- A lease is kept if what is asked under it succeeds. -/
theorem promptly_keepLease {k : Key} {x : Call Unit} {Q : Except Error Unit → Depot → Prop}
    (busy : d.store.isBusy k = true → Q (.error (.conflict k)) d)
    (free : d.store.isBusy k = false → Promptly M (fun a t =>
      match a with
      | .ok _ => Q a t
      | .error _ => Q a (released k t)) x { d with store := d.store.acquire k }) :
    Promptly M Q (keepLease k x) d := by
  intro m _
  dsimp only
  cases hb : d.store.isBusy k with
  | true => exact busy hb
  | false =>
    simp only [Bool.false_eq_true, if_false]
    refine Promptly.attempt_bind (x := ExceptT.mk (x.run.guarded (released k))) (free hb).guarded ?_
    intro a t ha
    cases a with
    | ok u => exact ha
    | error err => exact fun _ _ => ha

end Call

/-! ### One service after another -/

namespace Service

/-- A lease is taken as the ledger has it. -/
theorem reserve_promptly (l : Lease) : Promptly M (fun a t =>
    (∃ err, d.store.ledger.reserve l = .error err ∧ a = .error err ∧ t = d) ∨
      d.store.ledger.reserve l = .ok t.store.ledger ∧ a = .ok () ∧
        t = { d with store := d.store.acquire l.key }) (reserve l) d := by
  rw [Store.ledger_reserve]
  refine promptly_keepLease (fun busy => ?_) fun free m _ => ?_
  · rw [if_pos busy]
    exact .inl ⟨_, rfl, rfl, rfl⟩
  · rw [if_neg (by rw [free]; nofun)]
    have permit : (d.store.acquire l.key).permit l = d.store.permit l := rfl
    have back : released l.key { d with store := d.store.acquire l.key } = d := by
      rw [released, Store.release_acquire free]
    dsimp only
    rw [permit]
    cases permitted : d.store.permit l with
    | ok u => exact .inr ⟨rfl, rfl, rfl⟩
    | error err => exact .inl ⟨err, rfl, rfl, back⟩

/-- **A commit does what it does to the ledger**, seen from behind the release of its lease. -/
theorem commit_promptly (h : d.store.Ordered) (l : Lease) (spec : Revision) (snapshot : Snapshot) :
    Promptly M (fun a t => Done M (fun now ledger => ledger.use now l spec snapshot) d
      (a.map fun b => .entry b.entry) (released l.key t)) (commit l spec snapshot) d := by
  intro m hm
  have means := d.store.ledger_commit l spec snapshot m.now
  dsimp only
  cases done : d.store.commit l spec snapshot m.now with
  | error err =>
    rw [done] at means
    refine ⟨⟨m, hm, ?_⟩, h.leased _, rfl⟩
    rw [Ledger.use, means]
    rfl
  | ok p =>
    obtain ⟨b, s⟩ := p
    rw [done] at means
    refine ⟨⟨m, hm, ?_⟩, (h.commit done).leased _, rfl⟩
    rw [Ledger.use, means]
    rfl

theorem commitKept_promptly (h : d.store.Ordered) (l : Lease) (spec : Revision) (snapshot : Snapshot) :
    Promptly M (fun a t => Done M (fun now ledger => ledger.use now l spec snapshot) d
      (a.map fun b => .entry b.entry) t) (commitKept l spec snapshot) d :=
  Routine.Promptly.holding (commit_promptly h l spec snapshot)

end Service

/-- What is done with a lease that was taken is what a write does. -/
theorem Done.write {l : Lease} {spec : Revision} {snapshot : Snapshot} {a : Except Error Receipt} {t u : Depot}
    (used : Done M (fun now ledger => ledger.use now l spec snapshot) u a t)
    (reserved : d.store.ledger.reserve l = .ok u.store.ledger) (rest : u = { d with store := u.store }) :
    Done M (fun now ledger => ledger.write now l spec snapshot) d a t where
  step := by
    obtain ⟨m, hm, step⟩ := used.step
    refine ⟨m, hm, step.trans ?_⟩
    rw [Ledger.write, reserved]
  ordered := used.ordered
  rest := by rw [used.rest, rest]

/-- A write whose lease is refused leaves everything as it is. -/
theorem Done.refused {m : Moment} (hm : M m) (h : d.store.Ordered) {l : Lease} {spec : Revision}
    {snapshot : Snapshot} {err : Error} (reserved : d.store.ledger.reserve l = .error err) :
    Done M (fun now ledger => ledger.write now l spec snapshot) d (.error err) d where
  step := by
    refine ⟨m, hm, ?_⟩
    rw [Ledger.write, reserved]
  ordered := h
  rest := rfl

namespace Service

theorem put_promptly {m : Moment} (hm : M m) (h : d.store.Ordered) (spec : Revision) (snapshot : Snapshot) :
    Promptly M (fun a t => Done M (fun now ledger => ledger.write now ⟨spec.key, .create⟩ spec snapshot) d
      (a.map fun b => .entry b.entry) t) (put spec snapshot) d := by
  have reserved := d.store.ledger_reserve ⟨spec.key, .create⟩
  refine promptly_withLease (fun busy => ?_) fun free => ?_
  · rw [if_pos busy] at reserved
    exact .refused hm h reserved
  · rw [if_neg (by rw [free]; nofun)] at reserved
    refine promptly_query_bind (fun _ permitted => ?_) fun err refused => ?_
    · have permitted : d.store.permit ⟨spec.key, .create⟩ = .ok () := permitted
      rw [permitted] at reserved
      exact Routine.Promptly.mono (commit_promptly (d := { d with store := d.store.acquire spec.key })
        (h.leased _) ⟨spec.key, .create⟩ spec snapshot) fun a t done => done.write reserved rfl
    · have refused : d.store.permit ⟨spec.key, .create⟩ = .error err := refused
      have back : released spec.key { d with store := d.store.acquire spec.key } = d := by
        rw [released, Store.release_acquire free]
      rw [refused] at reserved
      rw [back]
      exact .refused hm h reserved

end Service

namespace Op

variable {m : Moment}

theorem write_done (hm : M m) (h : d.store.Ordered) (lease : Lease) (spec : Revision) (snapshot : Snapshot) :
    Promptly M (Done M (fun now l => l.write now lease spec snapshot) d)
      (call (.write lease spec snapshot)) d := by
  apply Promptly.bind (Service.reserve_promptly lease)
  · rintro a t (⟨err, -, same, -⟩ | ⟨reserved, -, rfl⟩)
    · cases same
    · exact Promptly.map (Service.commitKept_promptly (d := { d with store := d.store.acquire lease.key })
        (h.leased _) lease spec snapshot) fun a t done => done.write reserved rfl
  · rintro err t (⟨err', reserved, same, rfl⟩ | ⟨-, same, -⟩)
    · cases same
      exact .refused hm h reserved
    · cases same

theorem reserve_done (hm : M m) (h : d.store.Ordered) (lease : Lease) :
    Promptly M (Done M (fun now l => l.step now (.reserve lease)) d) (call (.reserve lease)) d := by
  apply Promptly.bind (Service.reserve_promptly lease)
  · rintro a t (⟨err, -, same, -⟩ | ⟨reserved, -, rfl⟩)
    · cases same
    · refine ⟨⟨m, hm, ?_⟩, h.leased _, rfl⟩
      rw [Ledger.step, reserved]
  · rintro err t (⟨err', reserved, same, rfl⟩ | ⟨-, same, -⟩)
    · cases same
      refine ⟨⟨m, hm, ?_⟩, h, rfl⟩
      rw [Ledger.step, reserved]
    · cases same

/-- A revision is taken out of the store, and its entry out of the ledger. -/
theorem done_without {m : Moment} (hm : M m) (h : d.store.Ordered) {k : Key} {a : Except Error Receipt}
    {f : Time → Ledger → Except Error Receipt × Ledger}
    (step : f m.now d.store.ledger = (a, d.store.ledger.erase k)) : Done M f d a (d.without k) where
  step := ⟨m, hm, by rw [step, ← Store.ledger_erase]; rfl⟩
  ordered := h.filter _
  rest := rfl

theorem delete_done (hm : M m) (h : d.store.Ordered) (k : Key) :
    Promptly M (Done M (fun now l => l.step now (.delete k)) d) (call (.delete k)) d := by
  have leased : k ∈ d.store.ledger.leased ↔ d.store.isBusy k = true := Store.mem_leased
  have there := d.store.ledger_get? k
  cases busy : d.store.isBusy k with
  | true =>
    refine Promptly.map (Service.deleteCreated_busy busy) ?_
    rintro a t ⟨rfl, rfl⟩
    refine ⟨⟨m, hm, ?_⟩, h, rfl⟩
    rw [Ledger.step, if_pos (leased.2 busy)]
    rfl
  | false =>
    have free : ¬ k ∈ d.store.ledger.leased := by rw [leased, busy]; nofun
    cases stored : d.store.get? k with
    | some b =>
      refine Promptly.map (Service.deleteCreated_stored busy (by rw [stored]; nofun)) ?_
      rintro a t ⟨rfl, rfl⟩
      refine done_without hm h ?_
      rw [Ledger.step, if_neg free, there, stored]
      rfl
    | none =>
      refine Promptly.map (Service.deleteCreated_absent busy stored) ?_
      rintro a t ⟨rfl, rfl⟩
      refine ⟨⟨m, hm, ?_⟩, h, rfl⟩
      rw [Ledger.step, if_neg free, there, stored]
      rfl

theorem deleteIfExists_done (hm : M m) (h : d.store.Ordered) (k : Key) :
    Promptly M (Done M (fun now l => l.step now (.deleteIfExists k)) d) (call (.deleteIfExists k)) d := by
  have leased : k ∈ d.store.ledger.leased ↔ d.store.isBusy k = true := Store.mem_leased
  have there := d.store.ledger_get? k
  cases busy : d.store.isBusy k with
  | true =>
    have refused : Answers M (Service.deleteIfExists k) d (.error (.conflict k)) :=
      promptly_withLease (fun _ => ⟨rfl, rfl⟩) fun free => by cases busy.symm.trans free
    refine Promptly.map refused ?_
    rintro a t ⟨rfl, rfl⟩
    refine ⟨⟨m, hm, ?_⟩, h, rfl⟩
    rw [Ledger.step, if_pos (leased.2 busy)]
    rfl
  | false =>
    have free : ¬ k ∈ d.store.ledger.leased := by rw [leased, busy]; nofun
    refine Promptly.map (Service.deleteIfExists_prompt busy) ?_
    rintro a t ⟨rfl, rfl⟩
    refine done_without hm h ?_
    rw [Ledger.step, if_neg free, there, Option.isSome_map]
    rfl

theorem purge_done (h : d.store.Ordered) (repository : String) :
    Promptly M (Done M (fun now l => l.step now (.purge repository)) d) (call (.purge repository)) d := by
  intro m hm
  refine ⟨⟨m, hm, ?_⟩, h.filter _, rfl⟩
  rw [Ledger.step, ← Store.ledger_purge, ← Store.length_purge]

/-- **One call.** It does to what the store means what it does to an association list. -/
theorem done (h : d.store.Ordered) (op : Op) :
    Promptly M (Done M (fun now l => l.step now op) d) op.call d := by
  cases op with
  | put spec snapshot =>
    exact fun m hm => Promptly.map (Service.put_promptly hm h spec snapshot) (fun _ _ done => done) m hm
  | write lease spec snapshot => exact fun m hm => write_done hm h lease spec snapshot m hm
  | reserve lease => exact fun m hm => reserve_done hm h lease m hm
  | commit lease spec snapshot =>
    exact Promptly.map (Service.commitKept_promptly h lease spec snapshot) fun _ _ done => done
  | release k => exact fun m hm => ⟨⟨m, hm, rfl⟩, h.leased _, rfl⟩
  | delete k => exact fun m hm => delete_done hm h k m hm
  | deleteIfExists k => exact fun m hm => deleteIfExists_done hm h k m hm
  | purge repository => exact purge_done h repository

/-- Calls one after another. -/
def runAll : List Op → Routine Depot (List (Except Error Receipt))
  | [] => pure []
  | op :: rest => do
    let answer ← op.call.run
    return answer :: (← runAll rest)

/-- **A sequence of calls** does to what the store means what it does to an association list. -/
theorem runAll_done (h : d.store.Ordered) (ops : List Op) : Routine.Promptly M (fun answers t =>
    t.store.Ordered ∧ t = { d with store := t.store } ∧
      ∃ times : List Time, times.length = ops.length ∧ (∀ now ∈ times, ∃ m, M m ∧ m.now = now) ∧
        d.store.ledger.run (times.zip ops) = (answers, t.store.ledger)) (runAll ops) d := by
  -- Along the calls, from any depot in order: what the first one leaves is in order again (`Done.ordered`).
  induction ops generalizing d with
  | nil => exact ⟨h, rfl, [], rfl, nofun, rfl⟩
  | cons op rest ih =>
    refine Routine.Promptly.bind (op.done h) fun answer u first => ?_
    refine Routine.Promptly.bind (ih first.ordered) ?_
    rintro answers t ⟨ordered, same, times, length, made, behind⟩
    obtain ⟨m, hm, step⟩ := first.step
    refine ⟨ordered, ?_, m.now :: times, congrArg Nat.succ length, ?_, ?_⟩
    · rw [same, first.rest]
    · exact List.forall_mem_cons.2 ⟨⟨m, hm, rfl⟩, made⟩
    · rw [List.zip_cons_cons, Ledger.run, ← step]
      dsimp only
      rw [behind]

end Op

/-- **The store is a map in the order of insertion.** Calls of any number, made one after another on an empty
store, are answered as an association list answers them, and leave what is seen of that list: a creation comes
to its end, a replacement stands where the old entry stood, a deletion takes out what it names, and a call
that fails changes nothing. Nothing but the store changes. -/
theorem Store.insertion_ordered (d : Depot) (ops : List Op) :
    Routine.Promptly M (fun answers t => t = { d with store := t.store } ∧
      ∃ (times : List Time) (l : Ledger), times.length = ops.length ∧
        (∀ now ∈ times, ∃ m, M m ∧ m.now = now) ∧
        Ledger.run {} (times.zip ops) = (answers, l) ∧ t.store.Shows l)
      (Op.runAll ops) { d with store := {} } ∧
    ∀ (now : Time) (l : Ledger) (op : Op), (∃ answer, (l.step now op).1 = .ok answer) ∨
      (l.step now op).2.entries = l.entries := by
  constructor
  · apply Routine.Promptly.mono (Op.runAll_done Store.ordered_empty ops)
    rintro answers t ⟨ordered, rest, times, length, made, run⟩
    exact ⟨rest, times, t.store.ledger, length, made, run, ordered.shows⟩
  · intro now l op
    cases answer : (l.step now op).1 with
    | ok reply => exact .inl ⟨reply, rfl⟩
    | error err => exact .inr (Ledger.step_error answer)

/-- A revision that is replaced keeps its place, and one that is created again has lost it. -/
example (web api : Snapshot) :
    let web' : Revision := ⟨"web", "v1", "apps", []⟩
    let api' : Revision := ⟨"api", "v1", "apps", []⟩
    (Ledger.run {} [(1, .put web' web), (2, .put api' api), (3, .write ⟨web'.key, .replace⟩ web' web),
      (4, .put web' web)]).2.entries.map (fun x => (x.1, x.2.createdAt, x.2.updatedAt)) =
        [(web'.key, 1, 3), (api'.key, 2, 2)] ∧
    (Ledger.run {} [(1, .put web' web), (2, .put api' api), (3, .delete web'.key),
      (4, .put web' web)]).2.entries.map Prod.fst = [api'.key, web'.key] := by
  exact ⟨rfl, rfl⟩

end PackageDepot
