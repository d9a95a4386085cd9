import PackageDepot.Proofs.Traffic.Apart
import PackageDepot.Proofs.Traffic.Creations

/-!
# Writes of different keys are independent

Two writes of different keys that are begun on one depot, in contexts that are never interrupted, come to the
same however their steps are interleaved (`writes_independent`). Each of the two stands, after any number of
its own steps, where it would stand if it were left alone, and the depot that it sees is alike (`Mirrors`):
its own steps keep this since it does likewise, and the steps of the other one since they are hidden from it
(`Mirrors.among`).
-/

namespace PackageDepot.Traffic

open Package Call

/-- Only these two calls move, and time passes. -/
def Interleaves (i j : Nat) : Event → Prop
  | .move l => l = i ∨ l = j
  | .pass .. => True
  | _ => False

theorem Interleaves.cases {i j : Nat} {ev : Event} (h : Interleaves i j ev) :
    (∃ time scopes, ev = .pass time scopes) ∨ ev = .move i ∨ ev = .move j := by
  cases ev with
  | start q => exact h.elim
  | move l =>
    obtain rfl | rfl := h
    · exact .inr (.inl rfl)
    · exact .inr (.inr rfl)
  | drop l => exact h.elim
  | pass time scopes => exact .inl ⟨time, scopes, rfl⟩
  | outside git images secrets => exact h.elim

/-- The number of steps that an event lets a call make. -/
def steps (i : Nat) : Event → Nat
  | .move l => if l = i then 1 else 0
  | _ => 0

/-- The number of steps that a call was let make by the first events. -/
def moves (i : Nat) (es : Nat → Event) : Nat → Nat
  | 0 => 0
  | n + 1 => moves i es n + steps i (es n)

/-- The keys of the revisions of a depot, in the order in which they are listed. -/
abbrev keys (x : Traffic) : List Key := x.depot.store.revisions.map Stored.key

/-- A write that is to make its first step. It is of the key `k`, does not clone what is under the key
`hidden`, and is not interrupted. -/
structure Writer (e : Engine) (x : Traffic) (M : Moment → Prop) (i : Nat) (k hidden : Key) where
  request : Request
  intent : Intent
  revision : Revision
  context : Context
  writes : request.write? = some (intent, revision, context)
  key_eq : revision.key = k
  stands : x.At i request (request.begin e)
  distinct : k ≠ hidden
  cites : ¬ revision.Cites hidden
  calm : context.Calm e M

variable {e : Engine} {x : Traffic} {M : Moment → Prop} {i j : Nat} {k hidden : Key}

namespace Writer

variable (w : Writer e x M i k hidden)

theorem likewise (evaluates : e.Evaluates) : Routine.Likewise (.apart M k hidden) (Matching Eq)
    (w.request.begin e) (w.request.begin e) := by
  have write : Likewise (.apart M k hidden) Eq
      (Service.write e w.revision w.intent w.context) (Service.write e w.revision w.intent w.context) :=
    Apart.write_likewise w.calm evaluates w.key_eq w.distinct w.cites
  have reply := write.bind fun a b same => likewise_pure (L := .apart M k hidden)
    (congrArg Reply.files same)
  obtain ⟨hi, hr⟩ | ⟨hi, hr⟩ := Request.write?_eq_some w.writes
  · rw [hr]
    rwa [hi] at reply
  · rw [hr]
    rwa [hi] at reply

/-- What is left of the write after some of its steps, if it is left alone, with the depot. -/
def alone (n : Nat) : Routine Depot Answer × Depot :=
  Routine.after x.moment n (w.request.begin e) x.depot

/-- The write stands where it stands after `n` steps if it is left alone, and sees a depot that is alike. -/
structure Mirrors (n : Nat) (y : Traffic) (p : Routine Depot Answer) : Prop where
  stands : y.At i w.request p
  follows : ∃ t, p.Follows (w.request.protocol e) t
  likewise : Routine.Likewise (.apart M k hidden) (Matching Eq) p (w.alone n).1
  depot : y.depot.Apart k hidden (w.alone n).2

/-- The writers of different keys are different calls. -/
theorem ne (w : Writer e x M i k hidden) (v : Writer e x M j hidden k) : i ≠ j := by
  rintro rfl
  obtain ⟨same, -⟩ := w.stands.unique v.stands
  have revisions := Option.some.inj (w.writes.symm.trans (same ▸ v.writes))
  exact w.distinct (w.key_eq.symm.trans ((congrArg (fun r => r.2.1.key) revisions).trans v.key_eq))

variable {w} {n : Nat} {y z : Traffic} {p : Routine Depot Answer}

theorem mirrors_start (evaluates : e.Evaluates) : w.Mirrors 0 x (w.request.begin e) where
  stands := w.stands
  follows := ⟨_, Request.follows e w.request⟩
  likewise := w.likewise evaluates
  depot := .refl _

/-- A step of its own. -/
theorem Mirrors.move (h : w.Mirrors n y p) (now : M y.moment) (first : M x.moment) :
    w.Mirrors (n + 1) (y.next e (.move i)) (p.move y.moment y.depot).1 := by
  have moved : w.alone (n + 1) = (w.alone n).1.move x.moment (w.alone n).2 := Routine.after_succ ..
  obtain ⟨depot, likewise⟩ := h.likewise.move ⟨now, first⟩ h.depot
  refine ⟨h.stands.moved e, ?_, moved ▸ likewise, ?_⟩
  · obtain ⟨t, ht⟩ := h.follows
    obtain stay | ⟨-, u, -, hu⟩ := ht.move y.moment y.depot
    · rw [stay]
      exact ⟨t, ht⟩
    · exact ⟨u, hu⟩
  · rw [next_move h.stands, moved]
    exact depot

/-- What is hidden from it. -/
theorem Mirrors.among (h : w.Mirrors n y p) (stands : z.At i w.request p)
    (hidden' : z.depot.Apart k hidden y.depot) : w.Mirrors n z p where
  stands := stands
  follows := h.follows
  likewise := h.likewise
  depot := hidden'.trans h.depot

/-- What its steps change is hidden from a writer of the other key. -/
theorem Mirrors.apart (h : w.Mirrors n y p) {j : Key} (other : j ≠ k) :
    (y.next e (.move i)).depot.Apart j k y.depot := by
  rw [next_move h.stands]
  obtain ⟨t, ht⟩ := h.follows
  obtain stay | ⟨-, u, step, -⟩ := ht.move y.moment y.depot
  · rw [stay]
    exact .refl _
  · exact step.apart w.writes w.key_eq other

/-- Once it is answered, the depot is alike to the one that it leaves if it is left alone. -/
theorem Mirrors.answered (h : w.Mirrors n y p) {l : Nat} {a b : Answer}
    (done : (w.alone l).1 = .done a) (answered : y.Answered i b) :
    b = a ∧ y.depot.Apart k hidden (w.alone l).2 := by
  obtain ⟨q, hq⟩ := answered
  obtain ⟨-, rfl⟩ := h.stands.unique hq
  have likewise := h.likewise
  generalize hp : (w.alone n).1 = p' at likewise
  cases likewise with
  | done same =>
    have left : w.alone l = w.alone n := Routine.after_eq_of_done hp done
    rw [left, hp] at done
    cases done
    exact ⟨same.eq, left ▸ h.depot⟩

/-- After enough steps it is answered. -/
theorem Mirrors.ended (h : w.Mirrors n y p) {l : Nat} {a : Answer} (done : (w.alone l).1 = .done a)
    (enough : l ≤ n) : y.Answered i a := by
  have likewise := h.likewise
  rw [show w.alone n = w.alone l from Routine.after_of_done enough done, done] at likewise
  cases likewise with
  | done same => exact ⟨_, same.eq ▸ h.stands⟩

end Writer

/-- **Each of two writers stands where it would stand alone**, however their steps are interleaved. -/
theorem mirrors {es : Nat → Event} (w : Writer e x M i k hidden) (v : Writer e x M j hidden k)
    (evaluates : e.Evaluates) (inside : ∀ n, Interleaves i j (es n))
    (now : ∀ n, M (run e x es n).moment) (n : Nat) :
    (∃ p, w.Mirrors (moves i es n) (run e x es n) p) ∧
      ∃ p, v.Mirrors (moves j es n) (run e x es n) p := by
  induction n with
  | zero => exact ⟨⟨_, Writer.mirrors_start evaluates⟩, ⟨_, Writer.mirrors_start evaluates⟩⟩
  | succ n ih =>
    obtain ⟨⟨p, hp⟩, ⟨p', hp'⟩⟩ := ih
    have ij := w.ne v
    rw [moves, moves, run]
    obtain ⟨time, scopes, hev⟩ | hev | hev := (inside n).cases <;> rw [hev]
    · exact ⟨⟨p, hp.among hp.stands (.refl _)⟩, p', hp'.among hp'.stands (.refl _)⟩
    · have stands : ((run e x es n).next e (.move i)).At j v.request p' :=
        (at_set (by rw [next_move hp.stands]) ij.symm).2 hp'.stands
      simp only [steps, if_true, ij, if_false]
      exact ⟨⟨_, hp.move (now n) (now 0)⟩, p', hp'.among stands (hp.apart w.distinct.symm)⟩
    · have stands : ((run e x es n).next e (.move j)).At i w.request p :=
        (at_set (by rw [next_move hp'.stands]) ij).2 hp.stands
      simp only [steps, if_true, ij.symm, if_false]
      exact ⟨⟨p, hp.among stands (hp'.apart v.distinct.symm)⟩, _, hp'.move (now n) (now 0)⟩

/-- The listing of the depot has been added to by these new keys. -/
structure Placed (pair : List Key) (x y : Traffic) (news : List Key) : Prop where
  listed : y.keys = x.keys ++ news
  nodup : news.Nodup
  new : ∀ l ∈ news, l ∉ x.keys ∧ l ∈ pair

/-- A step of a write puts its key behind the others, or leaves them as they are. -/
theorem Placed.move {w : Writer e x M i k hidden} {n : Nat} {y : Traffic} {p : Routine Depot Answer}
    {pair news : List Key} (h : w.Mirrors n y p) (placed : Placed pair x y news) (own : k ∈ pair) :
    ∃ news', Placed pair x (y.next e (.move i)) news' := by
  have depot : (y.next e (.move i)).keys =
      (p.move y.moment y.depot).2.store.revisions.map Stored.key := by rw [next_move h.stands]
  obtain ⟨t, ht⟩ := h.follows
  obtain stay | ⟨-, u, step, -⟩ := ht.move y.moment y.depot
  · rw [stay] at depot
    exact ⟨news, depot.trans placed.listed, placed.nodup, placed.new⟩
  · obtain same | ⟨fresh, behind⟩ := step.places w.writes
    · exact ⟨news, (depot.trans same).trans placed.listed, placed.nodup, placed.new⟩
    · rw [w.key_eq] at fresh behind
      have absent : k ∉ x.keys ++ news := by
        rw [← placed.listed, mem_keys_iff]
        simp [fresh]
      rw [List.mem_append, not_or] at absent
      refine ⟨news ++ [k], ?_, ?_, fun l hl => ?_⟩
      · rw [depot, behind, ← List.append_assoc, ← placed.listed]
      · exact List.nodup_append.2 ⟨placed.nodup, by simp, by
          rintro l hl _ hk rfl
          exact absent.2 (List.mem_singleton.1 hk ▸ hl)⟩
      · obtain hl | hl := List.mem_append.1 hl
        · exact placed.new l hl
        · obtain rfl := List.mem_singleton.1 hl
          exact ⟨absent.1, own⟩

theorem placed {es : Nat → Event} (w : Writer e x M i k hidden) (v : Writer e x M j hidden k)
    (evaluates : e.Evaluates) (inside : ∀ n, Interleaves i j (es n))
    (now : ∀ n, M (run e x es n).moment) (n : Nat) :
    ∃ news, Placed [k, hidden] x (run e x es n) news := by
  induction n with
  | zero => exact ⟨[], (List.append_nil _).symm, List.nodup_nil, nofun⟩
  | succ n ih =>
    obtain ⟨news, placed⟩ := ih
    obtain ⟨⟨p, hp⟩, ⟨p', hp'⟩⟩ := mirrors w v evaluates inside now n
    rw [run]
    obtain ⟨time, scopes, hev⟩ | hev | hev := (inside n).cases <;> rw [hev]
    · exact ⟨news, placed.listed, placed.nodup, placed.new⟩
    · exact placed.move hp (by simp)
    · exact placed.move hp' (by simp)

/-- What two calls answer, what they leave under the keys, and which keys they add. -/
structure Verdict where
  first : Answer
  second : Answer
  content : Key → Option Substance
  created : List Key

/-- Whatever came before: each call ends after enough of its own steps, with its answer, and when both have
ended, the keys have their contents, in their old order with the new ones behind them. -/
structure Verdict.Binds (v : Verdict) (enough : Nat) (i j : Nat) (x y : Traffic) (es : Nat → Event)
    (n : Nat) : Prop where
  ends_first : enough ≤ moves i es n → y.Answered i v.first
  ends_second : enough ≤ moves j es n → y.Answered j v.second
  first : ∀ a, y.Answered i a → a = v.first
  second : ∀ b, y.Answered j b → b = v.second
  content : ∀ a b, y.Answered i a → y.Answered j b →
    ∀ k, (y.depot.store.get? k).map Stored.substance = v.content k
  order : ∀ a b, y.Answered i a → y.Answered j b →
    ∃ news, y.keys = x.keys ++ news ∧ news.Perm v.created

/-- **Writes of different keys are independent.** Two writes of different keys are begun on one depot, in
any traffic `x` of which nothing else moves, and neither clones what the other one writes. The moments `M`
are those that their steps may be made at; no context is interrupted then. All interleavings of their steps
have one verdict. -/
theorem writes_independent {q s : Request} {intent intent' : Intent} {r r' : Revision}
    {c c' : Context} (hq : q.write? = some (intent, r, c)) (hs : s.write? = some (intent', r', c'))
    (first : x.At i q (q.begin e)) (second : x.At j s (s.begin e)) (distinct : r.key ≠ r'.key)
    (cites : ¬ r.Cites r'.key) (cites' : ¬ r'.Cites r.key) (calm : c.Calm e M) (calm' : c'.Calm e M)
    (evaluates : e.Evaluates) (now : M x.moment) :
    ∃ (v : Verdict) (enough : Nat), v.created ⊆ [r.key, r'.key] ∧
      ∀ es, (∀ n, Interleaves i j (es n)) → (∀ n, M (run e x es n).moment) →
        ∀ n, v.Binds enough i j x (run e x es n) es n := by
  let w : Writer e x M i r.key r'.key := ⟨q, intent, r, c, hq, rfl, first, distinct, cites, calm⟩
  let w' : Writer e x M j r'.key r.key :=
    ⟨s, intent', r', c', hs, rfl, second, distinct.symm, cites', calm'⟩
  obtain ⟨l, a, done⟩ := (w.likewise evaluates).ends (fun h => h rfl) ⟨now, now⟩ (.refl x.depot)
  obtain ⟨l', b, done'⟩ := (w'.likewise evaluates).ends (fun h => h rfl) ⟨now, now⟩ (.refl x.depot)
  -- Each writer tells what is left under all keys but that of the other one.
  let content : Key → Option Substance := fun k =>
    ((if k = r'.key then (w'.alone l').2 else (w.alone l).2).store.get? k).map Stored.substance
  let created := [r.key, r'.key].filter fun k => k ∉ x.keys ∧ (content k).isSome
  refine ⟨⟨a, b, content, created⟩, max l l', List.filter_sublist.subset, fun es inside now n => ?_⟩
  obtain ⟨⟨p, hp⟩, ⟨p', hp'⟩⟩ := mirrors w w' evaluates inside now n
  obtain ⟨news, placed⟩ := placed w w' evaluates inside now n
  have contents : ∀ a b, (run e x es n).Answered i a → (run e x es n).Answered j b →
      ∀ k, ((run e x es n).depot.store.get? k).map Stored.substance = content k := by
    intro a b ha hb k
    dsimp only [content]
    split
    · next other => exact (hp'.answered done' hb).2.shown k (other ▸ distinct.symm)
    · next own => exact (hp.answered done ha).2.shown k own
  refine ⟨fun enough => hp.ended done (Nat.le_trans (Nat.le_max_left ..) enough),
    fun enough => hp'.ended done' (Nat.le_trans (Nat.le_max_right ..) enough),
    fun a ha => (hp.answered done ha).1, fun b hb => (hp'.answered done' hb).1, contents,
    fun a b ha hb => ⟨news, placed.listed, ?_⟩⟩
  have stored : ∀ k, k ∈ (run e x es n).keys ↔ (content k).isSome = true := by
    intro k
    rw [← contents a b ha hb k, Option.isSome_map, mem_keys_iff, Option.isSome_iff_ne_none]
  refine (List.perm_ext_iff_of_nodup placed.nodup ?_).2 fun k => ?_
  · exact List.filter_sublist.nodup (by simp [distinct])
  · rw [List.mem_filter, decide_eq_true_iff, ← stored, placed.listed, List.mem_append]
    constructor
    · intro there
      exact ⟨(placed.new k there).2, (placed.new k there).1, .inr there⟩
    · rintro ⟨-, old, there | there⟩
      · exact (old there).elim
      · exact there

namespace Pair

/-- A revision of a package that is begun anew. -/
def revision (package : String) : Revision :=
  { repository := "apps", package, revision := "v1", tasks := [.starting {}] }

/-- To create it. -/
def request (package : String) : Request := .create (revision package) ⟨[], none⟩

/-- Two such requests to a depot with a repository. -/
def traffic : Traffic where
  moment := {}
  depot := {
    git := (∅ : Backend.GitHost).insert "host/apps" {}
    registry := (∅ : Registry).insert "apps" (.ofGit "apps" { repo := "host/apps" }) }
  calls := [(request "web", some ((request "web").begin {})),
    (request "db", some ((request "db").begin {}))]

theorem not_cites (package : String) (k : Key) : ¬ (revision package).Cites k := by
  rintro ⟨t, ht, spec, ref, kind, -⟩
  obtain rfl := List.mem_singleton.1 ht
  cases kind

theorem calm : (⟨[], none⟩ : Context).Calm {} fun m => m = {} where
  undisturbed := by
    rintro _ rfl
    rfl
  tasks := by
    rintro label _ rfl _ rfl
    rfl

end Pair

/-- Two creations in one repository. -/
theorem writes_independent_pair :
    (Pair.revision "web").key ≠ (Pair.revision "db").key ∧
      ∃ (v : Verdict) (enough : Nat),
        v.created ⊆ [(Pair.revision "web").key, (Pair.revision "db").key] ∧
        ∀ es, (∀ n, Interleaves 0 1 (es n)) → (∀ n, (run {} Pair.traffic es n).moment = {}) →
          ∀ n, v.Binds enough 0 1 Pair.traffic (run {} Pair.traffic es n) es n := by
  have web : (Pair.request "web").write? = some (.create, Pair.revision "web", ⟨[], none⟩) := rfl
  have db : (Pair.request "db").write? = some (.create, Pair.revision "db", ⟨[], none⟩) := rfl
  have first : Pair.traffic.At 0 (Pair.request "web") ((Pair.request "web").begin {}) := rfl
  have second : Pair.traffic.At 1 (Pair.request "db") ((Pair.request "db").begin {}) := rfl
  exact ⟨by decide, writes_independent web db first second (by decide) (Pair.not_cites "web" _)
    (Pair.not_cites "db" _) Pair.calm Pair.calm (fun _ _ _ => nofun) rfl⟩

end PackageDepot.Traffic
