import Mathlib.Logic.Relation
import PackageDepot.Proofs.Clock.Race

/-!
# The tree of contexts

A `Family` is what comes of things done with contexts one after another (`Deed`): contexts are made, alone or out
of others, scopes are cancelled and time passes. It keeps a record of how each context was made (`Birth`), and
the record alone tells which token a context has (`Token`), which token is a child of which (`Parent`), and which
time limits a context has taken over (`Limit`). The scopes and deadlines that contexts really have agree with it
(`Sound`, kept by each step), and so does all that comes of them (`scopes_form_tree`).
-/

namespace PackageDepot

open Relation (ReflTransGen TransGen)

/-- A time limit gives a deadline that is the earlier one of two. -/
theorem Context.exists_deadline (c : Context) (now : Time) (n : Nat) :
    ∃ m, (c.withTimeout now n).deadline = some m ∧ (m = now + n ∨ c.deadline = some m) ∧
      m ≤ now + n ∧ ∀ d ∈ c.deadline, m ≤ d := by
  refine ⟨_, rfl, ?_⟩
  cases deadline : c.deadline with
  | none => simp
  | some d =>
    simp only [Option.mem_some_iff, forall_eq']
    split
    · next early => exact ⟨.inr rfl, Nat.le_of_lt early, Nat.le_refl _⟩
    · next late => exact ⟨.inl rfl, Nat.le_refl _, Nat.le_of_not_lt late⟩

/-- What is done with contexts. They have numbers, in the order in which they were made. -/
inductive Deed
  | background
  | child (of : Nat)
  | timeout (of : Nat) (duration : Nat)
  | share (of : Nat)
  | cancel (which : Nat)
  | pass (duration : Nat)
  deriving DecidableEq, Repr

/-- How a context was made. -/
inductive Birth
  | background
  | child (of : Nat)
  | timeout (of : Nat) (made : Time) (duration : Nat)
  | share (of : Nat)
  deriving DecidableEq, Repr

/-! ## What the record tells -/

namespace Birth

variable {bs : List Birth} {i j t u : Nat}

/-- The token of a context, as the number of the context that it was made for. A child and a background have one
of their own, other contexts that of the one they come from. -/
inductive Token (bs : List Birth) : Nat → Nat → Prop
  | background {i : Nat} : bs[i]? = some .background → Token bs i i
  | child {i j : Nat} : bs[i]? = some (.child j) → Token bs i i
  | timeout {i j t : Nat} {made : Time} {duration : Nat} :
    bs[i]? = some (.timeout j made duration) → Token bs j t → Token bs i t
  | share {i j t : Nat} : bs[i]? = some (.share j) → Token bs j t → Token bs i t

/-- A token was made as a child of another one. -/
def Parent (bs : List Birth) (t u : Nat) : Prop := ∃ j, bs[t]? = some (.child j) ∧ Token bs j u

/-- The token of a context is that of another one, or has it as an ancestor. -/
def Inside (bs : List Birth) (i k : Nat) : Prop :=
  ∃ t u, Token bs i t ∧ Token bs k u ∧ ReflTransGen (Parent bs) t u

/-- A time limit on the way to a context, since the last background or shared scope, by the time at which it
ends. -/
inductive Limit (bs : List Birth) : Nat → Time → Prop
  | own {i j : Nat} {made : Time} {duration : Nat} :
    bs[i]? = some (.timeout j made duration) → Limit bs i (made + duration)
  | timeout {i j : Nat} {made l : Time} {duration : Nat} :
    bs[i]? = some (.timeout j made duration) → Limit bs j l → Limit bs i l
  | child {i j : Nat} {l : Time} : bs[i]? = some (.child j) → Limit bs j l → Limit bs i l

/-- A context is what its birth says, given the contexts that there are. -/
def Makes (cs : List Context) (i : Nat) (c : Context) : Birth → Prop
  | .background => c = .background i
  | .child j => j < i ∧ ∃ d, cs[j]? = some d ∧ c = d.child i
  | .timeout j made duration => j < i ∧ ∃ d, cs[j]? = some d ∧ c = d.withTimeout made duration
  | .share j => j < i ∧ ∃ d, cs[j]? = some d ∧ c = .inScope d.scope

theorem Makes.append {cs : List Context} {c : Context} {b : Birth} (made : b.Makes cs i c) (d : Context) :
    b.Makes (cs ++ [d]) i c := by
  have kept {j : Nat} {e : Context} (h : cs[j]? = some e) : (cs ++ [d])[j]? = some e := by
    obtain ⟨inside, -⟩ := List.getElem?_eq_some_iff.1 h
    rw [List.getElem?_append_left inside, h]
  cases b with
  | background => exact made
  | child j => exact made.imp_right fun ⟨e, there, same⟩ => ⟨e, kept there, same⟩
  | timeout j _ n => exact made.imp_right fun ⟨e, there, same⟩ => ⟨e, kept there, same⟩
  | share j => exact made.imp_right fun ⟨e, there, same⟩ => ⟨e, kept there, same⟩

end Birth

/-- Contexts, with a record of how they were made and of those that were cancelled. -/
structure Family where
  moment : Moment := {}
  contexts : List Context := []
  births : List Birth := []
  cancels : List Nat := []
  deriving DecidableEq, Repr

namespace Family

open Birth

/-- One more context. -/
def add (w : Family) (b : Birth) (c : Context) : Family :=
  { w with contexts := w.contexts ++ [c], births := w.births ++ [b] }

/-- Cancel the scope of a context. -/
def cancel (w : Family) (i : Nat) (c : Context) : Family :=
  { w with
    moment := { w.moment with cancelled := w.moment.cancelled ++ [c.scope] }
    cancels := w.cancels ++ [i] }

/-- Let time pass. -/
def pass (w : Family) (duration : Nat) : Family :=
  { w with moment := { w.moment with now := w.moment.now + duration } }

/-- Do something. Nothing comes of it if there is no such context. -/
def step (w : Family) : Deed → Family
  | .background => w.add .background (.background w.contexts.length)
  | .child i => w.contexts[i]?.elim w fun c => w.add (.child i) (c.child w.contexts.length)
  | .timeout i duration => w.contexts[i]?.elim w fun c =>
    w.add (.timeout i w.moment.now duration) (c.withTimeout w.moment.now duration)
  | .share i => w.contexts[i]?.elim w fun c => w.add (.share i) (.inScope c.scope)
  | .cancel i => w.contexts[i]?.elim w (w.cancel i)
  | .pass duration => w.pass duration

/-- Do one thing after another. -/
def run (w : Family) (deeds : List Deed) : Family := deeds.foldl step w

/-- What comes of a step. -/
inductive Next (w : Family) : Family → Prop
  | idle : Next w w
  | add {b : Birth} {c : Context} : b.Makes w.contexts w.contexts.length c → Next w (w.add b c)
  | cancel {i : Nat} {c : Context} : w.contexts[i]? = some c → Next w (w.cancel i c)
  | pass (duration : Nat) : Next w (w.pass duration)

theorem next_step (w : Family) (deed : Deed) : Next w (w.step deed) := by
  have derive (i : Nat) (f : Context → Family)
      (one : ∀ c, i < w.contexts.length → w.contexts[i]? = some c → Next w (f c)) :
      Next w (w.contexts[i]?.elim w f) := by
    cases found : w.contexts[i]? with
    | none => exact .idle
    | some c => exact one c (List.getElem?_eq_some_iff.1 found).1 found
  cases deed with
  | background => exact .add rfl
  | child i => exact derive i _ fun c inside found => .add ⟨inside, c, found, rfl⟩
  | timeout i n => exact derive i _ fun c inside found => .add ⟨inside, c, found, rfl⟩
  | share i => exact derive i _ fun c inside found => .add ⟨inside, c, found, rfl⟩
  | cancel i => exact derive i _ fun c _ found => .cancel found
  | pass n => exact .pass n

/-- The token of the context or an ancestor of it was cancelled. -/
def CancelledFor (w : Family) (i : Nat) : Prop := ∃ k ∈ w.cancels, Inside w.births i k

/-- The least time limit of the context has been reached. -/
def ExpiredFor (w : Family) (i : Nat) : Prop := ∃ l, IsLeast {l | Limit w.births i l} l ∧ l ≤ w.moment.now

/-! ## Scopes and deadlines agree with the record -/

/-- The contexts are what the record says, and so are the scopes that were cancelled. -/
structure Sound (w : Family) : Prop where
  length : w.births.length = w.contexts.length
  made : ∀ i (b : Birth) c, w.births[i]? = some b → w.contexts[i]? = some c → b.Makes w.contexts i c
  there : ∀ k ∈ w.cancels, k < w.contexts.length
  cancelled : ∀ s, s ∈ w.moment.cancelled ↔
    ∃ k ∈ w.cancels, ∃ c, w.contexts[k]? = some c ∧ c.scope = s

variable {w : Family} {c d : Context} {b : Birth} {i j k t u : Nat} {l : Time}

/-- What is in a list that is longer by one. -/
theorem getElem?_concat_iff {α : Type} {xs : List α} {x y : α} :
    (xs ++ [x])[i]? = some y ↔ xs[i]? = some y ∨ i = xs.length ∧ x = y := by
  obtain inside | rfl | outside := Nat.lt_trichotomy i xs.length
  · have apart : i ≠ xs.length := Nat.ne_of_lt inside
    simp [List.getElem?_append_left inside, apart]
  · simp
  · have apart : i ≠ xs.length := Nat.ne_of_gt outside
    have nothing : xs[i]? = none := List.getElem?_eq_none (Nat.le_of_lt outside)
    have nothing' : (xs ++ [x])[i]? = none := List.getElem?_eq_none (by simpa using outside)
    simp [nothing, nothing', apart]

theorem lt_of_getElem? (there : w.contexts[i]? = some c) : i < w.contexts.length :=
  (List.getElem?_eq_some_iff.1 there).1

namespace Sound

theorem start : Sound {} where
  length := rfl
  made _ _ _ hb := by simp at hb
  there _ hk := by simp at hk
  cancelled s := by simp

theorem add (h : w.Sound) (makes : b.Makes w.contexts w.contexts.length c) : (w.add b c).Sound where
  length := by simp [Family.add, h.length]
  made i b' c' hb hc := by
    obtain old | ⟨now, rfl⟩ := getElem?_concat_iff.1 hb
    · obtain old' | ⟨now, -⟩ := getElem?_concat_iff.1 hc
      · exact (h.made i b' c' old old').append c
      · have := (List.getElem?_eq_some_iff.1 old).1
        rw [now, h.length] at this
        exact (Nat.lt_irrefl _ this).elim
    · rw [h.length] at now
      subst now
      obtain old' | ⟨-, rfl⟩ := getElem?_concat_iff.1 hc
      · exact (Nat.lt_irrefl _ (lt_of_getElem? old')).elim
      · exact makes.append c
  there k hk := by
    simpa [Family.add] using Nat.lt_succ_of_lt (h.there k hk)
  cancelled s := by
    rw [show (w.add b c).moment = w.moment from rfl, h.cancelled]
    refine exists_congr fun k => and_congr_right fun hk => exists_congr fun d => and_congr_left fun _ => ?_
    have apart : k ≠ w.contexts.length := Nat.ne_of_lt (h.there k hk)
    simp [Family.add, getElem?_concat_iff, apart]

theorem cancel (h : w.Sound) (there : w.contexts[i]? = some c) : (w.cancel i c).Sound where
  length := h.length
  made := h.made
  there k hk := by
    obtain hk | rfl := by simpa [Family.cancel] using hk
    · exact h.there k hk
    · exact lt_of_getElem? there
  cancelled s := by
    simp only [Family.cancel, List.mem_append, List.mem_singleton, h.cancelled]
    constructor
    · rintro (⟨k, hk, found⟩ | rfl)
      · exact ⟨k, .inl hk, found⟩
      · exact ⟨i, .inr rfl, c, there, rfl⟩
    · rintro ⟨k, hk | rfl, d, found, rfl⟩
      · exact .inl ⟨k, hk, d, found, rfl⟩
      · rw [there, Option.some_inj] at found
        exact .inr (by rw [found])

/-- **Each step** keeps the contexts in agreement with the record. -/
theorem next {v : Family} (h : w.Sound) (step : Next w v) : v.Sound := by
  cases step with
  | idle => exact h
  | add makes => exact h.add makes
  | cancel found => exact h.cancel found
  | pass n => exact ⟨h.length, h.made, h.there, h.cancelled⟩

theorem run (h : w.Sound) (deeds : List Deed) : (w.run deeds).Sound := by
  induction deeds generalizing w with
  | nil => exact h
  | cons deed rest ih => exact ih (h.next (w.next_step deed))

theorem exists_birth (h : w.Sound) (there : w.contexts[i]? = some c) :
    ∃ b, w.births[i]? = some b ∧ b.Makes w.contexts i c := by
  have inside : i < w.births.length := by rw [h.length]; exact lt_of_getElem? there
  exact ⟨_, List.getElem?_eq_getElem inside, h.made i _ c (List.getElem?_eq_getElem inside) there⟩

theorem exists_context (h : w.Sound) (born : w.births[i]? = some b) :
    ∃ c, w.contexts[i]? = some c ∧ b.Makes w.contexts i c := by
  have inside : i < w.contexts.length := by
    rw [← h.length]
    exact (List.getElem?_eq_some_iff.1 born).1
  exact ⟨_, List.getElem?_eq_getElem inside, h.made i b _ born (List.getElem?_eq_getElem inside)⟩

/-! ### Tokens -/

/-- A token is in front of the scope of each context that has it. -/
theorem token (h : w.Sound) (token : Token w.births i t) : t ≤ i ∧ Token w.births t t ∧
    ∃ c d, w.contexts[i]? = some c ∧ w.contexts[t]? = some d ∧ c.scope = d.scope ∧
      d.scope.head? = some t := by
  induction token with
  | background born =>
    obtain ⟨c, there, rfl⟩ := h.exists_context born
    exact ⟨Nat.le_refl _, .background born, _, _, there, there, rfl, rfl⟩
  | child born =>
    obtain ⟨c, there, -, d, -, rfl⟩ := h.exists_context born
    exact ⟨Nat.le_refl _, .child born, _, _, there, there, rfl, rfl⟩
  | timeout born _ ih =>
    obtain ⟨c, there, before, d, found, rfl⟩ := h.exists_context born
    obtain ⟨le, self, d', e, found', first, same, head⟩ := ih
    rw [found, Option.some_inj] at found'
    subst found'
    exact ⟨Nat.le_trans le (Nat.le_of_lt before), self, _, e, there, first, same, head⟩
  | share born _ ih =>
    obtain ⟨c, there, before, d, found, rfl⟩ := h.exists_context born
    obtain ⟨le, self, d', e, found', first, same, head⟩ := ih
    rw [found, Option.some_inj] at found'
    subst found'
    exact ⟨Nat.le_trans le (Nat.le_of_lt before), self, _, e, there, first, same, head⟩

theorem exists_token (h : w.Sound) (there : w.contexts[i]? = some c) : ∃ t, Token w.births i t := by
  induction i using Nat.strongRecOn generalizing c with
  | ind i ih =>
    obtain ⟨b, born, makes⟩ := h.exists_birth there
    cases b with
    | background => exact ⟨i, .background born⟩
    | child j => exact ⟨i, .child born⟩
    | timeout j made n =>
      obtain ⟨before, d, found, -⟩ := makes
      obtain ⟨t, token⟩ := ih j before found
      exact ⟨t, .timeout born token⟩
    | share j =>
      obtain ⟨before, d, found, -⟩ := makes
      obtain ⟨t, token⟩ := ih j before found
      exact ⟨t, .share born token⟩

theorem token_unique (h : w.Sound) (token : Token w.births i t) (token' : Token w.births i u) : t = u := by
  obtain ⟨-, -, c, d, there, -, same, head⟩ := h.token token
  obtain ⟨-, -, c', d', there', -, same', head'⟩ := h.token token'
  rw [there, Option.some_inj] at there'
  subst there'
  rw [← same] at head
  rw [← same', head, Option.some_inj] at head'
  exact head'

/-- A token that was made as a child has the scope of its parent around it. -/
theorem parent (h : w.Sound) (parent : Parent w.births t u) : u < t ∧
    ∃ c d, w.contexts[t]? = some c ∧ w.contexts[u]? = some d ∧ c.scope = t :: d.scope := by
  obtain ⟨j, born, token⟩ := parent
  obtain ⟨c, there, before, e, found, rfl⟩ := h.exists_context born
  obtain ⟨le, -, e', d, found', there', same, -⟩ := h.token token
  rw [found, Option.some_inj] at found'
  subst found'
  exact ⟨Nat.lt_of_le_of_lt le before, _, d, there, there', by rw [← same]; rfl⟩

theorem le_of_ancestor (h : w.Sound) (path : ReflTransGen (Parent w.births) t u) : u ≤ t := by
  induction path with
  | refl => exact Nat.le_refl _
  | tail _ last ih => exact Nat.le_trans (Nat.le_of_lt (h.parent last).1) ih

theorem suffix_of_ancestor (h : w.Sound) (path : ReflTransGen (Parent w.births) t u)
    (there : w.contexts[t]? = some c) (there' : w.contexts[u]? = some d) : d.scope <:+ c.scope := by
  induction path generalizing d with
  | refl =>
    rw [there, Option.some_inj] at there'
    rw [there']
  | tail _ last ih =>
    obtain ⟨-, e, d', found, found', scope⟩ := h.parent last
    rw [there', Option.some_inj] at found'
    subst found'
    have inner := ih found
    rw [scope] at inner
    exact (List.suffix_cons _ _).trans inner

/-- A token whose scope is around that of another one is an ancestor of it, or the same. -/
theorem ancestor_of_suffix (h : w.Sound) (self : Token w.births t t) (self' : Token w.births u u)
    (there : w.contexts[t]? = some c) (there' : w.contexts[u]? = some d) (around : d.scope <:+ c.scope) :
    ReflTransGen (Parent w.births) t u := by
  have head {v : Nat} {e : Context} (own : Token w.births v v) (found : w.contexts[v]? = some e) :
      e.scope.head? = some v := by
    obtain ⟨-, -, -, e', -, found', -, head⟩ := h.token own
    rw [found, Option.some_inj] at found'
    rw [found', head]
  have top {v : Nat} {e : Context} (own : Token w.births v v) (found : w.contexts[v]? = some e)
      (equal : d.scope = e.scope) : ReflTransGen (Parent w.births) v u := by
    have same := head self' there'
    rw [equal, head own found, Option.some_inj] at same
    rw [same]
  -- By induction on the number of the token: a parent has a smaller one.
  induction t using Nat.strongRecOn generalizing c with
  | ind t ih =>
    cases self with
    | background born =>
      obtain ⟨c', found, rfl⟩ := h.exists_context born
      rw [there, Option.some_inj] at found
      subst found
      obtain equal | empty := List.suffix_cons_iff.1 around
      · exact top (.background born) there equal
      · have := head self' there'
        rw [List.suffix_nil.1 empty] at this
        cases this
    | child born =>
      obtain ⟨c', found, before, e, above, rfl⟩ := h.exists_context born
      obtain ⟨v, token⟩ := h.exists_token above
      obtain ⟨le, own, -⟩ := h.token token
      obtain ⟨less, c'', f, found', there'', scope⟩ := h.parent ⟨_, born, token⟩
      rw [there, Option.some_inj] at found'
      subst found'
      rw [scope] at around
      obtain equal | inner := List.suffix_cons_iff.1 around
      · exact top (.child born) there (equal.trans scope.symm)
      · exact .head ⟨_, born, token⟩ (ih v less own there'' inner)
    | timeout born token =>
      obtain ⟨-, -, before, -⟩ := h.exists_context born
      exact (Nat.not_le_of_lt before (h.token token).1).elim
    | share born token =>
      obtain ⟨-, -, before, -⟩ := h.exists_context born
      exact (Nat.not_le_of_lt before (h.token token).1).elim

/-- **Scopes form a tree.** A context is inside another one if its scope is. -/
theorem inside_iff (h : w.Sound) (there : w.contexts[i]? = some c) (there' : w.contexts[k]? = some d) :
    Inside w.births i k ↔ d.scope <:+ c.scope := by
  obtain ⟨t, token⟩ := h.exists_token there
  obtain ⟨u, token'⟩ := h.exists_token there'
  obtain ⟨-, self, c', e, found, foundt, same, -⟩ := h.token token
  obtain ⟨-, self', d', f, found', foundu, same', -⟩ := h.token token'
  rw [there, Option.some_inj] at found
  rw [there', Option.some_inj] at found'
  subst found found'
  rw [same, same']
  constructor
  · rintro ⟨t', u', tokent, tokenu, path⟩
    obtain rfl := h.token_unique token tokent
    obtain rfl := h.token_unique token' tokenu
    exact h.suffix_of_ancestor path foundt foundu
  · exact fun around => ⟨t, u, token, token', h.ancestor_of_suffix self self' foundt foundu around⟩

/-! ### Cancellation -/

theorem isCancelled_iff (h : w.Sound) (there : w.contexts[i]? = some c) :
    w.moment.isCancelled c.scope = true ↔ w.CancelledFor i := by
  simp only [Context.isCancelled_iff, h.cancelled, CancelledFor]
  constructor
  · rintro ⟨s, ⟨k, hk, d, found, rfl⟩, around⟩
    exact ⟨k, hk, (h.inside_iff there found).2 around⟩
  · rintro ⟨k, hk, inside⟩
    have found := List.getElem?_eq_getElem (h.there k hk)
    exact ⟨_, ⟨k, hk, _, found, rfl⟩, (h.inside_iff there found).1 inside⟩

/-- No context of an ancestor is inside that of a descendant. -/
theorem not_inside_of_ancestor (h : w.Sound) (token : Token w.births i t) (token' : Token w.births k u)
    (above : TransGen (Parent w.births) t u) : ¬ Inside w.births k i := by
  rintro ⟨u', t', tokenk, tokeni, path⟩
  obtain rfl := h.token_unique token tokeni
  obtain rfl := h.token_unique token' tokenk
  obtain ⟨v, first, rest⟩ := TransGen.head'_iff.1 above
  have less := Nat.lt_of_le_of_lt (h.le_of_ancestor rest) (h.parent first).1
  exact Nat.not_le_of_lt less (h.le_of_ancestor path)

theorem parent_unique (h : w.Sound) {v v' : Nat} (parent : Parent w.births t v)
    (parent' : Parent w.births t v') : v = v' := by
  obtain ⟨j, born, token⟩ := parent
  obtain ⟨j', born', token'⟩ := parent'
  obtain rfl : j = j' := by simpa [born] using born'
  exact h.token_unique token token'

/-- No context of a sibling is inside that of the other one. -/
theorem not_inside_of_sibling (h : w.Sound) {v : Nat} (token : Token w.births i t)
    (token' : Token w.births k u) (apart : t ≠ u) (parent : Parent w.births t v)
    (parent' : Parent w.births u v) : ¬ Inside w.births k i := by
  rintro ⟨u', t', tokenk, tokeni, path⟩
  obtain rfl := h.token_unique token tokeni
  obtain rfl := h.token_unique token' tokenk
  obtain rfl | ⟨v', first, rest⟩ := path.cases_head
  · exact apart rfl
  · obtain rfl := h.parent_unique parent' first
    exact Nat.not_le_of_lt (h.parent parent).1 (h.le_of_ancestor rest)

/-! ### Deadlines -/

/-- A deadline is one of the time limits. -/
theorem limit_of_deadline (h : w.Sound) (there : w.contexts[i]? = some c) (deadline : c.deadline = some l) :
    Limit w.births i l := by
  induction i using Nat.strongRecOn generalizing c with
  | ind i ih =>
    obtain ⟨b, born, makes⟩ := h.exists_birth there
    cases b with
    | background =>
      subst makes
      cases deadline
    | child j =>
      obtain ⟨before, d, found, rfl⟩ := makes
      exact .child born (ih j before found deadline)
    | timeout j made n =>
      obtain ⟨before, d, found, rfl⟩ := makes
      obtain ⟨m, narrowed, one, -⟩ := d.exists_deadline made n
      obtain rfl : m = l := Option.some.inj (narrowed.symm.trans deadline)
      obtain rfl | earlier := one
      · exact .own born
      · exact .timeout born (ih j before found earlier)
    | share j =>
      obtain ⟨before, d, found, rfl⟩ := makes
      cases deadline

/-- There is a deadline that no time limit is before. -/
theorem deadline_le (h : w.Sound) (limit : Limit w.births i l) (there : w.contexts[i]? = some c) :
    ∃ m, c.deadline = some m ∧ m ≤ l := by
  induction limit generalizing c with
  | own born =>
    obtain ⟨c', found, before, d, above, rfl⟩ := h.exists_context born
    obtain rfl : _ = c := Option.some.inj (found.symm.trans there)
    obtain ⟨m, narrowed, -, le, -⟩ := d.exists_deadline _ _
    exact ⟨m, narrowed, le⟩
  | timeout born _ ih =>
    obtain ⟨c', found, before, d, above, rfl⟩ := h.exists_context born
    obtain rfl : _ = c := Option.some.inj (found.symm.trans there)
    obtain ⟨m, deadline, le⟩ := ih above
    obtain ⟨m', narrowed, -, -, earlier⟩ := d.exists_deadline _ _
    exact ⟨m', narrowed, Nat.le_trans (earlier m deadline) le⟩
  | child born _ ih =>
    obtain ⟨c', found, before, d, above, rfl⟩ := h.exists_context born
    obtain rfl : _ = c := Option.some.inj (found.symm.trans there)
    obtain ⟨m, deadline, le⟩ := ih above
    exact ⟨m, deadline, le⟩

/-- **The deadline** of a context is the least of its time limits. -/
theorem deadline_iff (h : w.Sound) (there : w.contexts[i]? = some c) :
    c.deadline = some l ↔ IsLeast {l | Limit w.births i l} l := by
  constructor
  · intro deadline
    refine ⟨h.limit_of_deadline there deadline, fun l' limit => ?_⟩
    obtain ⟨m, deadline', le⟩ := h.deadline_le limit there
    rw [deadline, Option.some_inj] at deadline'
    rw [deadline']
    exact le
  · rintro ⟨limit, least⟩
    obtain ⟨m, deadline, le⟩ := h.deadline_le limit there
    rw [deadline, Nat.le_antisymm le (least (h.limit_of_deadline there deadline))]

/-- A context that is derived has no later deadline. -/
theorem narrows (h : w.Sound) (there : w.contexts[i]? = some c) (there' : w.contexts[j]? = some d)
    (derived : w.births[i]? = some (.child j) ∨ ∃ made n, w.births[i]? = some (.timeout j made n)) :
    Time.bound c.deadline ≤ Time.bound d.deadline := by
  obtain born | ⟨made, n, born⟩ := derived
  · obtain ⟨-, d', found, rfl⟩ := h.made i _ c born there
    rw [there', Option.some_inj] at found
    rw [found]
    exact le_refl _
  · obtain ⟨-, d', found, rfl⟩ := h.made i _ c born there
    rw [there', Option.some_inj] at found
    subst found
    obtain ⟨m, narrowed, -, -, earlier⟩ := d.exists_deadline made n
    rw [narrowed]
    exact Time.le_bound_iff.2 earlier

/-! ### What a context says -/

/-- **A context fails** if its token or an ancestor of it was cancelled, or its least time limit is reached. -/
theorem interrupted_iff (h : w.Sound) (there : w.contexts[i]? = some c) :
    c.Interrupted w.moment ↔ w.CancelledFor i ∨ w.ExpiredFor i := by
  rw [Context.interrupted_iff, h.isCancelled_iff there]
  simp only [ExpiredFor, ← h.deadline_iff there]

theorem interrupt?_eq_cancelled_iff (h : w.Sound) (there : w.contexts[i]? = some c) :
    c.interrupt? w.moment = some .cancelled ↔ w.CancelledFor i := by
  rw [← h.isCancelled_iff there, Context.interrupt?]
  cases w.moment.isCancelled c.scope with
  | true => simp
  | false =>
    simp only [Bool.false_eq_true, if_false, iff_false]
    split
    · simp
    · simp

end Sound

/-! ## Cancelling one context -/

/-- Two families differ in that a scope was cancelled in the first one. -/
structure Besides (s : Scope) (w v : Family) : Prop where
  now : w.moment.now = v.moment.now
  contexts : w.contexts = v.contexts
  births : w.births = v.births
  cancelled : ∀ r, r ∈ w.moment.cancelled ↔ r ∈ v.moment.cancelled ∨ r = s

namespace Besides

variable {s : Scope} {v : Family}

theorem add (h : Besides s w v) (b : Birth) (c : Context) : Besides s (w.add b c) (v.add b c) where
  now := h.now
  contexts := by simp [Family.add, h.contexts]
  births := by simp [Family.add, h.births]
  cancelled := h.cancelled

theorem step (h : Besides s w v) (deed : Deed) : Besides s (w.step deed) (v.step deed) := by
  have derive (i : Nat) {f g : Context → Family} (one : ∀ c, Besides s (f c) (g c)) :
      Besides s (w.contexts[i]?.elim w f) (v.contexts[i]?.elim v g) := by
    rw [h.contexts]
    cases v.contexts[i]? with
    | none => exact h
    | some c => exact one c
  cases deed with
  | background =>
    simp only [Family.step, h.contexts]
    exact h.add _ _
  | child i =>
    refine derive i fun c => ?_
    rw [h.contexts]
    exact h.add _ _
  | timeout i n =>
    refine derive i fun c => ?_
    rw [h.now]
    exact h.add _ _
  | share i => exact derive i fun c => h.add _ _
  | cancel i =>
    refine derive i fun c => ⟨h.now, h.contexts, h.births, fun r => ?_⟩
    simp only [Family.cancel, List.mem_append, List.mem_singleton, h.cancelled]
    exact or_right_comm
  | pass n => exact ⟨congrArg (· + n) h.now, h.contexts, h.births, h.cancelled⟩

theorem run (h : Besides s w v) (deeds : List Deed) : Besides s (w.run deeds) (v.run deeds) := by
  induction deeds generalizing w v with
  | nil => exact h
  | cons deed rest ih => exact ih (h.step deed)

end Besides

namespace Sound

variable {v : Family}

/-- What is not inside a scope does not see that the scope was cancelled. -/
theorem spared (h : w.Sound) (besides : Besides d.scope w v) (there : w.contexts[j]? = some c)
    (there' : w.contexts[i]? = some d) (outside : ¬ Inside w.births j i) :
    c.interrupt? w.moment = c.interrupt? v.moment := by
  have apart : ¬ d.scope <:+ c.scope := fun around => outside ((h.inside_iff there there').2 around)
  have same : w.moment.isCancelled c.scope = v.moment.isCancelled c.scope := by
    rw [Bool.eq_iff_iff, Context.isCancelled_iff, Context.isCancelled_iff]
    constructor
    · rintro ⟨s, cancelled, around⟩
      obtain cancelled | rfl := (besides.cancelled s).1 cancelled
      · exact ⟨s, cancelled, around⟩
      · exact (apart around).elim
    · rintro ⟨s, cancelled, around⟩
      exact ⟨s, (besides.cancelled s).2 (.inl cancelled), around⟩
  rw [Context.interrupt?, Context.interrupt?, same, besides.now]

end Sound

theorem Next.getElem? {v : Family} (step : Next w v) (there : w.contexts[i]? = some c) :
    v.contexts[i]? = some c := by
  cases step with
  | idle => exact there
  | add _ => exact getElem?_concat_iff.2 (.inl there)
  | cancel _ => exact there
  | pass _ => exact there

/-- A context stays as it is. -/
theorem run_getElem? (there : w.contexts[i]? = some c) (deeds : List Deed) :
    (w.run deeds).contexts[i]? = some c := by
  induction deeds generalizing w with
  | nil => exact there
  | cons deed rest ih => exact ih ((w.next_step deed).getElem? there)

/-- **A scope that is cancelled** is so for what is inside it, whatever is done then, and for nothing else. -/
theorem run_spares (h : w.Sound) (deeds : List Deed) (there : (w.run (.cancel i :: deeds)).contexts[j]? = some c)
    (outside : ¬ Inside (w.run (.cancel i :: deeds)).births j i) :
    (w.run deeds).contexts[j]? = some c ∧
      c.interrupt? (w.run (.cancel i :: deeds)).moment = c.interrupt? (w.run deeds).moment := by
  cases found : w.contexts[i]? with
  | none =>
    have same : w.run (.cancel i :: deeds) = w.run deeds := by
      rw [run, List.foldl_cons, step, found]
      rfl
    rw [same] at there ⊢
    exact ⟨there, rfl⟩
  | some d =>
    have first : Besides d.scope (w.step (.cancel i)) w := by
      rw [step, found]
      exact ⟨rfl, rfl, rfl, fun r => by simp [Option.elim, cancel]⟩
    have besides : Besides d.scope (w.run (.cancel i :: deeds)) (w.run deeds) := first.run deeds
    refine ⟨by rw [← besides.contexts]; exact there, ?_⟩
    exact (h.run (.cancel i :: deeds)).spared besides there (run_getElem? found _) outside

/-! ## What happens meanwhile -/

end Family

namespace Deed

/-- The time that something takes. -/
def time : Deed → Nat
  | .pass duration => duration
  | _ => 0

/-- What is done up to a time, and waiting for it. -/
def upTo (now t : Time) : List Deed → List Deed
  | [] => [.pass (t - now)]
  | deed :: rest => if now + deed.time ≤ t then deed :: upTo (now + deed.time) t rest else [.pass (t - now)]

end Deed

namespace Family

open Birth

variable {w : Family} {c : Context} {i : Nat} {t : Time}

/-- The alarm that something comes to. -/
def alarm (w : Family) : Deed → List Alarm
  | .cancel i => w.contexts[i]?.toList.map fun c => ⟨w.moment.now, c.scope⟩
  | _ => []

/-- The alarms that things done one after another come to. -/
def alarms (w : Family) : List Deed → List Alarm
  | [] => []
  | deed :: rest => w.alarm deed ++ alarms (w.step deed) rest

theorem moment_step (w : Family) (deed : Deed) : (w.step deed).moment =
    ⟨w.moment.now + deed.time, w.moment.cancelled ++ (w.alarm deed).map (·.scope)⟩ := by
  have still : w.moment = ⟨w.moment.now + 0, w.moment.cancelled ++ []⟩ := by simp
  have derive (i : Nat) (b : Birth) (f : Context → Context) :
      (w.contexts[i]?.elim w fun c => w.add b (f c)).moment =
        ⟨w.moment.now + 0, w.moment.cancelled ++ []⟩ := by
    cases w.contexts[i]? with
    | none => exact still
    | some c => exact still
  cases deed with
  | background => exact still
  | child i => exact derive i _ _
  | timeout i n => exact derive i _ _
  | share i => exact derive i _ _
  | cancel i =>
    simp only [step, alarm, Deed.time]
    cases w.contexts[i]? with
    | none => exact still
    | some c => rfl
  | pass n => simp [step, pass, alarm, Deed.time]

theorem time_alarm {deed : Deed} {a : Alarm} (h : a ∈ w.alarm deed) :
    a.time = w.moment.now ∧ deed.time = 0 := by
  cases deed with
  | cancel i =>
    obtain ⟨c, -, rfl⟩ := List.mem_map.1 h
    exact ⟨rfl, rfl⟩
  | _ => cases h

theorem alarms_pending (w : Family) (deeds : List Deed) : ∀ a ∈ w.alarms deeds, w.moment.now ≤ a.time := by
  induction deeds generalizing w with
  | nil => nofun
  | cons deed rest ih =>
    intro a set
    obtain now | later := List.mem_append.1 set
    · exact Nat.le_of_eq (time_alarm now).1.symm
    · have := ih (w.step deed) a later
      rw [moment_step] at this
      exact Nat.le_trans (Nat.le_add_right _ _) this

/-- The moment of a family, with what is done from then on. -/
def forecast (w : Family) (deeds : List Deed) : Forecast := ⟨w.moment, w.alarms deeds, w.alarms_pending deeds⟩

/-- **What a step sees** at a time, is what it sees when all has been done that is done up to then. -/
theorem view_forecast (deeds : List Deed) (later : w.moment.now ≤ t) :
    (w.forecast deeds).view t = (w.run (Deed.upTo w.moment.now t deeds)).moment := by
  have wait {v : Family} (before : v.moment.now ≤ t) :
      (v.run [.pass (t - v.moment.now)]).moment = ⟨t, v.moment.cancelled⟩ := by
    simp [run, step, pass, Nat.add_sub_cancel' before]
  induction deeds generalizing w with
  | nil =>
    rw [Deed.upTo, wait later]
    simp [forecast, Forecast.view, alarms]
  | cons deed rest ih =>
    rw [Deed.upTo]
    split
    · next within =>
      have now : (w.step deed).moment.now = w.moment.now + deed.time := by rw [moment_step]
      have rung : (w.alarm deed).filter (·.time ≤ t) = w.alarm deed := by
        rw [List.filter_eq_self]
        intro a set
        simpa [(time_alarm set).1] using later
      have next := ih (w := w.step deed) (by rw [now]; exact within)
      rw [now] at next
      rw [run, List.foldl_cons, ← run, ← next]
      simp only [forecast, Forecast.view, alarms, List.filter_append, List.map_append, rung]
      rw [moment_step, List.append_assoc]
    · next beyond =>
      -- Only time that passes leads beyond `t`, and no alarm comes before it has passed.
      have silent : (w.alarms (deed :: rest)).filter (·.time ≤ t) = [] := by
        rw [List.filter_eq_nil_iff]
        intro a set
        rw [decide_eq_true_eq]
        obtain now | after := List.mem_append.1 set
        · rw [(time_alarm now).2] at beyond
          exact (beyond later).elim
        · have pending := (w.step deed).alarms_pending rest a after
          rw [moment_step] at pending
          exact fun due => beyond (Nat.le_trans pending due)
      rw [wait later]
      simp [forecast, Forecast.view, silent]

/-! ## The tree -/

/-- What holds of contexts, however they were made. -/
structure Tree (w : Family) : Prop where
  /-- Each context has one token. -/
  token : ∀ i c, w.contexts[i]? = some c → ∃! t, Token w.births i t
  /-- A context fails if its token or an ancestor of it was cancelled, or the least of its time limits is
  reached. -/
  check : ∀ i c, w.contexts[i]? = some c → (c.Interrupted w.moment ↔ w.CancelledFor i ∨ w.ExpiredFor i)
  /-- It says which: a cancellation comes first. -/
  reason : ∀ i c, w.contexts[i]? = some c → (c.interrupt? w.moment = some .cancelled ↔ w.CancelledFor i)
  /-- What is not inside a context does not see that it is cancelled, whatever is done then. -/
  spares : ∀ i deeds j c, (w.run (.cancel i :: deeds)).contexts[j]? = some c →
    ¬ Inside (w.run (.cancel i :: deeds)).births j i → (w.run deeds).contexts[j]? = some c ∧
      c.interrupt? (w.run (.cancel i :: deeds)).moment = c.interrupt? (w.run deeds).moment
  /-- An ancestor is not inside. -/
  ancestors : ∀ i j t u, Token w.births i t → Token w.births j u → TransGen (Parent w.births) t u →
    ¬ Inside w.births j i
  /-- A sibling is not inside. -/
  siblings : ∀ i j t u v, Token w.births i t → Token w.births j u → t ≠ u → Parent w.births t v →
    Parent w.births u v → ¬ Inside w.births j i
  /-- A context that is made as a child or with a timeout has no later deadline. -/
  narrows : ∀ (i j : Nat) (c d : Context), w.contexts[i]? = some c → w.contexts[j]? = some d →
    (w.births[i]? = some (.child j) ∨ ∃ made n, w.births[i]? = some (.timeout j made n)) →
    Time.bound c.deadline ≤ Time.bound d.deadline
  /-- Work in a context, while other things are done, races with it. No scope around may be cancelled at the very
  moment at which the work is done. -/
  races : ∀ (i : Nat) c, w.contexts[i]? = some c → ∀ (deeds : List Deed) {α : Type} (duration : Option Nat)
    (result : Except Error α) (d : Depot),
    (∀ e ∈ duration.map (w.moment.now + ·), ∀ a ∈ w.alarms deeds, a.time = e →
      ¬ a.scope <:+ c.scope) →
    Race ((w.forecast deeds).work c duration result d)
      (fun t => c.Interrupted (w.run (Deed.upTo w.moment.now t deeds)).moment)
      (duration.map (w.moment.now + ·)) result d

/-- What contexts are agrees with the record, whatever was done with them. -/
theorem sound (deeds : List Deed) : (run {} deeds).Sound := Sound.start.run deeds

/-- **Contexts form a tree**, whatever was done with them. -/
theorem scopes_form_tree (deeds : List Deed) : (run {} deeds).Tree where
  token i c there := by
    obtain ⟨t, token⟩ := (sound deeds).exists_token there
    exact ⟨t, token, fun u other => (sound deeds).token_unique other token⟩
  check _ _ there := (sound deeds).interrupted_iff there
  reason _ _ there := (sound deeds).interrupt?_eq_cancelled_iff there
  spares _ more _ _ there outside := run_spares (sound deeds) more there outside
  ancestors _ _ _ _ token token' above := (sound deeds).not_inside_of_ancestor token token' above
  siblings _ _ _ _ _ token token' apart parent parent' :=
    (sound deeds).not_inside_of_sibling token token' apart parent parent'
  narrows _ _ _ _ there there' derived := (sound deeds).narrows there there' derived
  races i c there more α duration result d apart := by
    refine (Forecast.race apart).congr fun t later => ?_
    rw [view_forecast more later]

/-- A child is cancelled without its parent. -/
example : let w := run {} [.background, .timeout 0 5, .child 1, .cancel 2, .pass 3]
    w.contexts.map (·.interrupt? w.moment) = [none, none, some .cancelled] := by decide

/-- **Endless work** in a context that never fails is neither done nor cancelled. -/
theorem endless_work_hangs : (run {} [.background]).contexts[0]? = some (.background 0) ∧
    (∀ t, ¬ (Context.background 0).Interrupted
      ((run {} [.background]).run (Deed.upTo 0 t [])).moment) ∧
    ∀ t (a : Except Error Unit) d,
      ¬ (((run {} [.background]).forecast []).work (.background 0) none (.ok ()) {}).Finishes t a d := by
  have calm (t : Time) : ¬ (Context.background 0).Interrupted ⟨t, []⟩ := by
    simp [Context.interrupted_iff, Moment.isCancelled, Context.background]
  have still (t : Time) : ((run {} [.background]).run (Deed.upTo 0 t [])).moment = ⟨t, []⟩ :=
    (view_forecast [] (Nat.zero_le t)).symm
  refine ⟨rfl, fun t => ?_, fun t a d => (Forecast.work_lasts fun t _ => calm t).not_finishes⟩
  rw [still]
  exact calm t

end Family

end PackageDepot
