import Mathlib.Data.List.Basic
import PackageDepot.File.Tree
import PackageDepot.Proofs.Backend.Git

/-!
# The places that paths lead to

`Path.place` follows a path as its text says, whatever is there. In a tree a path leads to this place or
nowhere (`Tree.locate_ok`), so a file is written at the place of its path alone (`Tree.write_ok`), and
directories are made at places on the way to the place of theirs (`Tree.makeDirectories_grows`).
-/

namespace PackageDepot.File

open Backend (bind_eq_ok_iff)

/-- Go on from a place: `.` stays there, and `..` goes to the directory above. -/
def follow : Place → List String → Place
  | p, [] => p
  | p, name :: rest =>
    if name = "." then follow p rest
    else if name = ".." then follow p.dropLast rest
    else follow (p ++ [name]) rest

/-- Going on by names never leads above where it begins; `depth` directories are below that already. -/
def stays (depth : Nat) : List String → Bool
  | [] => true
  | name :: rest =>
    if name = "." then stays depth rest
    else if name = ".." then depth != 0 && stays (depth - 1) rest
    else stays (depth + 1) rest

theorem follow_append (p : Place) (a b : List String) : follow p (a ++ b) = follow (follow p a) b := by
  induction a generalizing p with
  | nil => rfl
  | cons name rest ih =>
    rw [List.cons_append, follow, follow]
    split
    · exact ih _
    · split
      · exact ih _
      · exact ih _

/-- Names that go down lead to below. -/
theorem follow_down (p : Place) {names : List String} (down : ".." ∉ names) :
    follow p names = p ++ names.filter (· ≠ ".") := by
  induction names generalizing p with
  | nil => exact (List.append_nil p).symm
  | cons name rest ih =>
    rw [List.mem_cons, not_or] at down
    rw [follow]
    split
    · next h => rw [ih _ down.2, h, List.filter_cons_of_neg (by simp)]
    · next h =>
      rw [if_neg (Ne.symm down.1), ih _ down.2, List.filter_cons_of_pos (by simpa using h),
        List.append_assoc]
      rfl

/-- Names that stay below a place lead to below it. -/
theorem prefix_follow (p : Place) {q : Place} {names : List String} (h : stays q.length names) :
    p <+: follow (p ++ q) names := by
  induction names generalizing q with
  | nil => exact List.prefix_append p q
  | cons name rest ih =>
    rw [follow]
    rw [stays] at h
    split
    · next here =>
      rw [if_pos here] at h
      exact ih h
    · next here =>
      rw [if_neg here] at h
      split
      · next up =>
        rw [if_pos up, Bool.and_eq_true, bne_iff_ne] at h
        -- A step up is a step back from a name that was followed before.
        rw [List.dropLast_append_of_ne_nil (List.ne_nil_of_length_pos (Nat.pos_of_ne_zero h.1))]
        exact ih (by rw [List.length_dropLast]; exact h.2)
      · next up =>
        rw [if_neg up] at h
        rw [List.append_assoc]
        exact ih (by rwa [List.length_append])

theorem stays_take {depth : Nat} {names : List String} (h : stays depth names) (k : Nat) :
    stays depth (names.take k) := by
  induction names generalizing depth k with
  | nil => rw [List.take_nil]; rfl
  | cons name rest ih =>
    cases k with
    | zero => rfl
    | succ k =>
      rw [List.take_succ_cons, stays]
      rw [stays] at h
      split
      · next here =>
        rw [if_pos here] at h
        exact ih h k
      · next here =>
        rw [if_neg here] at h
        split
        · next up =>
          rw [if_pos up, Bool.and_eq_true] at h
          rw [Bool.and_eq_true]
          exact ⟨h.1, ih h.2 k⟩
        · next up =>
          rw [if_neg up] at h
          exact ih h k

/-! ## Paths -/

namespace Path

/-- The place where a path begins. -/
def origin (start : Place) (path : String) : Place := if isAbsolute path then [] else start

/-- The place that a path leads to from a directory on, as its text says. -/
def place (start : Place) (path : String) : Place := follow (origin start path) (Tree.names path)

/-- A place that a path comes through. -/
def Passes (start : Place) (path : String) (p : Place) : Prop :=
  ∃ k, p = follow (origin start path) ((Tree.names path).take k)

/-- The names in the characters of a path. -/
def namesIn (s : List Char) : List String :=
  ((Text.split '/' s).filter fun n => !n.isEmpty).map String.ofList

theorem names_eq (path : String) : Tree.names path = namesIn path.toList := rfl

theorem namesIn_append (a b : List Char) : namesIn (a ++ '/' :: b) = namesIn a ++ namesIn b := by
  rw [namesIn, Text.split_append, List.filter_append, List.map_append]
  rfl

/-- A slash at the end names nothing. -/
theorem namesIn_slash (a : List Char) : namesIn (a ++ ['/']) = namesIn a := by
  rw [namesIn_append]
  exact List.append_nil _

/-! ### Going up -/

/-- A path that the other one begins with, cut where a name ends. -/
structure Before (a s : List Char) : Prop where
  chars : a <+: s
  names : namesIn a <+: namesIn s

theorem Before.refl (s : List Char) : Before s s := ⟨List.prefix_refl s, List.prefix_refl _⟩

theorem Before.trans {a b c : List Char} (h : Before a b) (h' : Before b c) : Before a c :=
  ⟨h.chars.trans h'.chars, h.names.trans h'.names⟩

theorem Before.nil (s : List Char) : Before [] s := ⟨List.nil_prefix, List.nil_prefix⟩

/-- A slash may be kept or not. -/
theorem Before.slash (a b : List Char) : Before (a ++ ['/']) (a ++ '/' :: b) where
  chars := ⟨b, by simp⟩
  names := by
    rw [namesIn_slash, namesIn_append]
    exact List.prefix_append ..

theorem Before.cut (a b : List Char) : Before a (a ++ '/' :: b) where
  chars := List.prefix_append ..
  names := by
    rw [namesIn_append]
    exact List.prefix_append ..

theorem before_trimEnding (s : List Char) : Before (trimEnding s).reverse s.reverse := by
  fun_induction trimEnding s with
  | case1 rest h =>
    rw [List.isEmpty_iff.1 h]
    exact .refl _
  | case2 rest h ih =>
    refine ih.trans ?_
    rw [List.reverse_cons]
    exact .cut ..
  | case3 rest ih =>
    refine ih.trans ?_
    have := Before.slash rest.reverse ['.']
    simpa using this
  | case4 s h h' => exact .refl _

theorem before_parentOf {s parent : List Char} (h : parentOf? s = some parent) : Before parent s := by
  have trimmed := before_trimEnding s.reverse
  rw [List.reverse_reverse] at trimmed
  rw [parentOf?] at h
  split at h
  · cases h
  · next c rest hs =>
    rw [hs] at trimmed
    split at h
    · cases h
    · cases h
      refine (before_trimEnding _).trans (.trans ?_ trimmed)
      -- What is left when the last name is dropped ends where the name begins.
      have parts := List.takeWhile_append_dropWhile (p := (· != '/')) (l := rest)
      cases hd : rest.dropWhile (· != '/') with
      | nil => exact .nil _
      | cons d above =>
        have slash : d = '/' := by
          have := List.head?_dropWhile_not (· != '/') rest
          rw [hd] at this
          simpa using this
        subst slash
        rw [← parts, hd]
        have := Before.slash above.reverse ((c :: rest.takeWhile (· != '/')).reverse)
        simpa using this

theorem before_parent {path parent : String} (h : parent? path = some parent) :
    Before parent.toList path.toList := by
  obtain ⟨q, up, rfl⟩ := Option.map_eq_some_iff.1 h
  rw [String.toList_ofList]
  exact before_parentOf up

theorem before_ascent {s q : List Char} (h : q ∈ ascent s) : Before q s ∧ q ≠ [] := by
  fun_induction ascent s with
  | case1 s none => cases h
  | case2 s some parent up ih =>
    obtain rfl | h := List.mem_cons.1 h
    · exact ⟨.refl _, fun none => some (List.isEmpty_iff.2 none)⟩
    · exact ⟨(ih h).1.trans (before_parentOf up), (ih h).2⟩
  | case3 s some top =>
    cases List.mem_singleton.1 h
    exact ⟨.refl _, fun none => some (List.isEmpty_iff.2 none)⟩

theorem isAbsolute_of_before {a s : List Char} (h : Before a s) (there : a ≠ []) :
    isAbsolute (String.ofList a) = isAbsolute (String.ofList s) := by
  obtain ⟨b, rfl⟩ := h.chars
  cases a with
  | nil => exact (there rfl).elim
  | cons c a => simp [isAbsolute]

/-- A path that another one begins with leads to a place that the other one comes through. -/
theorem Before.passes {start : Place} {path : String} {q : List Char} (before : Before q path.toList)
    (there : q ≠ []) : Passes start path (place start (String.ofList q)) := by
  have absolute := isAbsolute_of_before before there
  have taken := List.prefix_iff_eq_take.1 before.names
  rw [String.ofList_toList] at absolute
  refine ⟨(namesIn q).length, ?_⟩
  rw [place, origin, origin, absolute, names_eq, names_eq, String.toList_ofList, ← taken]

/-! ### Joining -/

theorem names_join {directory path : String} (h : isAbsolute path = false) :
    Tree.names (join directory path) = Tree.names directory ++ Tree.names path := by
  rw [join, h, if_neg Bool.false_ne_true]
  split
  · next ends =>
    rw [Bool.or_eq_true, decide_eq_true_iff] at ends
    obtain empty | slash := ends
    · rw [String.isEmpty_iff.1 empty, String.empty_append]
      rfl
    · obtain ⟨above, same⟩ := List.getLast?_eq_some_iff.1 slash
      rw [names_eq, names_eq, names_eq, String.toList_append, same, List.append_assoc, namesIn_slash]
      exact namesIn_append ..
  · rw [names_eq, names_eq, names_eq, String.toList_append, String.toList_append, List.append_assoc]
    exact namesIn_append ..

theorem isAbsolute_join {directory path : String} (h : isAbsolute path = false) :
    isAbsolute (join directory path) = isAbsolute directory := by
  by_cases empty : directory = ""
  · subst empty
    rw [join, h, if_neg Bool.false_ne_true, if_pos (by rfl), String.empty_append, h]
    rfl
  · have there : directory.toList ≠ [] := fun none => empty (String.toList_inj.1 none)
    rw [join, h, if_neg Bool.false_ne_true]
    split
    · simp [isAbsolute, List.head?_append_of_ne_nil _ there]
    · simp [isAbsolute, List.head?_append_of_ne_nil _ there]

/-- A path that goes down has no name that leads up. -/
theorem names_of_goesDown {path : String} (h : goesDown path) :
    isAbsolute path = false ∧ ".." ∉ Tree.names path := by
  simp only [goesDown, Bool.and_eq_true, Bool.not_eq_true', List.contains_eq_mem,
    decide_eq_false_iff_not] at h
  obtain ⟨⟨relative, -⟩, down⟩ := h
  refine ⟨relative, fun up => down ?_⟩
  obtain ⟨n, hn, same⟩ := List.mem_map.1 up
  obtain rfl : n = ['.', '.'] := String.ofList_injective same
  exact (List.mem_filter.1 hn).1

theorem place_join {start : Place} {directory path : String} (h : isAbsolute path = false) :
    place start (join directory path) = follow (place start directory) (Tree.names path) := by
  rw [place, place, origin, origin, isAbsolute_join h, names_join h, follow_append]

/-- A place that a longer path comes through is on its first part, or behind it. -/
theorem Passes.split {start p : Place} {directory path : String} {names : List String}
    (begins : origin start path = origin start directory)
    (all : Tree.names path = Tree.names directory ++ names) (h : Passes start path p) :
    Passes start directory p ∨ ∃ k, p = follow (place start directory) (names.take k) := by
  obtain ⟨k, rfl⟩ := h
  rw [begins, all, List.take_append]
  obtain within | behind := Nat.le_total k (Tree.names directory).length
  · rw [Nat.sub_eq_zero_of_le within, List.take_zero, List.append_nil]
    exact .inl ⟨k, rfl⟩
  · rw [List.take_of_length_le behind, follow_append]
    exact .inr ⟨_, rfl⟩

end Path

/-! ## Trees -/

namespace Tree

variable {t t' : Tree} {path : String}

theorem walk_ok {p q : Place} {names : List String} (h : t.walk p names = .ok q) :
    q = follow p names := by
  induction names generalizing p with
  | nil =>
    cases h
    rfl
  | cons name rest ih =>
    rw [walk] at h
    rw [follow]
    split at h
    · next here =>
      rw [if_pos here]
      exact ih h
    · next here =>
      rw [if_neg here]
      split at h
      · next up =>
        rw [if_pos up]
        exact ih h
      · next up =>
        rw [if_neg up]
        split at h
        · cases h
        · split at h
          · cases h
          · cases h
          · exact ih h

/-- **A path leads to its place**, if it leads to a name. -/
theorem locate_ok {p : Place} {name : String} {asDirectory : Bool}
    (h : t.locate path = .ok (.named p name asDirectory)) : p ++ [name] = Path.place t.current path := by
  have start : (if Path.isAbsolute path then [] else t.current) = Path.origin t.current path := rfl
  simp only [locate, start] at h
  split at h
  · cases h
  split at h
  · cases h
  split at h
  · cases h
  split at h
  · cases h
  next last found =>
  split at h
  · cases hw : t.walk (Path.origin t.current path) (names path) with
    | error e => rw [hw] at h; cases h
    | ok q => rw [hw] at h; cases h
  next plain =>
  cases hw : t.walk (Path.origin t.current path) (names path).dropLast with
  | error e => rw [hw] at h; cases h
  | ok q =>
    rw [hw] at h
    cases h
    obtain ⟨front, all⟩ := List.getLast?_eq_some_iff.1 found
    rw [Path.place, walk_ok hw, all, List.dropLast_concat, follow_append]
    simp only [Bool.or_eq_true, decide_eq_true_eq, not_or] at plain
    rw [follow, if_neg plain.1, if_neg plain.2, follow]

/-- A file is written at the place of its path, and nowhere else. -/
theorem write_ok {text : String} (h : t.write path text = .ok t') :
    t'.current = t.current ∧ t'.get? (Path.place t.current path) = some (.file text) ∧
      ∀ p ≠ Path.place t.current path, t'.get? p = t.get? p := by
  have put {q : Place} {name : String} (same : q ++ [name] = Path.place t.current path)
      (h : t.put (q ++ [name]) (.file text) = t') :
      t'.current = t.current ∧ t'.get? (Path.place t.current path) = some (.file text) ∧
        ∀ p ≠ Path.place t.current path, t'.get? p = t.get? p := by
    subst h
    have there : q ++ [name] ≠ [] := by simp
    rw [← same]
    refine ⟨rfl, ?_, fun p other => ?_⟩
    · rw [get?_put _ _ there, if_pos rfl]
    · rw [get?_put _ _ there, if_neg other]
  rw [write, change, bind_eq_ok_iff] at h
  obtain ⟨target, located, h⟩ := h
  cases target with
  | directory p => cases h
  | named p name asDirectory =>
    have same := locate_ok located
    dsimp only at h
    split at h
    · cases h
    split at h
    · cases h
    split at h
    · cases h
    · exact put same (Except.ok.inj h)
    · exact put same (Except.ok.inj h)

/-- All that is new in a tree are directories, at places where nothing was. -/
structure Grows (places : Place → Prop) (t t' : Tree) : Prop where
  current : t'.current = t.current
  made : ∀ p, t'.get? p = t.get? p ∨ t.get? p = none ∧ t'.get? p = some .directory ∧ places p

namespace Grows

variable {places others : Place → Prop} {t'' : Tree}

theorem refl (t : Tree) : Grows places t t := ⟨rfl, fun _ => .inl rfl⟩

theorem trans (h : Grows places t t') (h' : Grows places t' t'') : Grows places t t'' where
  current := h'.current.trans h.current
  made p := by
    obtain same | ⟨none, made, there⟩ := h.made p
    · rw [← same]
      exact h'.made p
    · obtain same' | ⟨none', -, -⟩ := h'.made p
      · exact .inr ⟨none, same'.trans made, there⟩
      · rw [made] at none'
        cases none'

theorem mono (h : Grows places t t') (sub : ∀ p, places p → others p) : Grows others t t' where
  current := h.current
  made p := (h.made p).imp_right fun ⟨new, made, there⟩ => ⟨new, made, sub p there⟩

end Grows

theorem makeDirectory_ok (h : t.makeDirectory path = .ok t') :
    Grows (· = Path.place t.current path) t t' := by
  rw [makeDirectory, bind_eq_ok_iff] at h
  obtain ⟨target, located, h⟩ := h
  cases target with
  | directory p => cases h
  | named p name asDirectory =>
    have same := locate_ok located
    dsimp only at h
    split at h
    · cases h
    split at h
    · cases h
    next new =>
    cases h
    refine ⟨rfl, fun q => ?_⟩
    rw [get?_put _ _ (by simp)]
    split
    · next here =>
      rw [here]
      exact .inr ⟨new, rfl, same⟩
    · exact .inl rfl

theorem ensureDirectory_ok (h : t.ensureDirectory path = .ok t') :
    Grows (· = Path.place t.current path) t t' := by
  rw [ensureDirectory] at h
  split at h
  · next made =>
    cases h
    exact makeDirectory_ok made
  · split at h
    · cases h
      exact .refl t
    · cases h

theorem settle_grows {places : Place → Prop} {r : Except Fault Tree}
    (h : ∀ t', r = .ok t' → Grows places t t') : Grows places t (t.settle r).2 := by
  cases r with
  | ok t' => exact h t' rfl
  | error e => exact .refl t

/-- Directories are made at the places of their paths, also where the last one cannot be made. -/
theorem makeAscent_grows (t : Tree) (paths : List String) :
    Grows (fun p => ∃ path ∈ paths, p = Path.place t.current path) t (t.makeAscent paths).2 := by
  induction paths with
  | nil => exact .refl t
  | cons path above ih =>
    have first {t₁ : Tree} (same : t₁.current = t.current) (t₂ : Tree)
        (h : t₁.ensureDirectory path = .ok t₂) :
        Grows (fun p => ∃ q ∈ path :: above, p = Path.place t.current q) t₁ t₂ :=
      (ensureDirectory_ok h).mono fun p there => ⟨path, List.mem_cons_self, same ▸ there⟩
    have rest : Grows (fun p => ∃ q ∈ path :: above, p = Path.place t.current q) t
        (t.makeAscent above).2 :=
      ih.mono fun p ⟨q, hq, there⟩ => ⟨q, List.mem_cons_of_mem _ hq, there⟩
    rw [makeAscent]
    split
    · next missing =>
      split
      · next t₁ made =>
        rw [made] at rest
        exact rest.trans (settle_grows (first rest.current))
      · next made =>
        rw [made] at rest
        exact rest
    · exact settle_grows (first rfl)

/-- **Making a directory makes directories on the way to it**, and nothing else. -/
theorem makeDirectories_grows (t : Tree) (path : String) :
    Grows (fun p => ∃ q ∈ Path.ascent path.toList, p = Path.place t.current (String.ofList q)) t
      (t.makeDirectories path).2 :=
  (makeAscent_grows t _).mono fun p ⟨q, hq, there⟩ => by
    obtain ⟨s, hs, rfl⟩ := List.mem_map.1 hq
    exact ⟨s, hs, there⟩

end Tree

end PackageDepot.File
