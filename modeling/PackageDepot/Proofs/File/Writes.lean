import PackageDepot.Proofs.File.Places

/-!
# Files that are written one after the other

`Wrote t files t'` says that files were written into the tree `t`, one after the other, and directories made
for them. A place holds the text that was written there last (`latest`), and what stands where nothing was
written stays. So does every directory, and therefore a path that led to a file leads there ever after
(`Tree.locate_mono`). Each file that was written reads as the last text at its place (`Wrote.read_eq`), and
all of them read back if and only if no two texts were written at one place (`Wrote.read_iff`).
-/

namespace PackageDepot.File

open Backend (bind_eq_ok_iff)

/-! ## The last text at a place -/

variable {start : Place} {files more : List (String × String)} {p : Place} {s : String}

/-- The text that is written last at a place, when files are written by these paths one after the other. -/
def latest (start : Place) : List (String × String) → Place → Option String
  | [], _ => none
  | f :: rest, p => (latest start rest p).or (if Path.place start f.1 = p then some f.2 else none)

theorem latest_append (start : Place) (files more : List (String × String)) (p : Place) :
    latest start (files ++ more) p = (latest start more p).or (latest start files p) := by
  induction files with
  | nil => rw [List.nil_append, latest, Option.or_none]
  | cons f rest ih => rw [List.cons_append, latest, ih, latest, Option.or_assoc]

/-- The last text at a place was written there. -/
theorem exists_of_latest (h : latest start files p = some s) :
    ∃ f ∈ files, Path.place start f.1 = p ∧ f.2 = s := by
  induction files with
  | nil => cases h
  | cons f rest ih =>
    obtain later | ⟨-, now⟩ := Option.or_eq_some_iff.1 h
    · obtain ⟨g, hg, there⟩ := ih later
      exact ⟨g, List.mem_cons_of_mem _ hg, there⟩
    · split at now
      · next here => exact ⟨f, List.mem_cons_self, here, Option.some.inj now⟩
      · cases now

/-- Where a file was written there is a last one. -/
theorem exists_latest (start : Place) {f : String × String} (hf : f ∈ files) :
    ∃ s, latest start files (Path.place start f.1) = some s := by
  induction files with
  | nil => cases hf
  | cons g rest ih =>
    rw [latest]
    cases later : latest start rest (Path.place start f.1) with
    | some s => exact ⟨s, rfl⟩
    | none =>
      obtain rfl | hf := List.mem_cons.1 hf
      · exact ⟨f.2, by rw [if_pos rfl]; rfl⟩
      · obtain ⟨s, hs⟩ := ih hf
        cases later.symm.trans hs

/-- Each file is the last one at its place, if and only if files at one place have one text. -/
theorem latest_iff : (∀ f ∈ files, latest start files (Path.place start f.1) = some f.2) ↔
    ∀ f ∈ files, ∀ g ∈ files, Path.place start f.1 = Path.place start g.1 → f.2 = g.2 := by
  constructor
  · intro last f hf g hg same
    have one := last f hf
    rw [same, last g hg] at one
    exact (Option.some.inj one).symm
  · intro agree f hf
    obtain ⟨s, hs⟩ := exists_latest start hf
    obtain ⟨g, hg, same, rfl⟩ := exists_of_latest hs
    rw [hs, agree g hg f hf same]

/-! ## Paths in a tree that changes -/

namespace Tree

variable {t t' : Tree} {path : String}

/-- Names that are followed can be followed wherever the directories are. -/
theorem walk_mono (directories : ∀ p, t.get? p = some .directory → t'.get? p = some .directory)
    {p q : Place} {names : List String} (h : t.walk p names = .ok q) : t'.walk p names = .ok q := by
  induction names generalizing p with
  | nil => exact h
  | cons name rest ih =>
    rw [walk] at h ⊢
    split
    · next here =>
      rw [if_pos here] at h
      exact ih h
    · next here =>
      rw [if_neg here] at h
      split
      · next up =>
        rw [if_pos up] at h
        exact ih h
      · next up =>
        rw [if_neg up] at h
        split
        · next long =>
          rw [if_pos long] at h
          cases h
        · next short =>
          rw [if_neg short] at h
          split at h
          · cases h
          · cases h
          · next there =>
            rw [directories _ there]
            exact ih h

/-- **A path leads where it led before**, as long as the directories stay. -/
theorem locate_mono (current : t'.current = t.current)
    (directories : ∀ p, t.get? p = some .directory → t'.get? p = some .directory) {target : Target}
    (h : t.locate path = .ok target) : t'.locate path = .ok target := by
  have walked : ∀ {names : List String} {f : Place → Target},
      (t.walk (if Path.isAbsolute path then [] else t.current) names).map f = .ok target →
      (t'.walk (if Path.isAbsolute path then [] else t.current) names).map f = .ok target := by
    intro names f h
    cases hw : t.walk (if Path.isAbsolute path then [] else t.current) names with
    | error e =>
      rw [hw] at h
      cases h
    | ok q =>
      rw [hw] at h
      rw [walk_mono directories hw]
      exact h
  simp only [locate, current] at h ⊢
  split at h
  · cases h
  next plain =>
  split at h
  · cases h
  next full =>
  split at h
  · cases h
  next short =>
  rw [if_neg plain, if_neg full, if_neg short]
  split at h
  · exact h
  · split at h
    · next dots =>
      rw [if_pos dots]
      exact walked h
    · next named =>
      rw [if_neg named]
      exact walked h

/-- A path leads to a name that a file may have. -/
def Names (t : Tree) (path : String) : Prop :=
  ∃ p name, t.locate path = .ok (.named p name false) ∧ ¬ name.utf8ByteSize > maxName

/-- A file can be written only where no directory is, by a path that leads to a name. -/
theorem write_names {text : String} (h : t.write path text = .ok t') :
    t.Names path ∧ t.get? (Path.place t.current path) ≠ some .directory := by
  rw [write, change, bind_eq_ok_iff] at h
  obtain ⟨target, located, h⟩ := h
  cases target with
  | directory p => cases h
  | named p name asDirectory =>
    rw [← locate_ok located]
    dsimp only at h
    split at h
    · cases h
    next file =>
    split at h
    · cases h
    next short =>
    rw [Bool.eq_false_iff.2 file] at located
    refine ⟨⟨p, name, located, short⟩, fun directory => ?_⟩
    rw [directory] at h
    cases h

/-- A file is read by a path that leads to it. -/
theorem read_of_names (names : t.Names path) {text : String}
    (there : t.get? (Path.place t.current path) = some (.file text)) : t.read path = .ok text := by
  obtain ⟨p, name, located, short⟩ := names
  rw [← locate_ok located] at there
  rw [read, located]
  show (if name.utf8ByteSize > maxName then _ else _) = _
  rw [if_neg short, there]
  rfl

end Tree

/-! ## Writing -/

/-- Files were written one after the other, and directories made for them. -/
structure Wrote (t : Tree) (files : List (String × String)) (t' : Tree) : Prop where
  current : t'.current = t.current
  directories : ∀ p, t.get? p = some .directory → t'.get? p = some .directory
  kept : ∀ p e, t.get? p = some e → latest t.current files p = none → t'.get? p = some e
  last : ∀ p s, latest t.current files p = some s → t'.get? p = some (.file s)
  named : ∀ f ∈ files, t'.Names f.1

namespace Wrote

variable {t t' t'' : Tree}

theorem refl (t : Tree) : Wrote t [] t := ⟨rfl, fun _ h => h, fun _ _ h _ => h, nofun, nofun⟩

theorem trans (h : Wrote t files t') (h' : Wrote t' more t'') : Wrote t (files ++ more) t'' where
  current := h'.current.trans h.current
  directories p there := h'.directories p (h.directories p there)
  kept p e there none := by
    rw [latest_append, Option.or_eq_none_iff] at none
    exact h'.kept p e (h.kept p e there none.2) (h.current ▸ none.1)
  last p s written := by
    rw [latest_append, Option.or_eq_some_iff] at written
    obtain later | ⟨none, before⟩ := written
    · exact h'.last p s (h.current ▸ later)
    · exact h'.kept p _ (h.last p s before) (h.current ▸ none)
  named f hf := by
    obtain before | later := List.mem_append.1 hf
    · obtain ⟨p, name, located, short⟩ := h.named f before
      exact ⟨p, name, Tree.locate_mono h'.current h'.directories located, short⟩
    · exact h'.named f later

theorem of_grows {places : Place → Prop} (h : Tree.Grows places t t') : Wrote t [] t' := by
  have stays : ∀ p e, t.get? p = some e → t'.get? p = some e := by
    intro p e there
    obtain same | ⟨none, -, -⟩ := h.made p
    · exact same.trans there
    · cases none.symm.trans there
  exact ⟨h.current, fun p => stays p _, fun p e there _ => stays p e there, nofun, nofun⟩

theorem of_write {path text : String} (h : t.write path text = .ok t') : Wrote t [(path, text)] t' := by
  obtain ⟨current, here, others⟩ := Tree.write_ok h
  obtain ⟨⟨q, name, located, short⟩, free⟩ := Tree.write_names h
  have directories : ∀ p, t.get? p = some .directory → t'.get? p = some .directory := by
    intro p there
    rwa [others p]
    rintro rfl
    exact free there
  refine ⟨current, directories, fun p e there none => ?_, fun p s written => ?_, fun f hf => ?_⟩
  · rwa [others p]
    rintro rfl
    obtain ⟨s, written⟩ := exists_latest t.current (List.mem_singleton_self (path, text))
    cases none.symm.trans written
  · obtain ⟨f, hf, rfl, rfl⟩ := exists_of_latest written
    cases List.mem_singleton.1 hf
    exact here
  · cases List.mem_singleton.1 hf
    exact ⟨q, name, Tree.locate_mono current directories located, short⟩

/-- **A file reads as the last text that was written at its place.** -/
theorem read_eq (h : Wrote t files t') {f : String × String} (hf : f ∈ files) :
    ∃ s, latest t.current files (Path.place t.current f.1) = some s ∧ t'.read f.1 = .ok s := by
  obtain ⟨s, hs⟩ := exists_latest t.current hf
  refine ⟨s, hs, Tree.read_of_names (h.named f hf) ?_⟩
  rw [h.current]
  exact h.last _ s hs

/-- **All files read back** if and only if those at one place have one text. -/
theorem read_iff (h : Wrote t files t') : (∀ f ∈ files, t'.read f.1 = .ok f.2) ↔
    ∀ f ∈ files, ∀ g ∈ files, Path.place t.current f.1 = Path.place t.current g.1 → f.2 = g.2 := by
  rw [← latest_iff]
  refine forall₂_congr fun f hf => ?_
  obtain ⟨s, hs, read⟩ := h.read_eq hf
  rw [hs, read, Except.ok.injEq, Option.some.injEq]

end Wrote

end PackageDepot.File
