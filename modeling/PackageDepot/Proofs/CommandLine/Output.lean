import PackageDepot.CommandLine.Render
import PackageDepot.Pipeline.Validation
import PackageDepot.Proofs.File.Places

/-!
# Where a revision is written

A revision is written into a tree that keeps a journal of the files that were written (`Journal`), which
changes nothing else (`Mirrors`). Each file is written below the directory of the revision and directories
are made on the way to it. The names of the revision are taken as they are, so its directory is below the
output root if they stay below it (`StaysBelow`), and may be anywhere otherwise.
-/

namespace PackageDepot.CommandLine

open File Package

/-! ## Journals -/

/-- A tree, with the paths at which files were written into it. -/
structure Journal where
  tree : Tree
  written : List String := []

instance : Access (StateM Journal) where
  read path := fun j => (j.tree.read path, j)
  write path text := fun j =>
    match j.tree.write path text with
    | .ok t => (.ok (), ⟨t, path :: j.written⟩)
    | .error e => (.error e, j)
  touch path := fun j =>
    match j.tree.settle (j.tree.touch path) with
    | (r, t) => (r, { j with tree := t })
  ensureDirectories path := fun j =>
    match j.tree.makeDirectories path with
    | (r, t) => (r, { j with tree := t })

variable {α β : Type}

/-- A run goes on where its first part ends, unless this fails. -/
theorem run_bind {σ : Type} (x : ExceptT Failure (StateM σ) α) (f : α → ExceptT Failure (StateM σ) β)
    (t : σ) : (x >>= f).run.run t = match x.run.run t with
      | (.ok a, t') => (f a).run.run t'
      | (.error e, t') => (.error e, t') := by
  show StateT.run (x.run >>= ExceptT.bindCont f) t = _
  rw [StateT.run_bind]
  cases x.run.run t with
  | mk result t' => cases result <;> rfl

/-- A run that succeeds is one of its first part, and then one of the rest. -/
theorem run_bind_ok {σ : Type} {x : ExceptT Failure (StateM σ) α} {f : α → ExceptT Failure (StateM σ) β}
    {t t'' : σ} {b : β} (h : (x >>= f).run.run t = (.ok b, t'')) :
    ∃ a t', x.run.run t = (.ok a, t') ∧ (f a).run.run t' = (.ok b, t'') := by
  rw [run_bind] at h
  cases first : x.run.run t with
  | mk result t' =>
    rw [first] at h
    cases result with
    | ok a => exact ⟨a, t', rfl, h⟩
    | error e => cases h

/-- Every run leads to a journal that `R` relates to the one before. -/
def Leads (R : Journal → Journal → Prop) (x : ExceptT Failure (StateM Journal) α) : Prop :=
  ∀ j, R j (x.run.run j).2

namespace Leads

variable {R : Journal → Journal → Prop}

theorem pure (refl : ∀ j, R j j) (a : α) : Leads R (Pure.pure a) := refl

theorem throw (refl : ∀ j, R j j) (e : Failure) : Leads R (throw e : ExceptT Failure (StateM Journal) α) :=
  refl

theorem bind (trans : ∀ i j k, R i j → R j k → R i k) {x : ExceptT Failure (StateM Journal) α}
    {f : α → ExceptT Failure (StateM Journal) β} (hx : Leads R x) (hf : ∀ a, Leads R (f a)) :
    Leads R (x >>= f) := by
  intro j
  have first := hx j
  rw [run_bind]
  cases h : x.run.run j with
  | mk r j' =>
    rw [h] at first
    cases r with
    | ok a => exact trans _ _ _ first (hf a j')
    | error e => exact first

theorem adapt {c : StateM Journal (Except Fault α)} (h : ∀ j, R j (c j).2) (f : Fault → Failure) :
    Leads R (ExceptT.adapt f (ExceptT.mk c)) := h

end Leads

/-- A run with a journal does to the tree what a run without one does, and ends alike. -/
def Mirrors (x : ExceptT Failure (StateM Journal) α) (y : ExceptT Failure (StateM Tree) α) : Prop :=
  ∀ j, y.run.run j.tree = ((x.run.run j).1, (x.run.run j).2.tree)

namespace Mirrors

theorem pure (a : α) : Mirrors (Pure.pure a) (Pure.pure a) := fun _ => rfl

theorem throw (e : Failure) :
    Mirrors (throw e : ExceptT Failure (StateM Journal) α) (throw e : ExceptT Failure (StateM Tree) α) :=
  fun _ => rfl

theorem bind {x : ExceptT Failure (StateM Journal) α} {y : ExceptT Failure (StateM Tree) α}
    {f : α → ExceptT Failure (StateM Journal) β} {g : α → ExceptT Failure (StateM Tree) β}
    (h : Mirrors x y) (h' : ∀ a, Mirrors (f a) (g a)) : Mirrors (x >>= f) (y >>= g) := by
  intro j
  rw [run_bind, run_bind, h j]
  cases x.run.run j with
  | mk r j' =>
    cases r with
    | ok a => exact h' a j'
    | error e => rfl

theorem makingDirectories (path : String) (f : Fault → Failure) :
    Mirrors (ExceptT.adapt f (ExceptT.mk (Access.ensureDirectories path)))
      (ExceptT.adapt f (ExceptT.mk (Access.ensureDirectories path))) := fun _ => rfl

theorem writing (path text : String) (f : Fault → Failure) :
    Mirrors (ExceptT.adapt f (ExceptT.mk (Access.write path text)))
      (ExceptT.adapt f (ExceptT.mk (Access.write path text))) := by
  intro j
  show (Except.mapError f (j.tree.settle (j.tree.write path text)).1, _) =
    (Except.mapError f (Access.write (m := StateM Journal) path text j).1,
      (Access.write (m := StateM Journal) path text j).2.tree)
  simp only [Access.write]
  cases j.tree.write path text with
  | ok t => rfl
  | error e => rfl

end Mirrors

theorem writeFile_mirrors (directory path text : String) :
    Mirrors (writeFile directory path text) (writeFile directory path text) := by
  unfold writeFile
  have write := Mirrors.writing (Path.join directory path) text (.writing (Path.join directory path))
  cases Path.goesDown path with
  | false => exact .throw _
  | true =>
    dsimp only
    cases Path.parent? (Path.join directory path) with
    | none => exact write
    | some parent => exact .bind (.makingDirectories parent _) fun _ => write

theorem writeRevision_mirrors (root : String) (r : RevisionFiles) :
    Mirrors (writeRevision root r) (writeRevision root r) := by
  unfold writeRevision
  induction r.files.toList with
  | nil => exact .pure ()
  | cons e rest ih =>
    exact .bind (writeFile_mirrors _ e.1 e.2) fun _ => ih

/-! ## What is written -/

/-- Files of some paths were written below a directory, and directories made on the way to them. -/
structure Within (directory : String) (paths : List String) (j j' : Journal) : Prop where
  current : j'.tree.current = j.tree.current
  kept : ∀ target ∈ j.written, target ∈ j'.written
  written : ∀ target ∈ j'.written, target ∈ j.written ∨
    ∃ path ∈ paths, Path.goesDown path ∧ target = Path.join directory path
  changes : ∀ p, j'.tree.get? p = j.tree.get? p ∨
    (∃ target ∈ j'.written, p = Path.place j.tree.current target) ∨
    j.tree.get? p = none ∧ j'.tree.get? p = some .directory ∧
      ∃ path ∈ paths, Path.goesDown path ∧ Path.Passes j.tree.current (Path.join directory path) p

namespace Within

variable {directory : String} {paths others : List String} {i j k : Journal}

theorem refl (j : Journal) : Within directory paths j j :=
  ⟨rfl, fun _ h => h, fun _ h => .inl h, fun _ => .inl rfl⟩

theorem trans (h : Within directory paths i j) (h' : Within directory paths j k) :
    Within directory paths i k where
  current := h'.current.trans h.current
  kept target there := h'.kept target (h.kept target there)
  written target there := (h'.written target there).elim (h.written target) .inr
  changes p := by
    have later := h'.changes p
    rw [h.current] at later
    obtain same | ⟨target, there, here⟩ | ⟨new, made, on⟩ := h.changes p
    · rwa [same] at later
    · exact .inr (.inl ⟨target, h'.kept target there, here⟩)
    · obtain same' | file | ⟨new', -, -⟩ := later
      · exact .inr (.inr ⟨new, same'.trans made, on⟩)
      · exact .inr (.inl file)
      · rw [made] at new'
        cases new'

theorem mono (h : Within directory paths i j) (sub : ∀ path ∈ paths, path ∈ others) :
    Within directory others i j where
  current := h.current
  kept := h.kept
  written target there := (h.written target there).imp_right
    fun ⟨path, hp, named⟩ => ⟨path, sub path hp, named⟩
  changes p := (h.changes p).imp_right fun change => change.imp_right
    fun ⟨new, made, path, hp, on⟩ => ⟨new, made, path, sub path hp, on⟩

/-- A file that is written goes down from the directory. -/
theorem target_place {before : Tree} (h : Within directory paths ⟨before, []⟩ j) :
    ∀ target ∈ j.written, ∃ path ∈ paths, target = Path.join directory path ∧
      Path.place before.current target =
        Path.place before.current directory ++ (Tree.names path).filter (· ≠ ".") := by
  intro target there
  obtain old | ⟨path, hp, down, rfl⟩ := h.written target there
  · cases old
  · obtain ⟨relative, down⟩ := Path.names_of_goesDown down
    refine ⟨path, hp, rfl, ?_⟩
    rw [Path.place_join relative, follow_down _ down]

/-- A directory that is new is below the directory or on the way to it. -/
theorem changed {before : Tree} (h : Within directory paths ⟨before, []⟩ j) :
    ∀ p, j.tree.get? p ≠ before.get? p →
      (∃ target ∈ j.written, p = Path.place before.current target) ∨
        before.get? p = none ∧ j.tree.get? p = some .directory ∧
          (Path.place before.current directory <+: p ∨ Path.Passes before.current directory p) := by
  intro p other
  obtain same | file | ⟨new, made, path, -, down, on⟩ := h.changes p
  · exact (other same).elim
  · exact .inl file
  · obtain ⟨relative, down⟩ := Path.names_of_goesDown down
    have begins : Path.origin before.current (Path.join directory path) =
        Path.origin before.current directory := by
      rw [Path.origin, Path.origin, Path.isAbsolute_join relative]
    refine .inr ⟨new, made, ?_⟩
    obtain on | ⟨k, rfl⟩ := on.split begins (Path.names_join relative)
    · exact .inr on
    · rw [follow_down _ fun up => down (List.mem_of_mem_take up)]
      exact .inl (List.prefix_append ..)

end Within

theorem writeFile_within (directory path text : String) :
    Leads (Within directory [path]) (writeFile directory path text) := by
  unfold writeFile
  cases down : Path.goesDown path with
  | false => exact .throw Within.refl _
  | true =>
    have write : Leads (Within directory [path]) (ExceptT.adapt (.writing (Path.join directory path))
        (ExceptT.mk (Access.write (Path.join directory path) text))) := by
      refine .adapt (fun j => ?_) _
      simp only [Access.write]
      cases h : j.tree.write (Path.join directory path) text with
      | error e => exact .refl j
      | ok t =>
        obtain ⟨current, -, others⟩ := Tree.write_ok h
        refine ⟨current, fun _ => List.mem_cons_of_mem _, fun target there => ?_, fun p => ?_⟩
        · obtain rfl | there := List.mem_cons.1 there
          · exact .inr ⟨path, List.mem_singleton_self path, down, rfl⟩
          · exact .inl there
        · by_cases here : p = Path.place j.tree.current (Path.join directory path)
          · exact .inr (.inl ⟨_, List.mem_cons_self, here⟩)
          · exact .inl (others p here)
    dsimp only
    cases up : Path.parent? (Path.join directory path) with
    | none => exact write
    | some parent =>
      refine Leads.bind (R := Within directory [path]) (fun _ _ _ => Within.trans)
        (.adapt (fun j => ?_) _) fun _ => write
      have grows := Tree.makeDirectories_grows j.tree parent
      refine ⟨grows.current, fun _ h => h, fun _ h => .inl h, fun p => ?_⟩
      obtain same | ⟨new, made, q, hq, rfl⟩ := grows.made p
      · exact .inl same
      · refine .inr (.inr ⟨new, made, path, List.mem_singleton_self path, down, ?_⟩)
        obtain ⟨before, there⟩ := Path.before_ascent hq
        exact (before.trans (Path.before_parent up)).passes there

theorem writeRevision_within (root : String) (r : RevisionFiles) :
    Leads (Within (revisionDirectory root r) r.files.keys) (writeRevision root r) := by
  unfold writeRevision Dict.keys
  induction r.files.toList with
  | nil => exact .pure Within.refl ()
  | cons e rest ih =>
    refine Leads.bind (R := Within _ (e :: rest |>.map Prod.fst)) (fun _ _ _ => Within.trans)
      (fun j => ?_) fun _ j => ?_
    · refine (writeFile_within _ e.1 e.2 j).mono fun path hp => ?_
      rw [List.mem_singleton.1 hp]
      exact List.mem_cons_self
    · exact (ih j).mono fun path => List.mem_cons_of_mem _

/-! ## The output directory -/

/-- The names of a revision, as they are joined to the output root. -/
def nameWay (r : RevisionFiles) : List String :=
  Tree.names r.repository ++ Tree.names r.package ++ Tree.names r.revision

/-- The names of a revision lead on from the output root and never above it. -/
structure StaysBelow (r : RevisionFiles) : Prop where
  repository : Path.isAbsolute r.repository = false
  package : Path.isAbsolute r.package = false
  revision : Path.isAbsolute r.revision = false
  way : stays 0 (nameWay r)

namespace StaysBelow

variable {r : RevisionFiles} {root : String} {start p : Place}

theorem names (h : StaysBelow r) :
    Tree.names (revisionDirectory root r) = Tree.names root ++ nameWay r := by
  rw [revisionDirectory, Path.names_join h.revision, Path.names_join h.package,
    Path.names_join h.repository, nameWay, List.append_assoc, List.append_assoc, List.append_assoc]

theorem origin (h : StaysBelow r) :
    Path.origin start (revisionDirectory root r) = Path.origin start root := by
  rw [Path.origin, Path.origin, revisionDirectory, Path.isAbsolute_join h.revision,
    Path.isAbsolute_join h.package, Path.isAbsolute_join h.repository]

/-- On the way to the directory of the revision one never leaves the output root. -/
theorem passes (h : StaysBelow r) (on : Path.Passes start (revisionDirectory root r) p) :
    Path.Passes start root p ∨ Path.place start root <+: p := by
  obtain before | ⟨k, rfl⟩ := on.split h.origin h.names
  · exact .inl before
  · have below := prefix_follow (Path.place start root) (q := []) (stays_take h.way k)
    rw [List.append_nil] at below
    exact .inr below

theorem directory (h : StaysBelow r) :
    Path.place start root <+: Path.place start (revisionDirectory root r) := by
  have below := prefix_follow (Path.place start root) (q := []) h.way
  rw [List.append_nil] at below
  have place : Path.place start (revisionDirectory root r) =
      follow (Path.place start root) (nameWay r) := by
    rw [Path.place, h.origin, h.names, follow_append, Path.place]
  rwa [place]

end StaysBelow

/-- Write a revision into a tree, with a journal. -/
def writtenInto (root : String) (r : RevisionFiles) (t : Tree) : Except Failure Unit × Journal :=
  (writeRevision (m := StateM Journal) root r).run.run ⟨t, []⟩

/-- What writing a revision below an output root does to a tree. -/
structure Contained (root : String) (r : RevisionFiles) (before : Tree) (result : Except Failure Unit)
    (after : Journal) : Prop where
  /-- The journal only looks on. -/
  run : (writeRevision (m := StateM Tree) root r).run.run before = (result, after.tree)
  /-- Each file that is written is below the directory of the revision, where its path says. -/
  files : ∀ target ∈ after.written, ∃ path ∈ r.files.keys,
    target = Path.join (revisionDirectory root r) path ∧
      Path.place before.current target =
        Path.place before.current (revisionDirectory root r) ++ (Tree.names path).filter (· ≠ ".")
  /-- What else is new are directories, below the directory of the revision or on the way to it. -/
  changes : ∀ p, after.tree.get? p ≠ before.get? p →
    (∃ target ∈ after.written, p = Path.place before.current target) ∨
      before.get? p = none ∧ after.tree.get? p = some .directory ∧
        (Path.place before.current (revisionDirectory root r) <+: p ∨
          Path.Passes before.current (revisionDirectory root r) p)
  /-- If the names of the revision stay below the output root, so do the files and the directories,
  apart from directories on the way to the root itself. -/
  inside : StaysBelow r →
    (∀ target ∈ after.written, Path.place before.current root <+: Path.place before.current target) ∧
      ∀ p, after.tree.get? p ≠ before.get? p → Path.place before.current root <+: p ∨
        Path.Passes before.current root p
  /-- If the directory of the revision is elsewhere, every file is written outside the output root. -/
  outside : ¬Path.place before.current root <+: Path.place before.current (revisionDirectory root r) →
    ¬Path.place before.current (revisionDirectory root r) <+: Path.place before.current root →
      ∀ target ∈ after.written,
        ¬Path.place before.current root <+: Path.place before.current target

/-- **A revision is written into its own directory**, and inside the output root if its names stay below
it. -/
theorem writes_contained (root : String) (r : RevisionFiles) (before : Tree) :
    Contained root r before (writtenInto root r before).1 (writtenInto root r before).2 := by
  have within := writeRevision_within root r ⟨before, []⟩
  have files := within.target_place
  have changes := within.changed
  refine ⟨writeRevision_mirrors root r ⟨before, []⟩, files, changes, fun stays => ?_, ?_⟩
  · have inside : ∀ target ∈ (writtenInto root r before).2.written,
        Path.place before.current root <+: Path.place before.current target := by
      intro target there
      obtain ⟨path, -, -, place⟩ := files target there
      rw [place]
      exact stays.directory.trans (List.prefix_append ..)
    refine ⟨inside, fun p other => ?_⟩
    obtain ⟨target, there, rfl⟩ | ⟨-, -, below | on⟩ := changes p other
    · exact .inl (inside target there)
    · exact .inl (stays.directory.trans below)
    · exact (stays.passes on).symm
  · intro out apart target there into
    obtain ⟨path, -, -, place⟩ := files target there
    rw [place] at into
    obtain root | directory := List.prefix_or_prefix_of_prefix into (List.prefix_append ..)
    · exact out root
    · exact apart directory

/-- A package name may hold slashes, and go up again what it went down. -/
example : StaysBelow (.ofKey ⟨"apps", "team/../web", "v1"⟩ ∅) := by
  refine ⟨?_, ?_, ?_, ?_⟩ <;> decide

/-! ## Names that lead out -/

/-- The files of a revision of a package. -/
def revisionOf (package : String) : RevisionFiles :=
  .ofKey ⟨"apps", package, "v1"⟩ (.ofList [("Kptfile", "kind: Kptfile\n")])

/-- **Names lead out of the output root**, by going up and by beginning at the root of the tree, though they
are the names of valid revisions: the only file that is written is in another directory, which is made for
it. -/
theorem names_lead_out :
    (∀ package ∈ ["../../web", "/web"], Revision.validate ⟨package, "v1", "apps", []⟩ = .ok ()) ∧
    (writtenInto "/out" (revisionOf "../../web") {}).1 = .ok () ∧
    (writtenInto "/out" (revisionOf "../../web") {}).2.written = ["/out/apps/../../web/v1/Kptfile"] ∧
    (writtenInto "/out" (revisionOf "../../web") {}).2.tree.get? ["web", "v1"] = some .directory ∧
    (writtenInto "/out" (revisionOf "/web") {}).1 = .ok () ∧
    (writtenInto "/out" (revisionOf "/web") {}).2.written = ["/web/v1/Kptfile"] ∧
    (writtenInto "/out" (revisionOf "/web") {}).2.tree.get? ["web", "v1"] = some .directory ∧
    (∀ target ∈ ["/out/apps/../../web/v1/Kptfile", "/web/v1/Kptfile"],
      Path.place [] target = ["web", "v1", "Kptfile"]) ∧
    ¬Path.place [] "/out" <+: ["web", "v1"] ∧ ¬Path.place [] "/out" <+: ["web", "v1", "Kptfile"] := by
  refine ⟨?_, ?_, ?_, ?_, ?_, ?_, ?_, ?_, ?_, ?_⟩
  · decide +kernel
  · decide +kernel
  · decide +kernel
  · decide +kernel
  · decide +kernel
  · decide +kernel
  · decide +kernel
  · decide
  · decide
  · decide

end PackageDepot.CommandLine
