import Mathlib.Data.List.Nodup
import PackageDepot.Proofs.CommandLine.Output
import PackageDepot.Proofs.File.Writes

/-!
# What is read back of rendered revisions

Revisions are written below an output root one after the other. If all files are written, each reads as the
last text at its place (`ReadBack.reads`). The place of a file is made of the names of its revision and of its
own path, and all of these may hold slashes. So two files may have one place: those of two revisions, or two
of one revision, and then the first text is lost (`revisions_share_a_file`). Nothing is lost where the three
names of each revision are single names and no two paths in a bundle say the same (`ReadBack.distinct`).
-/

namespace PackageDepot.CommandLine

open File Package

/-- A file of a revision, and the directory that it is written into. -/
structure Output where
  directory : String
  path : String
  text : String

namespace Output

/-- The path at which the file is written. -/
def target (o : Output) : String := Path.join o.directory o.path

def file (o : Output) : String × String := (o.target, o.text)

/-- The place at which it is written. -/
def place (start : Place) (o : Output) : Place := Path.place start o.target

end Output

/-- What is written of a revision, in order. -/
def outputsOf (root : String) (r : RevisionFiles) : List Output :=
  r.files.toList.map fun e => ⟨revisionDirectory root r, e.1, e.2⟩

/-- What is written of revisions, in order. -/
def outputs (root : String) (revisions : List RevisionFiles) : List Output :=
  revisions.flatMap (outputsOf root)

/-- Write revisions into a tree. -/
def writeAll (root : String) (revisions : List RevisionFiles) (t : Tree) : Except Failure Unit × Tree :=
  (revisions.forM (writeRevision (m := StateM Tree) root)).run.run t

/-! ## What is written -/

/-- If this succeeds then these files were written, by paths that go down. -/
def Writes (x : ExceptT Failure (StateM Tree) Unit) (os : List Output) : Prop :=
  ∀ t t', x.run.run t = (.ok (), t') →
    Wrote t (os.map Output.file) t' ∧ ∀ o ∈ os, Path.goesDown o.path = true

theorem Writes.pure : Writes (Pure.pure ()) [] := by
  rintro t t' ⟨⟩
  exact ⟨.refl t, nofun⟩

theorem Writes.bind {x y : ExceptT Failure (StateM Tree) Unit} {os more : List Output} (hx : Writes x os)
    (hy : Writes y more) : Writes (x >>= fun _ => y) (os ++ more) := by
  intro t t'' h
  obtain ⟨_, t', first, rest⟩ := run_bind_ok h
  obtain ⟨wrote, down⟩ := hx t t' first
  obtain ⟨wrote', down'⟩ := hy t' t'' rest
  refine ⟨?_, fun o ho => (List.mem_append.1 ho).elim (down o) (down' o)⟩
  rw [List.map_append]
  exact wrote.trans wrote'

theorem writing_ok {path text : String} {f : Fault → Failure} {t t' : Tree}
    (h : (ExceptT.adapt f (ExceptT.mk (Access.write (m := StateM Tree) path text))).run.run t =
      (.ok (), t')) : Wrote t [(path, text)] t' := by
  change (Except.mapError f (t.settle (t.write path text)).1, (t.settle (t.write path text)).2) = _ at h
  cases written : t.write path text with
  | error e =>
    rw [written] at h
    cases h
  | ok u =>
    rw [written] at h
    cases h
    exact .of_write written

theorem makingDirectories_ok {path : String} {f : Fault → Failure} {t t' : Tree}
    {result : Except Failure Unit}
    (h : (ExceptT.adapt f (ExceptT.mk (Access.ensureDirectories (m := StateM Tree) path))).run.run t =
      (result, t')) : Wrote t [] t' := by
  have made : (t.makeDirectories path).2 = t' := congrArg Prod.snd h
  exact made ▸ .of_grows (Tree.makeDirectories_grows t path)

theorem writeFile_writes (directory path text : String) :
    Writes (writeFile directory path text) [⟨directory, path, text⟩] := by
  intro t t' h
  unfold writeFile at h
  cases down : Path.goesDown path with
  | false =>
    rw [down] at h
    cases h
  | true =>
    rw [down] at h
    dsimp only at h
    refine ⟨?_, fun o ho => by rwa [List.mem_singleton.1 ho]⟩
    cases up : Path.parent? (Path.join directory path) with
    | none =>
      rw [up] at h
      exact writing_ok h
    | some parent =>
      rw [up] at h
      obtain ⟨_, u, made, written⟩ := run_bind_ok h
      exact (makingDirectories_ok made).trans (writing_ok written)

theorem writeRevision_writes (root : String) (r : RevisionFiles) :
    Writes (writeRevision root r) (outputsOf root r) := by
  unfold writeRevision outputsOf
  induction r.files.toList with
  | nil => exact .pure
  | cons e rest ih => exact .bind (writeFile_writes _ e.1 e.2) ih

theorem revisions_writes (root : String) (revisions : List RevisionFiles) :
    Writes (revisions.forM (writeRevision root)) (outputs root revisions) := by
  induction revisions with
  | nil => exact .pure
  | cons r rest ih => exact .bind (writeRevision_writes root r) ih

/-! ## Names that keep files apart -/

/-- A name that leads down into one directory. -/
structure IsName (s : String) : Prop where
  full : s ≠ ""
  whole : '/' ∉ s.toList
  notHere : s ≠ "."
  notUp : s ≠ ".."

/-- The names on a path, without those that stand for nothing. -/
def steps (path : String) : List String := (Tree.names path).filter (· ≠ ".")

/-- The files of a revision are kept apart, from each other and from those of other revisions. -/
structure KeepsApart (r : RevisionFiles) : Prop where
  repository : IsName r.repository
  package : IsName r.package
  revision : IsName r.revision
  paths : ∀ p ∈ r.files.keys, ∀ q ∈ r.files.keys, steps p = steps q → p = q

theorem IsName.names {s : String} (h : IsName s) : Tree.names s = [s] := by
  have full : s.toList.isEmpty = false := by simpa using h.full
  rw [Tree.names, Text.split_of_not_mem h.whole]
  simp [full]

theorem IsName.relative {s : String} (h : IsName s) : Path.isAbsolute s = false := by
  simp only [Path.isAbsolute, decide_eq_false_iff_not]
  intro slash
  exact h.whole (List.mem_of_head? slash)

theorem IsName.place {s : String} (h : IsName s) (start : Place) (directory : String) :
    Path.place start (Path.join directory s) = Path.place start directory ++ [s] := by
  rw [Path.place_join h.relative, h.names, follow, if_neg h.notHere, if_neg h.notUp, follow]

/-- The place of a file of a revision: from the root on the names of the revision, and those on its path. -/
theorem KeepsApart.place {r : RevisionFiles} (h : KeepsApart r) (start : Place) (root : String)
    {path : String} (down : Path.goesDown path = true) : Path.place start (Path.join (revisionDirectory root r) path) =
      Path.place start root ++ ([r.repository, r.package, r.revision] ++ steps path) := by
  obtain ⟨relative, down⟩ := Path.names_of_goesDown down
  rw [Path.place_join relative, follow_down _ down, revisionDirectory, h.revision.place, h.package.place,
    h.repository.place]
  simp [steps]

/-! ## Reading back -/

/-- What is read back of revisions that were written into a tree. -/
structure ReadBack (root : String) (revisions : List RevisionFiles) (before after : Tree) : Prop where
  /-- Each file reads as the last text at its place. -/
  reads : ∀ o ∈ outputs root revisions, ∃ text,
    latest before.current ((outputs root revisions).map Output.file) (o.place before.current) = some text ∧
      after.read o.target = .ok text
  /-- Nothing is lost if and only if files at one place have one text. -/
  complete_iff : (∀ o ∈ outputs root revisions, after.read o.target = .ok o.text) ↔
    ∀ o ∈ outputs root revisions, ∀ p ∈ outputs root revisions,
      o.place before.current = p.place before.current → o.text = p.text
  /-- So nothing is lost of revisions with different keys that keep their files apart. -/
  distinct : (revisions.map fun r => (r.repository, r.package, r.revision)).Nodup →
    (∀ r ∈ revisions, KeepsApart r) → ∀ o ∈ outputs root revisions, after.read o.target = .ok o.text
  /-- What stood in the tree stays, but for files at these places. -/
  kept : ∀ p e, before.get? p = some e → (∀ o ∈ outputs root revisions, p ≠ o.place before.current) →
    after.get? p = some e

theorem mem_outputs_iff {root : String} {revisions : List RevisionFiles} {o : Output} :
    o ∈ outputs root revisions ↔ ∃ r ∈ revisions, o.directory = revisionDirectory root r ∧
      r.files.get? o.path = some o.text := by
  simp only [outputs, outputsOf, List.mem_flatMap, List.mem_map, Dict.get?_eq_some_iff]
  constructor
  · rintro ⟨r, hr, e, he, rfl⟩
    exact ⟨r, hr, rfl, he⟩
  · rintro ⟨r, hr, directory, he⟩
    exact ⟨r, hr, _, he, by rw [← directory]⟩

/-- Files of revisions with different keys that keep their files apart are at different places. -/
theorem texts_agree {root : String} {revisions : List RevisionFiles} {start : Place}
    (down : ∀ o ∈ outputs root revisions, Path.goesDown o.path = true)
    (keys : (revisions.map fun r => (r.repository, r.package, r.revision)).Nodup)
    (apart : ∀ r ∈ revisions, KeepsApart r) : ∀ o ∈ outputs root revisions, ∀ p ∈ outputs root revisions,
      o.place start = p.place start → o.text = p.text := by
  intro o ho p hp same
  obtain ⟨r, hr, directory, text⟩ := mem_outputs_iff.1 ho
  obtain ⟨q, hq, directory', text'⟩ := mem_outputs_iff.1 hp
  rw [Output.place, Output.place, Output.target, Output.target, directory, directory',
    (apart r hr).place start root (down o ho), (apart q hq).place start root (down p hp),
    List.append_cancel_left_eq] at same
  simp only [List.cons_append, List.nil_append, List.cons.injEq] at same
  obtain ⟨repository, package, revision, path⟩ := same
  obtain rfl : r = q := List.inj_on_of_nodup_map keys hr hq (by simp [repository, package, revision])
  have listed : ∀ {path text}, r.files.get? path = some text → path ∈ r.files.keys :=
    fun h => List.mem_map.2 ⟨_, Dict.get?_eq_some_iff.1 h, rfl⟩
  have one := (apart r hr).paths o.path (listed text) p.path (listed text') path
  rw [one, text'] at text
  exact (Option.some.inj text).symm

/-- **What is read back** of rendered revisions, whatever stood in the tree before them. -/
theorem rendered_read_back {root : String} {revisions : List RevisionFiles} {before after : Tree}
    (written : writeAll root revisions before = (.ok (), after)) : ReadBack root revisions before after := by
  obtain ⟨wrote, down⟩ := revisions_writes root revisions before after written
  have complete_iff : (∀ o ∈ outputs root revisions, after.read o.target = .ok o.text) ↔
      ∀ o ∈ outputs root revisions, ∀ p ∈ outputs root revisions,
        o.place before.current = p.place before.current → o.text = p.text := by
    have files := wrote.read_iff
    simp only [List.forall_mem_map, Output.file] at files
    simpa only [Output.place] using files
  refine ⟨fun o ho => ?_, complete_iff, fun keys apart => ?_, fun p e there elsewhere => ?_⟩
  · have there : o.file ∈ (outputs root revisions).map Output.file := List.mem_map_of_mem ho
    obtain ⟨text, last, read⟩ := wrote.read_eq there
    exact ⟨text, last, read⟩
  · exact complete_iff.2 (texts_agree down keys apart)
  · refine wrote.kept p e there (Option.eq_none_iff_forall_ne_some.2 fun s written => ?_)
    obtain ⟨f, hf, here, -⟩ := exists_of_latest written
    obtain ⟨o, ho, rfl⟩ := List.mem_map.1 hf
    exact elsewhere o ho here.symm

/-! ## Revisions with slashes in their names -/

/-- A revision with these files. -/
def madeOf (package revision : String) (files : List (String × String)) : RevisionFiles :=
  .ofKey ⟨"apps", package, revision⟩ (.ofList files)

/-- Two revisions of one package. -/
def series : List RevisionFiles :=
  [madeOf "shop" "v1" [("Kptfile", "one"), ("docs/README.md", "read me")],
    madeOf "shop" "v2" [("Kptfile", "two")]]

theorem series_keepsApart : ∀ r ∈ series, KeepsApart r := by
  have name : ∀ s ∈ ["apps", "shop", "v1", "v2"], IsName s := by
    intro s hs
    simp only [List.mem_cons, List.not_mem_nil, or_false] at hs
    obtain rfl | rfl | rfl | rfl := hs <;> exact ⟨by decide, by decide, by decide, by decide⟩
  intro r hr
  obtain rfl | hr := List.mem_cons.1 hr
  · exact ⟨name _ (by decide), name _ (by decide), name _ (by decide), by decide +kernel⟩
  · obtain rfl := List.mem_singleton.1 hr
    exact ⟨name _ (by decide), name _ (by decide), name _ (by decide), by decide +kernel⟩

/-- They are read back. -/
theorem rendered_read_back_series : ∃ after,
    writeAll "/out" series {} = (.ok (), after) ∧ ReadBack "/out" series {} after ∧
    (series.map fun r => (r.repository, r.package, r.revision)).Nodup ∧ (∀ r ∈ series, KeepsApart r) ∧
    ∀ o ∈ outputs "/out" series, after.read o.target = .ok o.text := by
  have written : writeAll "/out" series {} = (.ok (), (writeAll "/out" series {}).2) :=
    Prod.ext (by decide +kernel) rfl
  have keys : (series.map fun r => (r.repository, r.package, r.revision)).Nodup := by decide +kernel
  have back := rendered_read_back written
  exact ⟨_, written, back, keys, series_keepsApart, back.distinct keys series_keepsApart⟩

/-- Revisions of different packages, whose directories are the same. -/
def neighbours : List RevisionFiles :=
  [madeOf "shop" "web/v1" [("Kptfile", "shop")], madeOf "shop/web" "v1" [("Kptfile", "web")]]

/-- A revision with two paths that say the same. -/
def doubled : List RevisionFiles :=
  [madeOf "shop" "v1" [("docs//README.md", "one"), ("docs/README.md", "two")]]

/-- **Two revisions have a file in common**, though they are valid and their keys differ: both are written, and
what was written first is lost. The same happens to two files of one revision. -/
theorem revisions_share_a_file :
    (∀ r ∈ neighbours ++ doubled, Revision.validate ⟨r.package, r.revision, r.repository, []⟩ = .ok ()) ∧
    (neighbours.map fun r => (r.repository, r.package, r.revision)).Nodup ∧
    (writeAll "/out" neighbours {}).1 = .ok () ∧
    (writeAll "/out" neighbours {}).2.read "/out/apps/shop/web/v1/Kptfile" = .ok "web" ∧
    (outputs "/out" neighbours).map Output.file =
      [("/out/apps/shop/web/v1/Kptfile", "shop"), ("/out/apps/shop/web/v1/Kptfile", "web")] ∧
    (writeAll "/out" doubled {}).1 = .ok () ∧
    (writeAll "/out" doubled {}).2.read "/out/apps/shop/v1/docs//README.md" = .ok "two" ∧
    (outputs "/out" doubled).map Output.file =
      [("/out/apps/shop/v1/docs//README.md", "one"), ("/out/apps/shop/v1/docs/README.md", "two")] := by
  refine ⟨?_, ?_, ?_, ?_, ?_, ?_, ?_, ?_⟩
  · decide +kernel
  · decide +kernel
  · decide +kernel
  · decide +kernel
  · decide +kernel
  · decide +kernel
  · decide +kernel
  · decide +kernel

end PackageDepot.CommandLine
