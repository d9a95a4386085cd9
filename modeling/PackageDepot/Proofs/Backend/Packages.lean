import Mathlib.Data.List.TakeWhile
import PackageDepot.Proofs.Backend.Discovery

/-!
# A scan finds the packages, and they can be fetched

`GitRepo.Has` says in terms of paths which packages a repository has for a scan: at each ref but the working
branch, each directory strictly below the base directory in which the manifest is a file. `discover_exact`
says that a scan finds these, each of them once, and nothing else, and that a fetch of what was found gives the
files below its directory.
-/

namespace PackageDepot

namespace Text

variable (c : Char) (s : List Char)

/-- What is left out in front of a text. -/
theorem exists_replicate_dropWhile :
    ∃ n, s = List.replicate n c ++ s.dropWhile (· == c) ∧ (s.dropWhile (· == c)).head? ≠ some c := by
  have same : s.takeWhile (· == c) = List.replicate (s.takeWhile (· == c)).length c := by
    refine List.eq_replicate_of_mem fun a ha => ?_
    have := List.mem_takeWhile_imp ha
    simpa using this
  refine ⟨(s.takeWhile (· == c)).length, ?_, fun h => ?_⟩
  · rw [← same, List.takeWhile_append_dropWhile]
  · have := List.head?_dropWhile_not (· == c) s
    rw [h] at this
    simp at this

/-- What is left out at both ends of a text. -/
theorem trim_spec : (∃ m n, s = List.replicate m c ++ trim c s ++ List.replicate n c) ∧
    (trim c s).head? ≠ some c ∧ (trim c s).getLast? ≠ some c := by
  obtain ⟨m, front, first⟩ := exists_replicate_dropWhile c s
  -- The characters behind the text are those in front of it, read backwards.
  obtain ⟨n, behind, last⟩ := exists_replicate_dropWhile c (s.dropWhile (· == c)).reverse
  have parts : s.dropWhile (· == c) = trim c s ++ List.replicate n c := by
    have := congrArg List.reverse behind
    rwa [List.reverse_reverse, List.reverse_append, List.reverse_replicate] at this
  refine ⟨⟨m, n, ?_⟩, ?_, ?_⟩
  · rw [List.append_assoc, ← parts]
    exact front
  · cases ht : trim c s with
    | nil => exact nofun
    | cons a rest =>
      rw [parts, ht] at first
      exact first
  · rw [trim, List.getLast?_reverse]
    exact last

end Text

namespace Backend

open Package

/-- The path of a file from the root, by its path from a directory. -/
theorem placed_eq {directory : String} (h : directory.toList ≠ []) (path : String) :
    placed directory.toList path = directory ++ "/" ++ path := by
  apply String.toList_inj.1
  cases hd : directory.toList with
  | nil => exact (h hd).elim
  | cons c rest =>
    rw [placed, String.toList_ofList, String.toList_append, String.toList_append, hd]
    rfl

/-- The directory in which a repository has its packages, without slashes around its name. -/
def base (source : GitSource) : String := String.ofList (Text.trim '/' source.directory.toList)

/-- A directory is strictly below another one, and this is its path from there. The root is the empty text. -/
def IsBelow (top directory rest : String) : Prop :=
  rest ≠ "" ∧ directory = if top = "" then rest else top ++ "/" ++ rest

/-- The name of a package is the path of its directory from the base. -/
theorem packageName?_eq_some_iff {top directory name : List Char} :
    packageName? top directory = some name ↔
      name ≠ [] ∧ directory = if top.isEmpty then name else top ++ '/' :: name := by
  refine ⟨fun h => ⟨name_ne_nil h, directory_of_packageName? h⟩, ?_⟩
  rintro ⟨full, rfl⟩
  have kept : name.isEmpty = false := by simpa using full
  unfold packageName?
  cases top with
  | nil => simp [kept]
  | cons c top =>
    have below : Text.dropStart? (c :: top) (c :: top ++ '/' :: name) = some ('/' :: name) :=
      Text.dropStart?_eq_some_iff.2 rfl
    have rest : Text.dropStart? ['/'] ('/' :: name) = some name := Text.dropStart?_eq_some_iff.2 rfl
    simp only [List.isEmpty_cons, Bool.false_eq_true, if_false, below, Option.bind_some, rest]
    simp [kept]

theorem isBelow_iff {source : GitSource} {directory rest : String} :
    IsBelow (base source) directory rest ↔
      packageName? (Text.trim '/' source.directory.toList) directory.toList = some rest.toList := by
  rw [packageName?_eq_some_iff, IsBelow, base]
  refine and_congr (not_congr String.toList_eq_nil_iff.symm) ?_
  rw [← String.toList_inj]
  cases Text.trim '/' source.directory.toList with
  | nil => simp
  | cons c top => simp

/-- A repository has a package for a scan. A ref that is not the working branch stands at the commit, in which
the manifest is a file in the directory of the package. -/
structure GitRepo.Has (g : GitRepo) (source : GitSource) (manifest : String) (p : Discovered)
    (commit : Commit) : Prop where
  repo_eq : p.location.repo = source.repo
  stands : g.refs.get? p.location.ref = some commit
  published : p.location.ref ≠ source.branch
  commit_eq : p.commit = commit.id
  below : IsBelow (base source) p.location.directory p.package
  held : (commit.files.get? (p.location.directory ++ "/" ++ manifest)).isSome = true

theorem GitRepo.offers_iff_has {g : GitRepo} {source : GitSource} {manifest : String} {p : Discovered}
    {commit : Commit} : g.Offers source manifest p commit ↔ g.Has source manifest p commit := by
  constructor
  · rintro ⟨repo_eq, stands, finished, commit_eq, held, named⟩
    refine ⟨repo_eq, stands, finished, commit_eq, isBelow_iff.2 named, ?_⟩
    rw [placed_eq (directory_ne_nil named)] at held
    obtain ⟨file, hf, path⟩ := List.mem_map.1 held
    rw [← path, Dict.get?_eq_some_iff.2 hf]
    rfl
  · rintro ⟨repo_eq, stands, published, commit_eq, below, held⟩
    have named := isBelow_iff.1 below
    refine ⟨repo_eq, stands, published, commit_eq, ?_, named⟩
    rw [placed_eq (directory_ne_nil named)]
    obtain ⟨text, ht⟩ := Option.isSome_iff_exists.1 held
    exact List.mem_map.2 ⟨_, Dict.get?_eq_some_iff.1 ht, rfl⟩

/-- Access is granted to a repository that is there and online, with the credential that it asks for. -/
theorem GitHost.access_of_accepted {h : GitHost} {g : GitRepo} {repo : String}
    {credential : Option Credential} (there : h.get? repo = some g) (online : g.offline = false)
    (accepted : ∀ asked, g.credential = some asked → credential = some asked) :
    h.access repo credential = .ok g := by
  have granted : g.checkAccess repo credential = .ok () := by
    unfold GitRepo.checkAccess
    cases asked : g.credential with
    | none => simp [online]
    | some c => simp [online, accepted c asked]
  simp only [access, there, granted]
  rfl

/-- How a scan of a repository comes out, and what is fetched afterwards with the same credential. -/
structure Finds (h : GitHost) (g : GitRepo) (source : GitSource) (manifest : String)
    (credential : Option Credential) (found : List Discovered) : Prop where
  /-- Slashes around the name of the base directory do not count. -/
  base_spec : (∃ m n, source.directory.toList =
      List.replicate m '/' ++ (base source).toList ++ List.replicate n '/') ∧
    (base source).toList.head? ≠ some '/' ∧ (base source).toList.getLast? ≠ some '/'
  /-- Each place is found once. -/
  once : (found.map Discovered.location).Nodup
  /-- What is found are the packages of the repository. -/
  mem_iff : ∀ p, p ∈ found ↔ ∃ commit, g.Has source manifest p commit
  /-- Each of them can be fetched. It has the commit of the scan and the files below its directory, the
  manifest among them, by their paths from there. -/
  fetched : ∀ p commit, g.Has source manifest p commit →
    ∃ files, h.fetch p.location credential = .ok ⟨p.commit, files⟩ ∧
      (∀ path, files.get? path = commit.files.get? (p.location.directory ++ "/" ++ path)) ∧
      (files.get? manifest).isSome = true

/-- A place has one package. -/
theorem GitHost.discover_locations {h : GitHost} {source : GitSource} {manifest : String}
    {credential : Option Credential} {found : List Discovered}
    (hd : h.discover source manifest credential = .ok found) :
    (found.map Discovered.location).Nodup := by
  refine List.pairwise_map.2 ((List.pairwise_map.1 (discover_nodup hd)).imp_of_mem ?_)
  intro p q hp hq distinct same
  obtain ⟨_, _, -, hp⟩ := (mem_discover_iff hd).1 hp
  obtain ⟨_, _, -, hq⟩ := (mem_discover_iff hd).1 hq
  have named := hp.named
  rw [same, hq.named, Option.some.injEq] at named
  exact distinct (Prod.ext (String.toList_inj.1 named.symm) (congrArg GitLocation.ref same))

/-- **A scan finds the packages of a repository, each of them once, and they can be fetched**, where access is
granted and paths are as git has them. -/
theorem discover_exact {h : GitHost} {g : GitRepo} (source : GitSource) (manifest : String)
    {credential : Option Credential} (there : h.get? source.repo = some g)
    (online : g.offline = false)
    (accepted : ∀ asked, g.credential = some asked → credential = some asked) (plain : g.Plain) :
    ∃ found, h.discover source manifest credential = .ok found ∧
      Finds h g source manifest credential found := by
  have access := GitHost.access_of_accepted there online accepted
  obtain ⟨found, hd⟩ : ∃ found, h.discover source manifest credential = .ok found :=
    ⟨_, bind_eq_ok_iff.2 ⟨g, access, rfl⟩⟩
  refine ⟨found, hd, ?_, GitHost.discover_locations hd, fun p => ?_, fun p commit has => ?_⟩
  · rw [base, String.toList_ofList]
    exact Text.trim_spec '/' source.directory.toList
  · rw [GitHost.mem_discover_iff hd]
    constructor
    · rintro ⟨g', commit, access', offers⟩
      cases access.symm.trans access'
      exact ⟨commit, GitRepo.offers_iff_has.1 offers⟩
    · rintro ⟨commit, has⟩
      exact ⟨g, commit, access, GitRepo.offers_iff_has.2 has⟩
  · have offers := GitRepo.offers_iff_has.2 has
    obtain ⟨fetched, trimmed⟩ := GitHost.fetch_offered plain access offers
    have files : ∀ path, (below p.location.directory commit.files).get? path =
        commit.files.get? (p.location.directory ++ "/" ++ path) := by
      intro path
      rw [get?_below, trimmed, placed_eq (directory_ne_nil offers.named)]
    exact ⟨_, fetched, files, by rw [files]; exact has.held⟩

/-! ## A repository with other directories beside the base -/

/-- A repository that asks for a credential. Its packages are below `catalog`: not the base itself, nor what
is beside it, nor a file whose name only ends like that of the manifest. -/
def catalogRepo : GitRepo where
  refs := .ofList [
    ("main", ⟨"c0", .ofList [("catalog/draft/Kptfile", "")]⟩),
    ("v1", ⟨"c1", .ofList [("Kptfile", ""), ("catalog/Kptfile", ""), ("catalog/web/Kptfile", "web"),
      ("catalog/web/docs/README.md", "read me"), ("catalog/db/MyKptfile", ""),
      ("catalog2/web/Kptfile", "")]⟩)]
  credential := some ⟨"reader", "secret"⟩

def catalogHost : GitHost := .ofList [("host/web", catalogRepo)]

/-- The base directory is given with slashes around it. -/
def catalogSource : GitSource := { repo := "host/web", directory := "/catalog//" }

/-- One package is found there, and it can be fetched. -/
theorem discover_exact_catalog :
    catalogHost.get? catalogSource.repo = some catalogRepo ∧ catalogRepo.offline = false ∧
    (∀ asked, catalogRepo.credential = some asked → some ⟨"reader", "secret"⟩ = some asked) ∧
    catalogRepo.Plain ∧
    catalogHost.discover catalogSource "Kptfile" (some ⟨"reader", "secret"⟩) =
      .ok [⟨"web", ⟨"host/web", "v1", "catalog/web"⟩, "c1"⟩] ∧
    Finds catalogHost catalogRepo catalogSource "Kptfile" (some ⟨"reader", "secret"⟩)
      [⟨"web", ⟨"host/web", "v1", "catalog/web"⟩, "c1"⟩] := by
  have there : catalogHost.get? catalogSource.repo = some catalogRepo := by rfl
  have accepted : ∀ asked, catalogRepo.credential = some asked →
      (some ⟨"reader", "secret"⟩ : Option Credential) = some asked := fun _ h => h
  have plain : catalogRepo.Plain := by decide +kernel
  have scanned : catalogHost.discover catalogSource "Kptfile" (some ⟨"reader", "secret"⟩) =
      .ok [⟨"web", ⟨"host/web", "v1", "catalog/web"⟩, "c1"⟩] := by rfl
  obtain ⟨found, hd, finds⟩ := discover_exact catalogSource "Kptfile" there rfl accepted plain
  cases scanned.symm.trans hd
  exact ⟨there, rfl, accepted, plain, scanned, finds⟩

end Backend

end PackageDepot
