import PackageDepot.Proofs.Backend.Git

/-!
# What is discovered in git

`GitRepo.Offers` says which packages a repository has for a scan, and `mem_discover_iff` that the scan
finds just these. A package and a ref name at most one of them (`discover_nodup`). Where paths are as git
has them (`GitHost.Plain`), what a scan finds is there for a fetch with the same credential
(`fetch_discovered`).
-/

namespace PackageDepot

/-- Nothing is left out of a text that neither begins nor ends with the character. -/
theorem Text.trim_eq_self {c : Char} {s : List Char} (first : s.head? ≠ some c)
    (last : s.getLast? ≠ some c) : Text.trim c s = s := by
  have keeps : ∀ t : List Char, t.head? ≠ some c → t.dropWhile (· == c) = t := by
    intro t ht
    cases t with
    | nil => rfl
    | cons a t =>
      have other : (a == c) = false := by simpa using ht
      simp [other]
  have behind : s.reverse.head? ≠ some c := by rwa [List.head?_reverse]
  rw [Text.trim, keeps s first, keeps s.reverse behind, List.reverse_reverse]

/-- Where no two have the same image, the one with an image is found. -/
theorem find?_of_nodup_map {α κ : Type} {f : α → κ} {l : List α} (hl : (l.map f).Nodup)
    {P : α → Bool} {a : α} (ha : a ∈ l) (hP : ∀ b, P b = true ↔ f b = f a) : l.find? P = some a := by
  induction l with
  | nil => cases ha
  | cons b l ih =>
    obtain ⟨fresh, hl⟩ := List.nodup_cons.1 hl
    obtain rfl | ha := List.mem_cons.1 ha
    · rw [List.find?_cons_of_pos ((hP _).2 rfl)]
    · have other : ¬ P b = true := by
        rw [hP]
        intro same
        exact fresh (same ▸ List.mem_map.2 ⟨a, ha, rfl⟩)
      rw [List.find?_cons_of_neg other]
      exact ih hl ha

namespace Backend

open Package

/-- The root apart, a directory is told by the path of the manifest in it. -/
theorem packageDirectory?_placed {directory : List Char} (h : directory ≠ []) (manifest : String) :
    packageDirectory? manifest (placed directory manifest) = some directory := by
  cases directory with
  | nil => exact (h rfl).elim
  | cons c rest =>
    have longer : placed (c :: rest) manifest ≠ manifest := by
      intro same
      have lengths := congrArg (fun s => s.toList.length) same
      simp only [placed, String.toList_ofList, List.length_append, List.length_cons] at lengths
      omega
    have file : Text.dropEnd? manifest.toList (placed (c :: rest) manifest).toList =
        some (c :: rest ++ ['/']) := by
      rw [Text.dropEnd?_eq_some_iff, placed, String.toList_ofList]
    have slash : Text.dropEnd? ['/'] (c :: rest ++ ['/']) = some (c :: rest) :=
      Text.dropEnd?_eq_some_iff.2 rfl
    rw [packageDirectory?, if_neg longer, file]
    exact slash

/-- The name of a package is not empty. -/
theorem name_ne_nil {base directory name : List Char} (h : packageName? base directory = some name) :
    name ≠ [] := by
  obtain ⟨-, full⟩ := Option.filter_eq_some_iff.1 h
  simpa using full

/-- The name of a package tells its directory. -/
theorem directory_of_packageName? {base directory name : List Char}
    (h : packageName? base directory = some name) :
    directory = if base.isEmpty then name else base ++ '/' :: name := by
  unfold packageName? at h
  obtain ⟨h, -⟩ := Option.filter_eq_some_iff.1 h
  split at h
  · next empty =>
    cases h
    rw [if_pos empty]
  · next full =>
    obtain ⟨rest, hr, h⟩ := Option.bind_eq_some_iff.1 h
    rw [Text.dropStart?_eq_some_iff] at hr h
    rw [if_neg full, hr, h]
    rfl

/-- A repository has a package for a scan: a ref that is no draft stands at a commit which has the manifest
in the directory of the package. -/
structure GitRepo.Offers (g : GitRepo) (source : GitSource) (manifest : String) (p : Discovered)
    (commit : Commit) : Prop where
  repo_eq : p.location.repo = source.repo
  stands : g.refs.get? p.location.ref = some commit
  finished : p.location.ref ≠ source.branch
  commit_eq : p.commit = commit.id
  held : placed p.location.directory.toList manifest ∈ commit.files.keys
  named : packageName? (Text.trim '/' source.directory.toList) p.location.directory.toList =
    some p.package.toList

namespace GitRepo

/-- The paths of a repository are as git has them. -/
def Plain (g : GitRepo) : Prop :=
  ∀ ref commit, g.refs.get? ref = some commit → ∀ path ∈ commit.files.keys,
    path.toList.head? ≠ some '/' ∧ Text.occurs ['/', '/'] path.toList = false

instance (g : GitRepo) : Decidable g.Plain :=
  decidable_of_iff (∀ c ∈ g.refs.toList, ∀ path ∈ c.2.files.keys,
    path.toList.head? ≠ some '/' ∧ Text.occurs ['/', '/'] path.toList = false)
    ⟨fun all _ _ hc => all _ (Dict.get?_eq_some_iff.1 hc),
      fun plain _ hc => plain _ _ (Dict.get?_eq_some_iff.2 hc)⟩

variable {source : GitSource} {manifest ref : String} {commit : Commit} {p : Discovered}

/-- The packages of one ref. -/
theorem mem_discoverAt_iff : p ∈ discoverAt source manifest ref commit ↔
    p.location.repo = source.repo ∧ p.location.ref = ref ∧ p.commit = commit.id ∧
      placed p.location.directory.toList manifest ∈ commit.files.keys ∧
      packageName? (Text.trim '/' source.directory.toList) p.location.directory.toList =
        some p.package.toList := by
  unfold discoverAt
  rw [List.mem_filterMap]
  constructor
  · rintro ⟨path, hk, hp⟩
    obtain ⟨directory, hdir, hp⟩ := Option.bind_eq_some_iff.1 hp
    obtain ⟨name, hname, hp⟩ := Option.bind_eq_some_iff.1 hp
    cases hp
    refine ⟨rfl, rfl, rfl, ?_, ?_⟩
    · rwa [String.toList_ofList, placed_of_packageDirectory? hdir hname]
    · rw [String.toList_ofList, String.toList_ofList]
      exact hname
  · obtain ⟨package, ⟨repo, ref', directory⟩, id⟩ := p
    rintro ⟨rfl, rfl, rfl, held, named⟩
    refine ⟨_, held, Option.bind_eq_some_iff.2 ⟨directory.toList, ?_, ?_⟩⟩
    · exact packageDirectory?_placed (directory_ne_nil named) manifest
    · refine Option.bind_eq_some_iff.2 ⟨package.toList, named, ?_⟩
      simp only [String.ofList_toList]
      rfl

/-- Two packages of one ref have two names. -/
theorem discoverAt_names : (discoverAt source manifest ref commit).Pairwise
    fun p q => p.package ≠ q.package := by
  refine List.pairwise_filterMap.2 (commit.files.keys_nodup.imp fun distinct p hp q hq same => ?_)
  obtain ⟨directory, hdir, hp⟩ := Option.bind_eq_some_iff.1 hp
  obtain ⟨name, hname, hp⟩ := Option.bind_eq_some_iff.1 hp
  obtain ⟨directory', hdir', hq⟩ := Option.bind_eq_some_iff.1 hq
  obtain ⟨name', hname', hq⟩ := Option.bind_eq_some_iff.1 hq
  cases hp
  cases hq
  have names : name = name' := String.ofList_injective same
  have directories : directory = directory' := by
    rw [directory_of_packageName? hname, directory_of_packageName? hname', names]
  apply distinct
  rw [← placed_of_packageDirectory? hdir hname, ← placed_of_packageDirectory? hdir' hname',
    directories]

end GitRepo

namespace GitHost

variable {h : GitHost} {source : GitSource} {manifest : String} {credential : Option Credential}
  {ps : List Discovered} {p : Discovered}

/-- **What a scan finds.** -/
theorem mem_discover_iff (hd : h.discover source manifest credential = .ok ps) :
    p ∈ ps ↔ ∃ g commit, h.access source.repo credential = .ok g ∧
      g.Offers source manifest p commit := by
  obtain ⟨g, hg, hd⟩ := bind_eq_ok_iff.1 hd
  cases hd
  rw [List.mem_flatMap]
  constructor
  · rintro ⟨⟨ref, commit⟩, he, hp⟩
    obtain ⟨he, finished⟩ := List.mem_filter.1 he
    obtain ⟨repo_eq, rfl, commit_eq, held, named⟩ := GitRepo.mem_discoverAt_iff.1 hp
    exact ⟨g, commit, hg, repo_eq, Dict.get?_eq_some_iff.2 he, by simpa using finished, commit_eq,
      held, named⟩
  · rintro ⟨g', commit, hg', offers⟩
    cases hg.symm.trans hg'
    refine ⟨(p.location.ref, commit), List.mem_filter.2 ⟨?_, by simpa using offers.finished⟩, ?_⟩
    · exact Dict.get?_eq_some_iff.1 offers.stands
    · exact GitRepo.mem_discoverAt_iff.2
        ⟨offers.repo_eq, rfl, offers.commit_eq, offers.held, offers.named⟩

/-- **A package and a ref name one of the packages that are found.** -/
theorem discover_nodup (hd : h.discover source manifest credential = .ok ps) :
    (ps.map fun p => (p.package, p.location.ref)).Nodup := by
  obtain ⟨g, -, hd⟩ := bind_eq_ok_iff.1 hd
  cases hd
  have of_ref : ∀ {ref commit p}, p ∈ GitRepo.discoverAt source manifest ref commit →
      p.location.ref = ref := fun hp => (GitRepo.mem_discoverAt_iff.1 hp).2.1
  refine List.pairwise_map.2 (List.pairwise_flatMap.2 ⟨?_, ?_⟩)
  · intro entry _
    exact GitRepo.discoverAt_names.imp fun distinct same => distinct (congrArg Prod.fst same)
  · refine (g.refs.increasing.filter _).imp fun hlt p hp q hq same => ?_
    have refs := (of_ref hp).symm.trans ((congrArg Prod.snd same).trans (of_ref hq))
    exact Std.ne_of_lt hlt refs

/-- Paths of files are as git has them: none begins with a slash, and no two slashes stand in a row. -/
def Plain (h : GitHost) : Prop :=
  ∀ repo g ref commit, h.get? repo = some g → g.refs.get? ref = some commit →
    ∀ path ∈ commit.files.keys, path.toList.head? ≠ some '/' ∧
      Text.occurs ['/', '/'] path.toList = false

theorem Plain.repo (plain : h.Plain) {repo : String} {g : GitRepo} (found : h.get? repo = some g) :
    g.Plain := fun ref commit => plain repo g ref commit found

instance (h : GitHost) : Decidable h.Plain :=
  decidable_of_iff (∀ r ∈ h.toList, ∀ c ∈ r.2.refs.toList, ∀ path ∈ c.2.files.keys,
    path.toList.head? ≠ some '/' ∧ Text.occurs ['/', '/'] path.toList = false)
    ⟨fun all _ _ _ _ hr hc => all _ (Dict.get?_eq_some_iff.1 hr) _ (Dict.get?_eq_some_iff.1 hc),
      fun plain _ hr _ hc => plain _ _ _ _ (Dict.get?_eq_some_iff.2 hr) (Dict.get?_eq_some_iff.2 hc)⟩

/-- The directory of a manifest with such a path has no slashes around it. -/
theorem trim_of_plain {directory : List Char} {manifest : String} (root : directory ≠ [])
    (first : (placed directory manifest).toList.head? ≠ some '/')
    (double : Text.occurs ['/', '/'] (placed directory manifest).toList = false) :
    Text.trim '/' directory = directory := by
  cases directory with
  | nil => exact (root rfl).elim
  | cons c rest =>
    rw [placed, String.toList_ofList] at first double
    apply Text.trim_eq_self
    · simpa using first
    · intro last
      obtain ⟨front, hf⟩ := List.getLast?_eq_some_iff.1 last
      have there : Text.occurs ['/', '/'] (c :: rest ++ ['/'] ++ manifest.toList) = true :=
        Text.occurs_iff.2 ⟨front, manifest.toList, by simp [hf]⟩
      rw [double] at there
      cases there

/-- What a repository has for a scan is there for a fetch that has the same access: the files below its
directory, with the commit of the scan. -/
theorem fetch_offered {g : GitRepo} (plain : g.Plain) {commit : Commit}
    (hg : h.access source.repo credential = .ok g) (offers : g.Offers source manifest p commit) :
    h.fetch p.location credential = .ok ⟨p.commit, below p.location.directory commit.files⟩ ∧
      Text.trim '/' p.location.directory.toList = p.location.directory.toList := by
  obtain ⟨first, double⟩ := plain _ commit offers.stands _ offers.held
  have trimmed := trim_of_plain (directory_ne_nil offers.named) first double
  have there : ((below p.location.directory commit.files).get? manifest).isSome := by
    rw [get?_below, trimmed]
    obtain ⟨file, hf, path⟩ := List.mem_map.1 offers.held
    rw [← path, Dict.get?_eq_some_iff.2 hf]
    rfl
  have full : (below p.location.directory commit.files).isEmpty = false := by
    cases empty : (below p.location.directory commit.files).toList with
    | nil =>
      rw [Dict.get?, empty] at there
      cases there
    | cons _ _ => simp [Dict.isEmpty, empty]
  refine ⟨bind_eq_ok_iff.2 ⟨g, ?_, ?_⟩, trimmed⟩
  · rw [offers.repo_eq, hg]
  · simp only [offers.stands, full]
    rw [offers.commit_eq]
    rfl

/-- **What a scan found is there for a fetch** that has the same access, with the commit of the scan. -/
theorem fetch_discovered (plain : h.Plain) {g : GitRepo} {commit : Commit}
    (hg : h.access source.repo credential = .ok g) (offers : g.Offers source manifest p commit) :
    ∃ files, h.fetch p.location credential = .ok ⟨p.commit, files⟩ :=
  ⟨_, (fetch_offered (plain.repo (access_ok hg)) hg offers).1⟩

end GitHost

end Backend

end PackageDepot
