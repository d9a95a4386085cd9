import PackageDepot.Backend.Git

/-!
# What is fetched from git

`get?_below` says which files a package has: those that the tree has under the paths of the package's
directory. A host is `Honest` for an assignment of trees to commit ids if its commits have the trees of
their ids; `fetch_ok` and `discover_ok` say what an answer of such a host tells about the tree.
-/

namespace PackageDepot.Backend

open Package

/-- The path from the root of a file that is below a directory; the root is the empty text. -/
def placed : (directory : List Char) → (path : String) → String
  | [], path => path
  | c :: rest, path => String.ofList (c :: rest ++ ['/'] ++ path.toList)

/-- The files below a directory that is not the root, with their paths from there. -/
theorem mem_stripped {dir : List Char} {l : List (String × String)} {p v : String} :
    (p, v) ∈ l.filterMap (fun e => (Text.dropStart? (dir ++ ['/']) e.1.toList).map fun rest =>
      (String.ofList rest, e.2)) ↔ (String.ofList (dir ++ ['/'] ++ p.toList), v) ∈ l := by
  simp only [List.mem_filterMap, Option.map_eq_some_iff, Text.dropStart?_eq_some_iff]
  constructor
  · rintro ⟨e, he, rest, hr, h⟩
    cases h
    rw [String.toList_ofList, ← hr, String.ofList_toList]
    exact he
  · intro h
    exact ⟨_, h, p.toList, String.toList_ofList, by rw [String.ofList_toList]⟩

/-- What is below a directory has distinct paths from there. -/
theorem stripped_nodup (dir : List Char) (files : Bundle) :
    ((files.toList.filterMap fun e => (Text.dropStart? (dir ++ ['/']) e.1.toList).map fun rest =>
      (String.ofList rest, e.2)).map Prod.fst).Nodup := by
  refine List.pairwise_map.2 (List.pairwise_filterMap.2 (files.increasing.imp fun hlt => ?_))
  intro x hx y hy same
  obtain ⟨r, hr, rfl⟩ := Option.map_eq_some_iff.1 hx
  obtain ⟨q, hq, rfl⟩ := Option.map_eq_some_iff.1 hy
  rw [Text.dropStart?_eq_some_iff] at hr hq
  have names : r = q := by
    rw [← String.toList_ofList (l := r), ← String.toList_ofList (l := q)]
    exact congrArg String.toList same
  have paths := hr.trans ((congrArg _ names).trans hq.symm)
  exact Std.ne_of_lt hlt (String.toList_inj.1 paths)

/-- **The files of a package** are those that the tree has below its directory. Slashes around the name
of the directory do not count. -/
theorem get?_below (directory : String) (files : Bundle) (p : String) :
    (below directory files).get? p =
      files.get? (placed (Text.trim '/' directory.toList) p) := by
  unfold below
  cases Text.trim '/' directory.toList with
  | nil => rfl
  | cons c dir =>
    apply Option.ext
    intro v
    show (Dict.ofList _).get? p = some v ↔ _
    rw [Dict.get?_ofList_eq_some_iff (stripped_nodup (c :: dir) files), mem_stripped,
      Dict.get?_eq_some_iff, placed]

/-- Commits have the trees that belong to their ids. -/
def GitHost.Honest (tree : String → Bundle) (h : GitHost) : Prop :=
  ∀ repo r ref commit, h.get? repo = some r → r.refs.get? ref = some commit →
    commit.files = tree commit.id

/-- A ref stands at a commit. -/
def GitHost.Stands (h : GitHost) (repo ref id : String) : Prop :=
  ∃ r commit, h.get? repo = some r ∧ r.refs.get? ref = some commit ∧ commit.id = id

/-- An answer that goes on with another one. -/
theorem bind_eq_ok_iff {ε α β : Type} {x : Except ε α} {f : α → Except ε β} {b : β} :
    (x >>= f) = .ok b ↔ ∃ a, x = .ok a ∧ f a = .ok b := by
  cases x with
  | error err => exact ⟨nofun, nofun⟩
  | ok a =>
    constructor
    · intro h
      exact ⟨a, rfl, h⟩
    · rintro ⟨_, ⟨⟩, h⟩
      exact h

theorem bind_eq_error_iff {ε α β : Type} {x : Except ε α} {f : α → Except ε β} {err : ε} :
    x >>= f = .error err ↔ x = .error err ∨ ∃ a, x = .ok a ∧ f a = .error err := by
  cases x with
  | ok a =>
    constructor
    · exact fun h => .inr ⟨a, rfl, h⟩
    · rintro (h | ⟨_, h, hf⟩)
      · cases h
      · cases h
        exact hf
  | error err' =>
    constructor
    · rintro ⟨⟩
      exact .inl rfl
    · rintro (h | ⟨_, h, -⟩)
      · cases h
        rfl
      · cases h

theorem mapError_eq_ok_iff {ε ε' α : Type} {x : Except ε α} {f : ε → ε'} {a : α} :
    x.mapError f = .ok a ↔ x = .ok a := by
  cases x with
  | error err => exact ⟨nofun, nofun⟩
  | ok b =>
    constructor
    · rintro ⟨⟩
      rfl
    · rintro ⟨⟩
      rfl

namespace GitHost

variable {tree : String → Bundle} {h : GitHost}

/-- To point a ref at a commit with its own tree. -/
theorem Honest.setRef (honest : h.Honest tree) (repo ref id : String) :
    (h.setRef repo ref ⟨id, tree id⟩).Honest tree := by
  intro repo' r ref' commit hr hc
  rw [GitHost.setRef, Dict.modify, Dict.get?_insert] at hr
  split at hr
  · cases hr
    rw [Dict.get?_insert] at hc
    split at hc
    · cases hc
      rfl
    · cases hg : h.get? repo with
      | none =>
        rw [hg] at hc
        cases hc
      | some r =>
        rw [hg] at hc
        exact honest repo r ref' commit hg hc
  · exact honest repo' r ref' commit hr hc

theorem access_ok {repo : String} {credential : Option Credential} {r : GitRepo}
    (hr : h.access repo credential = .ok r) : h.get? repo = some r := by
  unfold access at hr
  split at hr
  · cases hr
  · next g hg =>
    obtain ⟨_, -, hr⟩ := bind_eq_ok_iff.1 hr
    cases hr
    exact hg

/-- A fetch that succeeds had access to the repository, and took its files from the commit of the ref. -/
theorem fetch_eq_ok {location : GitLocation} {credential : Option Credential} {f : Fetched}
    (hf : h.fetch location credential = .ok f) : ∃ r commit,
      h.access location.repo credential = .ok r ∧ r.refs.get? location.ref = some commit ∧
        f = ⟨commit.id, below location.directory commit.files⟩ := by
  obtain ⟨r, hr, hf⟩ := bind_eq_ok_iff.1 hf
  split at hf
  · cases hf
  · next commit hc =>
    dsimp only at hf
    split at hf
    · cases hf
    · cases hf
      exact ⟨r, commit, hr, hc, rfl⟩

/-- What was fetched is the package of the commit that the ref stands at. -/
theorem fetch_ok (honest : h.Honest tree) {location : GitLocation} {credential : Option Credential}
    {f : Fetched} (hf : h.fetch location credential = .ok f) :
    h.Stands location.repo location.ref f.commit ∧
      f.files = below location.directory (tree f.commit) := by
  obtain ⟨r, commit, hr, hc, rfl⟩ := fetch_eq_ok hf
  have found := access_ok hr
  refine ⟨⟨r, commit, found, hc, rfl⟩, ?_⟩
  rw [honest _ r _ commit found hc]

end GitHost

/-- The root is no package. -/
theorem directory_ne_nil {base directory name : List Char}
    (h : packageName? base directory = some name) : directory ≠ [] := by
  rintro rfl
  cases base with
  | nil => cases h
  | cons c base => cases h

/-- The directory of a package holds the manifest, under the name that was discovered. -/
theorem placed_of_packageDirectory? {manifest path : String} {directory base name : List Char}
    (hd : packageDirectory? manifest path = some directory)
    (hn : packageName? base directory = some name) : placed directory manifest = path := by
  unfold packageDirectory? at hd
  split at hd
  · cases hd
    exact (directory_ne_nil hn rfl).elim
  · obtain ⟨front, hf, hd⟩ := Option.bind_eq_some_iff.1 hd
    rw [Text.dropEnd?_eq_some_iff] at hf hd
    cases directory with
    | nil => exact (directory_ne_nil hn rfl).elim
    | cons c rest =>
      rw [placed, ← hd, ← hf]
      exact String.ofList_toList

namespace GitHost

variable {tree : String → Bundle} {h : GitHost}

/-- What was discovered is at the commit that its ref stands at, where its directory holds the
manifest. -/
theorem discover_ok (honest : h.Honest tree) {source : GitSource} {manifest : String}
    {credential : Option Credential} {ps : List Discovered}
    (hd : h.discover source manifest credential = .ok ps) {p : Discovered} (hp : p ∈ ps) :
    h.Stands p.location.repo p.location.ref p.commit ∧
      ((tree p.commit).get? (placed p.location.directory.toList manifest)).isSome := by
  obtain ⟨r, hr, hd⟩ := bind_eq_ok_iff.1 hd
  cases hd
  have found := access_ok hr
  obtain ⟨⟨ref, commit⟩, hc, hp⟩ := List.mem_flatMap.1 hp
  have at_ref := Dict.get?_eq_some_iff.2 (List.mem_filter.1 hc).1
  obtain ⟨path, hk, hp⟩ := List.mem_filterMap.1 hp
  obtain ⟨directory, hdir, hp⟩ := Option.bind_eq_some_iff.1 hp
  obtain ⟨name, hname, hp⟩ := Option.bind_eq_some_iff.1 hp
  cases hp
  obtain ⟨file, hfile, rfl⟩ := List.mem_map.1 hk
  refine ⟨⟨r, commit, found, at_ref, rfl⟩, ?_⟩
  rw [String.toList_ofList, placed_of_packageDirectory? hdir hname,
    ← honest _ r _ commit found at_ref, Dict.get?_eq_some_iff.2 hfile]
  rfl

end GitHost

end PackageDepot.Backend
