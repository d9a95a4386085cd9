import PackageDepot.Backend.Fault
import PackageDepot.Package.Revision
import PackageDepot.Repository.Basic

/-!
# Git repositories

A `GitHost` holds repositories by address. A ref points at a commit, which is a tree of files. Packages
are fetched as the files below a directory, and discovered as the directories that hold a manifest.
-/

namespace PackageDepot.Backend

open Package (Bundle GitLocation)

/-- A commit: its id and its files by path. -/
structure Commit where
  id : String
  files : Bundle
  deriving DecidableEq

/-- A repository. -/
structure GitRepo where
  refs : Dict Commit := ∅
  /-- Access takes this credential. -/
  credential : Option Credential := none
  offline : Bool := false
  deriving DecidableEq

instance : Inhabited GitRepo := ⟨{}⟩

/-- Repositories by address. -/
abbrev GitHost := Dict GitRepo

/-- The files of a package, with the commit that they were taken from. -/
structure Fetched where
  commit : String
  files : Bundle
  deriving DecidableEq

/-- A package that was found in a repository; its revision is the ref at which it was found. -/
structure Discovered where
  package : String
  location : GitLocation
  commit : String
  deriving DecidableEq, Repr

/-- The files below a directory, by their paths from there. -/
def below (directory : String) (files : Bundle) : Bundle :=
  match Text.trim '/' directory.toList with
  | [] => files
  | dir => Dict.ofList (files.toList.filterMap fun e =>
      (Text.dropStart? (dir ++ ['/']) e.1.toList).map fun rest => (String.ofList rest, e.2))

/-- The directory that a manifest at this path makes a package; the root is the empty text. -/
def packageDirectory? (manifest path : String) : Option (List Char) :=
  if path = manifest then some []
  else (Text.dropEnd? manifest.toList path.toList).bind (Text.dropEnd? ['/'])

/-- The name of a package: its directory from the base on. The base itself is no package. -/
def packageName? (base directory : List Char) : Option (List Char) :=
  let name? :=
    if base.isEmpty then some directory
    else (Text.dropStart? base directory).bind (Text.dropStart? ['/'])
  name?.filter fun name => !name.isEmpty

namespace GitRepo

/-- Refuse access to a repository that is offline or asks for another credential. -/
def checkAccess (r : GitRepo) (repo : String) (credential : Option Credential) :
    Except Fault Unit :=
  if r.offline then .error (.unreachable repo)
  else if r.credential.isSome && r.credential ≠ credential then .error (.unauthorized repo)
  else .ok ()

/-- The packages of one ref. -/
def discoverAt (source : GitSource) (manifest ref : String) (commit : Commit) : List Discovered :=
  commit.files.keys.filterMap fun path => do
    let directory ← packageDirectory? manifest path
    let name ← packageName? (Text.trim '/' source.directory.toList) directory
    return { package := String.ofList name, commit := commit.id,
             location := ⟨source.repo, ref, String.ofList directory⟩ }

end GitRepo

namespace GitHost

/-- The repository at an address, if access to it is granted. -/
def access (h : GitHost) (repo : String) (credential : Option Credential) :
    Except Fault GitRepo := do
  match h.get? repo with
  | none => throw (.repositoryNotFound repo)
  | some r =>
    r.checkAccess repo credential
    return r

/-- Fetch a package. -/
def fetch (h : GitHost) (location : GitLocation) (credential : Option Credential) :
    Except Fault Fetched := do
  let r ← h.access location.repo credential
  match r.refs.get? location.ref with
  | none => throw (.refNotFound location.repo location.ref)
  | some commit =>
    let files := below location.directory commit.files
    if files.isEmpty then throw (.pathNotFound location.repo location.ref location.directory)
    return ⟨commit.id, files⟩

/-- The packages of a repository. Its working branch holds drafts, which do not count. -/
def discover (h : GitHost) (source : GitSource) (manifest : String)
    (credential : Option Credential) : Except Fault (List Discovered) := do
  let r ← h.access source.repo credential
  return (r.refs.toList.filter fun e => e.1 != source.branch).flatMap fun e =>
    GitRepo.discoverAt source manifest e.1 e.2

/-- Point a ref at a commit. -/
def setRef (h : GitHost) (repo ref : String) (commit : Commit) : GitHost :=
  h.modify repo {} fun r => { r with refs := r.refs.insert ref commit }

/-- Ask for a credential. -/
def requireCredential (h : GitHost) (repo : String) (credential : Credential) : GitHost :=
  h.modify repo {} fun r => { r with credential := some credential }

/-- Take a repository offline, or back. -/
def setOffline (h : GitHost) (repo : String) (offline : Bool) : GitHost :=
  h.modify repo {} fun r => { r with offline }

end GitHost

end PackageDepot.Backend
