import PackageDepot.Service.Call
import PackageDepot.Service.Engine

/-!
# The index of package revisions

The index puts together the revisions that were created and those that are published in registered
repositories. A repository that cannot be scanned is left out; only an interrupt is an error.
-/

namespace PackageDepot

open Package Backend

/-- Where a revision of a listing comes from. -/
inductive Provenance
  | created
  | discovered
  deriving DecidableEq, Repr

/-- An entry of a listing. -/
structure Summary where
  key : Key
  provenance : Provenance
  lock : Option Lock
  deriving DecidableEq

/-- Which repositories a listing is about. -/
structure Filter where
  repository : Option String := none
  content : Option Content := none
  deriving DecidableEq, Repr

/-- A listing is about a repository. -/
def Filter.admits (f : Filter) (r : Repository) : Bool :=
  f.repository.all (· == r.name) && f.content.all (· = r.content)

/-- The files of a revision, and its lock if it has one. -/
structure RevisionContent where
  files : Bundle
  lock : Option Lock

/-- The lock of a package that was discovered. -/
def Backend.Discovered.lock (p : Discovered) : Lock := .ofGit ⟨p.location, p.commit⟩

/-- The key of a package that was discovered in a repository. -/
def Backend.Discovered.key (p : Discovered) (repository : String) : Key :=
  ⟨repository, p.package, p.location.ref⟩

/-- The entry of a revision that was created. -/
def Stored.summary (s : Stored) : Summary := ⟨s.key, .created, s.kptfile.lock⟩

/-- The entry of a package that was discovered. -/
def Backend.Discovered.summary (p : Discovered) (repository : String) : Summary :=
  ⟨p.key repository, .discovered, some p.lock⟩

namespace Index

/-- The credential for a place in git, whose secret has to be there if it asks for one. -/
def credential (source : GitSource) : Call (Option Credential) :=
  match source.secret? with
  | none => pure none
  | some secret => Call.query fun d =>
    match d.secrets.get? secret with
    | some c => .ok (some c)
    | none => .error (.resolution (.secretMissing secret source.repo))

/-- The packages that a repository publishes. -/
def discover (e : Engine) (r : Repository) (c : Context) : Call (List Discovered) := do
  match r.packageSource? with
  | none => return []
  | some source =>
    let credential ← credential source
    Call.within c fun d =>
      (d.git.discover source e.indexManifest credential).mapError .ofBackend

/-- The published package under a key, with its repository. -/
def findDiscovered (e : Engine) (k : Key) (c : Context) : Call (Repository × Discovered) := do
  let r ← Call.query fun d => (d.registry.find k.repository).mapError fun _ => .notFound (.revision k)
  let packages ← discover e r c
  match packages.find? fun p => p.package = k.package && p.location.ref = k.revision with
  | some p => return (r, p)
  | none => throw (.notFound (.revision k))

/-- A package is published under a key. -/
def isDiscovered (e : Engine) (k : Key) (c : Context) : Call Bool := do
  match ← Call.attempt (findDiscovered e k c) with
  | .ok _ => return true
  | .error err => if err.kind = .notFound then return false else throw err

/-- The content of the published package under a key. -/
def lookupDiscovered (e : Engine) (k : Key) (c : Context) : Call RevisionContent := do
  let (r, p) ← findDiscovered e k c
  match r.git with
  | none => throw (.notFound (.revision k))
  | some source =>
    let credential ← credential source
    let fetched ← Call.within c fun d => (d.git.fetch p.location credential).mapError .ofBackend
    return ⟨fetched.files, some p.lock⟩

/-- The content of the revision under a key. One that was created comes first. -/
def lookup (e : Engine) (k : Key) (c : Context) : Call RevisionContent := do
  match ← Call.read fun d => d.store.get? k with
  | some s => return ⟨s.files, s.kptfile.lock⟩
  | none => lookupDiscovered e k c

/-- The entries of one repository, whose scan has come out. -/
def entriesOf (r : Repository) (scan : Except Error (List Discovered)) : Call (List Summary) := do
  let created ← Call.read fun d => d.store.list (some r.name)
  match scan with
  | .ok packages =>
    let published := packages.map fun p => p.summary r.name
    let keys := created.map Stored.key
    return created.map Stored.summary ++ published.filter fun s => !keys.contains s.key
  | .error err => if err.kind = .cancelled then throw err else return created.map Stored.summary

/-- The revisions of the repositories that a filter admits. All repositories are scanned first. -/
def list (e : Engine) (f : Filter) (c : Context) : Call (List Summary) := do
  let repositories ← Call.read fun d => d.registry.values.filter f.admits
  let scans ← repositories.mapM fun r => do return (r, ← Call.attempt (discover e r c))
  let sections ← scans.mapM fun s => entriesOf s.1 s.2
  return sections.flatten

/-- The functions that a repository publishes. -/
def scanFunctions (name : String) (c : Context) : Call (List Function) := do
  let r ← Call.query fun d => d.registry.find name
  match r.functionRegistry? with
  | none => throw (.validation (.notFunctionRepository name))
  | some registry =>
    let images ← Call.within c fun d => (d.images.images registry).mapError .ofBackend
    return r.publish registry images

/-- The functions of all repositories of functions. -/
def functions (c : Context) : Call (List Function) := do
  let repositories ← Call.read fun d =>
    d.registry.values.filter fun r => r.content = .function && r.kind = .oci
  let found ← repositories.mapM fun r => do
    match ← Call.attempt (scanFunctions r.name c) with
    | .ok functions => return functions
    | .error err => if err.kind = .cancelled then throw err else return []
  return found.flatten

end Index

end PackageDepot
