import PackageDepot.Service.Index

/-!
# Resolving the package that a clone asks for

A place in git is fetched and pinned to the commit that it was fetched at. Another revision gives its
own lock on, so the lock of a clone always tells a place in git.
-/

namespace PackageDepot

open Package

/-- A package that was resolved: the place it comes from, pinned, and its files. -/
structure Resolved where
  lock : Lock
  files : Bundle

/-- The place that a package comes from. -/
def Resolved.lineage (r : Resolved) : Lineage := r.lock.lineage

namespace Resolve

/-- The credential for an address: that of the first registered repository which has it. -/
def credentialFor (repo : String) : Call (Option Credential) := do
  match ← Call.read fun d => d.registry.sourceOf? repo with
  | some source => Index.credential source
  | none => return none

/-- Resolve a place in git. -/
def git (location : GitLocation) (c : Context) : Call Resolved := do
  let credential ← credentialFor location.repo
  let fetched ← Call.within c fun d => (d.git.fetch location credential).mapError .ofBackend
  if fetched.commit.isEmpty then
    throw (.resolution (.noCommit location.repo location.ref))
  return ⟨.ofGit ⟨location, fetched.commit⟩, fetched.files⟩

/-- Resolve another revision, which has to have a lock with a commit. -/
def revision (e : Engine) (k : Key) (c : Context) : Call Resolved := do
  let content ← Call.mapError
    (fun err => if err.kind = .notFound then .resolution (.revisionMissing k) else err)
    (Index.lookup e k c)
  match content.lock with
  | some lock =>
    if lock.version.isEmpty then throw (.resolution (.revisionUnlocked k))
    return ⟨lock, content.files⟩
  | none => throw (.resolution (.revisionUnlocked k))

/-- Resolve the package that a clone asks for. -/
def source (e : Engine) (s : CloneSource) (c : Context) : Call Resolved :=
  match s.git, s.revision with
  | some location, none => git location c
  | none, some r =>
    match Key.parse? r.name with
    | some k => revision e k c
    | none => throw (.resolution (.badRevisionName r.name))
  | _, _ => throw (.validation .ambiguousSource)

end Resolve

end PackageDepot
