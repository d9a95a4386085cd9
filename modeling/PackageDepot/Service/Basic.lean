import PackageDepot.Service.Pipeline

/-!
# The service

The calls that a depot answers. A write takes the lease of its key before anything is built and commits
only what was built without an error. Revisions that are published in a repository are read-only.
-/

namespace PackageDepot

open Package

/-- The files of a revision, with its manifest if that can be used. -/
structure RevisionView where
  files : RevisionFiles
  kptfile : Option Kptfile

namespace Service

/-! ## Repositories -/

/-- Register a repository. -/
def register (r : Repository) : Call Unit :=
  Call.update fun _ d => do return ((), { d with registry := ← d.registry.register r })

/-- The repository with a name. -/
def repository (name : String) : Call Repository := Call.query fun d => d.registry.find name

/-- All repositories, in the order of their names. -/
def repositories : Call (List Repository) := Call.read fun d => d.registry.values

/-- Take a repository out of the registry. -/
def removeRepository (name : String) : Call Repository :=
  Call.update fun _ d => do
    let (r, registry) ← d.registry.unregister name
    return (r, { d with registry })

/-- Take the created revisions of a repository out of the store, and count them. -/
def purge (name : String) : Call Nat :=
  Call.update fun _ d =>
    let store := d.store.purge name
    .ok (d.store.revisions.length - store.revisions.length, { d with store })

/-- Take a repository out, and then what was created in it. -/
def unregister (name : String) : Call Unit := do
  let _ ← removeRepository name
  let _ ← purge name

/-! ## Leases and the store -/

/-- The key of a lease is there, or not, as the writer intends. -/
def permit (l : Lease) : Call Unit := Call.query fun d => d.store.permit l

/-- Commit a snapshot. -/
def commit (l : Lease) (spec : Revision) (snapshot : Snapshot) : Call Stored :=
  Call.update fun m d => do
    let (stored, store) ← d.store.commit l spec snapshot m.now
    return (stored, { d with store })

/-- Take a lease and keep it. -/
def reserve (l : Lease) : Call Unit := Call.keepLease l.key (permit l)

/-- Commit a snapshot with a lease that was kept, and give the lease back. -/
def commitKept (l : Lease) (spec : Revision) (snapshot : Snapshot) : Call Stored :=
  ExceptT.mk (Routine.holding (Call.released l.key) (commit l spec snapshot).run)

/-- Create a revision from a snapshot. -/
def put (spec : Revision) (snapshot : Snapshot) : Call Stored :=
  Call.withLease spec.key do
    let lease : Lease := ⟨spec.key, .create⟩
    permit lease
    commit lease spec snapshot

/-- Take a revision out of the store, and tell whether it was there. -/
def deleteIfExists (k : Key) : Call Bool :=
  Call.withLease k (Call.update fun _ d =>
    .ok ((d.store.get? k).isSome, { d with store := d.store.erase k }))

/-- Take a revision out of the store, where it has to be. -/
def deleteCreated (k : Key) : Call Unit := do
  if ← deleteIfExists k then return ()
  else throw (.notFound (.revision k))

/-! ## Revisions -/

/-- Build a revision and commit it. -/
def write (e : Engine) (r : Revision) (intent : Intent) (c : Context) : Call RevisionFiles := do
  let repository ← repository r.repository
  if !repository.holdsPackages then throw (.validation (.notPackageRepository repository.name))
  let k := r.key
  Call.withLease k do
    let lease : Lease := ⟨k, intent⟩
    permit lease
    if intent = .create then
      if ← Index.isDiscovered e k c then throw (.alreadyExists (.revision k))
    let snapshot ← Pipeline.execute e r c
    let stored ← commit lease r snapshot
    return .ofKey k stored.files

/-- Create a revision. -/
def create (e : Engine) (r : Revision) (c : Context) : Call RevisionFiles := write e r .create c

/-- Build a revision anew. -/
def update (e : Engine) (r : Revision) (c : Context) : Call RevisionFiles := write e r .replace c

/-- The revision under a key, created or published. -/
def get (e : Engine) (k : Key) (c : Context) : Call RevisionView := do
  match ← Call.read fun d => d.store.get? k with
  | some s => return ⟨.ofKey k s.files, some s.kptfile⟩
  | none =>
    let content ← Index.lookup e k c
    return ⟨.ofKey k content.files,
      (Kptfile.ofBundle e.config.manifestFile content.files).toOption⟩

/-- The request that a created revision was built from. -/
def spec (k : Key) : Call Revision := do
  let s ← Call.query fun d => d.store.find k
  return s.spec

/-- The revisions that a filter admits. -/
def list (e : Engine) (f : Filter) (c : Context) : Call (List Summary) := Index.list e f c

/-- Delete a created revision. One that is published is read-only. -/
def delete (e : Engine) (k : Key) (c : Context) : Call Unit := do
  match ← Call.attempt (deleteCreated k) with
  | .ok () => return ()
  | .error err =>
    if err.kind = .notFound then
      match ← Call.attempt (Index.isDiscovered e k c) with
      | .ok true => throw (.validation (.readOnly k))
      | _ => throw err
    else throw err

/-- The functions of all repositories of functions. -/
def functions (c : Context) : Call (List Function) := Index.functions c

end Service

end PackageDepot
