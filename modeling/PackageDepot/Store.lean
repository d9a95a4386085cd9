import PackageDepot.Pipeline.Snapshot

/-!
# The store of created revisions

The store keeps the revisions that were created, in the order of their creation. A writer takes the
lease of a key first; a key has one lease at a time, and readers do not wait for it. Whether the key is
there has to agree with what the writer intends, both when the lease is taken and when it is used.
-/

namespace PackageDepot

open Package

/-- A revision as it was created. -/
structure Stored where
  spec : Revision
  files : Bundle
  kptfile : Kptfile
  createdAt : Time
  updatedAt : Time
  /-- Number in the order of creation. -/
  seq : Nat

/-- The key of a stored revision. -/
def Stored.key (s : Stored) : Key := s.spec.key

/-- What a writer intends. -/
inductive Intent
  | create
  | replace
  deriving DecidableEq, Repr

/-- The permission to write a key. -/
structure Lease where
  key : Key
  intent : Intent
  deriving DecidableEq, Repr

/-- The revisions, the keys whose leases are taken, and the next number. -/
structure Store where
  revisions : List Stored := []
  inFlight : List Key := []
  /-- The number of the next revision that is created. It is idealised: it grows for ever, while a counter of
  64 bits is back at zero after 2⁶⁴ creations. -/
  nextSeq : Nat := 0

namespace Store

/-- The revision under a key. -/
def get? (s : Store) (k : Key) : Option Stored := s.revisions.find? fun r => r.key = k

/-- The revision under a key, which has to be there. -/
def find (s : Store) (k : Key) : Except Error Stored :=
  match s.get? k with
  | some r => .ok r
  | none => .error (.notFound (.revision k))

/-- The revisions of one repository or of all, in the order of their creation. -/
def list (s : Store) (repository : Option String) : List Stored :=
  s.revisions.filter fun r => repository.all fun name => r.spec.repository == name

/-- The lease of a key is taken. -/
def isBusy (s : Store) (k : Key) : Bool := s.inFlight.contains k

/-- Take the lease of a key. -/
def acquire (s : Store) (k : Key) : Store := { s with inFlight := k :: s.inFlight }

/-- Give the lease of a key back. -/
def release (s : Store) (k : Key) : Store := { s with inFlight := s.inFlight.filter (· ≠ k) }

/-- A key that is to be created is not there, and one that is to be replaced is. -/
def permit (s : Store) (l : Lease) : Except Error Unit :=
  match l.intent, s.get? l.key with
  | .create, some _ => .error (.alreadyExists (.revision l.key))
  | .replace, none => .error (.notFound (.revision l.key))
  | _, _ => .ok ()

/-- Put the revision of a lease into the store. -/
def commit (s : Store) (l : Lease) (spec : Revision) (snapshot : Snapshot) (now : Time) :
    Except Error (Stored × Store) :=
  if spec.key ≠ l.key then .error (.validation (.leaseMismatch l.key spec.key))
  else
    match l.intent, s.get? l.key with
    | .create, some _ => .error (.alreadyExists (.revision l.key))
    | .replace, none => .error (.notFound (.revision l.key))
    | .create, none =>
      let r : Stored := ⟨spec, snapshot.files, snapshot.kptfile, now, now, s.nextSeq⟩
      .ok (r, { s with revisions := s.revisions ++ [r], nextSeq := s.nextSeq + 1 })
    | .replace, some old =>
      let r : Stored :=
        ⟨spec, snapshot.files, snapshot.kptfile, old.createdAt, now, old.seq⟩
      .ok (r, { s with revisions := s.revisions.map fun o => if o.key = l.key then r else o })

/-- Take a revision out. -/
def erase (s : Store) (k : Key) : Store :=
  { s with revisions := s.revisions.filter fun r => r.key ≠ k }

/-- Take the revisions of a repository out, whatever leases are taken. -/
def purge (s : Store) (repository : String) : Store :=
  { s with revisions := s.revisions.filter fun r => r.key.repository ≠ repository }

end Store

end PackageDepot
