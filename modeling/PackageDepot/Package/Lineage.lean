import PackageDepot.Wire.Record

/-!
# Where packages come from

A package that was cloned records its lineage: the place in git that it was cloned from
(`Lineage`), and the same place pinned to a commit (`Lock`).
-/

namespace PackageDepot.Package

open PackageDepot.Wire (Codec Record)

/-- A directory at a ref of a git repository. -/
structure GitLocation where
  repo : String
  ref : String
  directory : String := ""
  deriving DecidableEq, Repr, Inhabited

/-- A place pinned to a commit. -/
structure GitLock where
  location : GitLocation
  commit : String
  deriving DecidableEq, Repr, Inhabited

/-- Kinds of places that packages come from. -/
inductive Origin
  | git
  deriving DecidableEq, Repr

/-- The place that a package was declared to come from. -/
structure Lineage where
  origin : Origin
  git : Option GitLocation
  deriving DecidableEq, Repr

/-- The place that a package came from, pinned to a commit. -/
structure Lock where
  origin : Origin
  git : Option GitLock
  deriving DecidableEq, Repr

namespace Lock

/-- The lock of a git place. -/
def ofGit (lock : GitLock) : Lock := ⟨.git, some lock⟩

/-- The commit, or nothing while it is not known. -/
def version (l : Lock) : String := (l.git.map (·.commit)).getD ""

/-- The same place without the commit. -/
def lineage (l : Lock) : Lineage := ⟨l.origin, l.git.map (·.location)⟩

end Lock

/-! ## Wire forms -/

/-- The name of a kind of places. -/
def Origin.text : Origin → String
  | .git => "git"

def Origin.codec : Codec Origin := .named text [.git]

/-- A place as a task names it, with the ref in front of the directory. -/
def GitLocation.codec : Codec GitLocation :=
  .record <| Record.of (fun repo ref directory => ⟨repo, ref, directory⟩)
    |>.also (.required "repo" repo .text)
    |>.also (.required "ref" ref .text)
    |>.also (.withDefault "directory" directory .text "")

/-- A place as a manifest names it, with the directory in front of the ref. -/
def GitLocation.manifestCodec : Codec GitLocation :=
  .record <| Record.of (fun repo directory ref => ⟨repo, ref, directory⟩)
    |>.also (.required "repo" repo .text)
    |>.also (.withDefault "directory" directory .text "")
    |>.also (.required "ref" ref .text)

def GitLock.codec : Codec GitLock :=
  .record <| Record.of (fun repo directory ref commit => ⟨⟨repo, ref, directory⟩, commit⟩)
    |>.also (.required "repo" (·.location.repo) .text)
    |>.also (.withDefault "directory" (·.location.directory) .text "")
    |>.also (.required "ref" (·.location.ref) .text)
    |>.also (.required "commit" commit .text)

def Lineage.codec : Codec Lineage :=
  .record <| Record.of Lineage.mk
    |>.also (.required "type" origin Origin.codec)
    |>.also (.optional "git" git GitLocation.manifestCodec)

def Lock.codec : Codec Lock :=
  .record <| Record.of Lock.mk
    |>.also (.required "type" origin Origin.codec)
    |>.also (.optional "git" git GitLock.codec)

end PackageDepot.Package
