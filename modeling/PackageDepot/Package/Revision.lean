import PackageDepot.Package.Key
import PackageDepot.Package.Task

/-!
# Package revisions and their files

A `Revision` is the request to build a package revision: its name and its tasks. A `Bundle` is what is
built, files by path, and `RevisionFiles` is a bundle with the name of its revision.
-/

namespace PackageDepot.Package

open PackageDepot.Wire (Codec Record)

/-- The files of a package: contents by path. -/
abbrev Bundle := Dict String

/-- A request to build a package revision. -/
structure Revision where
  package : String
  revision : String
  repository : String
  tasks : List Task := []
  deriving DecidableEq

/-- The key of the revision that is asked for. -/
def Revision.key (r : Revision) : Key := ⟨r.repository, r.package, r.revision⟩

/-- The files of a package revision. -/
structure RevisionFiles where
  name : String
  package : String
  revision : String
  repository : String
  files : Bundle
  deriving DecidableEq

/-- The files of the revision with a key. -/
def RevisionFiles.ofKey (k : Key) (files : Bundle) : RevisionFiles :=
  ⟨k.text, k.package, k.revision, k.repository, files⟩

/-! ## Wire forms -/

def Revision.codec : Codec Revision :=
  .record <| Record.of Revision.mk
    |>.also (.required "packageName" package .text)
    |>.also (.required "revision" revision .text)
    |>.also (.required "repositoryName" repository .text)
    |>.also (.withDefault "tasks" tasks (.list Task.codec) [])

def Bundle.codec : Codec Bundle := .dict .text

def RevisionFiles.codec : Codec RevisionFiles :=
  .record <| Record.of RevisionFiles.mk
    |>.also (.required "name" name .text)
    |>.also (.required "packageName" package .text)
    |>.also (.required "revision" revision .text)
    |>.also (.required "repositoryName" repository .text)
    |>.also (.required "resources" files Bundle.codec)

end PackageDepot.Package
