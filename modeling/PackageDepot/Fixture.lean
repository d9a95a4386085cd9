import PackageDepot.Depot

/-!
# Fixtures

A fixture is a YAML document that describes a whole depot for use without a network: the repositories
to be registered, what the places behind them hold, and the revisions that are to be built.
-/

namespace PackageDepot

open Package
open PackageDepot.Wire (Codec Record)

/-- An image of a function in a fixture. It is a mutator unless it says what it is. -/
def Backend.FunctionImage.codec : Codec Backend.FunctionImage :=
  let ofFields (name tag description : String) (kinds : List FunctionKind) : FunctionImage :=
    { name, tag, description, kinds := if kinds.isEmpty then [.mutator] else kinds }
  .record <| Record.of ofFields
    |>.also (.required "name" name .text)
    |>.also (.required "tag" tag .text)
    |>.also (.withDefault "description" description .text "")
    |>.also (.withDefault "functionTypes" kinds (.list FunctionKind.codec) [])

/-- A fixture. -/
structure Fixture where
  /-- The repositories, in the order in which they are registered. -/
  repositories : List Repository := []
  /-- Credentials by the names of secrets. -/
  secrets : Dict Credential := ∅
  /-- Files by the address of a repository and a ref in it. -/
  git : Dict (Dict Bundle) := ∅
  /-- Images by the address of a registry. -/
  registries : Dict (List Backend.FunctionImage) := ∅
  /-- The revisions, in the order in which they are built. -/
  revisions : List Revision := []

namespace Fixture

/-- A fixture holds no other sections than its own. -/
def codec : Codec Fixture :=
  .strictRecord <| Record.of Fixture.mk
    |>.also (.withDefault "repositories" repositories (.list Repository.codec) [])
    |>.also (.withDefault "secrets" secrets (.dict Credential.codec) ∅)
    |>.also (.withDefault "git" git (.dict (.dict Bundle.codec)) ∅)
    |>.also (.withDefault "registries" registries (.dict (.list Backend.FunctionImage.codec)) ∅)
    |>.also (.withDefault "revisions" revisions (.list Revision.codec) [])

/-- Read a fixture. -/
def parse (text : String) : Except Wire.Fault Fixture := codec.readYaml text

/-- The git repositories of a fixture. `newId` makes the id of the commit that a ref of a repository
points at. A repository without refs does not exist. -/
def gitHost (newId : String → String → String) (f : Fixture) : Backend.GitHost :=
  f.git.toList.foldl (fun host (repo, refs) =>
    refs.toList.foldl (fun host (ref, files) =>
      Backend.GitHost.setRef host repo ref ⟨newId repo ref, files⟩) host) ∅

/-- The registries of a fixture. A registry without images exists. -/
def imageHost (f : Fixture) : Backend.ImageHost :=
  f.registries.toList.foldl (fun host (address, images) =>
    Backend.ImageHost.push host address images) ∅

/-- The depot that a fixture describes, in which nothing is registered or created yet. -/
def depot (newId : String → String → String) (f : Fixture) : Depot where
  git := f.gitHost newId
  images := f.imageHost
  secrets := f.secrets

end Fixture

end PackageDepot
