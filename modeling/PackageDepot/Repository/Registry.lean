import PackageDepot.Backend.Images
import PackageDepot.Error

/-!
# The registry of repositories

Repositories are registered under their names. A repository has the address that its backing asks for
and no other.
-/

namespace PackageDepot

namespace Repository

/-- The repository has the address that its backing asks for. -/
def validate (r : Repository) : Except ValidationFault Unit := do
  if r.name.isEmpty then throw .unnamedRepository
  if r.name.toList.contains ':' then throw (.colonInRepository r.name)
  match r.kind with
  | .git =>
    match r.git with
    | none => throw (.specMissing .git r.name)
    | some git =>
      if git.repo.isEmpty then throw (.addressMissing .git r.name)
      if r.oci.isSome then throw (.foreignSpec .git r.name)
  | .oci =>
    match r.oci with
    | none => throw (.specMissing .oci r.name)
    | some oci =>
      if oci.registry.isEmpty then throw (.addressMissing .oci r.name)
      if r.git.isSome then throw (.foreignSpec .oci r.name)

/-- The registry of a repository of functions. -/
def functionRegistry? (r : Repository) : Option String :=
  match r.content with
  | .function => r.oci.map (·.registry)
  | .package => none

/-- The place in git of a repository of packages. -/
def packageSource? (r : Repository) : Option GitSource :=
  match r.content with
  | .package => r.git
  | .function => none

/-- The functions that images of a registry publish in a repository. -/
def publish (r : Repository) (registry : String) (images : List Backend.FunctionImage) :
    List Function :=
  images.map fun i =>
    { name := r.name ++ ":" ++ i.name ++ ":" ++ i.tag
      image := i.reference registry
      repository := r.name
      description := i.description
      kinds := i.kinds }

end Repository

/-- Repositories by name. -/
abbrev Registry := Dict Repository

namespace Registry

/-- The repository with a name. -/
def find (g : Registry) (name : String) : Except Error Repository :=
  match g.get? name with
  | some r => .ok r
  | none => .error (.notFound (.repository name))

/-- Register a repository. -/
def register (g : Registry) (r : Repository) : Except Error Registry := do
  r.validate.mapError .validation
  if g.contains r.name then throw (.alreadyExists (.repository r.name))
  return g.insert r.name r

/-- Take a repository out. -/
def unregister (g : Registry) (name : String) : Except Error (Repository × Registry) := do
  let r ← g.find name
  return (r, g.erase name)

/-- The first registered repository in git with an address. -/
def sourceOf? (g : Registry) (repo : String) : Option GitSource :=
  (g.values.filterMap (·.git)).find? fun git => git.repo == repo

end Registry

end PackageDepot
