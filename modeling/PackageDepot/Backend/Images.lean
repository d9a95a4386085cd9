import PackageDepot.Backend.Fault
import PackageDepot.Function.Image
import PackageDepot.Repository.Basic

/-!
# Registries of images

An `ImageHost` holds registries by address, and a registry holds the images of functions.
-/

namespace PackageDepot.Backend

/-- The image of a function. -/
structure FunctionImage where
  name : String
  tag : String
  description : String := ""
  kinds : List FunctionKind := [.mutator]
  deriving DecidableEq, Repr

/-- The name under which a registry publishes an image. -/
def FunctionImage.reference (i : FunctionImage) (registry : String) : String :=
  Image.published registry i.name i.tag

/-- Registries by address. -/
abbrev ImageHost := Dict (List FunctionImage)

namespace ImageHost

/-- The images of a registry. -/
def images (h : ImageHost) (registry : String) : Except Fault (List FunctionImage) :=
  match h.get? registry with
  | some images => .ok images
  | none => .error (.registryNotFound registry)

/-- Add images to a registry. -/
def push (h : ImageHost) (registry : String) (images : List FunctionImage) : ImageHost :=
  h.modify registry [] (· ++ images)

end ImageHost

end PackageDepot.Backend
