import PackageDepot.Text.Cut

/-!
# Names of images

The image of a function is named `registry/name:tag` or `registry/name@digest`; a name without a slash
is short and means a function of the registry that is configured.
-/

namespace PackageDepot.Image

/-- The name of the function that an image holds. -/
def functionName (image : String) : String :=
  String.ofList
    (((Text.afterLast '/' image.toList).takeWhile (· != '@')).takeWhile (· != ':'))

/-- The name of an image, with the registry in front of a short one. -/
def expand (registry image : String) : String :=
  if image.toList.contains '/' then image
  else String.ofList (Text.trimEnd '/' registry.toList) ++ "/" ++ image

/-- The name under which a registry publishes a function. -/
def published (registry name tag : String) : String :=
  String.ofList (Text.trimEnd '/' registry.toList) ++ "/" ++ name ++ ":" ++ tag

end PackageDepot.Image
