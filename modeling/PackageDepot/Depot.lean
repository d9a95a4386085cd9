import PackageDepot.Backend.Git
import PackageDepot.Repository.Registry
import PackageDepot.Store

/-!
# The state of a depot

A depot has the places that packages, images and secrets are kept in, the repositories that are
registered, and the revisions that were created.
-/

namespace PackageDepot

/-- The state that calls share. -/
structure Depot where
  git : Backend.GitHost := ∅
  images : Backend.ImageHost := ∅
  secrets : Dict Credential := ∅
  registry : Registry := ∅
  store : Store := {}

end PackageDepot
