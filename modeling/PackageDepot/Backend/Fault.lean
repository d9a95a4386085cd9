/-!
# Faults of the places that hold packages and images
-/

namespace PackageDepot.Backend

/-- Why a place does not answer. -/
inductive Fault
  | repositoryNotFound (repo : String)
  | refNotFound (repo ref : String)
  | pathNotFound (repo ref directory : String)
  | unreachable (repo : String)
  | unauthorized (repo : String)
  | registryNotFound (registry : String)
  deriving DecidableEq, Repr

/-- The text that reports a fault. -/
def Fault.message : Fault → String
  | .repositoryNotFound repo => "repository not found: " ++ repo
  | .refNotFound repo ref => "ref '" ++ ref ++ "' not found in " ++ repo
  | .pathNotFound repo ref directory =>
    "path '" ++ directory ++ "' not found at " ++ repo ++ "@" ++ ref
  | .unreachable repo => "backend unreachable: " ++ repo
  | .unauthorized repo => "access denied to " ++ repo
  | .registryNotFound registry => "registry not found: " ++ registry

end PackageDepot.Backend
