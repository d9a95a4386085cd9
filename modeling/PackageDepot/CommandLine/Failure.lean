import PackageDepot.Error
import PackageDepot.File.Tree

/-!
# Failures of commands

A `Failure` is why a command ends without its result. It is reported as a chain of texts, which begins
with what was being done and ends with the innermost cause.
-/

namespace PackageDepot.CommandLine

open Package

/-- Why a command failed. -/
inductive Failure
  | config (fault : ConfigFault)
  | fixture (fault : Wire.Fault)
  | fixtureFile (path : String) (fault : Wire.Fault)
  | unreadableFixture (path : String) (fault : File.Fault)
  | registering (repository : String) (cause : Error)
  | rendering (key : Key) (cause : Error)
  | listing (cause : Error)
  /-- A path of a package leads out of it. -/
  | outside (path : String)
  | makingDirectory (path : String) (fault : File.Fault)
  | writing (path : String) (fault : File.Fault)
  /-- The call was abandoned before its end. -/
  | abandoned
  deriving DecidableEq

/-- The texts that report a failure, outermost first. -/
def Failure.chain : Failure → List String
  | .config fault => (Error.config fault).chain
  | .fixture fault => ["invalid fixture", fault.message]
  | .fixtureFile path fault => ["in " ++ path, "invalid fixture", fault.message]
  | .unreadableFixture path fault => ["failed to read fixture " ++ path, fault.message]
  | .registering repository cause => ("registering repository '" ++ repository ++ "'") :: cause.chain
  | .rendering key cause => ("rendering " ++ key.text) :: cause.chain
  | .listing cause => cause.chain
  | .outside path => ["refusing to write " ++ path ++ " outside the package directory"]
  | .makingDirectory path fault => ["creating " ++ path, fault.message]
  | .writing path fault => ["writing " ++ path, fault.message]
  | .abandoned => ["never finishes"]

end PackageDepot.CommandLine
