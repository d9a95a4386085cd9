import PackageDepot.Text.Cut

/-!
# Names of package revisions

A revision is named `repository:package:revision`. `Key.parse?` reads such a name and `Key.text` writes
it; a name has exactly three parts, and none of them is empty.
-/

namespace PackageDepot.Package

/-- Names one revision of one package of one repository. -/
structure Key where
  repository : String
  package : String
  revision : String
  deriving DecidableEq, Repr, Inhabited

namespace Key

/-- The name of a revision. -/
def text (k : Key) : String := k.repository ++ ":" ++ k.package ++ ":" ++ k.revision

/-- Read a name. -/
def parse? (name : String) : Option Key := do
  let (repository, rest) ← Text.cut ':' name.toList
  let (package, revision) ← Text.cut ':' rest
  if repository.isEmpty || package.isEmpty || revision.isEmpty || revision.contains ':' then none
  else some ⟨String.ofList repository, String.ofList package, String.ofList revision⟩

/-- What is said about a name that is none. -/
def refusal (name : String) : String :=
  "invalid package revision name '" ++ name ++ "': expected <repository>:<package>:<revision>"

/-- Names are in the order of their repositories, then of their packages, then of their revisions. -/
def le (a b : Key) : Bool :=
  if a.repository = b.repository then
    if a.package = b.package then decide (a.revision ≤ b.revision) else decide (a.package < b.package)
  else decide (a.repository < b.repository)

end Key

end PackageDepot.Package
