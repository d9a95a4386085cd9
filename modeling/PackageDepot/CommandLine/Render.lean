import PackageDepot.Clock.Schedule
import PackageDepot.CommandLine.Failure
import PackageDepot.File.Access
import PackageDepot.Fixture
import PackageDepot.Service.Basic

/-!
# Work on a fixture

The repositories of a fixture are registered in a depot of its own, in which its revisions are then built
one after the other, or its functions listed. What was built is shown as one stream of text or written to
files. The first failure ends the work; files that were written before it stay.
-/

namespace PackageDepot.CommandLine

open Package

/-- Work on a depot that may fail. -/
abbrev Work (α : Type) := ExceptT Failure (Routine Depot) α

namespace Work

variable {α : Type}

/-- A call within the work. -/
def ofCall (failure : Error → Failure) (c : Call α) : Work α := ExceptT.adapt failure c

/-- Carry out work that nothing else goes on beside. -/
def perform (w : Work α) (m : Moment) (d : Depot) : Except Failure α :=
  match (Schedule.run m [] [w.run] d).results with
  | [some r] => r
  | _ => .error .abandoned

end Work

/-- Register the repositories of a fixture, in order. -/
def registerAll (f : Fixture) : Work Unit :=
  f.repositories.forM fun r => .ofCall (.registering r.name) (Service.register r)

/-- Build the revisions of a fixture, in order. -/
def buildAll (f : Fixture) (config : Config) (c : Context) : Work (List RevisionFiles) := do
  registerAll f
  let engine := Engine.ofConfig config Runtime.standard.evaluator
  f.revisions.mapM fun r => .ofCall (.rendering r.key) (Service.create engine r c)

/-- List the functions that the repositories of a fixture publish. -/
def listFunctions (f : Fixture) (c : Context) : Work (List Function) := do
  registerAll f
  .ofCall .listing (Service.functions c)

/-! ## What is shown -/

/-- Text that ends with a line break. -/
def endLine (text : String) : String :=
  if text.toList.getLast? = some '\n' then text else text ++ "\n"

/-- One file of a revision, under a line that names it. -/
def fileText (revision path text : String) : String :=
  "--- # " ++ revision ++ "/" ++ path ++ "\n" ++ endLine text

/-- The files of revisions, one after the other. -/
def stream (revisions : List RevisionFiles) : String :=
  String.join (revisions.flatMap fun r => r.files.toList.map fun e => fileText r.name e.1 e.2)

/-- A line of the table of functions, with the names padded to a width. -/
def row (width : Nat) (name image : String) : String :=
  name ++ "".pushn ' ' (width - name.length) ++ "  " ++ image ++ "\n"

/-- Functions as a table. The column of the names is as wide as the longest name has bytes. -/
def table (functions : List Function) : String :=
  let width := functions.foldl (fun w f => max w f.name.utf8ByteSize) "NAME".length
  row width "NAME" "IMAGE" ++ String.join (functions.map fun f => row width f.name f.image)

/-! ## What is written -/

/-- The directory of a revision. -/
def revisionDirectory (root : String) (r : RevisionFiles) : String :=
  File.Path.join (File.Path.join (File.Path.join root r.repository) r.package) r.revision

section Writing

variable {m : Type → Type} [Monad m] [File.Access m]

/-- Write a file of a package into the directory of the package. -/
def writeFile (directory path text : String) : ExceptT Failure m Unit := do
  if !File.Path.goesDown path then throw (.outside path)
  let target := File.Path.join directory path
  if let some parent := File.Path.parent? target then
    ExceptT.adapt (.makingDirectory parent) (ExceptT.mk (File.Access.ensureDirectories (m := m) parent))
  ExceptT.adapt (.writing target) (ExceptT.mk (File.Access.write (m := m) target text))

/-- Write the files of a revision below a directory, in the order of their paths. -/
def writeRevision (root : String) (r : RevisionFiles) : ExceptT Failure m Unit :=
  r.files.toList.forM fun e => writeFile (revisionDirectory root r) e.1 e.2

end Writing

end PackageDepot.CommandLine
