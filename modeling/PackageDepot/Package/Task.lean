import PackageDepot.Package.Lineage

/-!
# Tasks

A package revision is built by an ordered list of tasks. A task has a kind and a payload for each kind;
of a well-formed task only the payload of its own kind is there.
-/

namespace PackageDepot.Package

open PackageDepot.Wire (Codec Record)

/-- What a task does: clone a package, start an empty one, run a function or patch files. -/
inductive TaskKind
  | clone
  | init
  | eval
  | edit
  deriving DecidableEq, Repr

/-- The name of a revision, as text. -/
structure RevisionRef where
  name : String
  deriving DecidableEq, Repr, Inhabited

/-- The package that a clone task asks for: a place in git, or another revision. -/
structure CloneSource where
  origin : Option Origin := none
  git : Option GitLocation := none
  revision : Option RevisionRef := none
  deriving DecidableEq, Repr, Inhabited

/-- Payload of a clone task. -/
structure CloneSpec where
  source : CloneSource
  deriving DecidableEq, Repr, Inhabited

/-- Payload of an init task: what the manifest of the new package says about it. -/
structure InitSpec where
  description : String := ""
  keywords : List String := []
  site : String := ""
  deriving DecidableEq, Repr, Inhabited

/-- Payload of an eval task: the image of a function and what it is given. -/
structure EvalSpec where
  image : String
  config : Dict String := ∅
  deriving DecidableEq, Inhabited

/-- How a patch changes a file. -/
inductive PatchKind
  | createFile
  | replaceFile
  | deleteFile
  deriving DecidableEq, Repr

/-- A change of one file. -/
structure Patch where
  file : String
  contents : String := ""
  kind : PatchKind
  deriving DecidableEq, Repr

/-- Payload of an edit task. -/
structure EditSpec where
  patches : List Patch := []
  deriving DecidableEq, Repr, Inhabited

/-- One step of the pipeline that builds a revision. -/
structure Task where
  kind : TaskKind
  clone : Option CloneSpec := none
  init : Option InitSpec := none
  eval : Option EvalSpec := none
  edit : Option EditSpec := none
  deriving DecidableEq

/-- The name of a kind of tasks. -/
def TaskKind.text : TaskKind → String
  | .clone => "clone"
  | .init => "init"
  | .eval => "eval"
  | .edit => "edit"

namespace CloneSource

/-- A package in git. -/
def ofGit (location : GitLocation) : CloneSource := { origin := some .git, git := some location }

/-- Another revision. -/
def ofRevision (name : String) : CloneSource := { revision := some ⟨name⟩ }

end CloneSource

namespace Task

/-- A task that clones a package. -/
def cloning (source : CloneSource) : Task := { kind := .clone, clone := some ⟨source⟩ }

/-- A task that starts an empty package. -/
def starting (spec : InitSpec) : Task := { kind := .init, init := some spec }

/-- A task that runs a function. -/
def evaluating (image : String) (config : Dict String) : Task :=
  { kind := .eval, eval := some ⟨image, config⟩ }

/-- A task that patches files. -/
def editing (patches : List Patch) : Task := { kind := .edit, edit := some ⟨patches⟩ }

/-- Number of payloads that are there. -/
def payloads (t : Task) : Nat :=
  t.clone.isSome.toNat + t.init.isSome.toNat + t.eval.isSome.toNat + t.edit.isSome.toNat

/-- The payload of the task's own kind is there. -/
def hasOwnPayload (t : Task) : Bool :=
  match t.kind with
  | .clone => t.clone.isSome
  | .init => t.init.isSome
  | .eval => t.eval.isSome
  | .edit => t.edit.isSome

/-- The task begins a package of its own. -/
def isSeed (t : Task) : Bool := t.kind = .clone ∨ t.kind = .init

end Task

/-! ## Wire forms -/

def TaskKind.codec : Codec TaskKind := .named text [.clone, .init, .eval, .edit]

def RevisionRef.codec : Codec RevisionRef :=
  .record <| Record.of RevisionRef.mk |>.also (.required "name" name .text)

def CloneSource.codec : Codec CloneSource :=
  .record <| Record.of CloneSource.mk
    |>.also (.optional "type" origin Origin.codec)
    |>.also (.optional "git" git GitLocation.codec)
    |>.also (.optional "upstreamRef" revision RevisionRef.codec)

def CloneSpec.codec : Codec CloneSpec :=
  .record <| Record.of CloneSpec.mk |>.also (.required "upstream" source CloneSource.codec)

def InitSpec.codec : Codec InitSpec :=
  .record <| Record.of InitSpec.mk
    |>.also (.elided "description" description .text "")
    |>.also (.elided "keywords" keywords (.list .text) [])
    |>.also (.elided "site" site .text "")

def EvalSpec.codec : Codec EvalSpec :=
  .record <| Record.of EvalSpec.mk
    |>.also (.required "image" image .text)
    |>.also (.withDefault "configMap" config (.dict .text) ∅)

/-- The name of a kind of patches. -/
def PatchKind.text : PatchKind → String
  | .createFile => "createFile"
  | .replaceFile => "replaceFile"
  | .deleteFile => "deleteFile"

def PatchKind.codec : Codec PatchKind := .named text [.createFile, .replaceFile, .deleteFile]

def Patch.codec : Codec Patch :=
  .record <| Record.of Patch.mk
    |>.also (.required "file" file .text)
    |>.also (.elided "contents" contents .text "")
    |>.also (.required "patchType" kind PatchKind.codec)

def EditSpec.codec : Codec EditSpec :=
  .record <| Record.of EditSpec.mk |>.also (.withDefault "patches" patches (.list Patch.codec) [])

def Task.codec : Codec Task :=
  .record <| Record.of Task.mk
    |>.also (.required "type" kind TaskKind.codec)
    |>.also (.optional "clone" clone CloneSpec.codec)
    |>.also (.optional "init" init InitSpec.codec)
    |>.also (.optional "eval" eval EvalSpec.codec)
    |>.also (.optional "edit" edit EditSpec.codec)

end PackageDepot.Package
