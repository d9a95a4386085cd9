import PackageDepot.Backend.Fault
import PackageDepot.Clock.Context
import PackageDepot.Package.Kptfile
import PackageDepot.Repository.Basic

/-!
# Errors

An `Error` is the cause of a failure. It has a kind, which callers act on, and a message.
-/

namespace PackageDepot

open Package

/-- A request that does not have the form it should have, or may not be carried out. -/
inductive ValidationFault
  | emptyField (field : String)
  | colonInField (field value : String)
  | payloadMismatch (task : TaskKind)
  | notFirst (task : TaskKind)
  | incompleteGit
  | badRevisionName (name : String)
  | ambiguousClone
  | noImage
  | unnamedPatch (patch : PatchKind)
  | noPackage (task : TaskKind)
  | noPayload (task : TaskKind)
  | nothingBuilt (key : Key)
  | ambiguousSource
  | fileExists (file : String)
  | fileMissing (file : String)
  | undeletable (file : String)
  | manifestMissing (file : String)
  | manifestUnusable (refusal : Kptfile.Refusal)
  | renamedByEdit (package : String)
  | unnamedRepository
  | colonInRepository (name : String)
  | specMissing (kind : Backing) (name : String)
  | addressMissing (kind : Backing) (name : String)
  | foreignSpec (kind : Backing) (name : String)
  | notFunctionRepository (name : String)
  | notPackageRepository (name : String)
  | leaseMismatch (lease spec : Key)
  | readOnly (key : Key)
  deriving DecidableEq

/-- A package that cannot be had from where it should come from. -/
inductive ResolutionFault
  | backend (fault : Backend.Fault)
  | secretMissing (secret repo : String)
  | noCommit (repo ref : String)
  | badRevisionName (name : String)
  | revisionMissing (key : Key)
  | revisionUnlocked (key : Key)
  | manifestUnusable (refusal : Kptfile.Refusal)
  deriving DecidableEq

/-- A function that failed, or whose answer cannot be used. -/
inductive FunctionFault
  | unknownFunction (image : String)
  | missingConfig (name key : String)
  | unreadableFile (path : String) (fault : Wire.Fault)
  | manifestRemoved (image file : String)
  | manifestUnusable (image : String) (refusal : Kptfile.Refusal)
  | renamed (image before after : String)
  | reported (text : String)
  deriving DecidableEq

/-- A configuration that cannot be used. -/
inductive ConfigFault
  | malformed
  | emptyManifestFile
  /-- The file could not be read, for a reason that the system gives. -/
  | unreadable (path reason : String)
  deriving DecidableEq

/-- What is there already, or is not there. -/
inductive Subject
  | repository (name : String)
  | revision (key : Key)
  | registry (address : String)
  deriving DecidableEq

/-- Why a call failed. -/
inductive Error
  | validation (fault : ValidationFault)
  | resolution (fault : ResolutionFault)
  | function (fault : FunctionFault)
  | notFound (subject : Subject)
  | alreadyExists (subject : Subject)
  | conflict (key : Key)
  | cancelled (reason : Interrupt)
  | config (fault : ConfigFault)
  /-- A task failed; tasks are counted from zero. -/
  | task (index : Nat) (kind : TaskKind) (cause : Error)
  deriving DecidableEq

/-- Kinds of errors. -/
inductive ErrorKind
  | validation
  | resolution
  | function
  | notFound
  | alreadyExists
  | conflict
  | cancelled
  | config
  deriving DecidableEq, Repr

/-- The name of a kind of errors. -/
def ErrorKind.text : ErrorKind → String
  | .validation => "validation"
  | .resolution => "resolution"
  | .function => "function"
  | .notFound => "not-found"
  | .alreadyExists => "already-exists"
  | .conflict => "conflict"
  | .cancelled => "cancelled"
  | .config => "config"

/-! ## Messages -/

/-- A kind of patches as it is named to the user. -/
def Package.PatchKind.label : PatchKind → String
  | .createFile => "CreateFile"
  | .replaceFile => "ReplaceFile"
  | .deleteFile => "DeleteFile"

namespace ValidationFault

def message : ValidationFault → String
  | .emptyField field => field ++ " must not be empty"
  | .colonInField field value => field ++ " '" ++ value ++ "' must not contain ':'"
  | .payloadMismatch task =>
    task.text ++ " task must carry exactly one '" ++ task.text ++ "' payload"
  | .notFirst task => task.text ++ " task must be the first task of the pipeline"
  | .incompleteGit => "clone upstream git requires repo and ref"
  | .badRevisionName name => Key.refusal name
  | .ambiguousClone => "clone upstream must set exactly one of git or upstreamRef"
  | .noImage => "eval task requires an image"
  | .unnamedPatch patch => "edit patch (" ++ patch.label ++ ") must name a file"
  | .noPackage task => task.text ++ " task has no package to operate on"
  | .noPayload task => task.text ++ " task has no payload"
  | .nothingBuilt key => "pipeline for " ++ key.text ++ " produced no package"
  | .ambiguousSource => "upstream must name either git coordinates or an upstreamRef"
  | .fileExists file => file ++ " already exists"
  | .fileMissing file => file ++ " does not exist"
  | .undeletable file => file ++ " cannot be deleted"
  | .manifestMissing file => file ++ " is missing"
  | .manifestUnusable refusal => "edited manifest is unusable: " ++ refusal.message
  | .renamedByEdit package => "edit must not rename package '" ++ package ++ "'"
  | .unnamedRepository => "repository name must not be empty"
  | .colonInRepository name => "repository name '" ++ name ++ "' must not contain ':'"
  | .specMissing kind name =>
    kind.text ++ " repository '" ++ name ++ "' has no " ++ kind.text ++ " spec"
  | .addressMissing kind name =>
    kind.text ++ " repository '" ++ name ++ "' has no " ++
      (match kind with
        | .git => "repo"
        | .oci => "registry") ++ " address"
  | .foreignSpec kind name =>
    kind.text ++ " repository '" ++ name ++ "' must not carry " ++
      (match kind with
        | .git => "an oci"
        | .oci => "a git") ++ " spec"
  | .notFunctionRepository name => "repository '" ++ name ++ "' is not an OCI function repository"
  | .notPackageRepository name => "repository '" ++ name ++ "' does not hold packages"
  | .leaseMismatch lease spec => "lease for " ++ lease.text ++ " cannot commit " ++ spec.text
  | .readOnly key => "package revision '" ++ key.text ++ "' is published and read-only"

end ValidationFault

namespace ResolutionFault

def message : ResolutionFault → String
  | .backend fault => fault.message
  | .secretMissing secret repo => "secret '" ++ secret ++ "' for " ++ repo ++ " not found"
  | .noCommit repo ref => "backend reported no commit for " ++ repo ++ "@" ++ ref
  | .badRevisionName name => Key.refusal name
  | .revisionMissing key => "upstream package revision '" ++ key.text ++ "' does not exist"
  | .revisionUnlocked key => "upstream package revision '" ++ key.text ++ "' has no upstream lock"
  | .manifestUnusable refusal => "upstream manifest is unusable: " ++ refusal.message

end ResolutionFault

namespace FunctionFault

def message : FunctionFault → String
  | .unknownFunction image => "function '" ++ image ++ "' not found"
  | .missingConfig name key =>
    name ++ " exited abnormally: missing required config '" ++ key ++ "'"
  | .unreadableFile path fault => "cannot parse " ++ path ++ ": " ++ fault.message
  | .manifestRemoved image file => image ++ " removed " ++ file
  | .manifestUnusable image refusal =>
    image ++ " produced an unusable manifest: " ++ refusal.message
  | .renamed image before after =>
    image ++ " renamed package '" ++ before ++ "' to '" ++ after ++ "'"
  | .reported text => text

end FunctionFault

namespace ConfigFault

def message : ConfigFault → String
  | .malformed => "malformed"
  | .emptyManifestFile => "manifest_file must not be empty"
  | .unreadable path reason => path ++ ": " ++ reason

end ConfigFault

namespace Subject

/-- A thing with its name. -/
def text : Subject → String
  | .repository name => "repository '" ++ name ++ "'"
  | .revision key => "package revision '" ++ key.text ++ "'"
  | .registry address => "function registry '" ++ address ++ "'"

end Subject

namespace Error

/-- The kind of an error; that of a failed task is the kind of its cause. -/
def kind : Error → ErrorKind
  | .validation _ => .validation
  | .resolution _ => .resolution
  | .function _ => .function
  | .notFound _ => .notFound
  | .alreadyExists _ => .alreadyExists
  | .conflict _ => .conflict
  | .cancelled _ => .cancelled
  | .config _ => .config
  | .task _ _ cause => cause.kind

/-- The number of the task that failed. -/
def taskIndex? : Error → Option Nat
  | .task index _ _ => some index
  | _ => none

/-- The text that reports an error. -/
def message : Error → String
  | .validation fault => "validation error: " ++ fault.message
  | .resolution fault => "resolution error: " ++ fault.message
  | .function fault => "function error: " ++ fault.message
  | .notFound subject => subject.text ++ " not found"
  | .alreadyExists subject => subject.text ++ " already exists"
  | .conflict key => "conflicting write to '" ++ key.text ++ "' already in progress"
  | .cancelled reason => "operation cancelled: " ++ reason.message
  | .config fault => "configuration error: " ++ fault.message
  | .task index kind cause =>
    "task " ++ toString index ++ " (" ++ kind.text ++ ") failed: " ++ cause.message

/-- The texts of an error and of its causes, outermost first. -/
def chain : Error → List String
  | e@(.task _ _ cause) => e.message :: cause.chain
  | e => [e.message]

/-- The error that a fault of a backend is. -/
def ofBackend : Backend.Fault → Error
  | .registryNotFound registry => .notFound (.registry registry)
  | fault => .resolution (.backend fault)

end Error

end PackageDepot
