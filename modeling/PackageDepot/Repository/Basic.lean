import PackageDepot.Text.Quoted
import PackageDepot.Wire.Record

/-!
# Repositories, functions and credentials

A repository is registered under a name. It is backed by git or by a registry of images, and it holds
packages or functions.
-/

namespace PackageDepot

open PackageDepot.Wire (Codec Record)

/-- What backs a repository. -/
inductive Backing
  | git
  | oci
  deriving DecidableEq, Repr

/-- What a repository holds. -/
inductive Content
  | package
  | function
  deriving DecidableEq, Repr

/-- The name of a secret, which is empty if there is none. -/
structure SecretRef where
  name : String := ""
  deriving DecidableEq, Repr, Inhabited

/-- A repository in git: its address, its working branch and the directory that holds its packages. -/
structure GitSource where
  repo : String
  branch : String := "main"
  directory : String := ""
  secretRef : SecretRef := {}
  deriving DecidableEq, Repr, Inhabited

/-- The name of the secret that a repository asks for. -/
def GitSource.secret? (g : GitSource) : Option String :=
  if g.secretRef.name.isEmpty then none else some g.secretRef.name

/-- A repository in a registry of images. -/
structure OciSource where
  registry : String
  deriving DecidableEq, Repr, Inhabited

/-- A repository. -/
structure Repository where
  name : String
  title : String := ""
  description : String := ""
  kind : Backing
  content : Content := .package
  git : Option GitSource := none
  oci : Option OciSource := none
  deriving DecidableEq, Repr

namespace Repository

/-- A repository of packages in git. -/
def ofGit (name : String) (git : GitSource) : Repository := { name, kind := .git, git := some git }

/-- A repository of functions in a registry of images. -/
def ofRegistry (name registry : String) : Repository :=
  { name, kind := .oci, content := .function, oci := some ⟨registry⟩ }

/-- The repository is in git and holds packages. -/
def holdsPackages (r : Repository) : Bool := r.kind = .git ∧ r.content = .package

end Repository

/-- What a function does with a package. -/
inductive FunctionKind
  | mutator
  | validator
  deriving DecidableEq, Repr

/-- A function that a repository publishes. -/
structure Function where
  name : String
  image : String
  repository : String
  description : String := ""
  kinds : List FunctionKind := []
  keywords : List String := []
  deriving DecidableEq, Repr

/-- A user name and a password. -/
structure Credential where
  username : String
  password : String
  deriving DecidableEq, Repr, Inhabited

/-- A credential as it may be shown. -/
def Credential.shown (c : Credential) : String :=
  "Credential \x7b username: " ++ Text.quoted c.username ++ ", password: \"[REDACTED]\" \x7d"

/-! ## Wire forms -/

/-- The name of a kind of repositories. -/
def Backing.text : Backing → String
  | .git => "git"
  | .oci => "oci"

def Backing.codec : Codec Backing := .named text [.git, .oci]

/-- The name of what a repository holds. -/
def Content.text : Content → String
  | .package => "package"
  | .function => "function"

def Content.codec : Codec Content := .named text [.package, .function]

def SecretRef.codec : Codec SecretRef :=
  .record <| Record.of SecretRef.mk |>.also (.withDefault "name" name .text "")

def GitSource.codec : Codec GitSource :=
  .record <| Record.of GitSource.mk
    |>.also (.required "repo" repo .text)
    |>.also (.withDefault "branch" branch .text "main")
    |>.also (.elided "directory" directory .text "")
    |>.also (.elided "secretRef" secretRef SecretRef.codec {})

def OciSource.codec : Codec OciSource :=
  .record <| Record.of OciSource.mk |>.also (.required "registry" registry .text)

def Repository.codec : Codec Repository :=
  .record <| Record.of Repository.mk
    |>.also (.required "name" name .text)
    |>.also (.elided "title" title .text "")
    |>.also (.elided "description" description .text "")
    |>.also (.required "kind" kind Backing.codec ["type"])
    |>.also (.withDefault "content" content Content.codec .package)
    |>.also (.optional "git" git GitSource.codec)
    |>.also (.optional "oci" oci OciSource.codec)

/-- The name of a kind of functions. -/
def FunctionKind.text : FunctionKind → String
  | .mutator => "mutator"
  | .validator => "validator"

def FunctionKind.codec : Codec FunctionKind := .named text [.mutator, .validator]

def Function.codec : Codec Function :=
  .record <| Record.of Function.mk
    |>.also (.required "name" name .text)
    |>.also (.required "image" image .text)
    |>.also (.required "repositoryName" repository .text)
    |>.also (.elided "description" description .text "")
    |>.also (.elided "functionTypes" kinds (.list FunctionKind.codec) [])
    |>.also (.elided "keywords" keywords (.list .text) [])

def Credential.codec : Codec Credential :=
  .record <| Record.of Credential.mk
    |>.also (.required "username" username .text)
    |>.also (.required "password" password .text)

end PackageDepot
