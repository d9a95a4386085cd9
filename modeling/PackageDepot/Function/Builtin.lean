import PackageDepot.Error
import PackageDepot.Function.Image
import PackageDepot.Yaml.Render

/-!
# Functions that are built in

A built-in function changes the resources of a package: mappings in YAML files that have a kind and a
version, are not cluster-scoped and are not marked as local. Files in which it changes nothing stay
byte for byte; other files are written anew, without their empty documents.
-/

namespace PackageDepot

open Package Yaml

/-- The entries of a mapping. -/
abbrev Resource := List (Value × Value)

/-- A function that is built in: the configuration that it needs, and what it does with a resource. The
flag says whether the file has to be written anew. -/
structure Builtin where
  required : List String := []
  mutate : Dict String → Resource → Resource × Bool

namespace Builtin

/-- Kinds of resources that belong to a whole cluster. -/
def clusterScoped : List String :=
  ["APIService", "ClusterRole", "ClusterRoleBinding", "CustomResourceDefinition",
    "MutatingWebhookConfiguration", "Namespace", "Node", "PersistentVolume", "PriorityClass",
    "StorageClass", "ValidatingWebhookConfiguration"]

/-- The resource is marked as local, so it is not meant for a cluster. -/
def isLocal (r : Resource) : Bool :=
  (do
    let metadata ← Value.field? r "metadata"
    let annotations ← metadata.get? "annotations"
    let mark ← annotations.get? Kptfile.localConfigAnnotation
    mark.text?) == some "true"

/-- The functions change this resource. -/
def isEligible (r : Resource) : Bool :=
  match (Value.field? r "kind").bind Value.text? with
  | some kind =>
    (Value.field? r "apiVersion").isSome && !clusterScoped.contains kind && !isLocal r
  | none => false

/-- The entries of a mapping, also behind a tag, are changed; anything else gives way to a mapping
without entries. -/
def updateEntries (f : Resource → Resource × Bool) (v : Value) : Value × Bool :=
  match go v with
  | some r => r
  | none => let (entries, changed) := f []; (.map entries, changed)
where
  /-- Look for a mapping behind the tags. -/
  go : Value → Option (Value × Bool)
    | .map entries => let (entries, changed) := f entries; some (.map entries, changed)
    | .tagged tag v => (go v).map fun (v, changed) => (.tagged tag v, changed)
    | _ => none

/-- Change the mapping under a field of a resource. -/
def updateChild (name : String) (f : Resource → Resource × Bool) (r : Resource) :
    Resource × Bool :=
  let (child, changed) := updateEntries f ((Value.field? r name).getD (.map []))
  (Value.setField name child r, changed)

/-- Set a field to a text, unless that is its value. -/
def setText (name text : String) (r : Resource) : Resource × Bool :=
  if (Value.field? r name).any fun v => v.same (.str text) then (r, false)
  else (Value.setField name (.str text) r, true)

/-- Set a field for every entry of the configuration. -/
def setTexts : List (String × String) → Resource → Resource × Bool
  | [], r => (r, false)
  | (name, text) :: rest, r =>
    let (r, changed) := setText name text r
    let (r, more) := setTexts rest r
    (r, changed || more)

/-- Put every entry of the configuration under a field of the metadata. -/
def setMetadata (field : String) (config : Dict String) (r : Resource) : Resource × Bool :=
  if config.isEmpty then (r, false)
  else updateChild "metadata" (updateChild field (setTexts config.toList)) r

/-- Sets the namespace of resources. -/
def setNamespace : Builtin where
  required := ["namespace"]
  mutate config r :=
    match config.get? "namespace" with
    | some name => updateChild "metadata" (setText "namespace" name) r
    | none => (r, false)

/-- Sets labels of resources. -/
def setLabels : Builtin where
  mutate := setMetadata "labels"

/-- Sets annotations of resources. -/
def setAnnotations : Builtin where
  mutate := setMetadata "annotations"

/-- Change one document. -/
def applyToDocument (f : Builtin) (config : Dict String) (v : Value) : Value × Bool :=
  match v with
  | .map r =>
    if isEligible r then let (r, changed) := f.mutate config r; (.map r, changed)
    else (v, false)
  | _ => (v, false)

/-- The text of a file with several documents. -/
def renderAll (documents : List Value) : String :=
  "---\n".intercalate ((documents.filter fun v => !v.isNull).map Value.render)

/-- Change the documents of a file. -/
def applyToFile (f : Builtin) (config : Dict String) (text : String) : Except Wire.Fault String :=
  match Value.readAll? text with
  | none => .error .malformed
  | some documents =>
    let changes := documents.map (f.applyToDocument config)
    if changes.any (·.2) then .ok (renderAll (changes.map (·.1))) else .ok text

/-- Files with resources, by their names. -/
def isYaml (path : String) : Bool :=
  (Text.dropEnd? ".yaml".toList path.toList).isSome ||
    (Text.dropEnd? ".yml".toList path.toList).isSome

/-- Change the files of a list. -/
def applyToFiles (f : Builtin) (config : Dict String) :
    List (String × String) → Except FunctionFault (List (String × String))
  | [] => .ok []
  | (path, text) :: rest => do
    let text ←
      if isYaml path then (f.applyToFile config text).mapError (.unreadableFile path)
      else .ok text
    return (path, text) :: (← applyToFiles f config rest)

end Builtin

/-- The functions that can be run, by name. -/
abbrev Runtime := Dict Builtin

namespace Runtime

/-- The functions that are always there. -/
def standard : Runtime :=
  Dict.ofList [("set-namespace", .setNamespace), ("set-labels", .setLabels),
    ("set-annotations", .setAnnotations)]

/-- Run a function on a bundle. -/
def evaluate (runtime : Runtime) (image : String) (config : Dict String) (files : Bundle) :
    Except FunctionFault Bundle :=
  let name := Image.functionName image
  match runtime.get? name with
  | none => .error (.unknownFunction image)
  | some f =>
    match f.required.find? fun key => !config.contains key with
    | some key => .error (.missingConfig name key)
    | none => (f.applyToFiles config files.toList).map Dict.ofList

end Runtime

end PackageDepot
