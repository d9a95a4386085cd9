import PackageDepot.Package.Revision
import PackageDepot.Wire.Text

/-!
# Kptfiles

The manifest of a package is a YAML document with the name of the package, what is said about it and
its lineage. Fields that are not known are kept as they are, in the order of their names, behind the
known ones.
-/

namespace PackageDepot.Package

open PackageDepot.Wire (Codec Fault Form Record Source)

/-- Identity of a package. -/
structure Metadata where
  name : String
  annotations : Dict String := ∅
  deriving DecidableEq

/-- What is said about a package. -/
structure Info where
  site : String := ""
  description : String := ""
  keywords : List String := []
  deriving DecidableEq

/-- Nothing is said. -/
def Info.isEmpty (i : Info) : Bool :=
  i.site.isEmpty && i.description.isEmpty && i.keywords.isEmpty

/-- The manifest of a package. -/
structure Kptfile where
  apiVersion : String := "kpt.dev/v1"
  kind : String := "Kptfile"
  metadata : Metadata
  lineage : Option Lineage := none
  lock : Option Lock := none
  info : Option Info := none
  extra : Dict Yaml.Value := ∅

namespace Kptfile

/-- The path at which a package keeps its manifest if nothing else is said. -/
def defaultPath : String := "Kptfile"

/-- Marks what is not meant for a cluster. -/
def localConfigAnnotation : String := "config.kubernetes.io/local-config"

/-- The manifest of a new package. -/
def named (name : String) : Kptfile :=
  { metadata := { name, annotations := (∅ : Dict String).insert localConfigAnnotation "true" } }

/-- The name of the package. -/
def name (k : Kptfile) : String := k.metadata.name

end Kptfile

/-! ## Wire forms -/

def Metadata.codec : Codec Metadata :=
  .record <| Record.of Metadata.mk
    |>.also (.required "name" name .text)
    |>.also (.elided "annotations" annotations (.dict .text) ∅)

def Info.codec : Codec Info :=
  .record <| Record.of Info.mk
    |>.also (.elided "site" site .text "")
    |>.also (.elided "description" description .text "")
    |>.also (.elided "keywords" keywords (.list .text) [])

namespace Kptfile

/-- The known fields. -/
def known : Record Kptfile (Dict Yaml.Value → Kptfile) :=
  Record.of Kptfile.mk
    |>.also (.required "apiVersion" apiVersion .text)
    |>.also (.required "kind" kind .text)
    |>.also (.required "metadata" metadata Metadata.codec)
    |>.also (.optional "upstream" lineage Lineage.codec)
    |>.also (.optional "upstreamLock" lock Lock.codec)
    |>.also (.optional "info" info Info.codec)

/-- Keep the value of a field that is not known. -/
def keep {ν : Type} [Source ν] (name : String) (n : ν) (extra : List (String × Yaml.Value)) :
    Except Fault (List (String × Yaml.Value)) := do
  return extra ++ [(name, ← Source.contents n)]

/-- Read a manifest. Of two unknown fields with one name the later one counts, but a key that stands
twice inside a value is a fault. -/
def decode {ν : Type} [Source ν] (n : ν) : Except Fault Kptfile := do
  match ← Source.fields n with
  | .named entries =>
    let (s, extra) ← known.readEntries keep entries (known.start, [])
    let make ← known.finish s
    Wire.require (extra.all fun e => e.2.wellKeyed)
    return make (Dict.ofList extra)
  | .listed _ => throw .malformed

/-- A manifest as a YAML value. -/
def toYaml (k : Kptfile) : Yaml.Value :=
  .map (Form.fieldsToYaml (known.write k) ++ k.extra.toList.map fun e => (.str e.1, e.2))

/-- The text of a manifest. -/
def render (k : Kptfile) : String := k.toYaml.render

/-- Read the text of a manifest. -/
def parse (text : String) : Except Fault Kptfile := Codec.readYamlWith decode text

/-- Read the JSON text of a manifest. -/
def parseJson (text : String) : Except Fault Kptfile := Codec.readJsonWith decode text

/-- Manifests that say the same; the order of keys inside unknown fields does not count. -/
def same (a b : Kptfile) : Bool :=
  a.apiVersion = b.apiVersion && a.kind = b.kind && a.metadata = b.metadata &&
    a.lineage = b.lineage && a.lock = b.lock && a.info = b.info &&
    a.extra.keys = b.extra.keys &&
    (a.extra.values.zip b.extra.values).all fun (v, w) => v.same w

/-- Why a package has no manifest that can be used. -/
inductive Refusal
  | missing
  | malformed (fault : Fault)
  deriving DecidableEq

/-- What is said about it. -/
def Refusal.message : Refusal → String
  | .missing => "package has no Kptfile"
  | .malformed fault => "malformed Kptfile: " ++ fault.message

/-- The manifest that a bundle keeps at a path. -/
def ofBundle (path : String) (files : Bundle) : Except Refusal Kptfile :=
  match files.get? path with
  | none => .error .missing
  | some text => (parse text).mapError .malformed

end Kptfile

end PackageDepot.Package
