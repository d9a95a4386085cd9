import PackageDepot.Error
import PackageDepot.Function.Image
import PackageDepot.Text.Blank
import PackageDepot.Toml.Document

/-!
# Configuration

A configuration is a TOML document. Keys that are not known count for nothing, and those that are
missing keep their default.
-/

namespace PackageDepot

/-- What an engine is told once for all calls. -/
structure Config where
  /-- Stands in front of short names of images. -/
  functionRegistry : String := "gcr.io/kpt-fn"
  /-- The time that each task may take, in seconds. -/
  taskTimeout : Option Nat := none
  /-- The path of the manifest in every bundle. -/
  manifestFile : String := Package.Kptfile.defaultPath
  deriving DecidableEq, Repr

namespace Config

/-- A text under a key, or the default. -/
def textOr (absent : String) (key : String) (t : Toml.Table) : Except ConfigFault String :=
  match t.lookup key with
  | none => .ok absent
  | some (.text s) => .ok s
  | some _ => .error .malformed

/-- A number that is not negative under a key. -/
def nat? (key : String) (t : Toml.Table) : Except ConfigFault (Option Nat) :=
  match t.lookup key with
  | none => .ok none
  | some (.int i) => if 0 ≤ i then .ok (some i.toNat) else .error .malformed
  | some _ => .error .malformed

/-- The configuration that a table holds. -/
def ofTable (t : Toml.Table) : Except ConfigFault Config := do
  let d : Config := {}
  let config : Config :=
    { functionRegistry := ← textOr d.functionRegistry "function_registry" t
      taskTimeout := ← nat? "task_timeout_secs" t
      manifestFile := ← textOr d.manifestFile "manifest_file" t }
  if Text.isBlank config.manifestFile then throw .emptyManifestFile
  return config

/-- Read a configuration. -/
def parse (text : String) : Except ConfigFault Config :=
  match Toml.Table.ofString? text with
  | some t => ofTable t
  | none => .error .malformed

/-- The time that each task may take, in milliseconds. -/
def taskMilliseconds (c : Config) : Option Nat := c.taskTimeout.map (· * 1000)

/-- The name of an image, with the configured registry in front of a short one. -/
def expandImage (c : Config) (image : String) : String := Image.expand c.functionRegistry image

end Config

end PackageDepot
