import PackageDepot.Wire.Record
import PackageDepot.Yaml.Render

/-!
# Reading a value from a text

A text has to hold one document and nothing behind it. A fault of the value in it is reported first,
before a fault of the text behind the value.
-/

namespace PackageDepot.Wire.Codec

variable {α : Type}

/-- Read the one document of a YAML text with `read`. -/
def readYamlWith (read : Yaml.Node → Except Fault α) (text : String) : Except Fault α :=
  match Yaml.Document.all text with
  | [] => .error .malformed
  | d :: others => do
    let a ← read (Yaml.Node.ofDocument d)
    require (d.intact && others.isEmpty)
    return a

/-- Read the value of a JSON text with `read`. -/
def readJsonWith (read : Json.Node → Except Fault α) (text : String) : Except Fault α := do
  let (n, alone) := Json.Node.ofString text
  let a ← read n
  require alone
  return a

/-- Read a YAML text. -/
def readYaml (c : Codec α) (text : String) : Except Fault α := readYamlWith (fun n => c.decode n) text

/-- Read a JSON text. -/
def readJson (c : Codec α) (text : String) : Except Fault α := readJsonWith (fun n => c.decode n) text

/-- Read a JSON value. -/
def ofJson (c : Codec α) (v : Json) : Except Fault α := c.decode (Json.Node.ofValue v)

/-- The JSON value of a value. -/
def toJson (c : Codec α) (a : α) : Json := (c.encode a).toJson

/-- Read a YAML value. -/
def ofYaml (c : Codec α) (v : Yaml.Value) : Except Fault α := c.decode v

/-- The YAML value of a value. -/
def toYaml (c : Codec α) (a : α) : Yaml.Value := (c.encode a).toYaml

/-- The YAML text of a value. -/
def toYamlText (c : Codec α) (a : α) : String := (c.toYaml a).render

end PackageDepot.Wire.Codec
