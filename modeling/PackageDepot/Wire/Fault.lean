/-!
# Faults of a document that does not have the form it should have

A `Fault` is why a document is not taken for a record of a certain form. Names that stand in a message
are given between two grave accents.
-/

namespace PackageDepot.Wire

/-- Why a document is refused. -/
inductive Fault
  /-- The text is no document, or a value is of another kind than its place asks for. -/
  | malformed
  | missingField (name : String)
  | unknownVariant (name : String)
  | unknownField (name : String)
  | duplicateField (name : String)
  deriving DecidableEq, Repr

namespace Fault

/-- The text that reports a fault. -/
def message : Fault → String
  | .malformed => "malformed"
  | .missingField name => "missing field " ++ quoted name
  | .unknownVariant name => "unknown variant " ++ quoted name
  | .unknownField name => "unknown field " ++ quoted name
  | .duplicateField name => "duplicate field " ++ quoted name
where
  /-- A name between grave accents. -/
  quoted (name : String) : String := "\x60" ++ name ++ "\x60"

end Fault

end PackageDepot.Wire
