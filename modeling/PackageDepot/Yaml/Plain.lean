import PackageDepot.Decimal.Binary64
import PackageDepot.Text.Digits

/-!
# What a plain scalar means

`Plain.resolve` decides whether the text of an unquoted scalar is null, a truth value, a number or a
string. The printer asks the same question, so that it quotes exactly the strings that would read
back as something else.
-/

namespace PackageDepot.Yaml

/-- The meaning of a plain scalar. -/
inductive Plain
  | null
  | bool (b : Bool)
  | int (i : Int)
  | float (x : Binary64)
  /-- An integer of more than 64 bits, which no value holds. -/
  | wide
  | text
  deriving DecidableEq

namespace Plain

/-- The words for null. -/
def isNull (s : String) : Bool := s == "null" || s == "Null" || s == "NULL" || s == "~"

/-- The words for the truth values. -/
def bool? (s : String) : Option Bool :=
  if s == "true" || s == "True" || s == "TRUE" then some true
  else if s == "false" || s == "False" || s == "FALSE" then some false
  else none

/-- The number that a non-empty list of digits writes. -/
def natural? (base : Nat) (digits : List Char) : Option Nat :=
  if digits.isEmpty then none else Text.number? base digits

/-- Digits behind a base mark, or decimal digits. -/
def magnitude? : List Char → Option Nat
  | '0' :: 'x' :: digits => natural? 16 digits
  | '0' :: 'o' :: digits => natural? 8 digits
  | '0' :: 'b' :: digits => natural? 2 digits
  | digits => natural? 10 digits

/-- Leave out one sign. -/
def unsigned : List Char → List Char
  | '-' :: r | '+' :: r => r
  | r => r

/-- Decimal digits with a zero in front of them: a string, not a number. -/
def isZeroPadded (s : String) : Bool :=
  let digits := unsigned s.toList
  1 < digits.length && digits.head? == some '0' && digits.all Char.isDigit

/-- An integer of any size. -/
def int? (s : String) : Option Int :=
  if isZeroPadded s then none
  else match s.toList with
    | '-' :: r => (magnitude? r).map fun n => -(n : Int)
    | '+' :: r => (magnitude? r).map Int.ofNat
    | r => (magnitude? r).map Int.ofNat

/-- What an integer means by its size: 64 bits make a number, up to 128 bits are too wide, and more
are read as a decimal. -/
def ofInt (i : Int) : Option Plain :=
  if -(Nat.pow 2 63 : Int) ≤ i ∧ i < Nat.pow 2 64 then some (.int i)
  else if -(Nat.pow 2 127 : Int) ≤ i ∧ i < Nat.pow 2 128 then some .wide
  else none

/-- A decimal, an infinity or a NaN. Decimals beyond the largest finite number are none. -/
def float? (s : String) : Option Binary64 :=
  if s == ".nan" || s == ".NaN" || s == ".NAN" then some .nan
  else
    let body := if s.startsWith "+" then (s.drop 1).toString else s
    if body == ".inf" || body == ".Inf" || body == ".INF" then some .infinity
    else if s == "-.inf" || s == "-.Inf" || s == "-.INF" then some .negInfinity
    else if s.startsWith "+" && (body.startsWith "+" || body.startsWith "-") then none
    else ((Decimal.ofString? body).map (·.toBinary64)).filter (·.isFinite)

/-- The meaning of a plain scalar. -/
def resolve (s : String) : Plain :=
  if s.isEmpty || isNull s then .null
  else match bool? s with
    | some b => .bool b
    | none =>
      match (int? s).bind ofInt with
      | some p => p
      | none =>
        if isZeroPadded s then .text
        else match float? s with
          | some x => .float x
          | none => .text

end Plain

end PackageDepot.Yaml
