/-!
# Numbers of sixty-four bits and their shortest decimal text

A `Binary64` is a double-precision number, held as its bits. `Binary64.shortest` gives the decimal of
fewest digits that reads back as the number and, of those, the nearest one; it works on exact
natural numbers. `Binary64.text` writes that decimal: positionally from `1e-5` up to sixteen places in
front of the point, with an exponent outside.
-/

namespace PackageDepot

/-- A double-precision number. -/
structure Binary64 where
  bits : UInt64
  deriving DecidableEq, Inhabited

namespace Binary64

/-- The number of a machine float. -/
def ofFloat (x : Float) : Binary64 := ⟨x.toBits⟩

/-- The machine float of a number. -/
def toFloat (x : Binary64) : Float := .ofBits x.bits

def infinity : Binary64 := ⟨0x7ff0000000000000⟩
def negInfinity : Binary64 := ⟨0xfff0000000000000⟩
def nan : Binary64 := ⟨0x7ff8000000000000⟩

/-- The sign bit is set. -/
def isNegative (x : Binary64) : Bool := x.bits >>> 63 == 1

/-- The exponent field. -/
def exponentField (x : Binary64) : Nat := ((x.bits >>> 52) &&& 0x7ff).toNat

/-- The fraction field. -/
def fraction (x : Binary64) : Nat := (x.bits &&& 0xfffffffffffff).toNat

/-- Neither infinite nor a NaN. -/
def isFinite (x : Binary64) : Bool := x.exponentField != 0x7ff

/-- Not a number. -/
def isNaN (x : Binary64) : Bool := !x.isFinite && x.fraction != 0

/-- Equality as a mapping key: zeros are equal whatever their sign, and so are all NaNs. -/
def sameKey (x y : Binary64) : Bool :=
  x == y || x.isNaN && y.isNaN ||
  x.exponentField == 0 && x.fraction == 0 && y.exponentField == 0 && y.fraction == 0

/-- The nearest number to `mantissa * 10 ^ exponent`. -/
def ofDecimal (negative : Bool) (mantissa : Nat) (exponent : Int) : Binary64 :=
  let size : Int := (toString mantissa).length + exponent
  let magnitude : Float :=
    if mantissa == 0 || size < -340 then 0.0
    else if 320 < size then toFloat infinity
    else if exponent < 0 then Float.ofScientific mantissa true exponent.natAbs
    else Float.ofScientific mantissa false exponent.natAbs
  ofFloat (if negative then -magnitude else magnitude)

/-! ## The shortest decimal -/

/-- A positive number as `m * 2 ^ q`, with whether its lower neighbour is at half the distance of
its upper one. -/
def parts (x : Binary64) : Nat × Int × Bool :=
  if x.exponentField == 0 then (x.fraction, -1074, false)
  else (x.fraction + Nat.pow 2 52, x.exponentField - 1075, x.fraction == 0 && 1 < x.exponentField)

/-- `m * 2 ^ q` as a numerator over a denominator. -/
def ratio (m : Nat) (q : Int) : Nat × Nat :=
  if 0 ≤ q then (m * Nat.pow 2 q.toNat, 1) else (m, Nat.pow 2 q.natAbs)

/-- A power of ten. -/
def tenTo (n : Nat) : Nat := Nat.pow 10 n

/-- Greatest `e` with `10 ^ e ≤ num / den`, found from an estimate that is off by one at most. -/
def leadingExponent (num den : Nat) : Int :=
  let le (e : Int) : Bool := if 0 ≤ e then den * tenTo e.toNat ≤ num else den ≤ num * tenTo e.natAbs
  let guess : Int := ((Nat.log2 num : Int) - Nat.log2 den) * 1233 / 4096
  if le (guess + 1) then guess + 1 else if le guess then guess
  else if le (guess - 1) then guess - 1 else guess - 2

/-- The decimals `c * 10 ^ k` next to the number on the grid of `10 ^ k` that lie between the ends
`lo` and `hi`; of two the nearer, at equal distance the even one. All numbers share a denominator. -/
def onGrid? (lo value hi den : Nat) (closed : Bool) (k : Int) : Option Nat :=
  let (num, lo, hi, unit) :=
    if 0 ≤ k then (value, lo, hi, den * tenTo k.toNat)
    else (value * tenTo k.natAbs, lo * tenTo k.natAbs, hi * tenTo k.natAbs, den)
  let inside (c : Nat) : Bool :=
    if closed then lo ≤ c * unit && c * unit ≤ hi else lo < c * unit && c * unit < hi
  let below := num / unit
  let twice := 2 * (num % unit)
  let upper := unit < twice || (twice == unit && below % 2 == 1)
  match inside below, inside (below + 1) with
  | true, true => some (if upper then below + 1 else below)
  | true, false => some below
  | false, true => some (below + 1)
  | false, false => none

/-- Strip trailing zeros. -/
def stripZeros : Nat → Nat → Int → Nat × Int
  | 0, c, k => (c, k)
  | fuel + 1, c, k => if c != 0 && c % 10 == 0 then stripZeros fuel (c / 10) (k + 1) else (c, k)

/-- The shortest decimal `c * 10 ^ k` that reads back as a positive number, as `(c, k)`. -/
def shortest (x : Binary64) : Nat × Int :=
  let (m, q, halved) := x.parts
  let (num, den) := ratio (4 * m) (q - 2)
  let unit := num / (4 * m)
  let lead := leadingExponent num den
  let lo := num - (if halved then unit else 2 * unit)
  let hi := num + 2 * unit
  let grid (n : Nat) : Option (Nat × Int) :=
    let k := lead - n
    (onGrid? lo num hi den (m % 2 == 0) k).map fun c => stripZeros 20 c k
  ((List.range 18).findSome? grid).getD (m, q)

/-- Write a decimal `c * 10 ^ k` whose digits are `digits`. -/
def layout (digits : String) (k : Int) : String :=
  let lead := digits.length + k
  let zeros (n : Int) : String := "".pushn '0' n.toNat
  if 0 ≤ k && lead ≤ 16 then digits ++ zeros k ++ ".0"
  else if 0 < lead && lead ≤ 16 then
    (digits.take lead.toNat).toString ++ "." ++ (digits.drop lead.toNat).toString
  else if -5 < lead && lead ≤ 0 then "0." ++ zeros (-lead) ++ digits
  else if digits.length == 1 then digits ++ "e" ++ toString (lead - 1)
  else (digits.take 1).toString ++ "." ++ (digits.drop 1).toString ++ "e" ++ toString (lead - 1)

/-- The shortest decimal text of a finite number. -/
def text (x : Binary64) : String :=
  let sign := if x.isNegative then "-" else ""
  if x.exponentField == 0 && x.fraction == 0 then sign ++ "0.0"
  else
    let (c, k) := x.shortest
    sign ++ layout (toString c) k

end Binary64

/-- A decimal as it is written: sign, digits as one number, and the power of ten behind them. -/
structure Decimal where
  negative : Bool
  mantissa : Nat
  exponent : Int
  deriving DecidableEq

namespace Decimal

/-- The number that decimal digits write. -/
def digitsValue (digits : List Char) : Nat :=
  digits.foldl (fun n d => n * 10 + (d.toNat - '0'.toNat)) 0

/-- Read an optional exponent mark with its digits, up to the end. -/
def readExponent? : List Char → Option Int
  | [] => some 0
  | mark :: rest =>
    if mark != 'e' && mark != 'E' then none
    else
      let (negative, digits) := match rest with
        | '-' :: ds => (true, ds)
        | '+' :: ds => (false, ds)
        | ds => (false, ds)
      if digits.isEmpty || !digits.all Char.isDigit then none
      else some (if negative then -(digitsValue digits : Int) else digitsValue digits)

/-- Read a decimal with an optional sign, point and exponent; one digit has to stand before or
behind the point. -/
def ofString? (text : String) : Option Decimal := do
  let (negative, body) := match text.toList with
    | '-' :: r => (true, r)
    | '+' :: r => (false, r)
    | r => (false, r)
  let whole := body.takeWhile Char.isDigit
  let (places, rest) := match body.dropWhile Char.isDigit with
    | '.' :: r => (r.takeWhile Char.isDigit, r.dropWhile Char.isDigit)
    | r => ([], r)
  if whole.isEmpty && places.isEmpty then none
  let exponent ← readExponent? rest
  return ⟨negative, digitsValue (whole ++ places), exponent - places.length⟩

/-- The nearest double-precision number. -/
def toBinary64 (d : Decimal) : Binary64 := .ofDecimal d.negative d.mantissa d.exponent

end Decimal

end PackageDepot
