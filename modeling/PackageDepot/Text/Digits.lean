/-!
# Digits

Natural numbers as digits write them, in a base up to sixteen, and characters that are given by their
numbers.
-/

namespace PackageDepot.Text

/-- The value of a digit of a base up to sixteen. Letters of both cases are digits behind nine. -/
def digit? (base : Nat) (c : Char) : Option Nat :=
  let v :=
    if c.isDigit then c.toNat - '0'.toNat
    else if 'a' ≤ c ∧ c ≤ 'f' then c.toNat - 'a'.toNat + 10
    else if 'A' ≤ c ∧ c ≤ 'F' then c.toNat - 'A'.toNat + 10
    else base
  if v < base then some v else none

/-- The number that digits of a base write; no digits write zero. -/
def number? (base : Nat) (digits : List Char) : Option Nat :=
  digits.foldlM (fun n c => (digit? base c).map (n * base + ·)) 0

/-- The character with a number, if there is one: no surrogate, and not beyond the last plane. -/
def charOfCode? (n : Nat) : Option Char :=
  if n.isValidChar then some (Char.ofNat n) else none

end PackageDepot.Text
