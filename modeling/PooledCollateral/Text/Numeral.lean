/-
PooledCollateral.Text.Numeral — whole numbers in base ten, as settings are
written.

A numeral is one or more of the ten ASCII digits, behind at most one plus
sign; leading zeros are allowed. `decode? limit` reads a numeral whose value
is at most `limit`.
-/

namespace PooledCollateral.Text.Numeral

/-- An ASCII digit. -/
def isDigit (c : Char) : Bool := '0' ≤ c && c ≤ '9'

/-- The number that digits write, first digit first. -/
def value (digits : List Char) : Nat :=
  digits.foldl (fun n c => 10 * n + (c.toNat - 48)) 0

/-- The digits of a numeral, without its sign. -/
def unsigned : List Char → List Char
  | '+' :: digits => digits
  | digits => digits

/-- Reads a numeral of value at most `limit`. -/
def decode? (limit : Nat) (text : List Char) : Option Nat :=
  let digits := unsigned text
  if digits ≠ [] ∧ digits.all isDigit ∧ value digits ≤ limit then some (value digits) else none

end PooledCollateral.Text.Numeral
