/-
PooledCollateral.Text.Hex — bytes as pairs of lower-case hexadecimal digits.

`encode` writes every byte as two digits, `decode?` reads such a text back and
refuses an odd number of digits and any other character.
-/

namespace PooledCollateral.Text.Hex

/-- The hexadecimal digit of a number below sixteen. -/
def digit (n : Nat) : Char :=
  if n < 10 then Char.ofNat (48 + n) else Char.ofNat (87 + n)

/-- The two digits of a byte, high half first. -/
def digits (byte : UInt8) : List Char := [digit (byte.toNat / 16), digit (byte.toNat % 16)]

/-- Bytes written one after the other, two digits each. -/
def encode (bytes : List UInt8) : String := String.ofList (bytes.flatMap digits)

/-- The value of a lower-case hexadecimal digit. -/
def value? (c : Char) : Option Nat :=
  if '0' ≤ c ∧ c ≤ '9' then some (c.toNat - 48)
  else if 'a' ≤ c ∧ c ≤ 'f' then some (c.toNat - 87)
  else none

/-- The bytes that a list of digits writes. -/
def decodeDigits? : List Char → Option (List UInt8)
  | [] => some []
  | high :: low :: rest => do
    let h ← value? high
    let l ← value? low
    let bytes ← decodeDigits? rest
    return UInt8.ofNat (16 * h + l) :: bytes
  | [_] => none

/-- The bytes that a text of lower-case digits writes. -/
def decode? (text : String) : Option (List UInt8) := decodeDigits? text.toList

/-- The lower-case digits of a number in base sixteen, without leading zeros. -/
def numeral (n : Nat) : String := String.ofList (Nat.toDigits 16 n)

end PooledCollateral.Text.Hex
