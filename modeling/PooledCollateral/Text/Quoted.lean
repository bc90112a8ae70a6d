/-
PooledCollateral.Text.Quoted — a text between double quotes, with every
character visible.

A quote and a backslash are written behind a backslash, the tabulator, the two
line ends and the null character as a letter or digit behind one, every other
character that leaves no mark as its number in base sixteen. All else stands
as it is.
-/
import PooledCollateral.Text.Hex
import PooledCollateral.Text.Unprintable

namespace PooledCollateral.Text.Quoted

/-- How one character is written between the quotes. -/
def escape (c : Char) : String :=
  if c = '"' then "\\\""
  else if c = '\\' then "\\\\"
  else if c = '\t' then "\\t"
  else if c = '\r' then "\\r"
  else if c = '\n' then "\\n"
  else if c = '\x00' then "\\0"
  else if isUnprintable c then "\\u\x7b" ++ Hex.numeral c.toNat ++ "\x7d"
  else c.toString

/-- The quoted form of a text. -/
def encode (text : String) : String := "\"" ++ String.join (text.toList.map escape) ++ "\""

end PooledCollateral.Text.Quoted
