/-
PooledCollateral.Decimal.Significand — numbers kept to fifty-three binary digits.

A measured value is kept as the nearest number with at most fifty-three
significant binary digits, a tie going to the even one. It is written with as
few decimal digits as read back as the same number, and with zeros after them;
of the numbers with so few digits it is the nearest, a tie going up.
-/

namespace PooledCollateral.Decimal

/-- Significant binary digits that are kept. -/
def precision : Nat := 53

/-- The weight of the last kept digit of a number. -/
def unit (n : Nat) : Nat := Nat.pow 2 (n.log2 + 1 - precision)

/-- The nearest number with few enough digits; of two, the one whose last kept
digit is even. -/
def round (n : Nat) : Nat :=
  let u := unit n
  let kept := n / u
  let lost := n % u
  if u < 2 * lost ∨ (u = 2 * lost ∧ kept % 2 = 1) then (kept + 1) * u else kept * u

/-- Whether `candidate` reads back as the kept number `n`: it lies no further
than half way to the neighbours of `n`, and not on the half if `n` is odd. The
neighbour below a power of two is only half as far. -/
def readsAs (n candidate : Nat) : Bool :=
  let u := unit n
  let kept := n / u
  let low := 4 * n - (if kept = Nat.pow 2 (precision - 1) then u else 2 * u)
  let high := 4 * n + 2 * u
  if kept % 2 = 0 then low ≤ 4 * candidate && 4 * candidate ≤ high
  else low < 4 * candidate && 4 * candidate < high

/-- The shortest number that reads back as `n`, sought among the multiples of
ten to the power `places` and of lower powers. -/
def shortestFrom (n : Nat) : Nat → Nat
  | 0 => n
  | places + 1 =>
    let step := Nat.pow 10 (places + 1)
    let below := n / step * step
    let above := below + step
    match readsAs n below, readsAs n above with
    | true, true => if n - below < above - n then below else above
    | true, false => below
    | false, true => above
    | false, false => shortestFrom n places

/-- The shortest number that reads back as a kept number. -/
def shortest (n : Nat) : Nat := if unit n = 1 then n else shortestFrom n n.log2

/-- How a kept number is written. -/
def text (n : Nat) : String := toString (shortest n)

end PooledCollateral.Decimal
