/-
PooledCollateral.Bytes — natural numbers as fixed-width byte strings, least
significant byte first.

`ofNat` writes a number in a given number of bytes and `toNat` reads it back.
The two are inverse: `toNat_ofNat` on numbers that fit the width, of which there
are `count width`, and `ofNat_toNat` on every byte string.
-/

namespace PooledCollateral.Bytes

/-- The `width` low bytes of `n`, least significant first. -/
def ofNat : Nat → Nat → List UInt8
  | 0, _ => []
  | width + 1, n => UInt8.ofNat (n % 256) :: ofNat width (n / 256)

/-- The number written by `bytes`, least significant first. -/
def toNat : List UInt8 → Nat
  | [] => 0
  | b :: rest => b.toNat + 256 * toNat rest

/-- How many numbers fit a width. -/
def count : Nat → Nat
  | 0 => 1
  | width + 1 => 256 * count width

@[simp] theorem length_ofNat (width n : Nat) : (ofNat width n).length = width := by
  induction width generalizing n with
  | zero => rfl
  | succ width ih => simp [ofNat, ih]

theorem toNat_ofNat {width n : Nat} (h : n < count width) : toNat (ofNat width n) = n := by
  induction width generalizing n with
  | zero =>
    rw [count, Nat.lt_one_iff] at h
    subst h
    rfl
  | succ width ih =>
    have hdiv : n / 256 < count width := Nat.div_lt_of_lt_mul h
    have hmod : (UInt8.ofNat (n % 256)).toNat = n % 256 := by
      simp
    simp only [ofNat, toNat, ih hdiv, hmod]
    omega

theorem toNat_lt (bytes : List UInt8) : toNat bytes < count bytes.length := by
  induction bytes with
  | nil => exact Nat.one_pos
  | cons b rest ih =>
    have hb := b.toNat_lt
    simp only [toNat, List.length_cons, count]
    omega

theorem ofNat_toNat (bytes : List UInt8) : ofNat bytes.length (toNat bytes) = bytes := by
  induction bytes with
  | nil => rfl
  | cons b rest ih =>
    have hb : b.toNat < 256 := b.toNat_lt
    have hlow : (b.toNat + 256 * toNat rest) % 256 = b.toNat := by omega
    have hhigh : (b.toNat + 256 * toNat rest) / 256 = toNat rest := by omega
    simp [ofNat, toNat, hlow, hhigh, ih]

end PooledCollateral.Bytes
