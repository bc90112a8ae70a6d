/-
PooledCollateral.Address — account addresses.

An address is twenty bytes. It is kept as the number those bytes write, most
significant byte first, so that the order of addresses byte by byte is the
order of the numbers. `toBytes` and `ofBytes?` pass between the two views.
-/
import PooledCollateral.Bytes

namespace PooledCollateral

/-- An account address: a number of twenty bytes. -/
structure Address where
  /-- The number the twenty bytes write. -/
  toNat : Nat
  /-- Twenty bytes are enough for it. -/
  toNat_lt : toNat < Bytes.count 20
  deriving DecidableEq

namespace Address

instance : LT Address := ⟨fun a b => a.toNat < b.toNat⟩

instance (a b : Address) : Decidable (a < b) := inferInstanceAs (Decidable (a.toNat < b.toNat))

theorem lt_def {a b : Address} : a < b ↔ a.toNat < b.toNat := Iff.rfl

theorem eq_of_toNat_eq : ∀ {a b : Address}, a.toNat = b.toNat → a = b
  | ⟨_, _⟩, ⟨_, _⟩, rfl => rfl

theorem lt_irrefl (a : Address) : ¬ a < a := Nat.lt_irrefl a.toNat

theorem lt_trans {a b c : Address} (hab : a < b) (hbc : b < c) : a < c :=
  Nat.lt_trans (lt_def.mp hab) (lt_def.mp hbc)

theorem ne_of_lt {a b : Address} (h : a < b) : a ≠ b :=
  fun heq => lt_irrefl a (heq ▸ h)

/-- Of two different addresses one comes first. -/
theorem lt_of_not_lt {a b : Address} (h : ¬ a < b) (hne : a ≠ b) : b < a := by
  have hnat : a.toNat ≠ b.toNat := fun heq => hne (eq_of_toNat_eq heq)
  rw [lt_def] at h ⊢
  omega

/-! ## Bytes -/

/-- The twenty bytes of an address, first byte first. -/
def toBytes (a : Address) : List UInt8 := (Bytes.ofNat 20 a.toNat).reverse

/-- The address of a byte string, which must have twenty bytes. -/
def ofBytes? (bytes : List UInt8) : Option Address :=
  if h : bytes.length = 20 then
    some ⟨Bytes.toNat bytes.reverse, by
      have hlt := Bytes.toNat_lt bytes.reverse
      rwa [List.length_reverse, h] at hlt⟩
  else none

@[simp] theorem length_toBytes (a : Address) : a.toBytes.length = 20 := by
  simp [toBytes]

theorem ofBytes?_toBytes (a : Address) : ofBytes? a.toBytes = some a := by
  have hread : Bytes.toNat (Bytes.ofNat 20 a.toNat) = a.toNat := Bytes.toNat_ofNat a.toNat_lt
  rw [ofBytes?, dif_pos (length_toBytes a)]
  refine congrArg some (eq_of_toNat_eq ?_)
  simpa [toBytes] using hread

theorem toBytes_of_ofBytes? {bytes : List UInt8} {a : Address} (h : ofBytes? bytes = some a) :
    a.toBytes = bytes := by
  unfold ofBytes? at h
  split at h
  · rename_i hlen
    cases h
    have hwrite := Bytes.ofNat_toNat bytes.reverse
    rw [List.length_reverse, hlen] at hwrite
    simp [toBytes, hwrite]
  · cases h

end Address

end PooledCollateral
