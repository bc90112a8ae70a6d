/-
PooledCollateral.Burn — the backing asset that has to leave circulation when
collateral leaves the pool.

A pool at or above the exit ratio burns just enough for the collateral that
stays to back the liability that stays. A pool below it burns the share of the
liability that the leaving collateral is of the whole, so that its ratio does
not fall. `fund` splits a burn between the fees that leave with the exit and
the holder's own backing asset.
-/
import PooledCollateral.CollateralRatio

namespace PooledCollateral.Burn

/-- The backing asset to redeem when `share` of `total` collateral leaves,
never more than the liability. -/
def required (total share : Nat) (backing : Backing) (exitRatio : Nat) : Checked Nat := do
  if backing.liability = 0 ∨ share = 0 then return 0
  let burn ←
    if ← CollateralRatio.backs total backing exitRatio then do
      let allowed ← CollateralRatio.maxBacked (total - share) backing.price exitRatio
      pure (backing.liability - allowed)
    else Amount.mulDivUp backing.liability share total
  return min burn backing.liability

/-- Where the backing asset of a burn comes from. -/
structure Funding where
  /-- Taken from the fees that the exit releases. -/
  fromFees : Nat
  /-- Pulled from the holder. -/
  fromHolder : Nat
  /-- Released fees that the burn leaves over. -/
  toRecipient : Nat
  deriving DecidableEq

/-- Pays a burn from the released fees first. -/
def fund (burn fees : Nat) : Checked Funding := do
  let fromFees := min burn fees
  let fromHolder ← Amount.take burn fromFees
  let toRecipient ← Amount.take fees fromFees
  return { fromFees, fromHolder, toRecipient }

theorem fund_eq (burn fees : Nat) :
    fund burn fees = .ok ⟨min burn fees, burn - fees, fees - burn⟩ := by
  have hb : Amount.take burn (min burn fees) = .ok (burn - fees) :=
    Amount.take_eq_ok_iff.mpr ⟨by omega, Nat.min_le_left ..⟩
  have hf : Amount.take fees (min burn fees) = .ok (fees - burn) :=
    Amount.take_eq_ok_iff.mpr ⟨by omega, Nat.min_le_right ..⟩
  simp only [fund, hb, hf]
  rfl

end PooledCollateral.Burn
