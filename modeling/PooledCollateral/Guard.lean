/-
PooledCollateral.Guard — conditions that keep a pool out of degenerate states.

After collateral has left, the pool must back its liability at the exit ratio,
unless it owes nothing or is empty; and what stays behind, of shares or of
collateral, must be nothing or more than dust. The fees that holders may claim
must be held by the pool, up to a small slack for rounding.
-/
import PooledCollateral.CollateralRatio

namespace PooledCollateral.Guard

/-- Refuses an exit after which the collateral does not back the liability at
the exit ratio. The rejection states the ratio that would result. -/
def exitRatio (collateralAfter supplyAfter : Nat) (backing : Backing) (threshold : Nat) :
    Checked Unit := do
  if backing.liability = 0 ∨ (supplyAfter = 0 ∧ collateralAfter = 0) then return
  if ← CollateralRatio.backs collateralAfter backing threshold then return
  let ratio ← CollateralRatio.ratioBips collateralAfter backing
  reject (.belowExitRatio (ratio.getD 0) threshold)

/-- Refuses to leave shares outstanding, but fewer than the minimum. -/
def residualSupply (remaining minimum : Nat) : Checked Unit :=
  require (remaining = 0 ∨ minimum ≤ remaining) (.residualSupply remaining minimum)

/-- Refuses to leave collateral behind, but less than the minimum. -/
def residualCollateral (remaining minimum : Nat) : Checked Unit :=
  require (remaining = 0 ∨ minimum ≤ remaining) (.residualCollateral remaining minimum)

/-- By how much each holder's claim may lift the sum of claims above the
reserve: entry debt rounds up and exits round down, so that a claim can lie a
unit or two below zero, where it counts as zero. -/
def roundingSlack : Nat := 2

/-- Whether the reserve covers the claims of so many holders. -/
def feesBacked (claimable reserve holders : Nat) : Bool :=
  claimable ≤ Amount.addSaturating reserve (Amount.mulSaturating roundingSlack holders)

end PooledCollateral.Guard
