/-
PooledCollateral.Settings.Basic — the settings of a pool.
-/
import PooledCollateral.CollateralRatio

namespace PooledCollateral

/-- One whole unit of collateral, at eighteen decimals. -/
def oneUnit : Nat := 1_000_000_000_000_000_000

/-- The settings under which a pool works. -/
structure Settings where
  /-- The ratio, in bips, that must hold after an exit. -/
  exitRatio : Nat
  /-- How long new shares stay locked, in seconds. -/
  lockDuration : Nat
  /-- The smallest accepted entry. -/
  minEntry : Nat
  /-- The fewest shares an exit may leave, if it leaves any. -/
  minSupplyAfterExit : Nat
  /-- The least collateral an exit may leave, if it leaves any. -/
  minCollateralAfterExit : Nat
  deriving DecidableEq

namespace Settings

/-- The settings of a pool for which nothing else is said: a ratio of one and a
half, locks of one day, and one whole unit for every floor. -/
def standard : Settings where
  exitRatio := 15000
  lockDuration := 86400
  minEntry := oneUnit
  minSupplyAfterExit := oneUnit
  minCollateralAfterExit := oneUnit

/-- Refuses settings under which a pool cannot work: the exit ratio must be
above one to one, and the smallest entry must be positive. -/
def check (s : Settings) : Checked Unit := do
  require (bips < s.exitRatio) (.invalidSettings (.exitRatio bips s.exitRatio))
  require (s.minEntry ≠ 0) (.invalidSettings .zeroEntry)

/-- Settings that pass the check. -/
def Valid (s : Settings) : Prop := bips < s.exitRatio ∧ s.minEntry ≠ 0

theorem check_eq_ok_iff {s : Settings} {u : Unit} : s.check = .ok u ↔ s.Valid := by
  unfold check Valid
  by_cases hr : bips < s.exitRatio
  · have hstep : require (bips < s.exitRatio) (.invalidSettings (.exitRatio bips s.exitRatio))
        = .ok () := require_eq_ok_iff.mpr hr
    rw [hstep]
    simp [bind, Except.bind, hr]
  · simp [require, reject, hr, bind, Except.bind]

end Settings

end PooledCollateral
