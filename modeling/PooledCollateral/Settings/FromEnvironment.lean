/-
PooledCollateral.Settings.FromEnvironment — pool settings from variables.

Each setting has a variable. A variable that is set must hold a numeral that
fits its setting, white space around it aside; a setting whose variable is not
set keeps its standard value. The first variable that cannot be read decides
the rejection, and only then the check of the settings as a whole.
-/
import PooledCollateral.Environment
import PooledCollateral.Settings.Basic
import PooledCollateral.Text.Blank
import PooledCollateral.Text.Numeral

namespace PooledCollateral.Settings

/-- The number a variable is set to, at most `limit`, or `standard` if it is
not set. -/
def readVariable (env : Environment) (name : String) (limit standard : Nat) : Checked Nat :=
  match env.text? name with
  | none => .ok standard
  | some raw =>
    match Text.Numeral.decode? limit (Text.Blank.trim raw.toList) with
    | some n => .ok n
    | none => reject (.invalidSettings (.unreadable name raw))

/-- The settings that the environment asks for. -/
def ofEnvironment (env : Environment) : Checked Settings := do
  let settings : Settings := {
    exitRatio := ← readVariable env "POOL_EXIT_CR_BIPS" 0xffffffff standard.exitRatio
    lockDuration := ← readVariable env "POOL_TIMELOCK_SECS" maxTime standard.lockDuration
    minEntry := ← readVariable env "POOL_MIN_ENTRY" Amount.max standard.minEntry
    minSupplyAfterExit :=
      ← readVariable env "POOL_MIN_SUPPLY_AFTER_EXIT" Amount.max standard.minSupplyAfterExit
    minCollateralAfterExit :=
      ← readVariable env "POOL_MIN_COLLATERAL_AFTER_EXIT" Amount.max
        standard.minCollateralAfterExit }
  settings.check
  return settings

end PooledCollateral.Settings
