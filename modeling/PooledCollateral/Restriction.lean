/-
PooledCollateral.Restriction — which of a holder's shares may move.

A share may go to a third party only if it is past its lock and not needed to
back fee debt; it may leave the pool through an exit as soon as it is past its
lock.
-/
import PooledCollateral.Failure

namespace PooledCollateral

/-- What binds a holder's shares at one moment. -/
structure Restriction where
  /-- Shares still under a lock. -/
  locked : Nat
  /-- Shares that back fee debt. -/
  indebted : Nat
  deriving DecidableEq

namespace Restriction

/-- Shares of a balance that may go to a third party. -/
def transferable (r : Restriction) (balance : Nat) : Nat :=
  min (balance - r.locked) (balance - r.indebted)

/-- Shares of a balance that may leave the pool. -/
def exitable (r : Restriction) (balance : Nat) : Nat := balance - r.locked

/-- Refuses a transfer of more than the transferable shares. -/
def authorizeTransfer (r : Restriction) (balance requested : Nat) : Checked Unit :=
  require (requested ≤ r.transferable balance)
    (.insufficientTransferable requested (r.transferable balance))

/-- Refuses an exit of more than the balance, then of more than is unlocked. -/
def authorizeExit (r : Restriction) (balance requested : Nat) : Checked Unit := do
  require (requested ≤ balance) (.insufficientBalance requested balance)
  require (requested ≤ r.exitable balance) (.insufficientUnlocked requested (r.exitable balance))

end Restriction

end PooledCollateral
