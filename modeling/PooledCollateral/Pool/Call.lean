/-
PooledCollateral.Pool.Call — the operations of a pool as data.

A `Call` names an operation with its arguments, and `perform` carries it out.
Runs of a pool are lists of calls; `after` is the pool that a run leaves, its
failed calls included.
-/
import PooledCollateral.Pool.Administration
import PooledCollateral.Pool.Entry
import PooledCollateral.Pool.Exit
import PooledCollateral.Pool.Fees

namespace PooledCollateral.Pool

/-- An operation of a pool. -/
inductive Call
  | enter (holder : Address) (collateral : Nat) (price : Option Price) (now : Nat)
  | quoteExit (holder : Address) (shares now : Nat)
  | exit (holder : Address) (shares : Nat) (backing : Backing) (now : Nat)
  | planSelfClose (holder : Address) (shares : Nat) (backing : Backing) (now : Nat)
  | applySelfClose (holder : Address) (plan : SelfClosePlan) (now : Nat)
  | withdrawFees (holder : Address) (amount : Nat)
  | payFeeDebt (holder : Address) (amount : Nat)
  | depositFees (amount : Nat)
  | receiveCollateral (amount : Nat)
  | payout (holder : Address) (collateral shares now : Nat)
  | updateSettings (settings : Settings)
  | transfer (sender receiver : Address) (amount now : Nat)
  | cleanup (holder : Address) (limit now : Nat)

/-- What an operation answers. -/
inductive Reply
  | entered (receipt : EntryReceipt)
  | quoted (quote : ExitQuote)
  | exited (receipt : ExitReceipt)
  | planned (plan : SelfClosePlan)
  | cleaned (done : Bool)
  | done
  deriving DecidableEq

/-- Carries out an operation. -/
def perform : Call → Action Pool Reply
  | .enter holder collateral price now => return .entered (← enter holder collateral price now)
  | .quoteExit holder shares now => do
    return .quoted (← (← get).quoteExit holder shares now)
  | .exit holder shares backing now => return .exited (← exit holder shares backing now)
  | .planSelfClose holder shares backing now => do
    return .planned (← (← get).planSelfClose holder shares backing now)
  | .applySelfClose holder plan now => return .exited (← applySelfClose holder plan now)
  | .withdrawFees holder amount => do withdrawFees holder amount; return .done
  | .payFeeDebt holder amount => do payFeeDebt holder amount; return .done
  | .depositFees amount => do depositFees amount; return .done
  | .receiveCollateral amount => do receiveCollateral amount; return .done
  | .payout holder collateral shares now => do payout holder collateral shares now; return .done
  | .updateSettings settings => do updateSettings settings; return .done
  | .transfer sender receiver amount now => do
    transfer sender receiver amount now
    return .done
  | .cleanup holder limit now => return .cleaned (← cleanup holder limit now)

/-- The pool after a run of calls, whether or not each succeeded. -/
def after (pool : Pool) (calls : List Call) : Pool :=
  calls.foldl (fun pool call => (perform call).stateAfter pool) pool

end PooledCollateral.Pool
