/-
PooledCollateral.Proofs.Custody.Failure — a refused operation leaves no trace.

Wherever an operation is refused — by a check, by the pool, by the store, by a
token, or by the manager, which may withhold its price or its liability or turn a
redemption down after tokens have come in — the books, the balances, the manager
and the events are as before (`refused_leaves_no_trace`). That the store takes the
old rows back is not needed for it. The metrics count the refusal, and approvals
that a pull has used up stay used up.
-/
import PooledCollateral.Proofs.Custody.Outcome
import PooledCollateral.Proofs.Pool.Run

namespace PooledCollateral.Custody

open PooledCollateral.Action

variable {c c' : Custody} {call : Call} {cause : Rejection}

/-- An operation that is refused leaves the totals, the settings and the row of
every holder, every balance of both tokens, the manager and the published
events as they were, whichever commits the store takes and whatever the manager
withholds or refuses. The balances of each token add up to an amount, and the
liability of the manager is one. -/
theorem refused_leaves_no_trace (hbounded : c.parties.Bounded)
    (hliability : c.parties.manager.liability ≤ Amount.max)
    (hrun : (perform call).run c = .error (.rejected cause) c') :
    (c'.pool.totals = c.pool.totals ∧ c'.pool.settings = c.pool.settings ∧
        ∀ holder, c'.pool.holderRow holder = c.pool.holderRow holder) ∧
      (∀ asset account, (c'.parties.token asset).balanceOf account
        = (c.parties.token asset).balanceOf account) ∧
      c'.parties.manager = c.parties.manager ∧ c'.events = c.events := by
  have hundone := (perform_ensures hbounded call).of_error hrun
  refine ⟨⟨congrArg Books.totals hundone.books, congrArg Books.settings hundone.books, ?_⟩, ?_,
    hundone.manager hliability cause rfl, hundone.events⟩
  · exact congrFun (congrArg Books.row hundone.books)
  · intro asset account
    unfold TokenBook.balanceOf
    rw [hundone.tokens.balances]

/-! ## A redemption that is refused -/

theorem one_lt_count : 1 < Bytes.count 20 := by decide

theorem two_lt_count : 2 < Bytes.count 20 := by decide

/-- The accounts of a pool with one holder, who has approved some backing asset,
and a manager that refuses redemptions. -/
def refusingParties : Parties where
  poolAccount := ⟨1, one_lt_count⟩
  managerAccount := ⟨2, two_lt_count⟩
  collateral := (TokenBook.create "C").mint ⟨1, one_lt_count⟩ 1000
  backing := ((TokenBook.create "F").mint Pool.rich 200).approve Pool.rich ⟨1, one_lt_count⟩ 200
  manager :=
    { Manager.create (some Manager.parity) with
      liability := 400
      refusal := some (.unauthorized Pool.rich) }

/-- A pool in operation between them. -/
def refusing : Custody where
  parties := refusingParties
  store := .memory MemoryStore.empty
  events := []
  now := 5
  metrics := Metrics.empty
  pool := Pool.reached [.enter Pool.rich 1000 none 0]

/-- Half of the shares, for which 150 units of backing asset have to be burned. -/
def halfOut : Call :=
  .selfCloseExit Pool.rich
    { shares := 500, toUnderlying := false, destination := "", recipient := none, executorFee := 0 }

/-- The store will take the next commit, and refuse the one after it. -/
def wavering : Custody := refusing.meet (.refuseCommits (· == 1))

/-- What the exit leaves. -/
def turnedDown : Custody := (perform halfOut).stateAfter wavering

theorem refusing_bounded : refusing.parties.Bounded := by
  intro asset
  cases asset <;> decide +kernel

/-- The manager refuses after 150 units have come in from the holder, as its
approval shows; they go back. The store has taken the rows of the exit by then, and
keeps them, as it does not take the old ones: it holds 500 shares of the 1000. -/
theorem halfOut_leaves_no_trace :
    (perform halfOut).run wavering = .error (.rejected (.unauthorized Pool.rich)) turnedDown ∧
      turnedDown.parties.backing.allowance Pool.rich turnedDown.parties.poolAccount = 50 ∧
      turnedDown.store.load.map (·.totals.supply) = some 500 ∧
      turnedDown.pool.totals.supply = 1000 ∧
      (turnedDown.pool.totals = wavering.pool.totals ∧
          turnedDown.pool.settings = wavering.pool.settings ∧
          ∀ holder, turnedDown.pool.holderRow holder = wavering.pool.holderRow holder) ∧
        (∀ asset account, (turnedDown.parties.token asset).balanceOf account
          = (wavering.parties.token asset).balanceOf account) ∧
        turnedDown.parties.manager = wavering.parties.manager ∧
        turnedDown.events = wavering.events := by
  have hrun : (perform halfOut).run wavering
      = .error (.rejected (.unauthorized Pool.rich)) turnedDown :=
    run_of_failure (by decide +kernel)
  refine ⟨hrun, by decide +kernel, by decide +kernel, by decide +kernel, ?_⟩
  exact refused_leaves_no_trace refusing_bounded (by decide) hrun

end PooledCollateral.Custody
