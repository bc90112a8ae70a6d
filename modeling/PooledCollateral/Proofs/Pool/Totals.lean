/-
PooledCollateral.Proofs.Pool.Totals — the totals of a pool are the sums of its
rows.

Supply, debt and credit are kept beside the rows that they add up, by operations
that may fail between one part and the next. No call leaves them apart, wherever
it fails (`perform_confined`), and so no run of calls does, whatever plans it
applies (`totals_eq_sums`). A run also leaves the row of everybody alone whom
none of its calls names (`after_confined`).
-/
import PooledCollateral.Proofs.Pool.Books
import PooledCollateral.Proofs.Pool.Run

namespace PooledCollateral.Pool

open PooledCollateral.Action

variable {p q fresh : Pool} {call : Call} {calls : List Call} {settings : Settings}
  {holders wider : List Address}

/-! ## Runs of calls -/

theorem after_cons :
    after p (call :: calls) = after ((perform call).stateAfter p) calls := rfl

theorem Confined.mono (h : Confined holders p q) (hsub : holders ⊆ wider) : Confined wider p q :=
  ⟨fun other hother => h.off other fun hmem => hother (hsub hmem), h.sound⟩

/-- Whichever of its calls fail, a run touches only the holders that they name,
and a sound pool stays sound. -/
theorem after_confined (p : Pool) (calls : List Call) :
    Confined (calls.flatMap Call.holders) p (after p calls) := by
  induction calls generalizing p with
  | nil => exact refl_of (Confined _) p
  | cons call calls ih =>
    have hcall : Confined call.holders p ((perform call).stateAfter p) :=
      (perform_confined call p).stateAfter
    rw [after_cons, List.flatMap_cons]
    exact trans_of (Confined _) (hcall.mono (List.subset_append_left _ _))
      ((ih _).mono (List.subset_append_right _ _))

theorem sound_after (hfresh : create settings = .ok fresh) (hpast : after fresh calls = p) :
    p.Sound :=
  hpast ▸ (after_confined fresh calls).sound (sound_create hfresh)

/-- After any calls on a fresh pool, successful, refused or failed half-way, and
with plans of any origin, the supply is the sum of all balances, the total debt
the sum of all debts and the total credit the sum of all credits. -/
theorem totals_eq_sums (hfresh : create settings = .ok fresh) (calls : List Call) :
    (after fresh calls).shares.supply = (after fresh calls).shares.totalBalance ∧
      (after fresh calls).fees.totalDebt = (after fresh calls).fees.debts.total ∧
      (after fresh calls).fees.totalCredit = (after fresh calls).fees.credits.total := by
  have hsound := (after_confined fresh calls).sound (sound_create hfresh)
  exact ⟨hsound.shares.supply_eq, hsound.fees.debt_eq, hsound.fees.credit_eq⟩

/-! ## A plan in the wrong hands -/

/-- Two entries with fees in between: the second holder owes what its shares
would have taken of them. -/
def indebtedEntry : List Call :=
  [.enter poor 1000 none 0, .depositFees 100, .enter rich 500 none 0]

/-- What the pool plans for all shares of the second holder. -/
def richPlan : SelfClosePlan where
  quote :=
    { shares := 500, collateral := 500, fees := 0, debtForgiven := 50, creditUsed := 0,
      collateralAfter := 1000, supplyAfter := 1000 }
  burn := 0
  funding := ⟨0, 0, 0⟩

/-- The plan, applied to the first holder, who owes nothing. -/
def misapplied : Call := .applySelfClose poor richPlan 0

/-- The shares of the first holder are burned before its debt turns out to be
too small and the call is refused; the totals still are the sums. -/
theorem misapplied_totals_eq_sums :
    let before := after freshPool indebtedEntry
    let p := after freshPool (indebtedEntry ++ [misapplied])
    before.planSelfClose rich 500 ⟨0, ⟨1, 1⟩⟩ 0 = .ok richPlan ∧
      (perform misapplied).failure? before ≠ none ∧
      before.balanceOf poor = 1000 ∧ p.balanceOf poor = 500 ∧ p.collateral = before.collateral ∧
      p.shares.supply = p.shares.totalBalance ∧ p.fees.totalDebt = p.fees.debts.total ∧
        p.fees.totalCredit = p.fees.credits.total := by
  have hfresh : create looseSettings = .ok freshPool := rfl
  exact ⟨by decide +kernel, by decide +kernel, by decide +kernel, by decide +kernel,
    by decide +kernel, totals_eq_sums hfresh (indebtedEntry ++ [misapplied])⟩

end PooledCollateral.Pool
