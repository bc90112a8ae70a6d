/-
PooledCollateral.Proofs.Pool.Residuals — what stays behind when somebody leaves.

The two guards against dust look at the shares and at the collateral that stay, one by
one, and each lets zero pass. Between them stands the division that prices the shares
that leave: it pays out the whole of the collateral for the whole of the supply, and for
nothing less (`part_eq_whole_iff`). So neither side can run out while the other does not,
and where anything stays both guards have looked at something that is not zero
(`departure_strands_nothing`).
-/
import PooledCollateral.Proofs.Pool.Ratio
import PooledCollateral.Proofs.Pool.RoundTrip

namespace PooledCollateral.Pool

open PooledCollateral.Action Function

variable {p q : Pool} {d : Departure} {receipt : ExitReceipt}

/-! ## Parts and wholes -/

/-- A part of an amount, rounded down, that is not nothing is the whole only where the part
is all. -/
theorem part_eq_whole_iff {n d whole : ℕ} (hn : n ≤ d) (hpart : n * whole / d ≠ 0) :
    n * whole / d = whole ↔ n = d := by
  have hd : 0 < d := Nat.pos_of_ne_zero fun hzero => hpart (by rw [hzero, Nat.div_zero])
  constructor
  · intro hall
    by_contra hne
    have hwhole : 0 < whole := Nat.pos_of_ne_zero (hall ▸ hpart)
    have hless : n * whole < d * whole := Nat.mul_lt_mul_of_pos_right (by omega) hwhole
    exact absurd hall (Nat.div_lt_of_lt_mul hless).ne
  · rintro rfl
    exact Nat.mul_div_cancel_left whole hd

/-- What a quote leaves of the collateral and of the supply runs out together. -/
theorem ExitQuote.For.collateralAfter_eq_zero_iff {holder : Address} {shares : ℕ}
    {quote : ExitQuote} (h : ExitQuote.For p holder shares quote)
    (hsupply : shares ≤ p.shares.supply) :
    quote.collateralAfter = 0 ↔ quote.supplyAfter = 0 := by
  have hpart : shares * p.collateral / p.shares.supply ≠ 0 := h.collateral_eq ▸ h.collateral_ne
  have hwhole := part_eq_whole_iff hsupply hpart
  have hle := h.collateral_le
  rw [h.collateralAfter_eq, h.supplyAfter_eq]
  rw [h.collateral_eq] at hle ⊢
  omega

/-! ## The guards -/

theorem checkResiduals_eq_ok_iff {quote : ExitQuote} {u : Unit} :
    p.checkResiduals quote = .ok u ↔
      (quote.supplyAfter = 0 ∨ p.settings.minSupplyAfterExit ≤ quote.supplyAfter) ∧
        (quote.collateralAfter = 0 ∨
          p.settings.minCollateralAfterExit ≤ quote.collateralAfter) := by
  simp only [checkResiduals, Guard.residualSupply, Guard.residualCollateral,
    Checked.bind_eq_ok_iff, require_eq_ok_iff]
  exact ⟨fun ⟨_, hsupply, hcollateral⟩ => ⟨hsupply, hcollateral⟩,
    fun ⟨hsupply, hcollateral⟩ => ⟨(), hsupply, hcollateral⟩⟩

/-- Nobody leaves without passing both guards. -/
theorem depart_checked (h : (depart d).run p = .ok receipt q) :
    ∃ quote, p.quoteExit d.holder d.shares d.now = .ok quote ∧
      p.checkResiduals quote = .ok () ∧ (carryOut d.holder quote d.now).run p = .ok () q := by
  unfold depart at h
  split at h
  · obtain ⟨⟨plan, _⟩, _, hclose, hreturn⟩ := run_bind_eq_ok_iff.mp h
    cases hreturn
    obtain ⟨hplan, hcarry⟩ := selfClose_ok hclose
    obtain ⟨hquote, -, -, hresiduals, -⟩ := planSelfClose_eq_ok_iff.mp hplan
    exact ⟨plan.quote, hquote, hresiduals, hcarry⟩
  · obtain ⟨quote, hplan, hcarry, -⟩ := exit_ok h
    obtain ⟨hquote, -, hresiduals⟩ := planExit_eq_ok_iff.mp hplan
    exact ⟨quote, hquote, hresiduals, hcarry⟩

/-! ## Departures -/

/-- What is the holder's own after a quoted burn. -/
theorem carryOut_own {holder : Address} {quote : ExitQuote} {now : ℕ}
    (h : (carryOut holder quote now).run p = .ok () q) :
    q.balanceOf holder = p.balanceOf holder - quote.shares ∧
      q.debtOf holder = p.debtOf holder - quote.debtForgiven ∧
      q.creditOf holder = p.creditOf holder - quote.creditUsed := by
  obtain ⟨-, -, _, -, hbooks⟩ := carryOut_ok h
  have hrow := congrFun (congrArg Books.row hbooks) holder
  simp only [update_self] at hrow
  exact ⟨congrArg HolderRow.balance hrow, congrArg HolderRow.feeDebt hrow,
    congrArg HolderRow.feeCredit hrow⟩

/-- A departure, told by the pool before it and the pool after it. -/
structure Departure.Leads (d : Departure) (p q : Pool) : Prop where
  /-- The collateral that the shares are worth has gone, rounded down. -/
  collateral_eq : q.collateral + d.shares * p.collateral / p.shares.supply = p.collateral
  supply_eq : q.shares.supply + d.shares = p.shares.supply
  balance_eq : q.balanceOf d.holder + d.shares = p.balanceOf d.holder
  /-- No shares are left without collateral, and no collateral without shares. -/
  empty_iff : q.collateral = 0 ↔ q.shares.supply = 0
  /-- Where anything is left, of neither side there is less than its floor. -/
  floors : q.shares.supply ≠ 0 → p.settings.minSupplyAfterExit ≤ q.shares.supply ∧
    p.settings.minCollateralAfterExit ≤ q.collateral
  /-- Who has left with everything owes nothing and is owed nothing. -/
  cleared : q.balanceOf d.holder = 0 → q.debtOf d.holder = 0 ∧ q.creditOf d.holder = 0

/-- In every pool: whoever leaves, by a plain exit or by a self-close exit applied as it was
planned, takes along exactly the shares and what they are worth. The pool that stays is
empty on both sides or above both floors, and neither debt nor credit stays behind of a
holder that has left with all of its shares. -/
theorem departure_strands_nothing (h : (depart d).run p = .ok receipt q) : d.Leads p q := by
  obtain ⟨quote, hquote, hresiduals, hcarry⟩ := depart_checked h
  have hfor := quoteExit_ok hquote
  obtain ⟨⟨-, hfits, hshares, hbalance⟩, -⟩ := carryOut_ok hcarry
  obtain ⟨hcollateral, hsupply, -⟩ := carryOut_totals hfor hcarry
  obtain ⟨hown, hdebt, hcredit⟩ := carryOut_own hcarry
  obtain ⟨hsupplyFloor, hcollateralFloor⟩ := checkResiduals_eq_ok_iff.mp hresiduals
  rw [hfor.shares_eq] at hshares hbalance hown
  have hempty := hfor.collateralAfter_eq_zero_iff hshares
  rw [← hcollateral, ← hsupply] at hempty
  rw [← hsupply] at hsupplyFloor
  rw [← hcollateral] at hcollateralFloor
  refine ⟨?_, ?_, by omega, hempty, fun hleft => ?_, fun hgone => ?_⟩
  · rw [hcollateral, hfor.collateralAfter_eq, ← hfor.collateral_eq]
    exact Nat.sub_add_cancel hfits
  · rw [hsupply, hfor.supplyAfter_eq]
    exact Nat.sub_add_cancel hshares
  · exact ⟨hsupplyFloor.resolve_left hleft, hcollateralFloor.resolve_left (hempty.not.mpr hleft)⟩
  · obtain ⟨hforgiven, hused⟩ := hfor.settled_all (by omega)
    rw [hdebt, hcredit, hforgiven, hused]
    exact ⟨Nat.sub_self _, Nat.sub_self _⟩

/-- Settings under which nobody may leave fewer than a hundred of either side. -/
def flooredSettings : Settings where
  exitRatio := 20000
  lockDuration := 0
  minEntry := 1
  minSupplyAfterExit := 100
  minCollateralAfterExit := 100

/-- Two holders under such settings, the second of whom has both debt and credit. -/
def floored : Pool :=
  after { freshPool with settings := flooredSettings }
    [.enter rich 1000 none 0, .depositFees 100, .enter poor 500 none 0, .payout poor 40 100 0]

/-- The second holder closes its position, and its debt of 50 and its credit of 10 go with
it. The first one then leaves with 900 of its shares, down to the floor of the supply, and
at last with the others, which leaves nothing. -/
theorem floored_strands_nothing :
    let close : Departure := ⟨poor, 400, ⟨600, ⟨1, 1⟩⟩, 0, true⟩
    let reduce : Departure := ⟨rich, 900, ⟨50, ⟨1, 1⟩⟩, 0, false⟩
    let quit : Departure := ⟨rich, 100, ⟨50, ⟨1, 1⟩⟩, 0, false⟩
    let p := (depart close).stateAfter floored
    let q := (depart reduce).stateAfter p
    let r := (depart quit).stateAfter q
    (floored.debtOf poor = 50 ∧ floored.creditOf poor = 10) ∧
      ((depart close).outcome floored = .ok ⟨400, 417, 0, 50⟩ ∧ close.Leads floored p) ∧
      ((depart reduce).outcome p = .ok ⟨900, 938, 90, 0⟩ ∧ reduce.Leads p q) ∧
      ((depart quit).outcome q = .ok ⟨100, 105, 10, 0⟩ ∧ quit.Leads q r) ∧
      (q.collateral, q.shares.supply) = (105, 100) ∧ (r.collateral, r.shares.supply) = (0, 0) := by
  intro close reduce quit p q r
  have hclose : (depart close).outcome floored = .ok ⟨400, 417, 0, 50⟩ := by decide +kernel
  have hreduce : (depart reduce).outcome p = .ok ⟨900, 938, 90, 0⟩ := by decide +kernel
  have hquit : (depart quit).outcome q = .ok ⟨100, 105, 10, 0⟩ := by decide +kernel
  exact ⟨by decide +kernel,
    ⟨hclose, departure_strands_nothing (run_of_outcome hclose)⟩,
    ⟨hreduce, departure_strands_nothing (run_of_outcome hreduce)⟩,
    ⟨hquit, departure_strands_nothing (run_of_outcome hquit)⟩, by decide +kernel, by decide +kernel⟩

end PooledCollateral.Pool
