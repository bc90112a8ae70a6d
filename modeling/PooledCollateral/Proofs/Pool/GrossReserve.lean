/-
PooledCollateral.Proofs.Pool.GrossReserve — when the fees held and the debt still
add up to an amount.

The virtual reserve is formed from the *gross reserve*, the sum of the fees held and
the debt. An operation checks the fees and the debt that it leaves, each for itself;
their sum is first formed by the next claim, exit, transfer or entry. What an
operation does to the sum is exactly what it `brings`, by a deposit or as the debt of
an entry, and what an exit `takes` (`grossReserve_operate`). So a sum that fits stays
so exactly if what is brought fits (`grossReserve_fits_iff`). A deposit or an entry
that is accepted although the sum does not fit leaves a pool that is `Stuck`: nobody
who has shares can claim or leave, and since nothing but an exit makes the sum
smaller, no run of operations gets out of it again (`grossReserve_gt_run`).
-/
import PooledCollateral.Proofs.Pool.Totals
import PooledCollateral.Proofs.Pool.VirtualReserve

namespace PooledCollateral.Pool

open PooledCollateral.Action

variable {p q fresh : Pool} {op : Operation} {ops : List Operation} {settings : Settings}
  {holder : Address}

/-- The fees held and all debt. -/
def grossReserve (p : Pool) : ℕ := p.feeReserve + p.fees.totalDebt

theorem grossReserve_of_books {b : Books} (h : p.books = b) :
    p.grossReserve = b.totals.feeReserve + b.totals.feeDebt := h ▸ rfl

/-! ## What operations do to the gross reserve -/

/-- What an operation adds to the gross reserve: a deposit its fees, an entry the
debt that it is charged. -/
def Operation.brings (p : Pool) : Operation → ℕ
  | .enter _ collateral price _ => (p.quoteEntry collateral price).toOption.elim 0 (·.feeDebt)
  | .depositFees amount => amount
  | _ => 0

/-- What an operation removes from the gross reserve: an exit its fees and the debt
that is forgiven. -/
def Operation.takes (p : Pool) (op : Operation) : ℕ :=
  (op.burn? p).elim 0 fun quote => quote.fees + quote.debtForgiven

theorem grossReserve_carryOut {quote : ExitQuote} {now : ℕ}
    (h : (carryOut holder quote now).run p = .ok () q) :
    q.grossReserve + (quote.fees + quote.debtForgiven) = p.grossReserve := by
  obtain ⟨⟨hfees, -⟩, ⟨-, hdebt, -⟩, _, -, hbooks⟩ := carryOut_ok h
  rw [grossReserve_of_books hbooks]
  simp only [grossReserve]
  omega

/-- A withdrawal turns fees into debt, a repayment debt into fees, and the operations
that touch neither leave the sum alone. -/
theorem grossReserve_operate (h : (operate op).run p = .ok () q) :
    q.grossReserve + op.takes p = p.grossReserve + op.brings p := by
  cases op with
  | enter holder collateral price now =>
    obtain ⟨_, henter⟩ := operate_enter_ok h
    obtain ⟨quote, hquote, -, hbooks⟩ := enter_ok henter
    rw [grossReserve_of_books hbooks]
    simp only [grossReserve, totals, Operation.brings, Operation.takes, Operation.burn?, hquote,
      Except.toOption, Option.elim]
    omega
  | exit holder shares backing now =>
    obtain ⟨quote, hplan, hcarry⟩ := operate_exit_ok h
    simp only [Operation.brings, Operation.takes, Operation.burn?, hplan, Except.toOption,
      Option.elim]
    exact grossReserve_carryOut hcarry
  | selfClose holder shares backing now =>
    obtain ⟨plan, hplan, hcarry⟩ := operate_selfClose_ok h
    simp only [Operation.brings, Operation.takes, Operation.burn?, hplan, Except.toOption,
      Option.map_some, Option.elim]
    exact grossReserve_carryOut hcarry
  | withdrawFees holder amount =>
    obtain ⟨_, -, -, hreserve, hbooks⟩ := withdrawFees_ok h
    rw [grossReserve_of_books hbooks]
    simp only [grossReserve, Operation.brings, Operation.takes, Operation.burn?, Option.elim]
    omega
  | payFeeDebt holder amount =>
    obtain ⟨-, hdebt, hbooks⟩ := payFeeDebt_ok h
    rw [grossReserve_of_books hbooks]
    simp only [grossReserve, Operation.brings, Operation.takes, Operation.burn?, Option.elim]
    omega
  | depositFees amount =>
    rw [depositFees_ok h]
    simp only [grossReserve, Operation.brings, Operation.takes, Operation.burn?, Option.elim]
    omega
  | receiveCollateral amount =>
    rw [receiveCollateral_ok h]
    rfl
  | payout holder collateral shares now =>
    obtain ⟨-, -, -, _, _, -, -, hbooks⟩ := payout_ok h
    rw [grossReserve_of_books hbooks]
    rfl
  | updateSettings =>
    rw [(updateSettings_ok h).2]
    rfl
  | transfer =>
    obtain ⟨_, _, -, -, -, -, ⟨-, rfl⟩ | ⟨-, -, _, -, hbooks⟩⟩ := transfer_ok h
    · rfl
    · rw [grossReserve_of_books hbooks]
      rfl
  | cleanup holder limit now =>
    obtain ⟨_, hclean⟩ := operate_cleanup_ok h
    rw [grossReserve_of_books (cleanup_ok hclean)]
    rfl

/-! ## A gross reserve that fits -/

theorem virtualReserve_of_fits (hfits : p.grossReserve ≤ Amount.max)
    (hcredit : p.fees.totalCredit ≤ p.grossReserve) :
    p.fees.virtualReserve p.feeReserve = .ok (p.grossReserve - p.fees.totalCredit) :=
  virtualReserve_eq_ok_iff.mpr ⟨rfl, hfits, hcredit⟩

/-- The slice of a holder's shares is no more than the virtual reserve. -/
theorem slice_of_fits (hp : p.Sound) (hfits : p.grossReserve ≤ Amount.max)
    (hcredit : p.fees.totalCredit ≤ p.grossReserve) (holder : Address) :
    ∃ slice, p.fees.slice p.feeReserve (p.balanceOf holder) p.shares.supply = .ok slice ∧
      slice ≤ p.grossReserve - p.fees.totalCredit := by
  have hbalance : p.balanceOf holder ≤ p.shares.supply := hp.balanced.balance_le holder
  unfold FeeBook.slice
  split
  · exact ⟨0, rfl, Nat.zero_le _⟩
  · rename_i hsome
    have hvirtual : p.grossReserve - p.fees.totalCredit ≤ Amount.max := (Nat.sub_le _ _).trans hfits
    have hproduct := Amount.mul_of_le_max hvirtual (hbalance.trans hp.shares.supply_le)
    have hpart : (p.grossReserve - p.fees.totalCredit) * p.balanceOf holder / p.shares.supply
        ≤ p.grossReserve - p.fees.totalCredit := by
      refine Nat.div_le_of_le_mul ?_
      rw [Nat.mul_comm p.shares.supply]
      exact Nat.mul_le_mul_left _ hbalance
    refine ⟨_, Checked.bind_eq_ok_iff.mpr ⟨_, virtualReserve_of_fits hfits hcredit, ?_⟩, hpart⟩
    exact Amount.mulDiv_eq_ok_iff.mpr ⟨(not_or.mp hsome).1, (Amount.mul_eq_ok_iff.mp hproduct).2,
      rfl, hpart.trans hvirtual⟩

/-- As long as the gross reserve is an amount and covers the credit, everybody has a
claim: slice and credit together are no more than the gross reserve. -/
theorem claimableFees_of_fits (hp : p.Sound) (hfits : p.grossReserve ≤ Amount.max)
    (hcredit : p.fees.totalCredit ≤ p.grossReserve) (holder : Address) :
    ∃ fees, p.claimableFees holder = .ok fees := by
  obtain ⟨slice, hslice, hle⟩ := slice_of_fits hp hfits hcredit holder
  have hown : p.fees.credits.get holder ≤ p.fees.totalCredit :=
    (Amounts.get_le_total _ _).trans hp.fees.credit_eq.ge
  have hsum : slice + p.fees.credits.get holder ≤ Amount.max := by omega
  have hclaim : p.claim holder = .ok (slice + p.fees.credits.get holder - p.debtOf holder) :=
    Checked.bind_eq_ok_iff.mpr ⟨slice, hslice, Checked.bind_eq_ok_iff.mpr
      ⟨_, Amount.add_eq_ok_iff.mpr ⟨rfl, hsum⟩, rfl⟩⟩
  exact ⟨_, Checked.bind_eq_ok_iff.mpr ⟨_, hclaim, rfl⟩⟩

/-- The claims are the entitlements rounded down. -/
theorem claim_of_fits (hp : p.Sound) (hfits : p.grossReserve ≤ Amount.max)
    (hcredit : p.fees.totalCredit ≤ p.grossReserve) (holder : Address) :
    p.claim holder = .ok ⌊p.books.entitlement holder⌋₊ := by
  obtain ⟨fees, hfees⟩ := claimableFees_of_fits hp hfits hcredit holder
  obtain ⟨claim, hclaim, -⟩ := claimableFees_ok hfees
  rw [hclaim, claim_eq_floor hclaim]

/-! ## A gross reserve that does not fit -/

/-- Nobody who has shares can claim fees or leave, and nobody's shares are told apart
from those that back its debt. An exit that nothing else stands against is refused
for the gross reserve alone. -/
structure Stuck (p : Pool) : Prop where
  grossReserve_gt : Amount.max < p.grossReserve
  claimableFees : ∀ holder, p.balanceOf holder ≠ 0 →
    p.claimableFees holder = .error (.rejected .overflow)
  indebtedShares : ∀ holder, p.indebtedShares holder = .error (.rejected .overflow)
  no_exit : ∀ holder shares now quote, p.quoteExit holder shares now ≠ .ok quote
  exit_refused : ∀ {holder shares now locked collateral}, shares ≠ 0 →
    p.lockedBalance holder now = .ok locked → shares ≤ p.balanceOf holder - locked →
    Amount.mulDiv shares p.collateral p.shares.supply = .ok collateral → collateral ≠ 0 →
    p.quoteExit holder shares now = .error (.rejected .overflow)

theorem virtualReserve_overflow (h : Amount.max < p.grossReserve) :
    p.fees.virtualReserve p.feeReserve = .error (.rejected .overflow) := by
  have hsum : Amount.add p.feeReserve p.fees.totalDebt = .error (.rejected .overflow) := by
    have hnot : ¬ p.feeReserve + p.fees.totalDebt ≤ Amount.max := Nat.not_le.mpr h
    unfold Amount.add Amount.fit
    rw [if_neg hnot]
    rfl
  unfold FeeBook.virtualReserve
  rw [hsum]
  rfl

theorem claimableFees_overflow (h : Amount.max < p.grossReserve) (hsupply : p.shares.supply ≠ 0)
    (hbalance : p.balanceOf holder ≠ 0) :
    p.claimableFees holder = .error (.rejected .overflow) := by
  unfold claimableFees claim FeeBook.claimable FeeBook.slice
  rw [if_neg (not_or.mpr ⟨hsupply, hbalance⟩), virtualReserve_overflow h]
  rfl

theorem quoteExit_ne_ok (h : Amount.max < p.grossReserve) {shares now : ℕ} {quote : ExitQuote} :
    p.quoteExit holder shares now ≠ .ok quote := by
  intro hquote
  obtain ⟨_, hreserve⟩ := virtualReserve_of_quoteExit hquote
  rw [virtualReserve_overflow h] at hreserve
  cases hreserve

theorem stuck_of_grossReserve_gt (hp : p.Sound) (h : Amount.max < p.grossReserve) : p.Stuck where
  grossReserve_gt := h
  claimableFees holder hbalance := by
    have hle : p.balanceOf holder ≤ p.shares.supply := hp.balanced.balance_le holder
    exact claimableFees_overflow h (by omega) hbalance
  indebtedShares holder := by
    unfold indebtedShares FeeBook.indebtedShares
    rw [virtualReserve_overflow h]
    rfl
  no_exit _ _ _ _ := quoteExit_ne_ok h
  exit_refused {holder shares now locked collateral} hshares hlocked hfree hpart hworth := by
    have hbalance : shares ≤ p.balanceOf holder := hfree.trans (Nat.sub_le _ _)
    have hclaim : p.claimableFees holder = .error (.rejected .overflow) :=
      claimableFees_overflow h (Amount.mulDiv_eq_ok_iff.mp hpart).1 (by omega)
    have hfees : p.exitFees holder shares (p.balanceOf holder) = .error (.rejected .overflow) := by
      unfold exitFees
      rw [hclaim]
      rfl
    unfold quoteExit Restriction.authorizeExit Restriction.exitable
    simp [hlocked, hpart, hfees, require, hshares, hbalance, hfree, hworth, bind, Except.bind]

/-- Nothing but an exit makes the gross reserve smaller, and there is none. -/
theorem grossReserve_gt_operate (h : (operate op).run p = .ok () q)
    (hgt : Amount.max < p.grossReserve) : Amount.max < q.grossReserve := by
  have hnone : op.burn? p = none := by
    cases hburn : op.burn? p with
    | none => rfl
    | some quote =>
      obtain ⟨_, _, _, hquote, -⟩ := carryOut_of_burn h hburn
      exact absurd hquote (quoteExit_ne_ok hgt)
  have hsum := grossReserve_operate h
  rw [Operation.takes, hnone, Option.elim] at hsum
  omega

theorem grossReserve_gt_run (h : Run p ops q) (hgt : Amount.max < p.grossReserve) :
    Amount.max < q.grossReserve := h.preserves grossReserve_gt_operate hgt

/-! ## Runs -/

/-- In a pool that calls have led to, whichever of them failed, and whose gross
reserve is an amount, a successful operation keeps it one exactly if what it brings
fits; only deposits and entries bring anything, and a plan of a self-close exit,
however old and whosever it is, makes the sum smaller. While the sum fits and covers
the credit, everybody has a claim. If it does not fit any more, the pool is stuck,
and so is every pool that a run of operations leads to from there. -/
theorem grossReserve_fits_iff (hfresh : create settings = .ok fresh) {past : List Call}
    (hpast : after fresh past = p) (hfits : p.grossReserve ≤ Amount.max)
    (hop : (operate op).run p = .ok () q) :
    (q.grossReserve ≤ Amount.max ↔ p.grossReserve + op.brings p ≤ Amount.max) ∧
      (∀ holder plan now receipt r, (applySelfClose holder plan now).run p = .ok receipt r →
        r.grossReserve ≤ Amount.max) ∧
      (q.grossReserve ≤ Amount.max → q.fees.totalCredit ≤ q.grossReserve →
        ∀ holder, ∃ fees, q.claimableFees holder = .ok fees) ∧
      (Amount.max < q.grossReserve → ∀ later r, Run q later r → r.Stuck) := by
  have hsound : q.Sound :=
    operate_sound hop (hpast ▸ (after_confined fresh past).sound (sound_create hfresh))
  refine ⟨?_, ?_, claimableFees_of_fits hsound, fun hgt later r hlater => ?_⟩
  · have hsum := grossReserve_operate hop
    -- whatever takes something brings nothing
    have htakes : op.takes p = 0 ∨ op.brings p = 0 := by
      cases op with
      | exit => exact Or.inr rfl
      | selfClose => exact Or.inr rfl
      | _ => exact Or.inl rfl
    omega
  · intro holder plan now receipt r happly
    have hsum := grossReserve_carryOut (applySelfClose_ok happly).1
    omega
  · exact stuck_of_grossReserve_gt (hlater.sound hsound) (grossReserve_gt_run hlater hgt)

/-! ## One operation too many -/

/-- Fees of half the range, of which one unit has been withdrawn. -/
def halfFull : List Call :=
  [.enter rich 100 none 0, .depositFees (2 ^ 127), .withdrawFees rich 1]

/-- Another entry like the first is charged the other half, and one unit less would
have fitted. -/
theorem halfFull_entry_sticks :
    let p := after freshPool halfFull
    let entry : Operation := .enter poor 100 none 0
    (p.grossReserve = 2 ^ 127 ∧ entry.brings p = 2 ^ 127) ∧
      ∀ later r, Run ((operate entry).stateAfter p) later r → r.Stuck := by
  intro p entry
  have hfresh : create looseSettings = .ok freshPool := rfl
  have hfits : p.grossReserve ≤ Amount.max := by decide +kernel
  have haccepted : (operate entry).failure? p = none := by decide +kernel
  obtain ⟨_, hop⟩ := run_of_success haccepted
  refine ⟨⟨by decide +kernel, by decide +kernel⟩, ?_⟩
  exact (grossReserve_fits_iff hfresh rfl hfits hop).2.2.2 (by decide +kernel)

/-- The first holder can claim and leave until an entry, or a deposit, is accepted
that lifts the gross reserve out of the range; from then on it can do neither. -/
theorem halfFull_freezes :
    let half := after freshPool halfFull
    let leave := exit rich 50 ⟨0, ⟨1, 1⟩⟩ 1
    (¬ ∀ settings fresh past op q, create settings = .ok fresh →
      (after fresh past).grossReserve ≤ Amount.max →
        (operate op).run (after fresh past) = .ok () q → q.grossReserve ≤ Amount.max) ∧
    (half.grossReserve ≤ Amount.max ∧ half.claimableFees rich = .ok (2 ^ 127 - 1) ∧
      leave.failure? half = none) ∧
    ∀ op ∈ [Operation.enter poor 100 none 0, Operation.depositFees (2 ^ 127)],
      let full := (operate op).stateAfter half
      (operate op).failure? half = none ∧ Amount.max < full.grossReserve ∧
        full.claimableFees rich = .error (.rejected .overflow) ∧
          leave.failure? full = some (.rejected .overflow) := by
  intro half leave
  refine ⟨fun hkept => ?_, by decide +kernel, by decide +kernel⟩
  have haccepted : (operate (.depositFees (2 ^ 127))).failure? half = none := by decide +kernel
  obtain ⟨_, hop⟩ := run_of_success haccepted
  have hle := hkept looseSettings freshPool halfFull _ _ rfl (by decide +kernel) hop
  revert hle
  decide +kernel

end PooledCollateral.Pool
