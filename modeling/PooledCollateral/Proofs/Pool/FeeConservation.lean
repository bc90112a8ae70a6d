/-
PooledCollateral.Proofs.Pool.FeeConservation — the claims of all holders add up
to the fees held, but for less than one unit per holder of shares.

A claim is taken here with its sign: the slice of the holder's shares and its
credit, less its debt, also where that is below zero. The slices of all holders
add up to the virtual reserve, less what rounding down takes from each holder of
shares (`sum_sliceOf_le`, `lt_sum_sliceOf`); credit and debt add up to their
totals. So the signed claims are conserved (`fees_conserved`). If none of them
is below zero and the fees held and owed together are an amount, everybody can
withdraw its claim, in any order (`Payable.run`).
-/
import PooledCollateral.Proofs.Pool.Audit
import PooledCollateral.Proofs.Pool.Totals

namespace PooledCollateral.Pool

open PooledCollateral.Action Finset

variable {p q fresh : Pool} {holder : Address} {amount : ℕ} {settings : Settings}

/-! ## Signed claims -/

/-- What a holder may claim of the fees, below zero where it owes more. -/
def signedClaim (p : Pool) (holder : Address) : ℤ :=
  p.sliceOf holder + p.creditOf holder - p.debtOf holder

/-- The holders that have shares. -/
def shareHolders (p : Pool) : List Address :=
  p.holders.filter fun holder => p.balanceOf holder ≠ 0

theorem signedClaim_of_not_mem (h : holder ∉ p.holders) : p.signedClaim holder = 0 := by
  obtain ⟨hbalance, hdebt, hcredit⟩ := nothing_of_not_mem h
  simp [signedClaim, sliceOf, hbalance, hdebt, hcredit]

theorem length_shareHolders (p : Pool) :
    p.shareHolders.length = ∑ holder, if p.balanceOf holder ≠ 0 then 1 else 0 := by
  have hmem : p.shareHolders.toFinset = univ.filter fun holder => p.balanceOf holder ≠ 0 := by
    ext holder
    simp only [shareHolders, List.mem_toFinset, List.mem_filter, mem_filter, mem_univ, true_and,
      decide_eq_true_eq, and_iff_right_iff_imp]
    exact fun hbalance => by_contra fun hnot => hbalance (nothing_of_not_mem hnot).1
  have hnodup : p.shareHolders.Nodup := p.nodup_holders.filter _
  rw [← card_filter, ← hmem, List.toFinset_card_of_nodup hnodup]

/-! ## Slices -/

theorem sliceOf_mul_le (p : Pool) (holder : Address) :
    p.sliceOf holder * p.shares.supply
      ≤ (p.feeReserve + p.fees.totalDebt - p.fees.totalCredit) * p.balanceOf holder :=
  Nat.div_mul_le_self _ _

/-- Who has shares loses less than a unit to rounding. -/
theorem lt_sliceOf_mul (hsupply : p.shares.supply ≠ 0) (holder : Address) :
    (p.feeReserve + p.fees.totalDebt - p.fees.totalCredit) * p.balanceOf holder
      < (p.sliceOf holder + 1) * p.shares.supply := by
  rw [Nat.mul_comm (p.sliceOf holder + 1)]
  exact Nat.lt_mul_div_succ _ (Nat.pos_of_ne_zero hsupply)

theorem Sound.sum_balance (hp : p.Sound) : ∑ holder, p.balanceOf holder = p.shares.supply :=
  hp.supply_eq_sum.symm

theorem sum_sliceOf_le (hp : p.Sound) (hsupply : p.shares.supply ≠ 0) :
    ∑ holder, p.sliceOf holder ≤ p.feeReserve + p.fees.totalDebt - p.fees.totalCredit := by
  refine Nat.le_of_mul_le_mul_right ?_ (Nat.pos_of_ne_zero hsupply)
  calc (∑ holder, p.sliceOf holder) * p.shares.supply
      = ∑ holder, p.sliceOf holder * p.shares.supply := sum_mul _ _ _
    _ ≤ ∑ holder, (p.feeReserve + p.fees.totalDebt - p.fees.totalCredit) * p.balanceOf holder :=
        sum_le_sum fun holder _ => p.sliceOf_mul_le holder
    _ = (p.feeReserve + p.fees.totalDebt - p.fees.totalCredit) * p.shares.supply := by
        rw [← mul_sum, hp.sum_balance]

theorem sliceOf_le (hp : p.Sound) (hsupply : p.shares.supply ≠ 0) (holder : Address) :
    p.sliceOf holder ≤ p.feeReserve + p.fees.totalDebt - p.fees.totalCredit :=
  (single_le_sum (fun _ _ => Nat.zero_le _) (mem_univ holder)).trans (sum_sliceOf_le hp hsupply)

/-- Somebody has shares, so that less than one unit for each who has some is lost. -/
theorem lt_sum_sliceOf (hp : p.Sound) (hsupply : p.shares.supply ≠ 0) :
    p.feeReserve + p.fees.totalDebt - p.fees.totalCredit
      < ∑ holder, p.sliceOf holder + p.shareHolders.length := by
  obtain ⟨somebody, -, hsomebody⟩ : ∃ holder ∈ univ, p.balanceOf holder ≠ 0 :=
    exists_ne_zero_of_sum_ne_zero (hp.sum_balance ▸ hsupply)
  refine Nat.lt_of_mul_lt_mul_right (a := p.shares.supply) ?_
  rw [p.length_shareHolders, ← sum_add_distrib, sum_mul, ← hp.sum_balance, mul_sum, hp.sum_balance]
  refine sum_lt_sum (fun holder _ => ?_) ⟨somebody, mem_univ _, ?_⟩
  · by_cases hbalance : p.balanceOf holder = 0
    · simp [hbalance]
    · rw [if_pos hbalance]
      exact (lt_sliceOf_mul hsupply holder).le
  · rw [if_pos hsomebody]
    exact lt_sliceOf_mul hsupply somebody

/-- The slice of a holder can be told unless fees held and owed together exceed
an amount. -/
theorem slice_eq (hp : p.Sound) (hsupply : p.shares.supply ≠ 0)
    (hcovered : p.fees.totalCredit ≤ p.feeReserve + p.fees.totalDebt) (holder : Address) :
    p.fees.slice p.feeReserve (p.balanceOf holder) p.shares.supply =
      if p.balanceOf holder = 0 ∨ p.feeReserve + p.fees.totalDebt ≤ Amount.max
      then .ok (p.sliceOf holder) else reject .overflow := by
  unfold FeeBook.slice FeeBook.virtualReserve
  by_cases hbalance : p.balanceOf holder = 0
  · rw [if_pos (Or.inr hbalance), if_pos (Or.inl hbalance)]
    simp [sliceOf, hbalance, pure, Except.pure]
  · rw [if_neg (not_or.mpr ⟨hsupply, hbalance⟩)]
    by_cases hfits : p.feeReserve + p.fees.totalDebt ≤ Amount.max
    · have hadd := Amount.add_eq_ok_iff.mpr ⟨rfl, hfits⟩
      have hsub := Amount.sub_eq_ok_iff.mpr ⟨rfl, hcovered⟩
      have hle : p.balanceOf holder ≤ p.shares.supply := hp.balanced.balance_le holder
      have hmax := hp.shares.supply_le
      have hproduct := (Amount.mul_eq_ok_iff.mp (Amount.mul_of_le_max
        ((Nat.sub_le _ p.fees.totalCredit).trans hfits) (hle.trans hmax))).2
      have hslice : p.sliceOf holder ≤ Amount.max :=
        (sliceOf_le hp hsupply holder).trans ((Nat.sub_le _ _).trans hfits)
      rw [if_pos (Or.inr hfits), hadd]
      show (Amount.sub _ _ >>= fun v => Amount.mulDiv v _ _) = _
      rw [hsub]
      exact Amount.mulDiv_eq_ok_iff.mpr ⟨hsupply, hproduct, rfl, hslice⟩
    · rw [if_neg (not_or.mpr ⟨hbalance, hfits⟩)]
      simp [Amount.add, Amount.fit, hfits, reject, bind, Except.bind]

/-! ## Conservation -/

/-- What the signed claims of all holders add up to. -/
theorem sum_signedClaim (hp : p.Sound) :
    (p.holders.map p.signedClaim).sum
      = (∑ holder, p.sliceOf holder : ℕ) + p.fees.totalCredit - p.fees.totalDebt := by
  have hdebt : p.fees.totalDebt = ∑ holder, p.debtOf holder := hp.debt_eq_sum
  have hcredit : p.fees.totalCredit = ∑ holder, p.creditOf holder := hp.credit_eq_sum
  rw [sum_holders fun _ => signedClaim_of_not_mem, hdebt, hcredit]
  simp only [signedClaim, sum_sub_distrib, sum_add_distrib, Nat.cast_sum]

/-- The signed claims add up to the fees held, but for less than one unit for
each holder of shares. -/
theorem sum_signedClaim_bounds (hp : p.Sound) (hsupply : p.shares.supply ≠ 0)
    (hcovered : p.fees.totalCredit ≤ p.feeReserve + p.fees.totalDebt) :
    (p.holders.map p.signedClaim).sum ≤ p.feeReserve ∧
      (p.feeReserve : ℤ) < (p.holders.map p.signedClaim).sum + p.shareHolders.length := by
  have hle := sum_sliceOf_le hp hsupply
  have hlt := lt_sum_sliceOf hp hsupply
  rw [sum_signedClaim hp]
  omega

/-! ## Payment -/

/-- The withdrawal of a holder's whole claim. -/
def withdrawal (p : Pool) (holder : Address) : Operation :=
  .withdrawFees holder (p.signedClaim holder).toNat

/-- A pool whose slices can be told: there are shares, the fees held and owed
cover the credit, and together they are an amount. -/
structure Payable (p : Pool) : Prop where
  sound : p.Sound
  supply_ne : p.shares.supply ≠ 0
  covered : p.fees.totalCredit ≤ p.feeReserve + p.fees.totalDebt
  fits : p.feeReserve + p.fees.totalDebt ≤ Amount.max

/-- What a holder may withdraw: its claim, if that is above zero, as far as the fees
held go. -/
theorem Payable.claimableFees_eq (h : p.Payable) (holder : Address) :
    p.claimableFees holder = .ok (min (p.signedClaim holder).toNat p.feeReserve) := by
  have hslice := slice_eq h.sound h.supply_ne h.covered holder
  rw [if_pos (Or.inr h.fits)] at hslice
  have hcredit : p.creditOf holder ≤ p.fees.totalCredit :=
    h.sound.fees.credit_eq ▸ Amounts.get_le_total _ _
  have howned : p.sliceOf holder + p.creditOf holder ≤ Amount.max := by
    have hle := sliceOf_le h.sound h.supply_ne holder
    have hcovered := h.covered
    have hfits := h.fits
    omega
  have hclaim : p.claim holder
      = .ok (p.sliceOf holder + p.creditOf holder - p.debtOf holder) := by
    unfold Pool.claim FeeBook.claimable
    rw [hslice]
    show (Amount.add _ _ >>= fun owned => pure (owned - _)) = _
    rw [show p.fees.credits.get holder = p.creditOf holder from rfl,
      Amount.add_eq_ok_iff.mpr ⟨rfl, howned⟩]
    rfl
  unfold claimableFees
  rw [hclaim]
  show Except.ok (min _ _) = _
  congr 1
  unfold signedClaim
  omega

/-- The pool after a withdrawal: fees held have become debt of the holder. -/
def drawn (p : Pool) (holder : Address) (amount : ℕ) : Pool :=
  { p with feeReserve := p.feeReserve - amount, fees := p.fees.charged holder amount }

@[simp] theorem feeReserve_drawn (p : Pool) (holder : Address) (amount : ℕ) :
    (p.drawn holder amount).feeReserve = p.feeReserve - amount := rfl

/-- A withdrawal succeeds exactly if the holder may claim as much, and the fees held go
as far. -/
theorem Payable.withdrawFees_iff (h : p.Payable) :
    (withdrawFees holder amount).run p = .ok () q ↔
      amount ≤ (p.signedClaim holder).toNat ∧ amount ≤ p.feeReserve ∧
        q = p.drawn holder amount := by
  simp only [withdrawFees, onFees, run_bind_eq_ok_iff, run_lift_eq_ok_iff, run_onPart_eq_ok_iff,
    require_eq_ok_iff, Amount.sub_eq_ok_iff]
  constructor
  · rintro ⟨_, _, hget, claimable, _, ⟨hclaimable, rfl⟩, _, _, ⟨hle, rfl⟩, _, _,
      ⟨⟨rfl, hreserve⟩, rfl⟩, _, _, ⟨fees, hcharge, rfl⟩, hmodify⟩
    cases hget
    cases hmodify
    obtain ⟨rfl, -⟩ := (FeeBook.charge_ensures _ _ _).of_ok hcharge
    rw [h.claimableFees_eq] at hclaimable
    cases hclaimable
    exact ⟨hle.trans (Nat.min_le_left _ _), hreserve, rfl⟩
  · rintro ⟨hclaim, hreserve, rfl⟩
    have hfits := h.fits
    have hdebt : p.fees.debts.get holder ≤ p.fees.totalDebt :=
      h.sound.fees.debt_eq ▸ Amounts.get_le_total _ _
    exact ⟨p, p, rfl, _, p, ⟨h.claimableFees_eq holder, rfl⟩, (), p,
      ⟨le_min hclaim hreserve, rfl⟩, _, p, ⟨⟨rfl, hreserve⟩, rfl⟩, (), _,
      ⟨_, FeeBook.charge_run (by omega) (by omega), rfl⟩, rfl⟩

/-- What is withdrawn moves from the fees held to those owed, and goes off the claim of
the holder; everybody else's claim stays where it is. -/
theorem signedClaim_drawn (hle : amount ≤ p.feeReserve) (other : Address) :
    (p.drawn holder amount).signedClaim other
      = p.signedClaim other - if other = holder then (amount : ℤ) else 0 := by
  have hnet : p.feeReserve - amount + (p.fees.totalDebt + amount) - p.fees.totalCredit
      = p.feeReserve + p.fees.totalDebt - p.fees.totalCredit := by omega
  have hslice : (p.drawn holder amount).sliceOf other = p.sliceOf other := by
    simp only [sliceOf, drawn, FeeBook.charged, hnet, balanceOf]
  have hdebt : (p.drawn holder amount).debtOf other
      = p.debtOf other + if other = holder then amount else 0 := by
    simp only [debtOf, drawn, FeeBook.charged, Amounts.get_set]
    split
    · rename_i heq
      rw [heq]
    · rfl
  have hcredit : (p.drawn holder amount).creditOf other = p.creditOf other := rfl
  rw [signedClaim, signedClaim, hslice, hdebt, hcredit]
  split <;> omega

theorem Payable.drawn (h : p.Payable) (hclaim : amount ≤ (p.signedClaim holder).toNat)
    (hreserve : amount ≤ p.feeReserve) : (p.drawn holder amount).Payable := by
  have hcovered := h.covered
  have hfits := h.fits
  have hdrawn := h.withdrawFees_iff.mpr ⟨hclaim, hreserve, rfl⟩
  refine ⟨((withdrawFees_confined _ _ p).of_ok hdrawn).sound h.sound, h.supply_ne, ?_, ?_⟩
  · simp only [Pool.drawn, FeeBook.charged]
    omega
  · simp only [Pool.drawn, FeeBook.charged]
    omega

/-- Holders whose claims are not below zero, and together no more than the fees
held, can withdraw them one after the other. -/
theorem Payable.run (h : p.Payable) {order : List Address} (hnodup : order.Nodup)
    (hpositive : ∀ holder ∈ order, 0 ≤ p.signedClaim holder)
    (hle : (order.map p.signedClaim).sum ≤ p.feeReserve) :
    ∃ q, Run p (order.map p.withdrawal) q ∧
      (q.feeReserve : ℤ) = p.feeReserve - (order.map p.signedClaim).sum := by
  -- by induction on the order: the first withdraws, and the claims of the rest stay
  induction order generalizing p with
  | nil => exact ⟨p, run_nil.mpr rfl, by simp⟩
  | cons first rest ih =>
    obtain ⟨hfirst, hrest⟩ := List.forall_mem_cons.mp hpositive
    obtain ⟨hnot, hnodup⟩ := List.nodup_cons.mp hnodup
    rw [List.map_cons, List.sum_cons] at hle
    have hsum : 0 ≤ (rest.map p.signedClaim).sum := by
      refine List.sum_nonneg fun claim hclaim => ?_
      obtain ⟨holder, hholder, rfl⟩ := List.mem_map.mp hclaim
      exact hrest holder hholder
    have hreserve : (p.signedClaim first).toNat ≤ p.feeReserve := by omega
    have hsame : ∀ holder ∈ rest,
        (p.drawn first (p.signedClaim first).toNat).signedClaim holder = p.signedClaim holder := by
      intro holder hholder
      have hother : holder ≠ first := fun heq => hnot (heq ▸ hholder)
      rw [signedClaim_drawn hreserve, if_neg hother, sub_zero]
    have hclaims := List.map_congr_left hsame
    have hops : rest.map (p.drawn first (p.signedClaim first).toNat).withdrawal
        = rest.map p.withdrawal :=
      List.map_congr_left fun holder hholder => by rw [withdrawal, withdrawal, hsame holder hholder]
    obtain ⟨q, hrun, hleft⟩ := ih (h.drawn le_rfl hreserve) hnodup
      (fun holder hholder => (hsame holder hholder).symm ▸ hrest holder hholder)
      (by rw [hclaims, feeReserve_drawn]; omega)
    rw [hclaims, feeReserve_drawn] at hleft
    refine ⟨q, ?_, ?_⟩
    · rw [List.map_cons, run_cons, ← hops]
      exact ⟨_, h.withdrawFees_iff.mpr ⟨le_rfl, hreserve, rfl⟩, hrun⟩
    · rw [List.map_cons, List.sum_cons]
      omega

/-! ## Fees are conserved -/

/-- In every pool that calls have led to from a fresh one, whichever of them
failed: if there are shares and the credit is covered, the signed claims add up
to no more than the fees held, and to less than one unit below them for each
holder of shares. The slice in a claim is what the fee book tells, which it
refuses only if the fees held and owed exceed an amount. If none of the claims
is below zero, and the fees held and owed are an amount, all claims can be paid
in full, in any order, and less than one unit for each holder of shares is
left. -/
theorem fees_conserved (hfresh : create settings = .ok fresh) {calls : List Call}
    (hreached : after fresh calls = p) (hsupply : p.shares.supply ≠ 0)
    (hcovered : p.fees.totalCredit ≤ p.feeReserve + p.fees.totalDebt) :
    (∀ holder, p.fees.slice p.feeReserve (p.balanceOf holder) p.shares.supply =
        if p.balanceOf holder = 0 ∨ p.feeReserve + p.fees.totalDebt ≤ Amount.max
        then .ok (p.sliceOf holder) else reject .overflow) ∧
      ((p.holders.map p.signedClaim).sum ≤ p.feeReserve ∧
        (p.feeReserve : ℤ) < (p.holders.map p.signedClaim).sum + p.shareHolders.length) ∧
      ((∀ holder ∈ p.holders, 0 ≤ p.signedClaim holder) →
        p.feeReserve + p.fees.totalDebt ≤ Amount.max →
          ∀ order : List Address, order.Perm p.holders →
            ∃ q, Run p (order.map p.withdrawal) q ∧ q.feeReserve < p.shareHolders.length) := by
  have hp : p.Sound := hreached ▸ (after_confined fresh calls).sound (sound_create hfresh)
  obtain ⟨hle, hlt⟩ := sum_signedClaim_bounds hp hsupply hcovered
  refine ⟨slice_eq hp hsupply hcovered, ⟨hle, hlt⟩, fun hpositive hfits order horder => ?_⟩
  have hsum : (order.map p.signedClaim).sum = (p.holders.map p.signedClaim).sum :=
    (horder.map p.signedClaim).sum_eq
  have hpayable : p.Payable := ⟨hp, hsupply, hcovered, hfits⟩
  obtain ⟨q, hrun, hleft⟩ := hpayable.run (horder.nodup_iff.mpr p.nodup_holders)
    (fun holder hholder => hpositive holder (horder.mem_iff.mp hholder)) (hsum ▸ hle)
  exact ⟨q, hrun, by omega⟩

/-! ## Seven shares -/

/-- Two holders share ten units of fees; one of them loses a share to a payout,
and the other withdraws two units. -/
def sevenShares : List Call :=
  [.enter poor 3 none 0, .enter rich 4 none 0, .depositFees 10, .payout rich 0 1 0,
    .withdrawFees poor 2]

/-- Of the eight units held then, five and two are claimed. The last one is lost
to rounding, and stays when both have withdrawn. -/
theorem sevenShares_conserved :
    let p := after freshPool sevenShares
    (p.shares.supply ≠ 0 ∧ p.fees.totalCredit ≤ p.feeReserve + p.fees.totalDebt) ∧
      (p.feeReserve = 8 ∧ p.holders.map p.signedClaim = [5, 2] ∧ p.shareHolders.length = 2) ∧
      ((p.holders.map p.signedClaim).sum ≤ p.feeReserve ∧
        (p.feeReserve : ℤ) < (p.holders.map p.signedClaim).sum + p.shareHolders.length) ∧
      ∃ q, Run p ([poor, rich].map p.withdrawal) q ∧ q.feeReserve < 2 := by
  intro p
  have hfresh : create looseSettings = .ok freshPool := rfl
  have hsupply : p.shares.supply ≠ 0 := by decide +kernel
  have hcovered : p.fees.totalCredit ≤ p.feeReserve + p.fees.totalDebt := by decide +kernel
  have hclaims : p.holders.map p.signedClaim = [5, 2] := by decide +kernel
  have hlength : p.shareHolders.length = 2 := by decide +kernel
  have hpositive : ∀ holder ∈ p.holders, 0 ≤ p.signedClaim holder := fun holder hholder => by
    have hmem := hclaims ▸ List.mem_map_of_mem hholder
    rcases List.mem_pair.mp hmem with h | h <;> omega
  have horder : [poor, rich].Perm p.holders := by decide +kernel
  obtain ⟨-, hbounds, hpaid⟩ := fees_conserved hfresh (rfl : after freshPool sevenShares = p)
    hsupply hcovered
  exact ⟨⟨hsupply, hcovered⟩, ⟨by decide +kernel, hclaims, hlength⟩, hbounds,
    hlength ▸ hpaid hpositive (by decide +kernel) _ horder⟩

end PooledCollateral.Pool
