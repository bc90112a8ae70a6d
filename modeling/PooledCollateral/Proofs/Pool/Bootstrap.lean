/-
PooledCollateral.Proofs.Pool.Bootstrap — what an entry into a pool without shares can
claim.

The holders that have left may have left debt behind, or credit. Who enters then owns the
whole virtual reserve. The net debt that it is charged takes as much off its claim as it
adds to the virtual reserve (`claim_of_sole`), so that it can claim the fees that nobody
owns and the net debt besides (`bootstrap_claim`): only credit is kept from it. The
excess shows in an audit at once, and in what others are left with as soon as fees come in
(`deserted_overclaimed`).
-/
import PooledCollateral.Pool.Audit
import PooledCollateral.Proofs.Pool.Claims
import PooledCollateral.Proofs.Pool.Postings

namespace PooledCollateral.Pool

open PooledCollateral.Action

variable {p q fresh : Pool} {settings : Settings} {past : List Call} {entrant : Address}
  {collateral now : ℕ} {price : Option Price} {receipt : EntryReceipt}

/-! ## A holder of all shares -/

/-- Who has all shares owns the virtual reserve, in which its own debt is contained. -/
theorem claim_of_sole {holder : Address} {claim : ℕ} (hsole : p.balanceOf holder = p.shares.supply)
    (hsupply : p.shares.supply ≠ 0) (h : p.claim holder = .ok claim) :
    p.fees.totalCredit ≤ p.grossReserve ∧
      claim = p.grossReserve - p.fees.totalCredit + p.creditOf holder - p.debtOf holder := by
  obtain ⟨slice, hslice, rfl⟩ := claim_ok h
  rw [hsole] at hslice
  obtain ⟨hnone, -⟩ | ⟨-, -, hcredit, rfl⟩ := slice_ok hslice
  · exact absurd (or_self_iff.mp hnone) hsupply
  · rw [Nat.mul_div_cancel _ (Nat.pos_of_ne_zero hsupply)]
    exact ⟨hcredit, rfl⟩

/-! ## Entry without shares -/

/-- The debt left behind that no credit covers. -/
def staleDebt (p : Pool) : ℕ := p.fees.totalDebt - p.fees.totalCredit

/-- What an entry into a pool without shares leaves: a holder of all shares, charged with
the net debt left behind. -/
structure Bootstrapped (entrant : Address) (p q : Pool) : Prop where
  sole : q.balanceOf entrant = q.shares.supply
  supply_ne : q.shares.supply ≠ 0
  feeReserve_eq : q.feeReserve = p.feeReserve
  grossReserve_eq : q.grossReserve = p.grossReserve + p.staleDebt
  totalCredit_eq : q.fees.totalCredit = p.fees.totalCredit
  debtOf_eq : q.debtOf entrant = p.debtOf entrant + p.staleDebt
  creditOf_eq : q.creditOf entrant = p.creditOf entrant

theorem enter_bootstrapped (hp : p.Sound) (hsupply : p.shares.supply = 0)
    (h : (enter entrant collateral price now).run p = .ok receipt q) :
    receipt.feeDebt = p.staleDebt ∧ Bootstrapped entrant p q := by
  obtain ⟨hpositive, hfirst, -⟩ := enter_priced h
  have hcharged : receipt.feeDebt = p.staleDebt := (hfirst hsupply).2
  have hbooks := enter_booked h
  have hrow := congrFun (congrArg Books.row hbooks) entrant
  simp only [Function.update_self] at hrow
  have hbalance : q.balanceOf entrant = p.balanceOf entrant + receipt.shares :=
    congrArg HolderRow.balance hrow
  have hdebt : q.debtOf entrant = p.debtOf entrant + receipt.feeDebt :=
    congrArg HolderRow.feeDebt hrow
  have hshares : q.shares.supply = p.shares.supply + receipt.shares :=
    congrArg (·.totals.supply) hbooks
  have hnone : p.balanceOf entrant ≤ p.shares.supply := hp.balanced.balance_le entrant
  have hsome := hpositive hp.settings
  refine ⟨hcharged, ⟨by omega, by omega, congrArg (·.totals.feeReserve) hbooks, ?_,
    congrArg (·.totals.feeCredit) hbooks, hcharged ▸ hdebt, congrArg HolderRow.feeCredit hrow⟩⟩
  rw [grossReserve_of_books hbooks, hcharged]
  exact (Nat.add_assoc _ _ _).symm

/-- The fees that nobody owns, with the net debt left behind, are what fees held and debt
are more than the credit. -/
theorem unowned_add_staleDebt (hcredit : p.fees.totalCredit ≤ p.grossReserve) :
    p.fees.unowned p.feeReserve + p.staleDebt = p.grossReserve - p.fees.totalCredit := by
  unfold FeeBook.unowned staleDebt
  unfold grossReserve at hcredit ⊢
  omega

/-- The debt that an entry takes over covers no credit that was not covered. -/
theorem Bootstrapped.totalCredit_le_iff (h : Bootstrapped entrant p q) :
    q.fees.totalCredit ≤ q.grossReserve ↔ p.fees.totalCredit ≤ p.grossReserve := by
  rw [h.totalCredit_eq, h.grossReserve_eq]
  unfold staleDebt grossReserve
  omega

theorem Bootstrapped.claim_eq {claim : ℕ} (h : Bootstrapped entrant p q)
    (hdebt : p.debtOf entrant = 0) (hcredit : p.creditOf entrant = 0)
    (hclaim : q.claim entrant = .ok claim) :
    claim = p.fees.unowned p.feeReserve + p.staleDebt := by
  obtain ⟨hcovered, rfl⟩ := claim_of_sole h.sole h.supply_ne hclaim
  rw [h.totalCredit_le_iff] at hcovered
  rw [unowned_add_staleDebt hcovered, h.grossReserve_eq, h.totalCredit_eq, h.creditOf_eq,
    h.debtOf_eq, hdebt, hcredit]
  omega

theorem Bootstrapped.claim_iff (h : Bootstrapped entrant p q) (hq : q.Sound) :
    (∃ claim, q.claim entrant = .ok claim) ↔
      p.fees.totalCredit ≤ p.grossReserve ∧ p.grossReserve + p.staleDebt ≤ Amount.max := by
  rw [← h.totalCredit_le_iff, ← h.grossReserve_eq]
  constructor
  · intro hsome
    obtain ⟨_, hclaim⟩ := hsome
    obtain ⟨_, hslice, -⟩ := claim_ok hclaim
    obtain ⟨_, hreserve⟩ := virtualReserve_of_slice h.supply_ne (h.sole ▸ h.supply_ne) hslice
    obtain ⟨-, hfits, hcredit⟩ := virtualReserve_eq_ok_iff.mp hreserve
    exact ⟨hcredit, hfits⟩
  · intro hreserve
    exact ⟨_, claim_of_fits hq hreserve.2 hreserve.1 entrant⟩

/-- In every pool without shares that calls have led to, an entrant with no debt and no
credit of its own is charged the net debt left behind. Its claim, whenever it can be told,
is the fees that nobody owns and that net debt; so it is no more than the former exactly if
the credit covers the debt. What it may withdraw, capped by the fees held, is the former.
The claim can be told if fees held and debt cover the credit, and with the debt charged are
an amount. -/
theorem bootstrap_claim (hfresh : create settings = .ok fresh) (hpast : after fresh past = p)
    (hsupply : p.shares.supply = 0) (hdebt : p.debtOf entrant = 0)
    (hcredit : p.creditOf entrant = 0)
    (h : (enter entrant collateral price now).run p = .ok receipt q) :
    receipt.feeDebt = p.staleDebt ∧
      (∀ claim, q.claim entrant = .ok claim →
        claim = p.fees.unowned p.feeReserve + p.staleDebt ∧
          (claim = p.fees.unowned p.feeReserve ↔ p.fees.totalDebt ≤ p.fees.totalCredit)) ∧
      (∀ fees, q.claimableFees entrant = .ok fees → fees = p.fees.unowned p.feeReserve) ∧
      ((∃ claim, q.claim entrant = .ok claim) ↔
        p.fees.totalCredit ≤ p.grossReserve ∧ p.grossReserve + p.staleDebt ≤ Amount.max) := by
  have hp := sound_after hfresh hpast
  have hq : q.Sound := ((enter_confined _ _ _ _ p).of_ok h).sound hp
  obtain ⟨hcharged, hboot⟩ := enter_bootstrapped hp hsupply h
  refine ⟨hcharged, fun claim hclaim => ?_, fun fees hfees => ?_, hboot.claim_iff hq⟩
  · have hwhole := hboot.claim_eq hdebt hcredit hclaim
    refine ⟨hwhole, ?_⟩
    unfold staleDebt at hwhole
    omega
  · obtain ⟨claim, hclaim, rfl⟩ := claimableFees_ok hfees
    rw [hboot.claim_eq hdebt hcredit hclaim, hboot.feeReserve_eq]
    -- the two differ from the fees held by net credit and by net debt, and one of these is none
    unfold FeeBook.unowned staleDebt
    omega

/-! ## Debt left behind -/

/-- One holder is charged a whole unit for each of five slices that are worth less, loses
the shares to a payout, and keeps the debt. The other leaves with all that the pool has. -/
def deserted : List Call :=
  [.enter rich 100 none 0, .depositFees 1, .enter poor 1 none 0, .enter poor 1 none 0,
    .enter poor 1 none 0, .enter poor 1 none 0, .enter poor 1 none 0, .payout poor 0 5 1,
    .exit rich 100 ⟨0, ⟨1, 1⟩⟩ 1]

/-- Nobody owns any fees, and who enters can claim five units. -/
theorem deserted_claim :
    let p := after freshPool deserted
    let q := (enter newcomer 10 none 1).stateAfter p
    (p.shares.supply = 0 ∧ p.staleDebt = 5 ∧ p.fees.unowned p.feeReserve = 0) ∧
      (∀ claim, q.claim newcomer = .ok claim → claim = p.fees.unowned p.feeReserve + p.staleDebt) ∧
      (∃ claim, q.claim newcomer = .ok claim) ∧
      ∀ fees, q.claimableFees newcomer = .ok fees → fees = p.fees.unowned p.feeReserve := by
  intro p q
  have hfresh : create looseSettings = .ok freshPool := rfl
  have haccepted : (enter newcomer 10 none 1).failure? p = none := by decide +kernel
  obtain ⟨_, hentered⟩ := run_of_success haccepted
  obtain ⟨-, hclaim, hfees, htold⟩ := bootstrap_claim hfresh rfl (by decide +kernel)
    (by decide +kernel) (by decide +kernel) hentered
  exact ⟨by decide +kernel, fun claim h => (hclaim claim h).1, htold.mpr (by decide +kernel), hfees⟩

/-- The claim exceeds the fees that nobody owns, and the fees held; the audit objects. Once
somebody with as many shares has entered and six units have come in, of which each of the two
owns half, the first may withdraw all six. -/
theorem deserted_overclaimed :
    let p := after freshPool deserted
    let q := (enter newcomer 10 none 1).stateAfter p
    let r := after q [.enter rich 10 none 1, .depositFees 6]
    (¬ ∀ settings fresh past entrant collateral price now receipt q claim,
      create settings = .ok fresh → (after fresh past).shares.supply = 0 →
        (after fresh past).debtOf entrant = 0 → (after fresh past).creditOf entrant = 0 →
          (enter entrant collateral price now).run (after fresh past) = .ok receipt q →
            q.claim entrant = .ok claim →
              claim = (after fresh past).fees.unowned (after fresh past).feeReserve) ∧
    (q.claim newcomer = .ok 5 ∧ q.feeReserve = 0 ∧
      q.verify = .error (.rejected (.storage (.claimsExceedReserve 5 0 2)))) ∧
    (r.balanceOf rich = r.balanceOf newcomer ∧ r.feeReserve = 6 ∧
      r.claimableFees rich = .ok 3 ∧ r.claimableFees newcomer = .ok 6) := by
  intro p q r
  have hclaim : q.claim newcomer = .ok 5 := by decide +kernel
  refine ⟨fun hunowned => ?_, ⟨hclaim, by decide +kernel, by decide +kernel⟩, by decide +kernel⟩
  have haccepted : (enter newcomer 10 none 1).failure? p = none := by decide +kernel
  obtain ⟨_, hentered⟩ := run_of_success haccepted
  have hclaimed := hunowned looseSettings freshPool deserted newcomer 10 none 1 _ q 5 rfl
    (by decide +kernel) (by decide +kernel) (by decide +kernel) hentered hclaim
  revert hclaimed
  decide +kernel

end PooledCollateral.Pool
