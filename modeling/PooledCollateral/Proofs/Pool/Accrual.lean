/-
PooledCollateral.Proofs.Pool.Accrual — fees that come in, go out and come back while
shares stand still.

A withdrawal and a repayment turn fees held into debt and debt into fees held, so that
only deposits move the virtual reserve (`accrued_of_run`): the claim of a holder depends
on what came in, and on what the holder itself has taken and given back, and not on the
order of anything. Withdrawals alone succeed exactly if nobody takes more than its claim
and all together take no more than the fees held (`Payable.withdrawals_iff`). Neither
depends on their order, and the pool that they leave does not either
(`accrual_path_independent`).
-/
import PooledCollateral.Proofs.Pool.FeeConservation
import PooledCollateral.Proofs.Pool.GrossReserve
import PooledCollateral.Proofs.Pool.Locks

namespace PooledCollateral

/-- Debts charged one after the other may change places. -/
theorem FeeBook.charged_comm (book : FeeBook) (i j : Address) (a b : ℕ) :
    (book.charged i a).charged j b = (book.charged j b).charged i a := by
  simp only [charged, FeeBook.mk.injEq, true_and]
  refine ⟨by omega, Amounts.ext_get fun k => ?_, trivial⟩
  simp only [Amounts.get_set]
  grind

namespace Pool

open PooledCollateral.Action Function

variable {p q r fresh : Pool} {holder : Address} {settings : Settings} {past : List Call}

/-! ## Movements of fees -/

/-- Fees move while shares stand still. -/
inductive FeeMove
  | deposit (amount : ℕ)
  | withdraw (holder : Address) (amount : ℕ)
  | repay (holder : Address) (amount : ℕ)

namespace FeeMove

/-- The operation that makes a movement. -/
def operation : FeeMove → Operation
  | deposit amount => .depositFees amount
  | withdraw holder amount => .withdrawFees holder amount
  | repay holder amount => .payFeeDebt holder amount

/-- The fees that the manager sends. -/
def income : FeeMove → ℕ
  | deposit amount => amount
  | _ => 0

/-- The fees that a holder withdraws. -/
def drawnBy (holder : Address) : FeeMove → ℕ
  | withdraw owner amount => if owner = holder then amount else 0
  | _ => 0

/-- The debt that a holder repays. -/
def repaidBy (holder : Address) : FeeMove → ℕ
  | repay owner amount => if owner = holder then amount else 0
  | _ => 0

end FeeMove

/-- What movements of fees leave: the shares and the credit as they were, a gross reserve
that only deposits have lifted, and a debt that each holder has run up itself. -/
structure Accrued (moves : List FeeMove) (p q : Pool) : Prop where
  shares_eq : q.shares = p.shares
  totalCredit_eq : q.fees.totalCredit = p.fees.totalCredit
  creditOf_eq : ∀ holder, q.creditOf holder = p.creditOf holder
  grossReserve_eq : q.grossReserve = p.grossReserve + (moves.map FeeMove.income).sum
  debtOf_eq : ∀ holder, q.debtOf holder + (moves.map (FeeMove.repaidBy holder)).sum
    = p.debtOf holder + (moves.map (FeeMove.drawnBy holder)).sum

theorem accrued_nil (p : Pool) : Accrued [] p p := ⟨rfl, rfl, fun _ => rfl, rfl, fun _ => rfl⟩

theorem Accrued.append {moves more : List FeeMove} (h : Accrued moves p q)
    (h' : Accrued more q r) : Accrued (moves ++ more) p r where
  shares_eq := h'.shares_eq.trans h.shares_eq
  totalCredit_eq := h'.totalCredit_eq.trans h.totalCredit_eq
  creditOf_eq holder := (h'.creditOf_eq holder).trans (h.creditOf_eq holder)
  grossReserve_eq := by
    rw [h'.grossReserve_eq, h.grossReserve_eq, List.map_append, List.sum_append, Nat.add_assoc]
  debtOf_eq holder := by
    have hfirst := h.debtOf_eq holder
    have hlater := h'.debtOf_eq holder
    simp only [List.map_append, List.sum_append]
    omega

/-- A movement that replaces the debt of one holder, and draws and repays the difference. -/
theorem accrued_of_replaced {move : FeeMove} {debt : ℕ} {totals : Totals}
    (hshares : q.shares = p.shares)
    (hgross : q.grossReserve = p.grossReserve + move.income)
    (hbooks : q.books = { p.books with
      totals, row := update p.holderRow holder { p.holderRow holder with feeDebt := debt } })
    (hcredit : totals.feeCredit = p.fees.totalCredit)
    (hdebt : debt + move.repaidBy holder = p.debtOf holder + move.drawnBy holder)
    (hothers : ∀ other, other ≠ holder → move.repaidBy other = 0 ∧ move.drawnBy other = 0) :
    Accrued [move] p q := by
  have hrows : q.holderRow
      = update p.holderRow holder { p.holderRow holder with feeDebt := debt } :=
    congrArg Books.row hbooks
  refine ⟨hshares, (congrArg (·.totals.feeCredit) hbooks).trans hcredit, fun other => ?_, hgross,
    fun other => ?_⟩
  · show (q.holderRow other).feeCredit = p.creditOf other
    rw [hrows]
    by_cases hother : other = holder
    · subst hother
      rw [update_self]
      rfl
    · rw [update_of_ne hother]
      rfl
  · show (q.holderRow other).feeDebt + _ = _
    simp only [List.map_cons, List.map_nil, List.sum_singleton]
    rw [hrows]
    by_cases hother : other = holder
    · subst hother
      rw [update_self]
      exact hdebt
    · obtain ⟨hrepaid, hdrawn⟩ := hothers other hother
      rw [update_of_ne hother, hrepaid, hdrawn]
      rfl

/-- One movement. -/
theorem accrued_of_operate {move : FeeMove} (h : (operate move.operation).run p = .ok () q) :
    Accrued [move] p q := by
  have hgross := grossReserve_operate h
  cases move with
  | deposit amount =>
    obtain rfl := depositFees_ok h
    exact ⟨rfl, rfl, fun _ => rfl, hgross, fun _ => rfl⟩
  | withdraw owner amount =>
    obtain ⟨_, -, -, -, hbooks⟩ := withdrawFees_ok h
    refine accrued_of_replaced ((withdrawFees_sameShares owner amount p).of_ok h) hgross hbooks rfl
      ?_ fun other hother => ⟨rfl, if_neg hother.symm⟩
    simp only [FeeMove.repaidBy, FeeMove.drawnBy, if_true, Nat.add_zero]
  | repay owner amount =>
    obtain ⟨hle, -, hbooks⟩ := payFeeDebt_ok h
    refine accrued_of_replaced ((payFeeDebt_sameShares owner amount p).of_ok h) hgross hbooks rfl
      ?_ fun other hother => ⟨if_neg hother.symm, rfl⟩
    simp only [FeeMove.repaidBy, FeeMove.drawnBy, if_true, Nat.add_zero]
    omega

theorem accrued_of_run {moves : List FeeMove} (h : Run p (moves.map FeeMove.operation) q) :
    Accrued moves p q := by
  induction moves generalizing p with
  | nil =>
    rw [List.map_nil, run_nil] at h
    exact h ▸ accrued_nil p
  | cons move moves ih =>
    obtain ⟨m, hmove, hrest⟩ := run_cons.mp h
    exact (accrued_of_operate hmove).append (ih hrest)

/-! ## Withdrawals -/

theorem drawn_comm (p : Pool) (i j : Address) (a b : ℕ) :
    (p.drawn i a).drawn j b = (p.drawn j b).drawn i a := by
  simp only [drawn, FeeBook.charged_comm p.fees i j, Nat.sub_right_comm p.feeReserve a]

/-- The withdrawals of some holders, one after the other. -/
def withdrawals (draws : List (Address × ℕ)) : List FeeMove :=
  draws.map fun draw => .withdraw draw.1 draw.2

/-- Withdrawals succeed exactly if no holder takes more than its claim, and all together
take no more than the fees held. -/
theorem Payable.withdrawals_iff (h : p.Payable) {draws : List (Address × ℕ)} :
    Run p ((withdrawals draws).map FeeMove.operation) q ↔
      (∀ holder, ((withdrawals draws).map (FeeMove.drawnBy holder)).sum
        ≤ (p.signedClaim holder).toNat) ∧
      (draws.map Prod.snd).sum ≤ p.feeReserve ∧
      q = draws.foldl (fun pool draw => pool.drawn draw.1 draw.2) p := by
  -- by induction on the draws: the first takes its amount off one claim and off the fees held
  induction draws generalizing p with
  | nil => simp [withdrawals, run_nil]
  | cons draw draws ih =>
    obtain ⟨owner, amount⟩ := draw
    simp only [withdrawals, List.map_cons, run_cons, FeeMove.operation, operate,
      h.withdrawFees_iff, List.sum_cons, FeeMove.drawnBy, List.foldl_cons] at ih ⊢
    constructor
    · rintro ⟨_, ⟨hclaim, hreserve, rfl⟩, hrest⟩
      obtain ⟨hclaims, hsum, hq⟩ := (ih (h.drawn hclaim hreserve)).mp hrest
      rw [feeReserve_drawn] at hsum
      refine ⟨fun holder => ?_, by omega, hq⟩
      have hleft := hclaims holder
      rw [signedClaim_drawn hreserve] at hleft
      by_cases howner : owner = holder
      · subst howner
        rw [if_pos rfl] at hleft ⊢
        omega
      · rw [if_neg (Ne.symm howner)] at hleft
        rw [if_neg howner]
        omega
    · rintro ⟨hclaims, hsum, hq⟩
      have hclaim : amount ≤ (p.signedClaim owner).toNat := by
        have hown := hclaims owner
        rw [if_pos rfl] at hown
        omega
      have hreserve : amount ≤ p.feeReserve := by omega
      refine ⟨_, ⟨hclaim, hreserve, rfl⟩, (ih (h.drawn hclaim hreserve)).mpr
        ⟨fun holder => ?_, by rw [feeReserve_drawn]; omega, hq⟩⟩
      have htaken := hclaims holder
      rw [signedClaim_drawn hreserve]
      by_cases howner : owner = holder
      · subst howner
        rw [if_pos rfl] at htaken ⊢
        omega
      · rw [if_neg howner] at htaken
        rw [if_neg (Ne.symm howner)]
        omega

/-- The order of withdrawals makes no difference, neither to their success nor to the pool
that they leave. -/
theorem Payable.withdrawals_perm (h : p.Payable) {draws reordered : List (Address × ℕ)}
    (hperm : draws.Perm reordered) :
    Run p ((withdrawals draws).map FeeMove.operation) q ↔
      Run p ((withdrawals reordered).map FeeMove.operation) q := by
  have hmoves : (withdrawals draws).Perm (withdrawals reordered) := hperm.map _
  have htaken : ∀ holder, ((withdrawals draws).map (FeeMove.drawnBy holder)).sum
      = ((withdrawals reordered).map (FeeMove.drawnBy holder)).sum :=
    fun holder => (hmoves.map _).sum_eq
  have hleft : draws.foldl (fun pool draw => pool.drawn draw.1 draw.2) p
      = reordered.foldl (fun pool draw => pool.drawn draw.1 draw.2) p :=
    hperm.foldl_eq' (fun i _ j _ pool => pool.drawn_comm i.1 j.1 i.2 j.2) p
  simp only [h.withdrawals_iff, htaken, (hperm.map Prod.snd).sum_eq, hleft]

/-! ## Accrual -/

/-- A virtual reserve that can be told makes the slices of the shares ones that can. -/
theorem Sound.payable {reserve : ℕ} (hp : p.Sound) (hsupply : p.shares.supply ≠ 0)
    (hreserve : p.fees.virtualReserve p.feeReserve = .ok reserve) : p.Payable := by
  obtain ⟨-, hfits, hcredit⟩ := virtualReserve_eq_ok_iff.mp hreserve
  exact ⟨hp, hsupply, hcredit, hfits⟩

/-- The virtual reserve that movements of fees leave is the one that they found, and what
was deposited. -/
theorem Accrued.virtualReserve_eq {moves : List FeeMove} {reserve final : ℕ}
    (h : Accrued moves p q) (hreserve : p.fees.virtualReserve p.feeReserve = .ok reserve)
    (hfinal : q.fees.virtualReserve q.feeReserve = .ok final) :
    final = reserve + (moves.map FeeMove.income).sum := by
  obtain ⟨rfl, -, hcredit⟩ := virtualReserve_eq_ok_iff.mp hreserve
  obtain ⟨rfl, -, -⟩ := virtualReserve_eq_ok_iff.mp hfinal
  have hgross := h.grossReserve_eq
  have htotal := h.totalCredit_eq
  simp only [grossReserve] at hgross
  omega

/-- What a holder can claim at the end, below zero where it owes more. -/
theorem Accrued.signedClaim_eq {moves : List FeeMove} {final : ℕ} (h : Accrued moves p q)
    (hfinal : q.fees.virtualReserve q.feeReserve = .ok final) (holder : Address) :
    q.signedClaim holder
      = (final * p.balanceOf holder / p.shares.supply : ℕ) + p.creditOf holder
        - p.debtOf holder - (moves.map (FeeMove.drawnBy holder)).sum
        + (moves.map (FeeMove.repaidBy holder)).sum := by
  obtain ⟨rfl, -, -⟩ := virtualReserve_eq_ok_iff.mp hfinal
  have hcredit := h.creditOf_eq holder
  have hdebt := h.debtOf_eq holder
  simp only [signedClaim, sliceOf, balanceOf, h.shares_eq]
  omega

/-- In every pool with shares that calls have led to, and whose virtual reserve can be told:
whatever is deposited, withdrawn and repaid from then on, by whomever and in whatever order,
if the virtual reserve can still be told at the end, it has grown by the deposits, and the
slice, credit and debt of every holder are what its shares own of it, its credit, and its
debt with what it has withdrawn and without what it has repaid. Withdrawals alone all
succeed in one order if they do in another, and leave the same pool. -/
theorem accrual_path_independent (hfresh : create settings = .ok fresh)
    (hpast : after fresh past = p) (hsupply : p.shares.supply ≠ 0) {reserve : ℕ}
    (hreserve : p.fees.virtualReserve p.feeReserve = .ok reserve) :
    (∀ (moves : List FeeMove) q final, Run p (moves.map FeeMove.operation) q →
        q.fees.virtualReserve q.feeReserve = .ok final →
          final = reserve + (moves.map FeeMove.income).sum ∧
          ∀ holder, ∃ slice,
            q.fees.slice q.feeReserve (q.balanceOf holder) q.shares.supply = .ok slice ∧
              (slice + q.creditOf holder - q.debtOf holder : ℤ)
                = (final * p.balanceOf holder / p.shares.supply : ℕ) + p.creditOf holder
                  - p.debtOf holder - (moves.map (FeeMove.drawnBy holder)).sum
                  + (moves.map (FeeMove.repaidBy holder)).sum) ∧
      ∀ draws reordered q, draws.Perm reordered →
        (Run p ((withdrawals draws).map FeeMove.operation) q ↔
          Run p ((withdrawals reordered).map FeeMove.operation) q) := by
  have hp := sound_after hfresh hpast
  refine ⟨fun moves q final hrun hfinal => ?_, fun draws reordered q hperm => ?_⟩
  · have haccrued := accrued_of_run hrun
    have hq : q.Payable := (hrun.sound hp).payable (haccrued.shares_eq ▸ hsupply) hfinal
    refine ⟨haccrued.virtualReserve_eq hreserve hfinal, fun holder => ⟨q.sliceOf holder, ?_,
      haccrued.signedClaim_eq hfinal holder⟩⟩
    rw [slice_eq hq.sound hq.supply_ne hq.covered, if_pos (Or.inr hq.fits)]
  · exact (hp.payable hsupply hreserve).withdrawals_perm hperm

/-- Fees come in twice; both holders withdraw, and one of them gives back a unit. -/
def backAndForth : List FeeMove :=
  [.deposit 5, .withdraw rich 3, .repay poor 1, .withdraw poor 4, .deposit 2, .withdraw rich 2]

/-- The virtual reserve grows from nine units to sixteen, of which three shares of six own
eight. The holder that owed two units has withdrawn four and repaid one; the other one, with
a unit of credit, has withdrawn five. Had both withdrawn their claims instead, of two units
and of five, any order would have done. -/
theorem backAndForth_accrued :
    let p := after freshPool sevenShares
    let q := stateAfter (forM (backAndForth.map FeeMove.operation) operate) p
    let r := stateAfter (forM ((withdrawals [(poor, 1), (rich, 5), (poor, 1)]).map
      FeeMove.operation) operate) p
    (p.fees.virtualReserve p.feeReserve = .ok 9 ∧ q.fees.virtualReserve q.feeReserve = .ok 16) ∧
      (∃ slice, q.fees.slice q.feeReserve (q.balanceOf poor) q.shares.supply = .ok slice ∧
        (slice + q.creditOf poor - q.debtOf poor : ℤ) = 8 + 0 - 2 - 4 + 1) ∧
      (∃ slice, q.fees.slice q.feeReserve (q.balanceOf rich) q.shares.supply = .ok slice ∧
        (slice + q.creditOf rich - q.debtOf rich : ℤ) = 8 + 1 - 0 - 5 + 0) ∧
      Run p ((withdrawals [(rich, 5), (poor, 1), (poor, 1)]).map FeeMove.operation) r := by
  intro p q r
  have hfresh : create looseSettings = .ok freshPool := rfl
  have hreserve : p.fees.virtualReserve p.feeReserve = .ok 9 := by decide +kernel
  have hfinal : q.fees.virtualReserve q.feeReserve = .ok 16 := by decide +kernel
  have hrun : Run p (backAndForth.map FeeMove.operation) q := run_stateAfter (by decide +kernel)
  obtain ⟨hclaims, horder⟩ := accrual_path_independent hfresh (rfl : after freshPool sevenShares = p)
    (by decide +kernel) hreserve
  obtain ⟨-, hheld⟩ := hclaims backAndForth q 16 hrun hfinal
  refine ⟨⟨hreserve, hfinal⟩, ?_, ?_, ?_⟩
  · obtain ⟨slice, hslice, heq⟩ := hheld poor
    exact ⟨slice, hslice, heq.trans (by decide +kernel)⟩
  · obtain ⟨slice, hslice, heq⟩ := hheld rich
    exact ⟨slice, hslice, heq.trans (by decide +kernel)⟩
  · exact (horder [(poor, 1), (rich, 5), (poor, 1)] [(rich, 5), (poor, 1), (poor, 1)] r
      (by decide)).mp (run_stateAfter (by decide +kernel))

end Pool

end PooledCollateral
