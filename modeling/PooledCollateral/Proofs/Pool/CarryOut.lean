/-
PooledCollateral.Proofs.Pool.CarryOut — a quoted burn can be carried out.

Whatever the guards of an exit ask, nothing fails once they have passed. What a
quote has looked at is what carrying it out needs: the locks can be counted, the
fees and the collateral are there, and the holder has the shares, the debt and the
credit that go. In a sound pool the totals then have them too
(`carryOut_succeeds`).
-/
import PooledCollateral.Proofs.Pool.Effects
import PooledCollateral.Proofs.LockQueue

namespace PooledCollateral

open PooledCollateral.Action

/-! ## Books -/

/-- A burn needs to know what is locked, and a balance to take from. -/
theorem Account.burn_run {a : Account} {shares now locked : ℕ}
    (hlocked : a.locks.lockedAmount now = .ok locked) (hshares : shares ≤ a.balance) :
    ∃ b, a.burn shares now = .ok b := by
  obtain ⟨released, hreleased⟩ :=
    a.locks.consumeLocked_run now (locked - (a.balance - shares))
  have hbalance : Amount.take a.balance shares = .ok (a.balance - shares) :=
    Amount.take_eq_ok_iff.mpr ⟨rfl, hshares⟩
  simp only [burn, hlocked, hbalance, hreleased, bind, Except.bind]
  split
  · obtain ⟨left, hleft⟩ := released.consumeExpired_run now shares
    exact ⟨⟨a.balance - shares, left⟩, by rw [hleft]; rfl⟩
  · obtain ⟨left, hleft⟩ := a.locks.consumeExpired_run now shares
    exact ⟨⟨a.balance - shares, left⟩, by simp only [pure, Except.pure, hleft]⟩

/-- In a sound book the supply never falls short of a balance. -/
theorem ShareBook.burn_run {book : ShareBook} {holder : Address} {shares now locked : ℕ}
    (hs : book.Sound) (hlocked : book.lockedBalance holder now = .ok locked)
    (hshares : shares ≤ book.balanceOf holder) :
    ∃ b, (burn holder shares now).run book = .ok () b := by
  have hsupply : Amount.take book.supply shares = .ok (book.supply - shares) := by
    rw [balanceOf_eq] at hshares
    exact Amount.take_eq_ok_iff.mpr ⟨rfl, hshares.trans (hs.balance_le holder)⟩
  have hallowed : require (shares ≤ book.balanceOf holder)
      (.insufficientBalance shares (book.balanceOf holder)) = .ok () :=
    require_eq_ok_iff.mpr hshares
  by_cases hnone : shares = 0
  · exact ⟨book, by simp [burn, hnone, require]⟩
  · cases haccount : book.accounts.get? holder with
    | none =>
      simp only [balanceOf, haccount, Option.map_none, Option.getD_none] at hshares
      omega
    | some account =>
      simp only [lockedBalance, haccount, Account.lockedBalance, Checked.bind_eq_ok_iff] at hlocked
      obtain ⟨_, hamount, -⟩ := hlocked
      have hbalance : shares ≤ account.balance := by
        simpa [balanceOf, haccount] using hshares
      obtain ⟨left, hleft⟩ := Account.burn_run hamount hbalance
      exact ⟨_, by simp [burn, hallowed, hnone, haccount, hleft, hsupply]; rfl⟩

/-- The debt and the credit of a holder can be settled as far as they go. -/
theorem FeeBook.settle_run {book : FeeBook} {holder : Address} {s : Settlement}
    (hs : book.Sound) (hdebt : s.debt ≤ book.debts.get holder)
    (hcredit : s.credit ≤ book.credits.get holder) :
    (settle holder s).run book = .ok () (book.settled holder s) := by
  have hdebts : s.debt ≤ book.totalDebt :=
    hs.debt_eq ▸ hdebt.trans (Amounts.get_le_total book.debts holder)
  have hcredits : s.credit ≤ book.totalCredit :=
    hs.credit_eq ▸ hcredit.trans (Amounts.get_le_total book.credits holder)
  have hreduce : (reduce holder s.debt).run book = .ok () (book.reduced holder s.debt) := by
    unfold reduce
    by_cases hnone : s.debt = 0
    · simp [hnone, reduced, require, Amounts.set_get]
    · simp [hnone, reduced, require, hdebt, Amount.sub_eq_ok_iff.mpr ⟨rfl, hdebts⟩,
        Amount.take_eq_ok_iff.mpr ⟨rfl, hdebt⟩]
  simp [settle, settled, reduced, require, hcredit, hreduce,
    Amount.sub_eq_ok_iff.mpr ⟨rfl, hcredits⟩, Amount.take_eq_ok_iff.mpr ⟨rfl, hcredit⟩]

namespace Pool

variable {p : Pool} {holder : Address} {shares now : ℕ}

/-! ## Pools -/

/-- The part of an amount that some shares are of a balance. -/
theorem part_le {balance : ℕ} (hshares : shares ≤ balance) (n : ℕ) : n * shares / balance ≤ n := by
  refine Nat.div_le_of_le_mul ?_
  rw [Nat.mul_comm]
  exact Nat.mul_le_mul_right n hshares

theorem ExitQuote.For.fees_le {quote : ExitQuote} (h : ExitQuote.For p holder shares quote) :
    quote.fees ≤ p.feeReserve := by
  obtain ⟨claimable, hclaimable, hall, hpart⟩ := h.fees_eq
  obtain ⟨claim, -, rfl⟩ := claimableFees_ok hclaimable
  by_cases hshares : shares = p.balanceOf holder
  · rw [hall hshares]
    exact Nat.min_le_right _ _
  · rw [hpart hshares]
    exact (part_le h.shares_le _).trans (Nat.min_le_right _ _)

/-- What leaves of the debt and of the credit is no more than the holder's. -/
theorem ExitQuote.For.settled_le {quote : ExitQuote} (h : ExitQuote.For p holder shares quote) :
    quote.debtForgiven ≤ p.debtOf holder ∧ quote.creditUsed ≤ p.creditOf holder := by
  by_cases hshares : shares = p.balanceOf holder
  · obtain ⟨hdebt, hcredit⟩ := h.settled_all hshares
    exact ⟨hdebt.le, hcredit.le⟩
  · obtain ⟨hdebt, hcredit⟩ := h.settled_part hshares
    rw [hdebt, hcredit]
    exact ⟨part_le h.shares_le _, part_le h.shares_le _⟩

/-- A burn that a sound pool has quoted can be carried out. -/
theorem carryOut_succeeds {quote : ExitQuote} (hp : p.Sound)
    (h : p.quoteExit holder shares now = .ok quote) :
    ∃ q, (carryOut holder quote now).run p = .ok () q := by
  have hfor := quoteExit_ok h
  obtain ⟨hdebt, hcredit⟩ := hfor.settled_le
  obtain ⟨locked, hlocked⟩ : ∃ locked, p.shares.lockedBalance holder now = .ok locked := by
    simp only [quoteExit, Checked.bind_eq_ok_iff] at h
    obtain ⟨_, -, locked, hlocked, -⟩ := h
    exact ⟨locked, hlocked⟩
  have hfees : Amount.sub p.feeReserve quote.fees = .ok (p.feeReserve - quote.fees) :=
    Amount.sub_eq_ok_iff.mpr ⟨rfl, hfor.fees_le⟩
  have hcollateral : Amount.sub p.collateral quote.collateral
      = .ok (p.collateral - quote.collateral) := Amount.sub_eq_ok_iff.mpr ⟨rfl, hfor.collateral_le⟩
  obtain ⟨b, hburn⟩ := ShareBook.burn_run hp.shares hlocked (hfor.shares_eq ▸ hfor.shares_le)
  have hsettle := FeeBook.settle_run (s := ⟨quote.debtForgiven, quote.creditUsed⟩) hp.fees hdebt
    hcredit
  simp only [carryOut, onShares, onFees, run_bind_eq_ok_iff, run_lift_eq_ok_iff,
    run_onPart_eq_ok_iff]
  exact ⟨_, p, p, rfl, _, p, ⟨hfees, rfl⟩, _, p, ⟨hcollateral, rfl⟩, (), _, ⟨b, hburn, rfl⟩,
    (), _, ⟨_, hsettle, rfl⟩, rfl⟩

end Pool

end PooledCollateral
