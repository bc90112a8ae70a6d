/-
PooledCollateral.Proofs.LockRelease — a burn lets go of no more locks than it must,
and of the oldest.

What an account holds at the times to come is a schedule that only falls. A burn in
spite of locks cuts the schedule off at the balance that it leaves
(`Account.burn_held`). In terms of the book: at every time to come as much of what
was locked stays locked as the holder has shares for, and no other account is touched
(`burn_releases_least`).
-/
import PooledCollateral.Proofs.HollowAccounts
import PooledCollateral.Proofs.RunningLocks

namespace PooledCollateral.ShareBook

open PooledCollateral.Action

variable {book b : ShareBook} {holder : Address} {now shares : ℕ}

/-- A burn of shares that succeeds replaces the account of the holder by what the
burn leaves of it. -/
theorem burn_ok (hshares : shares ≠ 0) (hrun : (burn holder shares now).run book = .ok () b) :
    ∃ a, (book.accountOf holder).burn shares now = .ok a ∧
      b.accounts = settle book.accounts holder a := by
  have hensures : (burn holder shares now).Ensures book
      (fun _ b => ∃ a, (book.accountOf holder).burn shares now = .ok a ∧
        b.accounts = settle book.accounts holder a) (fun _ _ => True) := by
    unfold burn
    simp only [ensures_bind, ensures_get, ensures_set, ensures_lift, ensures_pure, ensures_ite,
      ensures_modify, hshares, false_imp_iff, not_false_eq_true, true_imp_iff]
    refine ⟨fun _ _ => ⟨trivial, fun a ha => ⟨fun _ _ => ⟨a, ha, rfl⟩, ?_⟩, ?_⟩, ?_⟩ <;> simp
  exact hensures.of_ok hrun

/-- A burn releases locks only as far as it must, oldest first: at any time from the
burn on, as much of what was locked stays locked as the balance that is left covers,
and nobody else's account changes. -/
theorem burn_releases_least (horder : LockQueue.InOrder (book.locksOf holder).locks)
    (hsum : ((book.locksOf holder).locks.map (·.amount)).sum ≤ Amount.max) (hshares : 0 < shares)
    (hrun : (burn holder shares now).run book = .ok () b) :
    b.balanceOf holder + shares = book.balanceOf holder ∧
      (∀ t, now ≤ t → ∃ locked, (book.locksOf holder).lockedAmount t = .ok locked ∧
        (b.locksOf holder).lockedAmount t = .ok (min locked (b.balanceOf holder)) ∧
        b.lockedBalance holder t = .ok (min locked (b.balanceOf holder))) ∧
      ∀ other, other ≠ holder → b.accounts.get? other = book.accounts.get? other := by
  obtain ⟨a, hburn, haccounts⟩ := burn_ok hshares.ne' hrun
  have haccount : b.accountOf holder = a := by
    have hsettled := congrFun (accountOf_settle book book.supply holder a) holder
    rw [Function.update_self] at hsettled
    unfold accountOf at hsettled ⊢
    rwa [haccounts]
  rw [locksOf_eq] at horder hsum
  obtain ⟨hbalance, hle⟩ := Account.balance_burn hburn
  obtain ⟨hburned, hheld⟩ := Account.burn_held horder hburn
  simp only [locksOf_eq, balanceOf_eq, lockedBalance_eq, haccount]
  refine ⟨by omega, fun t ht => ?_, fun other hother => ?_⟩
  · have hbefore : (book.accountOf holder).held t ≤ Amount.max :=
      (LockQueue.held_le_sum _ t).trans hsum
    have hcut : a.held t = min ((book.accountOf holder).held t) a.balance := hheld t ht
    have hafter : a.locks.lockedAmount t
        = .ok (min ((book.accountOf holder).held t) a.balance) :=
      (LockQueue.lockedAmount_eq_ok_iff hburned).mpr
        ⟨hcut.symm, hcut.trans_le ((Nat.min_le_left _ _).trans hbefore)⟩
    refine ⟨_, (LockQueue.lockedAmount_eq_ok_iff horder).mpr ⟨rfl, hbefore⟩, hafter, ?_⟩
    refine Checked.bind_eq_ok_iff.mpr ⟨_, hafter, ?_⟩
    rw [min_assoc, min_self]
    rfl
  · rw [haccounts]
    exact get?_settle_of_ne book.accounts a hother

/-- A holder of shares under two locks. -/
def saver : Address := ⟨22, by decide⟩

/-- A book in which the saver has been minted shares under two locks. -/
def lockedTwice : ShareBook :=
  { supply := 150, accounts := Table.empty.insert saver ⟨150, ⟨[⟨100, 100⟩, ⟨50, 1000⟩]⟩⟩ }

/-- Of two running locks a burn takes from the first: the second still holds all its
shares when the first has ended. -/
theorem first_lock_released :
    (burn saver 70 50).outcome lockedTwice = .ok () ∧
      (lockedTwice.locksOf saver).lockedAmount 100 = .ok 50 ∧
      (((burn saver 70 50).stateAfter lockedTwice).locksOf saver).lockedAmount 100 = .ok 50 := by
  have houtcome : (burn saver 70 50).outcome lockedTwice = .ok () := by decide +kernel
  have horder : LockQueue.InOrder (lockedTwice.locksOf saver).locks := by decide
  obtain ⟨hbalance, hreleased, -⟩ :=
    burn_releases_least horder (by decide) (by decide) (run_of_outcome houtcome)
  obtain ⟨locked, hbefore, hafter, -⟩ := hreleased 100 (by decide)
  have hfifty : (lockedTwice.locksOf saver).lockedAmount 100 = .ok 50 := rfl
  obtain rfl : locked = 50 := Except.ok.inj (hbefore.symm.trans hfifty)
  have hleft : ((burn saver 70 50).stateAfter lockedTwice).balanceOf saver = 80 :=
    Nat.add_right_cancel (hbalance.trans (rfl : lockedTwice.balanceOf saver = 80 + 70))
  rw [hleft] at hafter
  exact ⟨houtcome, hfifty, hafter⟩

end PooledCollateral.ShareBook
