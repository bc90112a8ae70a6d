/-
PooledCollateral.Proofs.Pool.RoundTrip — somebody new enters a pool, and leaves again
with everything.

The entry rounds its shares down and its debt up, and the exit rounds the collateral down.
What comes back falls short of what was put in by less than a unit and the price of a
share (`round_trip_bounds`). Debt, credit and lock come off as they went on: the debt is
no less than what the shares own, so that there is no claim to go along, and it is forgiven
as a whole (`newcomer_round_trip`). A `Departure` is an exit of either kind.
-/
import PooledCollateral.Proofs.LockQueue
import PooledCollateral.Proofs.Pool.Claims
import PooledCollateral.Proofs.Pool.Locks
import PooledCollateral.Proofs.Pool.Postings
import PooledCollateral.Proofs.Snapshot

namespace PooledCollateral

/-- Shares bought with an amount and sold again, both times rounded down: `S` shares for
`T` units before, and the bought ones among them after. -/
theorem round_trip_bounds {c s S T back : ℕ} (hS : S ≠ 0) (hT : T ≠ 0) (hs : s = c * S / T)
    (hback : back = s * (T + c) / (S + s)) :
    back ≤ c ∧ (c : ℚ) - T / (S + s) - 1 < back := by
  have hbought : s * T ≤ c * S := hs ▸ Nat.div_mul_le_self _ _
  have hnext : c * S < (s + 1) * T := by
    rw [hs, Nat.mul_comm _ T]
    exact Nat.lt_mul_div_succ _ (Nat.pos_of_ne_zero hT)
  have hsold : s * (T + c) < (back + 1) * (S + s) := by
    rw [hback, Nat.mul_comm _ (S + s)]
    exact Nat.lt_mul_div_succ _ (by omega)
  constructor
  · rw [hback]
    refine Nat.div_le_of_le_mul ?_
    calc s * (T + c) = s * T + s * c := Nat.mul_add _ _ _
      _ ≤ c * S + s * c := Nat.add_le_add_right hbought _
      _ = (S + s) * c := by ring
  · have hpos : (0 : ℚ) < S + s := by
      have hsum : 0 < S + s := by omega
      exact_mod_cast hsum
    have hcross : c * (S + s) < (back + 1) * (S + s) + T := by
      calc c * (S + s) = c * S + c * s := Nat.mul_add _ _ _
        _ < (s + 1) * T + c * s := Nat.add_lt_add_right hnext _
        _ = s * (T + c) + T := by ring
        _ < (back + 1) * (S + s) + T := Nat.add_lt_add_right hsold _
    have hcast : (c : ℚ) * (S + s) < (back + (1 + T / (S + s))) * (S + s) := by
      have hright : (back + (1 + T / (S + s)) : ℚ) * (S + s) = (back + 1) * (S + s) + T := by
        field_simp
        ring
      rw [hright]
      exact_mod_cast hcross
    have hshort := lt_of_mul_lt_mul_right hcast hpos.le
    linarith

theorem Amount.take_self (n : ℕ) : Amount.take n n = .ok 0 :=
  take_eq_ok_iff.mpr ⟨(Nat.sub_self n).symm, Nat.le_refl n⟩

namespace LockQueue

variable {amount unlockTime now : ℕ}

theorem lockedAmount_ended (h : unlockTime ≤ now) :
    lockedAmount ⟨[⟨amount, unlockTime⟩]⟩ now = .ok 0 := by
  unfold lockedAmount
  rw [running_of_expired (by simpa [Lock.isExpired] using h)]
  rfl

theorem consumeExpired_ended (h : unlockTime ≤ now) :
    consumeExpired ⟨[⟨amount, unlockTime⟩]⟩ now amount = .ok empty := by
  simp only [consumeExpired, dropExpiredWithin, Lock.isExpired, h, decide_true, Nat.le_refl,
    and_self, if_true, Amount.take_self]
  rfl

end LockQueue

/-- A burn of all shares takes along their lock, if it is the only one and has ended. -/
theorem ShareBook.burned_all {shares unlockTime now : ℕ} (hshares : shares ≠ 0)
    (hended : unlockTime ≤ now) :
    burned ⟨shares, ⟨[⟨shares, unlockTime⟩]⟩⟩ shares now = .ok Account.empty := by
  rw [burned, if_neg hshares]
  simp only [Account.burn, LockQueue.lockedAmount_ended hended, Amount.take_self,
    LockQueue.consumeExpired_ended hended, bind, Except.bind, pure, Except.pure, Nat.lt_irrefl,
    if_false, Account.empty]

namespace Pool

open PooledCollateral.Action Function

variable {p q m fresh : Pool} {settings : Settings} {past : List Call} {entrant : Address}
  {collateral now : ℕ} {price : Option Price} {entry : EntryReceipt}

/-! ## Departures -/

/-- A holder leaves with some of its shares, by a plain or by a self-close exit. -/
structure Departure where
  holder : Address
  shares : ℕ
  backing : Backing
  now : ℕ
  selfClosing : Bool

/-- Carries out a departure. -/
def depart (d : Departure) : Action Pool ExitReceipt :=
  if d.selfClosing then do
    let (_, receipt) ← selfClose d.holder d.shares d.backing d.now
    return receipt
  else exit d.holder d.shares d.backing d.now

theorem selfClose_receipt {holder : Address} {shares : ℕ} {backing : Backing}
    {plan : SelfClosePlan} {receipt : ExitReceipt}
    (h : (selfClose holder shares backing now).run p = .ok (plan, receipt) q) :
    receipt = ⟨plan.quote.shares, plan.quote.collateral, plan.funding.toRecipient,
      plan.quote.debtForgiven⟩ := by
  simp only [selfClose, run_bind_eq_ok_iff, run_lift_eq_ok_iff] at h
  obtain ⟨_, _, -, _, _, -, _, _, happly, hreturn⟩ := h
  cases hreturn
  exact (applySelfClose_ok happly).2

/-- A departure carries out the burn that it has quoted. The receipt names the collateral
that leaves, and of the fees those that do not pay for a burn of backing asset. -/
theorem depart_ok {d : Departure} {receipt : ExitReceipt}
    (h : (depart d).run p = .ok receipt q) :
    ∃ quote, p.quoteExit d.holder d.shares d.now = .ok quote ∧
      (carryOut d.holder quote d.now).run p = .ok () q ∧
      receipt.collateral = quote.collateral ∧ receipt.fees ≤ quote.fees := by
  unfold depart at h
  split at h
  · obtain ⟨⟨plan, _⟩, _, hclose, hreturn⟩ := run_bind_eq_ok_iff.mp h
    cases hreturn
    obtain ⟨hplan, hcarry⟩ := selfClose_ok hclose
    obtain ⟨hquote, -, hfunding⟩ := planSelfClose_ok hplan
    refine ⟨plan.quote, hquote, hcarry, ?_⟩
    rw [selfClose_receipt hclose, hfunding]
    exact ⟨rfl, Nat.sub_le _ _⟩
  · obtain ⟨quote, hplan, hcarry, rfl⟩ := exit_ok h
    exact ⟨quote, planExit_ok hplan, hcarry, rfl, Nat.le_refl _⟩

/-! ## Somebody new -/

/-- The receipt of an entry names the time at which its lock ends. -/
theorem enter_unlockTime (h : (enter entrant collateral price now).run p = .ok entry m) :
    entry.unlockTime = (p.shares.locksOf entrant).unlockTimeFor (p.unlockTime now) := by
  simp only [enter, onShares, run_bind_eq_ok_iff, run_lift_eq_ok_iff, run_onPart_eq_ok_iff] at h
  obtain ⟨_, _, hget, _, _, ⟨-, rfl⟩, _, _, ⟨_, hmint, rfl⟩, _, _, -, _, _, -, hreturn⟩ := h
  cases hget
  cases hreturn
  rw [ShareBook.locksOf_eq]
  exact ((ShareBook.mint_ensures _ _ _ _).of_ok hmint).1

theorem nothing_of_isEmpty {holder : Address} (h : (p.holderRow holder).isEmpty = true) :
    p.balanceOf holder = 0 ∧ p.debtOf holder = 0 ∧ p.creditOf holder = 0 ∧
      p.shares.locksOf holder = LockQueue.empty := by
  have hrow := HolderRow.isEmpty_iff.mp h
  exact ⟨congrArg HolderRow.balance hrow, congrArg HolderRow.feeDebt hrow,
    congrArg HolderRow.feeCredit hrow, congrArg LockQueue.mk (congrArg HolderRow.locks hrow)⟩

/-- The books with an entry of somebody who had nothing before. -/
def joined (p : Pool) (entrant : Address) (collateral : ℕ) (entry : EntryReceipt) : Books where
  totals := { p.totals with
    collateral := p.collateral + collateral
    feeDebt := p.fees.totalDebt + entry.feeDebt
    supply := p.shares.supply + entry.shares }
  settings := p.settings
  row := update p.holderRow entrant
    { address := entrant, balance := entry.shares, feeDebt := entry.feeDebt, feeCredit := 0
      locks := [⟨entry.shares, entry.unlockTime⟩] }

theorem newcomer_joined (hp : p.Sound) (hsupply : p.shares.supply ≠ 0)
    (hnew : (p.holderRow entrant).isEmpty = true)
    (h : (enter entrant collateral price now).run p = .ok entry m) :
    entry.shares ≠ 0 ∧ entry.shares = collateral * p.shares.supply / p.collateral ∧
      m.books = p.joined entrant collateral entry := by
  obtain ⟨hbalance, hdebt, hcredit, hlocks⟩ := nothing_of_isEmpty hnew
  have hunlock := enter_unlockTime h
  obtain ⟨hpositive, -, hlater⟩ := enter_priced h
  have hbooks := enter_booked h
  rw [hlocks] at hunlock
  rw [hbalance, hdebt, hcredit, hlocks, Nat.zero_add, Nat.zero_add] at hbooks
  refine ⟨hpositive hp.settings, hlater hsupply, ?_⟩
  rw [hbooks, joined, hunlock]
  rfl

theorem joined_own (h : m.books = p.joined entrant collateral entry) :
    m.balanceOf entrant = entry.shares ∧ m.debtOf entrant = entry.feeDebt ∧
      m.creditOf entrant = 0 ∧
      m.shares.accountOf entrant = ⟨entry.shares, ⟨[⟨entry.shares, entry.unlockTime⟩]⟩⟩ := by
  have hrow := congrFun (congrArg Books.row h) entrant
  simp only [joined, update_self] at hrow
  have hlocks := congrArg HolderRow.locks hrow
  have hbalance := congrArg HolderRow.balance hrow
  refine ⟨hbalance, congrArg HolderRow.feeDebt hrow, congrArg HolderRow.feeCredit hrow, ?_⟩
  simp only [books, holderRow_eq] at hlocks hbalance
  rw [← hlocks, ← hbalance]

/-- A burn of the shares of the entry, with its debt and without fees, takes the entry out of
the books again, but for the collateral. -/
theorem joined_undone (hnew : (p.holderRow entrant).isEmpty = true)
    (hjoined : m.books = p.joined entrant collateral entry) {quote : ExitQuote} {later : ℕ}
    (hshares : quote.shares = entry.shares) (hpositive : entry.shares ≠ 0)
    (hfees : quote.fees = 0) (hdebt : quote.debtForgiven = entry.feeDebt)
    (hcredit : quote.creditUsed = 0) (hfree : entry.unlockTime ≤ later)
    (h : (carryOut entrant quote later).run m = .ok () q) :
    q.books = { p.books with
      totals := { p.totals with collateral := p.collateral + collateral - quote.collateral } } := by
  obtain ⟨hbalance, howed, howned, haccount⟩ := joined_own hjoined
  simp only [books, totals, joined, Books.mk.injEq, Totals.mk.injEq] at hjoined
  obtain ⟨⟨hcollateral, hreserve, hdebts, hcredits, hsupply⟩, hsettings, hrows⟩ := hjoined
  have hblank : p.holderRow entrant = HolderRow.blank entrant := HolderRow.isEmpty_iff.mp hnew
  obtain ⟨-, -, a, ha, hbooks⟩ := carryOut_ok h
  rw [haccount, hshares, ShareBook.burned_all hpositive hfree] at ha
  cases ha
  rw [hcollateral, hreserve, hdebts, hcredits, hsupply, hsettings, hrows, hbalance, howed, howned,
    hshares, hfees, hdebt, hcredit] at hbooks
  simp only [update_idem, Nat.add_sub_cancel, Nat.sub_self, Nat.sub_zero] at hbooks
  rw [hbooks]
  have hrestored : update p.holderRow entrant (HolderRow.blank entrant) = p.holderRow :=
    hblank ▸ update_eq_self _ _
  exact congrArg (Books.mk _ _) hrestored

/-- Somebody new has no claim once it has entered: its debt is no less than its slice. -/
theorem newcomer_claim (hp : p.Sound) (hsupply : p.shares.supply ≠ 0)
    (hnew : (p.holderRow entrant).isEmpty = true)
    (h : (enter entrant collateral price now).run p = .ok entry m) {claim : ℕ}
    (hclaim : m.claim entrant = .ok claim) : claim = 0 := by
  obtain ⟨hbalance, hdebt, hcredit, -⟩ := nothing_of_isEmpty hnew
  have hnothing : p.books.entitlement entrant = 0 := by
    rw [entitlement_eq, hbalance, hdebt, hcredit]
    simp
  rw [claim_eq_floor hclaim]
  exact Nat.floor_of_nonpos ((enter_neutral hp hsupply h).self.2.trans hnothing.le)

/-- No fees go with the shares of a holder that has no claim. -/
theorem ExitQuote.For.fees_eq_zero {holder : Address} {shares : ℕ} {quote : ExitQuote}
    (h : ExitQuote.For p holder shares quote)
    (hnone : ∀ claim, p.claim holder = .ok claim → claim = 0) : quote.fees = 0 := by
  obtain ⟨_, hclaimable, hall, hpart⟩ := h.fees_eq
  obtain ⟨claim, hclaim, rfl⟩ := claimableFees_ok hclaimable
  obtain rfl := hnone claim hclaim
  by_cases hshares : shares = p.balanceOf holder
  · rw [hall hshares, Nat.zero_min]
  · rw [hpart hshares, Nat.zero_min, Nat.zero_mul, Nat.zero_div]

/-- In every pool with shares that calls have led to: somebody who has nothing in it enters,
and next leaves with all the shares got, not before they are free. No more collateral comes
back than was put in, and less than the price of a share and a unit is missing; no fees are
paid. But for the collateral, the pool is as it was before the entry, in its totals and in
everybody's row. -/
theorem newcomer_round_trip (hfresh : create settings = .ok fresh) (hpast : after fresh past = p)
    (hsupply : p.shares.supply ≠ 0) (hnew : (p.holderRow entrant).isEmpty = true)
    (henter : (enter entrant collateral price now).run p = .ok entry m) {d : Departure}
    {left : ExitReceipt} (hholder : d.holder = entrant) (hall : d.shares = entry.shares)
    (hfree : entry.unlockTime ≤ d.now) (hleave : (depart d).run m = .ok left q) :
    left.collateral ≤ collateral ∧
      (collateral : ℚ) - p.collateral / (p.shares.supply + entry.shares) - 1 < left.collateral ∧
      left.fees = 0 ∧
      q.books = { p.books with
        totals := { p.totals with collateral := p.collateral + collateral - left.collateral } } := by
  have hp := sound_after hfresh hpast
  obtain ⟨hpositive, hbought, hjoined⟩ := newcomer_joined hp hsupply hnew henter
  obtain ⟨quote, hquote, hcarry, hback, hfees⟩ := depart_ok hleave
  rw [hholder, hall] at hquote
  rw [hholder] at hcarry
  have hfor := quoteExit_ok hquote
  have hnofees := hfor.fees_eq_zero fun _ => newcomer_claim hp hsupply hnew henter
  obtain ⟨hbalance, hdebt, hcredit, -⟩ := joined_own hjoined
  obtain ⟨hforgiven, hused⟩ := hfor.settled_all hbalance.symm
  have hprice : p.collateral ≠ 0 := by
    intro hnone
    rw [hnone, Nat.div_zero] at hbought
    exact hpositive hbought
  have hsold : left.collateral
      = entry.shares * (p.collateral + collateral) / (p.shares.supply + entry.shares) := by
    have hcollateral : m.collateral = p.collateral + collateral :=
      congrArg (·.totals.collateral) hjoined
    have hshares : m.shares.supply = p.shares.supply + entry.shares :=
      congrArg (·.totals.supply) hjoined
    rw [hback, hfor.collateral_eq, hcollateral, hshares]
  obtain ⟨hle, hgt⟩ := round_trip_bounds hsupply hprice hbought hsold
  refine ⟨hle, hgt, Nat.le_zero.mp (hnofees ▸ hfees), ?_⟩
  rw [hback]
  exact joined_undone hnew hjoined hfor.shares_eq hpositive hnofees (hforgiven.trans hdebt)
    (hused.trans hcredit) hfree hcarry

/-- A thousand shares for 1007 units of collateral, and fees of which some are withdrawn. -/
def dearer : List Call :=
  [.enter rich 1000 none 0, .receiveCollateral 7, .depositFees 50, .withdrawFees rich 3]

/-- A hundred units buy 99 shares, which are charged five units of debt; a self-close exit
when they come free brings 99 units back, and burns 16 units of the holder's own. -/
theorem dearer_round_trip :
    let p := after lockingPool dearer
    let m := (enter newcomer 100 none 1).stateAfter p
    let d : Departure := ⟨newcomer, 99, ⟨520, ⟨1, 1⟩⟩, 101, true⟩
    let q := (depart d).stateAfter m
    (enter newcomer 100 none 1).outcome p = .ok ⟨99, 5, 101⟩ ∧
      (depart d).outcome m = .ok ⟨99, 99, 0, 5⟩ ∧
      (100 : ℚ) - p.collateral / (p.shares.supply + (99 : ℕ)) - 1 < (99 : ℕ) ∧
      q.books
        = { p.books with totals := { p.totals with collateral := p.collateral + 100 - 99 } } := by
  intro p m d q
  have hfresh : create lockingSettings = .ok lockingPool := rfl
  have hentry : (enter newcomer 100 none 1).outcome p = .ok ⟨99, 5, 101⟩ := by decide +kernel
  have hleft : (depart d).outcome m = .ok ⟨99, 99, 0, 5⟩ := by decide +kernel
  have hround := newcomer_round_trip hfresh rfl (by decide +kernel) (by decide +kernel)
    (run_of_outcome hentry) rfl rfl (Nat.le_refl 101) (run_of_outcome hleft)
  exact ⟨hentry, hleft, hround.2.1, hround.2.2.2⟩

end Pool

end PooledCollateral
