/-
PooledCollateral.Proofs.Pool.Postings — what the published events say of the
books.

A `Figure` is a number in the books of a pool: one of four totals, or the
shares or the fee debt of one holder. Each event posts an amount to each figure
(`Figure.posting`), and `Posted` says of two books that the second has the
figures of the first with the postings of some events added. Every operation of
a pool is so described by the event that is published for it: one lemma for
each, named after the operation.
-/
import PooledCollateral.Custody.Operations
import PooledCollateral.Proofs.Pool.Effects

namespace PooledCollateral

open PooledCollateral.Action Function

/-! ## Figures -/

/-- A number in the books that events account for. -/
inductive Figure
  | collateral
  | supply
  | feeReserve
  | feeDebt
  | balanceOf (holder : Address)
  | debtOf (holder : Address)

/-- A figure of the books. -/
def Books.figure (b : Books) : Figure → ℤ
  | .collateral => b.totals.collateral
  | .supply => b.totals.supply
  | .feeReserve => b.totals.feeReserve
  | .feeDebt => b.totals.feeDebt
  | .balanceOf holder => (b.row holder).balance
  | .debtOf holder => (b.row holder).feeDebt

namespace Figure

/-- What an event adds to a figure. A figure of one holder is moved by that
holder's events only. -/
def posting : Figure → Event → ℤ
  | collateral, .entered _ amount _ _ _ => amount
  | collateral, .collateralReceived amount => amount
  | collateral, .exited _ _ _ amount _ _ => -amount
  | collateral, .paidOut _ _ amount _ => -amount
  | supply, .entered _ _ shares _ _ => shares
  | supply, .exited _ _ shares _ _ _ => -shares
  | supply, .paidOut _ _ _ burned => -burned
  | feeReserve, .feesDeposited amount => amount
  | feeReserve, .feeDebtPaid _ amount => amount
  | feeReserve, .feesWithdrawn _ _ amount => -amount
  | feeReserve, .exited _ _ _ _ fees _ => -fees
  | feeReserve, .selfCloseRedeemed _ _ fromFees _ _ => -fromFees
  | feeDebt, .entered _ _ _ debt _ => debt
  | feeDebt, .feesWithdrawn _ _ amount => amount
  | feeDebt, .feeDebtPaid _ amount => -amount
  | feeDebt, .exited _ _ _ _ _ forgiven => -forgiven
  | balanceOf holder, .entered owner _ shares _ _ => if owner = holder then shares else 0
  | balanceOf holder, .exited owner _ shares _ _ _ => if owner = holder then -shares else 0
  | balanceOf holder, .paidOut owner _ _ burned => if owner = holder then -burned else 0
  | balanceOf holder, .transferred sender receiver amount =>
    (if receiver = holder then amount else 0) - (if sender = holder then amount else 0)
  | debtOf holder, .entered owner _ _ debt _ => if owner = holder then debt else 0
  | debtOf holder, .feesWithdrawn owner _ amount => if owner = holder then amount else 0
  | debtOf holder, .feeDebtPaid owner amount => if owner = holder then -amount else 0
  | debtOf holder, .exited owner _ _ _ _ forgiven => if owner = holder then -forgiven else 0
  | _, _ => 0

attribute [simp] posting

/-- What a list of events adds to a figure. -/
def posted (figure : Figure) (events : List Event) : ℤ := (events.map figure.posting).sum

@[simp] theorem posted_nil (figure : Figure) : figure.posted [] = 0 := rfl

@[simp] theorem posted_cons (figure : Figure) (event : Event) (events : List Event) :
    figure.posted (event :: events) = figure.posting event + figure.posted events := by
  simp [posted]

theorem posted_append (figure : Figure) (events more : List Event) :
    figure.posted (events ++ more) = figure.posted events + figure.posted more := by
  simp [posted]

end Figure

/-- The second books have the figures of the first, with what the events post
added. -/
def Books.Posted (events : List Event) (b b' : Books) : Prop :=
  ∀ figure, b'.figure figure = b.figure figure + figure.posted events

theorem Books.posted_nil (b : Books) : b.Posted [] b := fun figure =>
  (add_zero (b.figure figure)).symm

theorem Books.Posted.trans {b b' b'' : Books} {events more : List Event}
    (h : b.Posted events b') (h' : b'.Posted more b'') : b.Posted (events ++ more) b'' := by
  intro figure
  rw [h' figure, h figure, Figure.posted_append, add_assoc]

namespace Pool

variable {p q : Pool} {holder : Address} {amount now : ℕ}

/-- Where one row is replaced, it is enough to look at that row and the totals. -/
theorem posted_update {totals : Totals} {settings : Settings} {row : HolderRow}
    {events : List Event}
    (hcollateral : (totals.collateral : ℤ) = p.collateral + Figure.collateral.posted events)
    (hsupply : (totals.supply : ℤ) = p.shares.supply + Figure.supply.posted events)
    (hreserve : (totals.feeReserve : ℤ) = p.feeReserve + Figure.feeReserve.posted events)
    (hdebt : (totals.feeDebt : ℤ) = p.fees.totalDebt + Figure.feeDebt.posted events)
    (hbalance : (row.balance : ℤ) = p.balanceOf holder + (Figure.balanceOf holder).posted events)
    (howed : (row.feeDebt : ℤ) = p.debtOf holder + (Figure.debtOf holder).posted events)
    (hothers : ∀ other, other ≠ holder → (Figure.balanceOf other).posted events = 0 ∧
      (Figure.debtOf other).posted events = 0) :
    p.books.Posted events { totals, settings, row := update p.holderRow holder row } := by
  intro figure
  cases figure with
  | collateral => exact hcollateral
  | supply => exact hsupply
  | feeReserve => exact hreserve
  | feeDebt => exact hdebt
  | balanceOf other =>
    by_cases hother : other = holder
    · subst hother
      simpa [Books.figure, books, holderRow] using hbalance
    · simp [Books.figure, books, update_of_ne hother, (hothers other hother).1]
  | debtOf other =>
    by_cases hother : other = holder
    · subst hother
      simpa [Books.figure, books, holderRow] using howed
    · simp [Books.figure, books, update_of_ne hother, (hothers other hother).2]

/-! ## Entry -/

/-- The receipt of an entry names the shares and the debt of its quote. -/
theorem enter_receipt {collateral : ℕ} {price : Option Price} {receipt : EntryReceipt}
    {quote : EntryQuote} (hquote : p.quoteEntry collateral price = .ok quote)
    (h : (enter holder collateral price now).run p = .ok receipt q) :
    receipt.shares = quote.shares ∧ receipt.feeDebt = quote.feeDebt := by
  simp only [enter, run_bind_eq_ok_iff, run_lift_eq_ok_iff] at h
  obtain ⟨_, _, hget, _, _, ⟨hquote', -⟩, _, _, -, _, _, -, _, _, -, hreturn⟩ := h
  cases hget
  rw [hquote] at hquote'
  cases hquote'
  cases hreturn
  exact ⟨rfl, rfl⟩

/-- What a receipt says: an entry into a pool without shares gets one for each unit of
collateral and takes over the net debt left behind, any other the part of the supply that
the collateral is, rounded down. -/
theorem enter_priced {collateral : ℕ} {price : Option Price} {receipt : EntryReceipt}
    (h : (enter holder collateral price now).run p = .ok receipt q) :
    (p.settings.Valid → receipt.shares ≠ 0) ∧
      (p.shares.supply = 0 → receipt.shares = collateral ∧
        receipt.feeDebt = p.fees.totalDebt - p.fees.totalCredit) ∧
      (p.shares.supply ≠ 0 →
        receipt.shares = collateral * p.shares.supply / p.collateral) := by
  obtain ⟨quote, hquote, -⟩ := enter_ok h
  obtain ⟨hshares, hdebt⟩ := enter_receipt hquote h
  obtain ⟨hpositive, -, hfirst, hlater⟩ := quoteEntry_ok hquote
  rw [hshares, hdebt]
  exact ⟨hpositive, hfirst, fun hsupply => (hlater hsupply).1⟩

/-- An entry adds its collateral, and the shares and the debt of its receipt. -/
theorem enter_booked {collateral : ℕ} {price : Option Price} {receipt : EntryReceipt}
    (h : (enter holder collateral price now).run p = .ok receipt q) :
    q.books =
      { totals := { p.totals with
          collateral := p.collateral + collateral
          feeDebt := p.fees.totalDebt + receipt.feeDebt
          supply := p.shares.supply + receipt.shares }
        settings := p.settings
        row := update p.holderRow holder
          { address := holder
            balance := p.balanceOf holder + receipt.shares
            feeDebt := p.debtOf holder + receipt.feeDebt
            feeCredit := p.creditOf holder
            locks :=
              ((p.shares.locksOf holder).push receipt.shares (p.unlockTime now)).locks } } := by
  obtain ⟨quote, hquote, -, hbooks⟩ := enter_ok h
  obtain ⟨hshares, hdebt⟩ := enter_receipt hquote h
  obtain ⟨-, hafter, -⟩ := quoteEntry_ok hquote
  rw [hbooks, hshares, hdebt, hafter]

theorem enter_posted {collateral : ℕ} {price : Option Price} {receipt : EntryReceipt}
    (h : (enter holder collateral price now).run p = .ok receipt q) :
    p.books.Posted [.entered holder collateral receipt.shares receipt.feeDebt receipt.unlockTime]
      q.books := by
  rw [enter_booked h]
  refine posted_update ?_ ?_ ?_ ?_ ?_ ?_ fun other hother => ?_
  · simp
  · simp
  · simp [totals]
  · simp
  · simp
  · simp
  · simp [hother.symm]

/-! ## Exit -/

/-- A burn is described by an exit with all of its fees. -/
theorem carryOut_posted {quote : ExitQuote} (h : (carryOut holder quote now).run p = .ok () q)
    (recipient : Address) :
    p.books.Posted [.exited holder recipient quote.shares quote.collateral quote.fees
      quote.debtForgiven] q.books := by
  obtain ⟨⟨hfees, hcollateral, hsupply, hbalance⟩, ⟨hdebt, htotal, -, -⟩, _, -, hbooks⟩ :=
    carryOut_ok h
  rw [hbooks]
  refine posted_update ?_ ?_ ?_ ?_ ?_ ?_ fun other hother => ?_
  · simp [Nat.cast_sub hcollateral, sub_eq_add_neg]
  · simp [Nat.cast_sub hsupply, sub_eq_add_neg]
  · simp [Nat.cast_sub hfees, sub_eq_add_neg]
  · simp [Nat.cast_sub htotal, sub_eq_add_neg]
  · simp [Nat.cast_sub hbalance, sub_eq_add_neg]
  · simp [Nat.cast_sub hdebt, sub_eq_add_neg]
  · simp [hother.symm]

theorem exit_posted {shares : ℕ} {backing : Backing} {receipt : ExitReceipt}
    (h : (exit holder shares backing now).run p = .ok receipt q) (recipient : Address) :
    p.books.Posted [.exited holder recipient receipt.shares receipt.collateral receipt.fees
      receipt.debtForgiven] q.books := by
  obtain ⟨quote, -, hcarry, rfl⟩ := exit_ok h
  exact carryOut_posted hcarry recipient

/-- The events of a self-close exit post what an exit with all of the fees
would: those that the burn leaves over go with the first event, the burned ones
with the second. -/
theorem posted_selfClose {shares : ℕ} {backing : Backing} {plan : SelfClosePlan}
    (hplan : p.planSelfClose holder shares backing now = .ok plan) (recipient : Address)
    (toUnderlying : Bool) (figure : Figure) :
    figure.posted (Custody.selfCloseEvents holder recipient toUnderlying plan
        ⟨plan.quote.shares, plan.quote.collateral, plan.funding.toRecipient,
          plan.quote.debtForgiven⟩)
      = figure.posted [.exited holder recipient plan.quote.shares plan.quote.collateral
          plan.quote.fees plan.quote.debtForgiven] := by
  obtain ⟨-, -, hfunding⟩ := planSelfClose_ok hplan
  unfold Custody.selfCloseEvents
  simp only [hfunding]
  split_ifs with hburn
  · rw [hburn, Nat.sub_zero]
  · cases figure with
    | feeReserve =>
      simp only [Figure.posted_cons, Figure.posted_nil, Figure.posting]
      omega
    | _ => simp

theorem applySelfClose_posted {shares : ℕ} {backing : Backing} {plan : SelfClosePlan}
    {receipt : ExitReceipt} (hplan : p.planSelfClose holder shares backing now = .ok plan)
    (h : (applySelfClose holder plan now).run p = .ok receipt q) (recipient : Address)
    (toUnderlying : Bool) :
    p.books.Posted (Custody.selfCloseEvents holder recipient toUnderlying plan receipt)
      q.books := by
  obtain ⟨hcarry, rfl⟩ := applySelfClose_ok h
  intro figure
  rw [posted_selfClose hplan]
  exact carryOut_posted hcarry recipient figure

/-! ## Fees -/

theorem withdrawFees_posted (h : (withdrawFees holder amount).run p = .ok () q)
    (recipient : Address) :
    p.books.Posted [.feesWithdrawn holder recipient amount] q.books := by
  obtain ⟨_, -, -, hreserve, hbooks⟩ := withdrawFees_ok h
  rw [hbooks]
  refine posted_update ?_ ?_ ?_ ?_ ?_ ?_ fun other hother => ?_
  · simp [totals]
  · simp [totals]
  · simp [Nat.cast_sub hreserve, sub_eq_add_neg]
  · simp
  · simp [holderRow]
  · simp
  · simp [hother.symm]

theorem payFeeDebt_posted (h : (payFeeDebt holder amount).run p = .ok () q) :
    p.books.Posted [.feeDebtPaid holder amount] q.books := by
  obtain ⟨hdebt, htotal, hbooks⟩ := payFeeDebt_ok h
  rw [hbooks]
  refine posted_update ?_ ?_ ?_ ?_ ?_ ?_ fun other hother => ?_
  · simp [totals]
  · simp [totals]
  · simp
  · simp [Nat.cast_sub htotal, sub_eq_add_neg]
  · simp [holderRow]
  · simp [Nat.cast_sub hdebt, sub_eq_add_neg]
  · simp [hother.symm]

theorem depositFees_posted (h : (depositFees amount).run p = .ok () q) :
    p.books.Posted [.feesDeposited amount] q.books := by
  rw [depositFees_ok h]
  intro figure
  cases figure with
  | feeReserve => simp [Books.figure, books, totals]
  | _ => exact (add_zero _).symm

/-! ## Administration -/

theorem receiveCollateral_posted (h : (receiveCollateral amount).run p = .ok () q) :
    p.books.Posted [.collateralReceived amount] q.books := by
  rw [receiveCollateral_ok h]
  intro figure
  cases figure with
  | collateral => simp [Books.figure, books, totals]
  | _ => exact (add_zero _).symm

theorem payout_posted {collateral shares : ℕ}
    (h : (payout holder collateral shares now).run p = .ok () q) (recipient : Address) :
    p.books.Posted [.paidOut holder recipient collateral shares] q.books := by
  obtain ⟨hbalance, hsupply, hcollateral, _, _, -, -, hbooks⟩ := payout_ok h
  rw [hbooks]
  refine posted_update ?_ ?_ ?_ ?_ ?_ ?_ fun other hother => ?_
  · simp [Nat.cast_sub hcollateral, sub_eq_add_neg]
  · simp [Nat.cast_sub hsupply, sub_eq_add_neg]
  · simp [totals]
  · simp [totals]
  · simp [Nat.cast_sub hbalance, sub_eq_add_neg]
  · simp
  · simp [hother.symm]

theorem updateSettings_posted {settings : Settings}
    (h : (updateSettings settings).run p = .ok () q) :
    p.books.Posted [.settingsUpdated settings] q.books := by
  rw [(updateSettings_ok h).2]
  intro figure
  cases figure <;> exact (add_zero _).symm

/-- Nothing is published of a transfer of nothing, or to oneself. -/
theorem transfer_posted {sender receiver : Address}
    (h : (transfer sender receiver amount now).run p = .ok () q) :
    p.books.Posted (if amount = 0 ∨ sender = receiver then []
      else [.transferred sender receiver amount]) q.books := by
  obtain ⟨_, _, -, -, hfree, -, ⟨hnone, rfl⟩ | ⟨hamount, hdiff, _, -, hbooks⟩⟩ := transfer_ok h
  · rw [if_pos hnone]
    exact q.books.posted_nil
  · rw [if_neg (not_or.mpr ⟨hamount, hdiff⟩), hbooks]
    have hbalance : amount ≤ p.balanceOf sender := hfree.trans (Nat.sub_le _ _)
    intro figure
    cases figure with
    | balanceOf other =>
      by_cases hreceiver : other = receiver
      · subst hreceiver
        simp [Books.figure, books, holderRow, hdiff]
      · by_cases hsender : other = sender
        · subst hsender
          simp [Books.figure, books, holderRow, update_of_ne hreceiver,
            Ne.symm hreceiver, Nat.cast_sub hbalance, sub_eq_add_neg]
        · simp [Books.figure, books, update_of_ne hreceiver, update_of_ne hsender,
            Ne.symm hreceiver, Ne.symm hsender]
    | debtOf other =>
      by_cases hreceiver : other = receiver
      · subst hreceiver
        simp [Books.figure, books]
      · by_cases hsender : other = sender
        · subst hsender
          simp [Books.figure, books, update_of_ne hreceiver]
        · simp [Books.figure, books, update_of_ne hreceiver, update_of_ne hsender]
    | _ => simp [Books.figure, books]

/-- Nothing is published of a clearing of locks. -/
theorem cleanup_posted {limit : ℕ} {done : Bool}
    (h : (cleanup holder limit now).run p = .ok done q) : p.books.Posted [] q.books := by
  rw [cleanup_ok h]
  refine posted_update ?_ ?_ ?_ ?_ ?_ ?_ fun other hother => ?_ <;>
    simp [books, totals, holderRow]

end Pool

end PooledCollateral
