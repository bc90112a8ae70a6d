/-
PooledCollateral.Proofs.Pool.Effects — what a successful operation of a pool
leaves.

Each operation has one lemma (`enter_ok` and the like): if it succeeds, what it
was based on — the quote of an entry or an exit, the claim behind a withdrawal —
and the books that it leaves, as the books that it found with some totals and
at most two rows replaced. What a quote says follows from the pool it was made
for (`quoteEntry_ok`, `quoteExit_ok`). Everything proved about runs of a pool
starts from these lemmas and opens no operation.
-/
import PooledCollateral.Proofs.Burn
import PooledCollateral.Proofs.Pool.Books

namespace PooledCollateral.Pool

open PooledCollateral.Action Function

variable {p q : Pool} {holder : Address}

/-! ## Fees of shares -/

/-- The virtual reserve can be told if fees and debt together are an amount and cover
the credit. -/
theorem virtualReserve_eq_ok_iff {book : FeeBook} {held reserve : ℕ} :
    book.virtualReserve held = .ok reserve ↔
      reserve = held + book.totalDebt - book.totalCredit ∧ held + book.totalDebt ≤ Amount.max ∧
        book.totalCredit ≤ held + book.totalDebt := by
  simp only [FeeBook.virtualReserve, Checked.bind_eq_ok_iff, Amount.add_eq_ok_iff,
    Amount.sub_eq_ok_iff]
  constructor
  · rintro ⟨_, ⟨rfl, hfits⟩, rfl, hcredit⟩
    exact ⟨rfl, hfits, hcredit⟩
  · rintro ⟨rfl, hfits, hcredit⟩
    exact ⟨_, ⟨rfl, hfits⟩, rfl, hcredit⟩

/-- A slice that is not nothing from the start is formed from the virtual reserve. -/
theorem virtualReserve_of_slice {book : FeeBook} {held shares supply slice : ℕ}
    (hsupply : supply ≠ 0) (hshares : shares ≠ 0)
    (h : book.slice held shares supply = .ok slice) :
    ∃ reserve, book.virtualReserve held = .ok reserve := by
  unfold FeeBook.slice at h
  rw [if_neg (not_or.mpr ⟨hsupply, hshares⟩)] at h
  obtain ⟨reserve, hreserve, -⟩ := Checked.bind_eq_ok_iff.mp h
  exact ⟨reserve, hreserve⟩

/-- A slice is nothing, or the rounded-down part of a virtual reserve that the
credit leaves above zero. -/
theorem slice_ok {book : FeeBook} {reserve shares supply slice : ℕ}
    (h : book.slice reserve shares supply = .ok slice) :
    ((supply = 0 ∨ shares = 0) ∧ slice = 0) ∨
      (supply ≠ 0 ∧ shares ≠ 0 ∧ book.totalCredit ≤ reserve + book.totalDebt ∧
        slice = (reserve + book.totalDebt - book.totalCredit) * shares / supply) := by
  unfold FeeBook.slice at h
  split at h
  · rename_i hnone
    cases h
    exact Or.inl ⟨hnone, rfl⟩
  · rename_i hsome
    obtain ⟨hsupply, hshares⟩ := not_or.mp hsome
    simp only [Checked.bind_eq_ok_iff, virtualReserve_eq_ok_iff, Amount.mulDiv_eq_ok_iff] at h
    obtain ⟨_, ⟨rfl, -, hcredit⟩, -, -, rfl, -⟩ := h
    exact Or.inr ⟨hsupply, hshares, hcredit, rfl⟩

/-- A claim is the slice of the holder's shares and its credit, less its debt. -/
theorem claim_ok {claim : ℕ} (h : p.claim holder = .ok claim) :
    ∃ slice, p.fees.slice p.feeReserve (p.balanceOf holder) p.shares.supply = .ok slice ∧
      claim = slice + p.creditOf holder - p.debtOf holder := by
  simp only [Pool.claim, FeeBook.claimable, Checked.bind_eq_ok_iff, Amount.add_eq_ok_iff] at h
  obtain ⟨slice, hslice, _, ⟨rfl, -⟩, hclaim⟩ := h
  cases hclaim
  exact ⟨slice, hslice, rfl⟩

theorem claimableFees_ok {fees : ℕ} (h : p.claimableFees holder = .ok fees) :
    ∃ claim, p.claim holder = .ok claim ∧ fees = min claim p.feeReserve := by
  simp only [claimableFees, Checked.bind_eq_ok_iff] at h
  obtain ⟨claim, hclaim, hfees⟩ := h
  cases hfees
  exact ⟨claim, hclaim, rfl⟩

/-- Claimable fees are an amount. -/
theorem claimableFees_le_max {fees : ℕ} (h : p.claimableFees holder = .ok fees) :
    fees ≤ Amount.max := by
  simp only [claimableFees, Pool.claim, FeeBook.claimable, Checked.bind_eq_ok_iff,
    Amount.add_eq_ok_iff] at h
  obtain ⟨_, ⟨_, -, _, ⟨rfl, hle⟩, hclaim⟩, hfees⟩ := h
  cases hclaim
  cases hfees
  omega

/-- Indebted shares are none, or as many as it takes to own the net debt,
rounded up, as far as the balance goes. -/
theorem indebtedShares_ok {indebted : ℕ} (h : p.indebtedShares holder = .ok indebted) :
    p.fees.totalCredit ≤ p.feeReserve + p.fees.totalDebt ∧
      (((p.fees.netDebt holder = 0 ∨ p.feeReserve + p.fees.totalDebt - p.fees.totalCredit = 0) ∧
          indebted = 0) ∨
        ∃ shares, Amount.mulDivUp (p.fees.netDebt holder) p.shares.supply
            (p.feeReserve + p.fees.totalDebt - p.fees.totalCredit) = .ok shares ∧
          indebted = min shares (p.balanceOf holder)) := by
  simp only [Pool.indebtedShares, FeeBook.indebtedShares, Checked.bind_eq_ok_iff,
    virtualReserve_eq_ok_iff] at h
  obtain ⟨_, ⟨rfl, -, hcredit⟩, h⟩ := h
  refine ⟨hcredit, ?_⟩
  split at h
  · rename_i hnone
    cases h
    exact Or.inl ⟨hnone, rfl⟩
  · obtain ⟨shares, hshares, hindebted⟩ := Checked.bind_eq_ok_iff.mp h
    cases hindebted
    exact Or.inr ⟨shares, hshares, rfl⟩

/-! ## Quotes -/

/-- The shares and the debt of an entry: into an empty pool one share per unit
of collateral and the net debt left behind, else the part of the supply that
the collateral is, rounded down, and its part of the virtual reserve, rounded
up. Under settings that pass their check no entry gets no shares. -/
theorem quoteEntry_ok {collateral : ℕ} {price : Option Price} {quote : EntryQuote}
    (h : p.quoteEntry collateral price = .ok quote) :
    (p.settings.Valid → quote.shares ≠ 0) ∧ quote.collateralAfter = p.collateral + collateral ∧
      (p.shares.supply = 0 → quote.shares = collateral ∧
        quote.feeDebt = p.fees.totalDebt - p.fees.totalCredit) ∧
      (p.shares.supply ≠ 0 → quote.shares = collateral * p.shares.supply / p.collateral ∧
        p.fees.totalCredit ≤ p.feeReserve + p.fees.totalDebt ∧
        Amount.mulDivUp (p.feeReserve + p.fees.totalDebt - p.fees.totalCredit) quote.shares
          p.shares.supply = .ok quote.feeDebt) := by
  simp only [quoteEntry, Checked.bind_eq_ok_iff, require_eq_ok_iff, Amount.add_eq_ok_iff] at h
  obtain ⟨_, hmin, shares, hshares, debt, hdebt, _, ⟨rfl, -⟩, hquote⟩ := h
  cases hquote
  simp only [entryShares, FeeBook.entryDebt] at hshares hdebt
  by_cases hsupply : p.shares.supply = 0
  · rw [if_pos hsupply] at hshares hdebt
    simp only [Checked.bind_eq_ok_iff, require_eq_ok_iff] at hshares
    obtain ⟨_, -, _, -, _, -, hshares⟩ := hshares
    cases hshares
    cases hdebt
    have hpositive : p.settings.Valid → collateral ≠ 0 := fun hsettings => by
      have hfloor := hsettings.2
      omega
    exact ⟨hpositive, rfl, fun _ => ⟨rfl, rfl⟩, fun h => absurd hsupply h⟩
  · rw [if_neg hsupply] at hshares hdebt
    simp only [Checked.bind_eq_ok_iff, require_eq_ok_iff, virtualReserve_eq_ok_iff,
      Amount.mulDiv_eq_ok_iff] at hshares hdebt
    obtain ⟨_, -, _, ⟨-, -, rfl, -⟩, _, hpositive, hshares⟩ := hshares
    obtain ⟨_, ⟨rfl, -, hcredit⟩, hdebt⟩ := hdebt
    cases hshares
    exact ⟨fun _ => hpositive, rfl, fun h => absurd h hsupply, fun _ => ⟨rfl, hcredit, hdebt⟩⟩

/-- The debt and the credit that leave: all with all shares, else their part,
rounded down. -/
theorem settlement_ok {book : FeeBook} {shares balance : ℕ} {s : Settlement}
    (h : book.settlement holder shares balance = .ok s) :
    (balance ≤ shares → s.debt = book.debts.get holder ∧ s.credit = book.credits.get holder) ∧
      (shares < balance → s.debt = book.debts.get holder * shares / balance ∧
        s.credit = book.credits.get holder * shares / balance) := by
  unfold FeeBook.settlement at h
  split at h
  · rename_i hall
    cases h
    exact ⟨fun _ => ⟨rfl, rfl⟩, fun hpart => absurd hpart (by omega)⟩
  · rename_i hpart
    simp only [Checked.bind_eq_ok_iff, Amount.mulDiv_eq_ok_iff] at h
    obtain ⟨_, ⟨-, -, rfl, -⟩, _, ⟨-, -, rfl, -⟩, hs⟩ := h
    cases hs
    exact ⟨fun hall => absurd hall hpart, fun _ => ⟨rfl, rfl⟩⟩

/-- The fees that leave: all claimable ones with all shares, else their part,
rounded down. -/
theorem exitFees_ok {shares balance fees : ℕ} (h : p.exitFees holder shares balance = .ok fees) :
    ∃ claimable, p.claimableFees holder = .ok claimable ∧
      (shares = balance → fees = claimable) ∧
      (shares ≠ balance → fees = claimable * shares / balance) := by
  simp only [exitFees, Checked.bind_eq_ok_iff] at h
  obtain ⟨claimable, hclaimable, h⟩ := h
  refine ⟨claimable, hclaimable, ?_⟩
  split at h
  · rename_i hall
    cases h
    exact ⟨fun _ => rfl, fun hpart => absurd hall hpart⟩
  · rename_i hpart
    obtain ⟨-, -, rfl, -⟩ := Amount.mulDiv_eq_ok_iff.mp h
    exact ⟨fun hall => absurd hall hpart, fun _ => rfl⟩

/-- What an exit takes along, as the pool and the holder's row give it. -/
structure ExitQuote.For (p : Pool) (holder : Address) (shares : ℕ) (quote : ExitQuote) : Prop where
  shares_eq : quote.shares = shares
  shares_ne : shares ≠ 0
  shares_le : shares ≤ p.balanceOf holder
  supply_ne : p.shares.supply ≠ 0
  collateral_eq : quote.collateral = shares * p.collateral / p.shares.supply
  collateral_ne : quote.collateral ≠ 0
  collateral_le : quote.collateral ≤ p.collateral
  fees_eq : ∃ claimable, p.claimableFees holder = .ok claimable ∧
    (shares = p.balanceOf holder → quote.fees = claimable) ∧
    (shares ≠ p.balanceOf holder → quote.fees = claimable * shares / p.balanceOf holder)
  settled_all : shares = p.balanceOf holder →
    quote.debtForgiven = p.debtOf holder ∧ quote.creditUsed = p.creditOf holder
  settled_part : shares ≠ p.balanceOf holder →
    quote.debtForgiven = p.debtOf holder * shares / p.balanceOf holder ∧
      quote.creditUsed = p.creditOf holder * shares / p.balanceOf holder
  collateralAfter_eq : quote.collateralAfter = p.collateral - quote.collateral
  supplyAfter_eq : quote.supplyAfter = p.shares.supply - shares

/-- The fees of an exit are an amount. -/
theorem ExitQuote.For.fees_le_max {shares : ℕ} {quote : ExitQuote}
    (h : ExitQuote.For p holder shares quote) : quote.fees ≤ Amount.max := by
  obtain ⟨claimable, hclaimable, hall, hpart⟩ := h.fees_eq
  have hmax := claimableFees_le_max hclaimable
  by_cases hshares : shares = p.balanceOf holder
  · rwa [hall hshares]
  · rw [hpart hshares]
    refine le_trans ?_ hmax
    exact Nat.div_le_of_le_mul (by rw [Nat.mul_comm]; exact Nat.mul_le_mul_right _ h.shares_le)

theorem quoteExit_ok {shares now : ℕ} {quote : ExitQuote}
    (h : p.quoteExit holder shares now = .ok quote) : ExitQuote.For p holder shares quote := by
  simp only [quoteExit, Restriction.authorizeExit, Checked.bind_eq_ok_iff, require_eq_ok_iff,
    Amount.mulDiv_eq_ok_iff, Amount.sub_eq_ok_iff] at h
  obtain ⟨_, hshares, _, -, _, ⟨_, hbalance, -⟩, _, ⟨hsupply, -, rfl, -⟩, _, hcollateral,
    fees, hfees, s, hs, _, ⟨rfl, hle⟩, _, ⟨rfl, -⟩, hquote⟩ := h
  cases hquote
  obtain ⟨hall, hpart⟩ := settlement_ok hs
  exact
    { shares_eq := rfl, shares_ne := hshares, shares_le := hbalance, supply_ne := hsupply
      collateral_eq := rfl, collateral_ne := hcollateral, collateral_le := hle
      fees_eq := exitFees_ok hfees
      settled_all := fun heq => hall heq.ge
      settled_part := fun hne => hpart (by omega)
      collateralAfter_eq := rfl, supplyAfter_eq := rfl }

/-- An exit is quoted from a claim, and thus from the virtual reserve. -/
theorem virtualReserve_of_quoteExit {shares now : ℕ} {quote : ExitQuote}
    (h : p.quoteExit holder shares now = .ok quote) :
    ∃ reserve, p.fees.virtualReserve p.feeReserve = .ok reserve := by
  have hfor := quoteExit_ok h
  obtain ⟨_, hclaimable, -⟩ := hfor.fees_eq
  obtain ⟨_, hclaim, -⟩ := claimableFees_ok hclaimable
  obtain ⟨_, hslice, -⟩ := claim_ok hclaim
  have hbalance : p.balanceOf holder ≠ 0 := by
    have hshares := hfor.shares_ne
    have hle := hfor.shares_le
    omega
  exact virtualReserve_of_slice hfor.supply_ne hbalance hslice

/-! ## Entry -/

/-- An entry adds its collateral, its shares and its debt. -/
theorem enter_ok {collateral now : ℕ} {price : Option Price} {receipt : EntryReceipt}
    (h : (enter holder collateral price now).run p = .ok receipt q) :
    ∃ quote, p.quoteEntry collateral price = .ok quote ∧
      p.shares.supply + quote.shares ≤ Amount.max ∧
      q.books =
        { totals := { p.totals with
            collateral := quote.collateralAfter
            feeDebt := p.fees.totalDebt + quote.feeDebt
            supply := p.shares.supply + quote.shares }
          settings := p.settings
          row := update p.holderRow holder
            { address := holder
              balance := p.balanceOf holder + quote.shares
              feeDebt := p.debtOf holder + quote.feeDebt
              feeCredit := p.creditOf holder
              locks :=
                ((p.shares.locksOf holder).push quote.shares (p.unlockTime now)).locks } } := by
  simp only [enter, onShares, onFees, run_bind_eq_ok_iff, run_lift_eq_ok_iff,
    run_onPart_eq_ok_iff] at h
  obtain ⟨_, _, hget, quote, _, ⟨hquote, rfl⟩, _, _, ⟨shares, hmint, rfl⟩, _, _,
    ⟨fees, hcharge, rfl⟩, _, _, hmodify, hreturn⟩ := h
  cases hget
  cases hmodify
  cases hreturn
  obtain ⟨-, hsupply, hle, haccounts⟩ := (ShareBook.mint_ensures _ _ _ _).of_ok hmint
  obtain ⟨rfl, -⟩ := (FeeBook.charge_ensures _ _ _).of_ok hcharge
  refine ⟨quote, hquote, hle, ?_⟩
  simp only [books, totals, FeeBook.charged, hsupply]
  congr 1
  rw [balanceOf, ShareBook.balanceOf_eq, ShareBook.locksOf_eq]
  refine holderRow_update (a := ShareBook.minted _ _ _) ?_ ?_ ?_
  · exact haccounts
  · exact Amounts.get_set_eq_update _ _ _
  · exact (update_eq_self _ _).symm

/-! ## Exit -/

/-- A burn takes off what its quote says; the locks are those that the burn
leaves on the holder's account. -/
theorem carryOut_ok {quote : ExitQuote} {now : ℕ}
    (h : (carryOut holder quote now).run p = .ok () q) :
    (quote.fees ≤ p.feeReserve ∧ quote.collateral ≤ p.collateral ∧
      quote.shares ≤ p.shares.supply ∧ quote.shares ≤ p.balanceOf holder) ∧
    (quote.debtForgiven ≤ p.debtOf holder ∧ quote.debtForgiven ≤ p.fees.totalDebt ∧
      quote.creditUsed ≤ p.creditOf holder ∧ quote.creditUsed ≤ p.fees.totalCredit) ∧
    ∃ a, ShareBook.burned (p.shares.accountOf holder) quote.shares now = .ok a ∧
      q.books =
        { totals :=
            { collateral := p.collateral - quote.collateral
              feeReserve := p.feeReserve - quote.fees
              feeDebt := p.fees.totalDebt - quote.debtForgiven
              feeCredit := p.fees.totalCredit - quote.creditUsed
              supply := p.shares.supply - quote.shares }
          settings := p.settings
          row := update p.holderRow holder
            { address := holder
              balance := p.balanceOf holder - quote.shares
              feeDebt := p.debtOf holder - quote.debtForgiven
              feeCredit := p.creditOf holder - quote.creditUsed
              locks := a.locks.locks } } := by
  simp only [carryOut, onShares, onFees, run_bind_eq_ok_iff, run_lift_eq_ok_iff,
    run_onPart_eq_ok_iff, Amount.sub_eq_ok_iff] at h
  obtain ⟨_, _, hget, _, _, ⟨⟨rfl, hfees⟩, rfl⟩, _, _, ⟨⟨rfl, hcollateral⟩, rfl⟩, _, _,
    ⟨shares, hburn, rfl⟩, _, _, ⟨fees, hsettle, rfl⟩, hmodify⟩ := h
  cases hget
  cases hmodify
  obtain ⟨hle, hsupply, a, ha, haccounts⟩ := (ShareBook.burn_ensures _ _ _ _).of_ok hburn
  obtain ⟨rfl, hdebt, hdebtTotal, hcredit, hcreditTotal⟩ :=
    (FeeBook.settle_ensures _ _ _).of_ok hsettle
  obtain ⟨hbalance, hshares⟩ := ShareBook.balance_burned ha
  rw [balanceOf, ShareBook.balanceOf_eq]
  refine ⟨⟨hfees, hcollateral, hle, hshares⟩, ⟨hdebt, hdebtTotal, hcredit, hcreditTotal⟩, a, ha, ?_⟩
  simp only [books, totals, FeeBook.settled, hsupply]
  congr 1
  rw [← hbalance]
  refine holderRow_update ?_ ?_ ?_
  · exact haccounts
  · exact Amounts.get_set_eq_update _ _ _
  · exact Amounts.get_set_eq_update _ _ _

/-- A plain exit carries out the burn that it has planned, and says so. -/
theorem exit_ok {shares now : ℕ} {backing : Backing} {receipt : ExitReceipt}
    (h : (exit holder shares backing now).run p = .ok receipt q) :
    ∃ quote, p.planExit holder shares backing now = .ok quote ∧
      (carryOut holder quote now).run p = .ok () q ∧
      receipt = ⟨quote.shares, quote.collateral, quote.fees, quote.debtForgiven⟩ := by
  simp only [exit, run_bind_eq_ok_iff, run_lift_eq_ok_iff] at h
  obtain ⟨_, _, hget, quote, _, ⟨hquote, rfl⟩, _, _, hcarry, hreturn⟩ := h
  cases hget
  cases hreturn
  exact ⟨quote, hquote, hcarry, rfl⟩

/-- A plan is applied by carrying out its burn; the receipt names the fees that
the burn of backing asset leaves. -/
theorem applySelfClose_ok {plan : SelfClosePlan} {now : ℕ} {receipt : ExitReceipt}
    (h : (applySelfClose holder plan now).run p = .ok receipt q) :
    (carryOut holder plan.quote now).run p = .ok () q ∧
      receipt = ⟨plan.quote.shares, plan.quote.collateral, plan.funding.toRecipient,
        plan.quote.debtForgiven⟩ := by
  simp only [applySelfClose, run_bind_eq_ok_iff] at h
  obtain ⟨_, _, hcarry, hreturn⟩ := h
  cases hreturn
  exact ⟨hcarry, rfl⟩

/-- A self-close exit carries out the burn that it has planned. -/
theorem selfClose_ok {shares now : ℕ} {backing : Backing} {plan : SelfClosePlan}
    {receipt : ExitReceipt}
    (h : (selfClose holder shares backing now).run p = .ok (plan, receipt) q) :
    p.planSelfClose holder shares backing now = .ok plan ∧
      (carryOut holder plan.quote now).run p = .ok () q := by
  simp only [selfClose, run_bind_eq_ok_iff, run_lift_eq_ok_iff] at h
  obtain ⟨_, _, hget, plan, _, ⟨hplan, rfl⟩, _, _, happly, hreturn⟩ := h
  cases hget
  cases hreturn
  exact ⟨hplan, (applySelfClose_ok happly).1⟩

/-! ### Plans -/

/-- A plain exit is planned if its burn can be quoted and passes both guards. -/
theorem planExit_eq_ok_iff {shares now : ℕ} {backing : Backing} {quote : ExitQuote} :
    p.planExit holder shares backing now = .ok quote ↔
      p.quoteExit holder shares now = .ok quote ∧
        Guard.exitRatio quote.collateralAfter quote.supplyAfter backing p.settings.exitRatio
          = .ok () ∧
        p.checkResiduals quote = .ok () := by
  simp only [planExit, Checked.bind_eq_ok_iff]
  constructor
  · rintro ⟨_, hquote, _, hguard, _, hresiduals, hreturn⟩
    cases hreturn
    exact ⟨hquote, hguard, hresiduals⟩
  · rintro ⟨hquote, hguard, hresiduals⟩
    exact ⟨quote, hquote, (), hguard, (), hresiduals, rfl⟩

theorem planExit_ok {shares now : ℕ} {backing : Backing} {quote : ExitQuote}
    (h : p.planExit holder shares backing now = .ok quote) :
    p.quoteExit holder shares now = .ok quote := (planExit_eq_ok_iff.mp h).1

/-- A self-close exit is planned if its burn can be quoted, the backing asset to redeem
can be told, and both guards pass; the fees of the exit pay first. -/
theorem planSelfClose_eq_ok_iff {shares now : ℕ} {backing : Backing} {plan : SelfClosePlan} :
    p.planSelfClose holder shares backing now = .ok plan ↔
      p.quoteExit holder shares now = .ok plan.quote ∧
        Burn.required p.collateral plan.quote.collateral backing p.settings.exitRatio
          = .ok plan.burn ∧
        p.guardSelfClose plan.quote backing plan.burn = .ok () ∧
        p.checkResiduals plan.quote = .ok () ∧
        plan.funding = ⟨min plan.burn plan.quote.fees, plan.burn - plan.quote.fees,
          plan.quote.fees - plan.burn⟩ := by
  simp only [planSelfClose, Checked.bind_eq_ok_iff, Burn.fund_eq, Except.ok.injEq]
  constructor
  · rintro ⟨_, hquote, _, hburn, _, hguard, _, hresiduals, _, hfunding, hreturn⟩
    cases hreturn
    exact ⟨hquote, hburn, hguard, hresiduals, hfunding.symm⟩
  · rintro ⟨hquote, hburn, hguard, hresiduals, hfunding⟩
    exact ⟨plan.quote, hquote, plan.burn, hburn, (), hguard, (), hresiduals, plan.funding,
      hfunding.symm, rfl⟩

/-- A plan burns no more than the pool owes, and splits the burn between the
fees of the exit and the holder. -/
theorem planSelfClose_ok {shares now : ℕ} {backing : Backing} {plan : SelfClosePlan}
    (h : p.planSelfClose holder shares backing now = .ok plan) :
    p.quoteExit holder shares now = .ok plan.quote ∧ plan.burn ≤ backing.liability ∧
      plan.funding = ⟨min plan.burn plan.quote.fees, plan.burn - plan.quote.fees,
        plan.quote.fees - plan.burn⟩ := by
  obtain ⟨hquote, hburn, -, -, hfunding⟩ := planSelfClose_eq_ok_iff.mp h
  exact ⟨hquote, Burn.required_le hburn, hfunding⟩

/-! ## Fees -/

/-- A withdrawal of claimable fees becomes debt of the holder. -/
theorem withdrawFees_ok {amount : ℕ} (h : (withdrawFees holder amount).run p = .ok () q) :
    ∃ claimable, p.claimableFees holder = .ok claimable ∧ amount ≤ claimable ∧
      amount ≤ p.feeReserve ∧
      q.books =
        { totals := { p.totals with
            feeReserve := p.feeReserve - amount
            feeDebt := p.fees.totalDebt + amount }
          settings := p.settings
          row := update p.holderRow holder
            { p.holderRow holder with feeDebt := p.debtOf holder + amount } } := by
  simp only [withdrawFees, onFees, run_bind_eq_ok_iff, run_lift_eq_ok_iff, run_onPart_eq_ok_iff,
    require_eq_ok_iff, Amount.sub_eq_ok_iff] at h
  obtain ⟨_, _, hget, claimable, _, ⟨hclaimable, rfl⟩, _, _, ⟨hle, rfl⟩, _, _,
    ⟨⟨rfl, hreserve⟩, rfl⟩, _, _, ⟨fees, hcharge, rfl⟩, hmodify⟩ := h
  cases hget
  cases hmodify
  obtain ⟨rfl, -⟩ := (FeeBook.charge_ensures _ _ _).of_ok hcharge
  refine ⟨claimable, hclaimable, hle, hreserve, ?_⟩
  simp only [books, totals, FeeBook.charged]
  congr 1
  rw [holderRow_eq p holder]
  refine holderRow_update ?_ ?_ ?_
  · exact (update_eq_self _ _).symm
  · exact Amounts.get_set_eq_update _ _ _
  · exact (update_eq_self _ _).symm

/-- A repayment goes off the holder's debt and into the reserve. -/
theorem payFeeDebt_ok {amount : ℕ} (h : (payFeeDebt holder amount).run p = .ok () q) :
    amount ≤ p.debtOf holder ∧ amount ≤ p.fees.totalDebt ∧
      q.books =
        { totals := { p.totals with
            feeReserve := p.feeReserve + amount
            feeDebt := p.fees.totalDebt - amount }
          settings := p.settings
          row := update p.holderRow holder
            { p.holderRow holder with feeDebt := p.debtOf holder - amount } } := by
  simp only [payFeeDebt, onFees, run_bind_eq_ok_iff, run_lift_eq_ok_iff, run_onPart_eq_ok_iff,
    require_eq_ok_iff, Amount.add_eq_ok_iff] at h
  obtain ⟨_, _, ⟨-, rfl⟩, _, _, hget, _, _, ⟨⟨rfl, -⟩, rfl⟩, _, _, ⟨fees, hreduce, rfl⟩,
    hmodify⟩ := h
  cases hget
  cases hmodify
  obtain ⟨rfl, hdebt, htotal⟩ := (FeeBook.reduce_ensures _ _ _).of_ok hreduce
  refine ⟨hdebt, htotal, ?_⟩
  simp only [books, totals, FeeBook.reduced]
  congr 1
  rw [holderRow_eq p holder]
  refine holderRow_update ?_ ?_ ?_
  · exact (update_eq_self _ _).symm
  · exact Amounts.get_set_eq_update _ _ _
  · exact (update_eq_self _ _).symm

/-- A deposit goes into the reserve. -/
theorem depositFees_ok {amount : ℕ} (h : (depositFees amount).run p = .ok () q) :
    q = { p with feeReserve := p.feeReserve + amount } := by
  simp only [depositFees, run_bind_eq_ok_iff, run_lift_eq_ok_iff, Amount.add_eq_ok_iff] at h
  obtain ⟨_, _, hget, _, _, ⟨⟨rfl, -⟩, rfl⟩, hmodify⟩ := h
  cases hget
  cases hmodify
  rfl

/-- Received collateral belongs to the pool. -/
theorem receiveCollateral_ok {amount : ℕ} (h : (receiveCollateral amount).run p = .ok () q) :
    q = { p with collateral := p.collateral + amount } := by
  simp only [receiveCollateral, run_bind_eq_ok_iff, run_lift_eq_ok_iff, Amount.add_eq_ok_iff] at h
  obtain ⟨_, _, hget, _, _, ⟨⟨rfl, -⟩, rfl⟩, hmodify⟩ := h
  cases hget
  cases hmodify
  rfl

/-! ## Administration -/

/-- A payout takes off collateral and shares; the slice of the shares becomes
credit of their holder. -/
theorem payout_ok {collateral shares now : ℕ}
    (h : (payout holder collateral shares now).run p = .ok () q) :
    shares ≤ p.balanceOf holder ∧ shares ≤ p.shares.supply ∧ collateral ≤ p.collateral ∧
    ∃ slice a, p.fees.slice p.feeReserve shares p.shares.supply = .ok slice ∧
      ShareBook.burned (p.shares.accountOf holder) shares now = .ok a ∧
      q.books =
        { totals := { p.totals with
            collateral := p.collateral - collateral
            feeCredit := p.fees.totalCredit + slice
            supply := p.shares.supply - shares }
          settings := p.settings
          row := update p.holderRow holder
            { address := holder
              balance := p.balanceOf holder - shares
              feeDebt := p.debtOf holder
              feeCredit := p.creditOf holder + slice
              locks := a.locks.locks } } := by
  simp only [payout, onShares, onFees, run_bind_eq_ok_iff, run_lift_eq_ok_iff,
    run_onPart_eq_ok_iff, require_eq_ok_iff, Amount.take_eq_ok_iff] at h
  obtain ⟨_, _, hget, _, _, ⟨hbalance, rfl⟩, _, _, ⟨hcollateral, rfl⟩, slice, _,
    ⟨fees, hseize, rfl⟩, _, _, ⟨book, hburn, rfl⟩, _, _, ⟨⟨rfl, -⟩, rfl⟩, hmodify⟩ := h
  cases hget
  cases hmodify
  obtain ⟨hslice, rfl, -⟩ := (FeeBook.seize_ensures _ _ _ _ _).of_ok hseize
  obtain ⟨hle, hsupply, a, ha, haccounts⟩ := (ShareBook.burn_ensures _ _ _ _).of_ok hburn
  refine ⟨hbalance, hle, hcollateral, slice, a, hslice, ha, ?_⟩
  simp only [books, totals, FeeBook.credited, hsupply]
  congr 1
  rw [balanceOf, ShareBook.balanceOf_eq, ← (ShareBook.balance_burned ha).1]
  refine holderRow_update ?_ ?_ ?_
  · exact haccounts
  · exact (update_eq_self _ _).symm
  · exact Amounts.get_set_eq_update _ _ _

/-- A payout of no shares takes off collateral and nothing else. -/
theorem payout_ok_of_none {collateral now : ℕ}
    (h : (payout holder collateral 0 now).run p = .ok () q) :
    q = { p with collateral := p.collateral - collateral } := by
  simp only [payout, onShares, onFees, run_bind_eq_ok_iff, run_lift_eq_ok_iff,
    run_onPart_eq_ok_iff, Amount.take_eq_ok_iff] at h
  obtain ⟨_, _, hget, _, _, ⟨-, rfl⟩, _, _, ⟨-, rfl⟩, slice, _, ⟨fees, hseize, rfl⟩, _, _,
    ⟨book, hburn, rfl⟩, _, _, ⟨⟨rfl, -⟩, rfl⟩, hmodify⟩ := h
  cases hget
  cases hmodify
  have hfees : fees = p.fees := by
    obtain ⟨hslice, rfl, -⟩ := (FeeBook.seize_ensures _ _ _ _ _).of_ok hseize
    obtain ⟨-, rfl⟩ | ⟨-, hshares, -⟩ := slice_ok hslice
    · simp only [FeeBook.credited, Nat.add_zero, Amounts.set_get]
    · exact absurd rfl hshares
  have hbook : book = p.shares := by
    simp only [ShareBook.burn, run_bind_eq_ok_iff, run_lift_eq_ok_iff] at hburn
    obtain ⟨_, _, hgetBook, _, _, ⟨-, rfl⟩, hreturn⟩ := hburn
    cases hgetBook
    cases hreturn
    rfl
  rw [hfees, hbook]

/-- New settings have passed their check and are all that changes. -/
theorem updateSettings_ok {settings : Settings} (h : (updateSettings settings).run p = .ok () q) :
    settings.Valid ∧ q = { p with settings } := by
  simp only [updateSettings, run_bind_eq_ok_iff, run_lift_eq_ok_iff, Settings.check_eq_ok_iff] at h
  obtain ⟨_, _, ⟨hvalid, rfl⟩, hmodify⟩ := h
  cases hmodify
  exact ⟨hvalid, rfl⟩

/-- A transfer of nothing, or to oneself, changes nothing. Any other moves
shares that are neither locked nor needed to back debt. -/
theorem transfer_ok {sender receiver : Address} {amount now : ℕ}
    (h : (transfer sender receiver amount now).run p = .ok () q) :
    ∃ locked indebted, p.lockedBalance sender now = .ok locked ∧
      p.indebtedShares sender = .ok indebted ∧
      amount ≤ p.balanceOf sender - locked ∧ amount ≤ p.balanceOf sender - indebted ∧
      (((amount = 0 ∨ sender = receiver) ∧ q = p) ∨
        (amount ≠ 0 ∧ sender ≠ receiver ∧
          ∃ a, (p.shares.accountOf sender).send amount now = .ok a ∧
            q.books =
              { totals := p.totals
                settings := p.settings
                row := update
                  (update p.holderRow sender { p.holderRow sender with
                    balance := p.balanceOf sender - amount
                    locks := a.locks.locks })
                  receiver { p.holderRow receiver with
                    balance := p.balanceOf receiver + amount } })) := by
  simp only [transfer, Pool.restriction, onShares, run_bind_eq_ok_iff, run_lift_eq_ok_iff,
    run_onPart_eq_ok_iff, Checked.bind_eq_ok_iff] at h
  obtain ⟨_, _, hget, _, _, ⟨⟨locked, hlocked, indebted, hindebted, hreturn⟩, rfl⟩, book, hmove,
    hq⟩ := h
  cases hget
  cases hreturn
  obtain ⟨hallowed, hbook⟩ := (ShareBook.transfer_ensures _ _ _ _ _ _).of_ok hmove
  simp only [Restriction.transferable] at hallowed
  refine ⟨locked, indebted, hlocked, hindebted, hallowed.trans (Nat.min_le_left _ _),
    hallowed.trans (Nat.min_le_right _ _), ?_⟩
  obtain ⟨hnone, rfl⟩ | ⟨hamount, hdiff, hsupply, a, ha, haccounts⟩ := hbook
  · exact Or.inl ⟨hnone, hq.symm⟩
  · refine Or.inr ⟨hamount, hdiff, a, ha, ?_⟩
    subst hq
    simp only [books, totals, hsupply]
    congr 1
    funext other
    rw [holderRow_eq, haccounts, balanceOf, balanceOf, ShareBook.balanceOf_eq,
      ShareBook.balanceOf_eq, ← (Account.balance_send ha).1]
    by_cases hreceiver : other = receiver
    · subst hreceiver
      simp only [update_self, holderRow_eq]
    · by_cases hsender : other = sender
      · subst hsender
        simp only [update_of_ne hreceiver, update_self, holderRow_eq]
      · simp only [update_of_ne hreceiver, update_of_ne hsender, holderRow_eq]

/-- Clearing locks changes nothing but the locks of the holder. -/
theorem cleanup_ok {limit now : ℕ} {done : Bool}
    (h : (cleanup holder limit now).run p = .ok done q) :
    q.books = { p.books with
      row := update p.holderRow holder { p.holderRow holder with
        locks := ((p.shares.locksOf holder).cleanup now limit).locks } } := by
  simp only [cleanup, run_bind_eq_ok_iff] at h
  obtain ⟨_, _, hmodify, _, _, hget, hreturn⟩ := h
  cases hmodify
  cases hget
  cases hreturn
  simp only [books, totals, ShareBook.supply_cleanup]
  congr 1
  rw [holderRow_eq p holder, ShareBook.locksOf_eq]
  refine holderRow_update (a := { p.shares.accountOf holder with locks := _ }) ?_ ?_ ?_
  · exact ShareBook.accountOf_cleanup _ _ _ _
  · exact (update_eq_self _ _).symm
  · exact (update_eq_self _ _).symm

end PooledCollateral.Pool
