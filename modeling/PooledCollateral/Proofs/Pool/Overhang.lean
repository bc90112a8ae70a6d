/-
PooledCollateral.Proofs.Pool.Overhang — how much an operation may lift the
overhang of a pool.

Only three operations round against the other holders or the one they serve: an
entry rounds its debt up, a payout rounds its slice down, an exit of a part of
the shares rounds the debt that leaves and the credit that leaves down. Each
rounding lifts the overhang by at most one (`overhang_operate`), so that a run
lifts it at most by the number of its roundings (`overhang_run`). An exit of all
shares takes along what its holder lies below zero: what the others lose to it
is no more than the deficit that goes.
-/
import PooledCollateral.Proofs.Pool.Neutrality
import PooledCollateral.Proofs.Pool.Run

namespace PooledCollateral

namespace Books

variable {b b' : Books} {holder : Address}

theorem uncovered_of_supply_ne_zero (h : b.totals.supply ≠ 0) : b.uncovered = 0 := if_neg h

theorem uncovered_of_supply_eq_zero (h : b.totals.supply = 0) :
    b.uncovered = max 0 (-(b.netReserve : ℚ)) := if_pos h

theorem perShare_congr (hnet : b'.netReserve = b.netReserve)
    (hsupply : b'.totals.supply = b.totals.supply) : b'.perShare = b.perShare := by
  unfold perShare
  rw [hnet, hsupply]

theorem uncovered_congr (hnet : b'.netReserve = b.netReserve)
    (hsupply : b'.totals.supply = b.totals.supply) : b'.uncovered = b.uncovered := by
  unfold uncovered
  rw [hnet, hsupply]

/-- A change of one row that leaves the virtual reserve and the supply alone. -/
theorem overhang_of_row (hoff : ∀ j, j ≠ holder → b'.row j = b.row j)
    (hnet : b'.netReserve = b.netReserve) (hsupply : b'.totals.supply = b.totals.supply)
    (hown : b'.deficit holder ≤ b.deficit holder) : b'.overhang ≤ b.overhang := by
  refine overhang_mono (fun j => ?_) (uncovered_congr hnet hsupply).le
  by_cases hj : j = holder
  · exact hj ▸ hown
  · rw [deficit, deficit, entitlement_of_row (hoff j hj), perShare_congr hnet hsupply, sub_self,
      zero_mul, add_zero]

/-- A share is worth at least `v` if the virtual reserve pays `v` for every share. -/
theorem le_perShare {v : ℚ} (h : b.totals.supply ≠ 0) (hv : v * b.totals.supply ≤ b.netReserve) :
    v ≤ b.perShare := by
  have hpositive : (0 : ℚ) < b.totals.supply := Nat.cast_pos.mpr (Nat.pos_of_ne_zero h)
  exact (le_div_iff₀ hpositive).mpr hv

/-- A holder whose row stays loses nothing if a share keeps its value. -/
theorem entitlement_le_of_row (hrow : b'.row holder = b.row holder)
    (hshare : b.perShare ≤ b'.perShare) : b.entitlement holder ≤ b'.entitlement holder := by
  rw [entitlement_of_row hrow]
  have hgain := mul_nonneg (sub_nonneg.mpr hshare) (Nat.cast_nonneg (b.row holder).balance)
  linarith

/-- A holder without shares whose row stays keeps its entitlement. -/
theorem entitlement_eq_of_row (hrow : b'.row holder = b.row holder)
    (hbalance : (b.row holder).balance = 0) : b'.entitlement holder = b.entitlement holder := by
  rw [entitlement_of_row hrow, hbalance]
  simp

/-- A neutral change leaves a virtual reserve that lacks nothing once there are no
shares. -/
theorem NeutralAt.uncovered_eq_zero (h : NeutralAt holder b b') : b'.uncovered = 0 := by
  by_cases hsupply : b'.totals.supply = 0
  · have hresidue := h.residue_nonneg
    rw [residue, hsupply, Nat.cast_zero, mul_zero, sub_zero] at hresidue
    rw [uncovered_of_supply_eq_zero hsupply, max_eq_left (neg_nonpos.mpr hresidue)]
  · exact uncovered_of_supply_ne_zero hsupply

/-- A neutral change rounds once, against the holder at which it happens. -/
theorem NeutralAt.overhang_le (h : NeutralAt holder b b') : b'.overhang ≤ b.overhang + 1 := by
  have hkeeps := h.self.1
  refine overhang_le_of_keeps zero_le_one (fun j hj => (h.others hj).1) (by linarith) ?_
  rw [h.uncovered_eq_zero]
  exact uncovered_nonneg b

end Books

namespace Pool

open Function

variable {p q : Pool} {holder : Address}

/-- Who gives up the last shares of the pool gives up all of its own, and
nobody else has any. -/
theorem Sound.last_shares {shares : ℕ} (hp : p.Sound) (hbalance : shares ≤ p.balanceOf holder)
    (hlast : p.shares.supply - shares = 0) :
    (p.balanceOf holder : ℚ) - shares = 0 ∧ ∀ j, j ≠ holder → p.balanceOf j = 0 := by
  have hle : p.balanceOf holder ≤ p.shares.supply := hp.balanced.balance_le holder
  constructor
  · rw [sub_eq_zero]
    exact_mod_cast (show p.balanceOf holder = shares by omega)
  · intro j hj
    have hothers : p.balanceOf j + p.balanceOf holder ≤ p.shares.supply :=
      hp.balanced.balance_add_le hj
    omega

/-! ## Entry -/

theorem overhang_enter {collateral now : ℕ} {price : Option Price} {receipt : EntryReceipt}
    (hp : p.Sound) (h : (enter holder collateral price now).run p = .ok receipt q) :
    q.books.overhang ≤ p.books.overhang + 1 := by
  obtain ⟨quote, hquote, -, hbooks⟩ := enter_ok h
  obtain ⟨hpositive, -, hempty, hlater⟩ := quoteEntry_ok hquote
  have hshares := hpositive hp.settings
  obtain ⟨hoff, hown⟩ := Books.row_replaced (b := p.books) (congrArg Books.row hbooks)
  push_cast at hown
  have hnet : (q.books.netReserve : ℚ) = p.books.netReserve + quote.feeDebt := by
    rw [hbooks]
    simp only [Books.netReserve, books, totals]
    push_cast
    ring
  have hsupply : q.books.totals.supply = p.shares.supply + quote.shares := by rw [hbooks]
  have hne : q.books.totals.supply ≠ 0 := by omega
  have hcovered := Books.uncovered_of_supply_ne_zero hne
  by_cases hzero : p.shares.supply = 0
  · -- nobody has shares: the entrant gets the whole virtual reserve
    have hbalance : ∀ j, p.balanceOf j = 0 := fun j =>
      Nat.le_zero.mp (hzero ▸ hp.balanced.balance_le j)
    have hvalue : q.books.perShare * quote.shares = p.books.netReserve + quote.feeDebt := by
      rw [← hnet, ← Books.perShare_mul_supply hne, hsupply, hzero, Nat.zero_add]
    have hlack : -(p.books.netReserve : ℚ) ≤ p.books.uncovered := by
      rw [Books.uncovered_of_supply_eq_zero hzero]
      exact le_max_right _ _
    have hkeeps : p.books.entitlement holder - p.books.uncovered ≤ q.books.entitlement holder := by
      rw [hown, entitlement_eq, hbalance, Nat.cast_zero, zero_add, hvalue, mul_zero]
      linarith
    have hdeficit := Books.deficit_le_of_entitlement (Books.uncovered_nonneg _) hkeeps
    refine Books.overhang_le_of_off (i := holder) (fun j hj =>
      (Books.entitlement_eq_of_row (hoff j hj) (hbalance j)).ge) ?_
    rw [hcovered]
    linarith
  · exact (enter_neutral hp hzero h).overhang_le

/-! ## Exit -/

/-- An exit takes along the part `t` of what its holder has: of the shares
exactly, of debt and credit but for a rounding of `r`, of the fees at most. -/
structure ExitQuote.Part (p : Pool) (holder : Address) (quote : ExitQuote) (t r : ℚ) : Prop where
  nonneg : 0 ≤ t
  le_one : t ≤ 1
  shares_eq : t * p.balanceOf holder = quote.shares
  fees_le : quote.fees ≤ t * (p.books.entitlement holder + p.books.deficit holder)
  debt_le : quote.debtForgiven ≤ t * p.debtOf holder
  debt_ge : t * p.debtOf holder - r ≤ quote.debtForgiven
  credit_le : quote.creditUsed ≤ t * p.creditOf holder
  credit_ge : t * p.creditOf holder - r ≤ quote.creditUsed

theorem claimableFees_le {claimable : ℕ} (h : p.claimableFees holder = .ok claimable) :
    (claimable : ℚ) ≤ p.books.entitlement holder + p.books.deficit holder := by
  obtain ⟨claim, hclaim, rfl⟩ := claimableFees_ok h
  refine le_trans ?_ (claim_le hclaim)
  exact_mod_cast Nat.min_le_left _ _

/-- All shares take all of it along. -/
theorem ExitQuote.For.all {shares : ℕ} {quote : ExitQuote} (h : ExitQuote.For p holder shares quote)
    (hall : shares = p.balanceOf holder) : ExitQuote.Part p holder quote 1 0 := by
  obtain ⟨claimable, hclaimable, hfees, -⟩ := h.fees_eq
  obtain ⟨hdebt, hcredit⟩ := h.settled_all hall
  exact
    { nonneg := zero_le_one
      le_one := le_rfl
      shares_eq := by rw [one_mul, h.shares_eq, hall]
      fees_le := by
        rw [one_mul, hfees hall]
        exact claimableFees_le hclaimable
      debt_le := by rw [one_mul, hdebt]
      debt_ge := by rw [one_mul, sub_zero, hdebt]
      credit_le := by rw [one_mul, hcredit]
      credit_ge := by rw [one_mul, sub_zero, hcredit] }

/-- Some of the shares take their part along, rounded down. -/
theorem ExitQuote.For.fraction {shares : ℕ} {quote : ExitQuote}
    (h : ExitQuote.For p holder shares quote)
    (hsome : shares ≠ p.balanceOf holder) :
    ExitQuote.Part p holder quote (shares / p.balanceOf holder) (1 - 1 / p.balanceOf holder) := by
  obtain ⟨claimable, hclaimable, -, hfees⟩ := h.fees_eq
  obtain ⟨hdebt, hcredit⟩ := h.settled_part hsome
  have hbalance : p.balanceOf holder ≠ 0 := by
    have hle := h.shares_le
    omega
  have hpositive : (0 : ℚ) < p.balanceOf holder := Nat.cast_pos.mpr (Nat.pos_of_ne_zero hbalance)
  have hfloor : ∀ a : ℕ,
      ((a * shares / p.balanceOf holder : ℕ) : ℚ) ≤ shares / p.balanceOf holder * a ∧
        (shares : ℚ) / p.balanceOf holder * a - (1 - 1 / p.balanceOf holder)
          ≤ (a * shares / p.balanceOf holder : ℕ) := by
    intro a
    obtain ⟨hlow, hhigh⟩ := floor_bounds (a * shares) hbalance
    rw [Nat.cast_mul, mul_comm (a : ℚ), ← div_mul_eq_mul_div] at hlow hhigh
    exact ⟨hlow, by linarith⟩
  have hnonneg : (0 : ℚ) ≤ shares / p.balanceOf holder := by positivity
  exact
    { nonneg := hnonneg
      le_one := (div_le_one hpositive).mpr (Nat.cast_le.mpr h.shares_le)
      shares_eq := by rw [div_mul_cancel₀ _ hpositive.ne', h.shares_eq]
      fees_le := by
        rw [hfees hsome]
        exact (hfloor claimable).1.trans
          (mul_le_mul_of_nonneg_left (claimableFees_le hclaimable) hnonneg)
      debt_le := by rw [hdebt]; exact (hfloor _).1
      debt_ge := by rw [hdebt]; exact (hfloor _).2
      credit_le := by rw [hcredit]; exact (hfloor _).1
      credit_ge := by rw [hcredit]; exact (hfloor _).2 }

/-- Whatever an exit takes along is a part, but for less than one. -/
theorem ExitQuote.For.part {shares : ℕ} {quote : ExitQuote}
    (h : ExitQuote.For p holder shares quote) :
    ∃ t r : ℚ, 0 ≤ r ∧ r < 1 ∧ ExitQuote.Part p holder quote t r := by
  by_cases hall : shares = p.balanceOf holder
  · exact ⟨1, 0, le_rfl, zero_lt_one, h.all hall⟩
  · have hbalance : (1 : ℚ) ≤ p.balanceOf holder := by
      have hle := h.shares_le
      exact_mod_cast (show 1 ≤ p.balanceOf holder by omega)
    have hpositive : (0 : ℚ) < 1 / p.balanceOf holder :=
      one_div_pos.mpr (zero_lt_one.trans_le hbalance)
    refine ⟨_, _, ?_, sub_lt_self _ hpositive, h.fraction hall⟩
    rw [sub_nonneg, div_le_one (zero_lt_one.trans_le hbalance)]
    exact hbalance

theorem carryOut_netReserve {quote : ExitQuote} {now : ℕ}
    (h : (carryOut holder quote now).run p = .ok () q) :
    q.books.netReserve
      = p.books.netReserve - quote.fees - quote.debtForgiven + quote.creditUsed := by
  obtain ⟨⟨hfees, -, -, -⟩, ⟨-, hdebt, -, hcredit⟩, _, -, hbooks⟩ := carryOut_ok h
  rw [hbooks]
  simp only [Books.netReserve, books, totals]
  push_cast [hfees, hdebt, hcredit]
  ring

/-- What an exit leaves to the shares that stay: it lacks at most the part of the
deficit that goes, and the rounding of the credit. -/
theorem carryOut_residue_ge {quote : ExitQuote} {now : ℕ} {t r c : ℚ}
    (hsupply : p.shares.supply ≠ 0) (hpart : ExitQuote.Part p holder quote t r)
    (hcredit : t * p.creditOf holder - c ≤ quote.creditUsed)
    (h : (carryOut holder quote now).run p = .ok () q) :
    -(t * p.books.deficit holder + c) ≤ p.books.residue q.books := by
  obtain ⟨⟨-, -, hle, -⟩, -, _, -, hbooks⟩ := carryOut_ok h
  obtain ⟨_, _, hshares, hfees, hdebt, -, -, -⟩ := hpart
  have hvalue : p.books.perShare * p.shares.supply = p.books.netReserve :=
    Books.perShare_mul_supply hsupply
  have hslice : t * (p.books.perShare * p.balanceOf holder) = p.books.perShare * quote.shares := by
    rw [← hshares]
    ring
  have hnet : (q.books.netReserve : ℚ)
      = p.books.netReserve - quote.fees - quote.debtForgiven + quote.creditUsed := by
    exact_mod_cast carryOut_netReserve h
  have hafter : q.books.totals.supply = p.shares.supply - quote.shares := by rw [hbooks]
  rw [Books.residue, hnet, hafter, Nat.cast_sub hle, mul_sub, hvalue]
  rw [entitlement_eq] at hfees
  linarith

/-- The shares that stay keep what they own, but for a part of the deficit and
the rounding. -/
theorem carryOut_netReserve_ge {quote : ExitQuote} {now : ℕ} {t r : ℚ}
    (hsupply : p.shares.supply ≠ 0) (hpart : ExitQuote.Part p holder quote t r)
    (h : (carryOut holder quote now).run p = .ok () q) :
    p.books.perShare * (p.shares.supply - quote.shares)
      - (t * p.books.deficit holder + r) ≤ q.books.netReserve := by
  obtain ⟨⟨-, -, hle, -⟩, -, _, -, hbooks⟩ := carryOut_ok h
  have hresidue := carryOut_residue_ge hsupply hpart hpart.credit_ge h
  have hafter : q.books.totals.supply = p.shares.supply - quote.shares := by rw [hbooks]
  rw [Books.residue, hafter, Nat.cast_sub hle] at hresidue
  linarith

/-- What stays of the holder lies below zero by its part of the deficit, a
rounding, and what its shares lose in value. -/
theorem carryOut_deficit_le {quote : ExitQuote} {now : ℕ} {t r loss : ℚ} (hr : 0 ≤ r)
    (hloss : 0 ≤ loss) (hshare : p.books.perShare - loss ≤ q.books.perShare)
    (hpart : ExitQuote.Part p holder quote t r)
    (h : (carryOut holder quote now).run p = .ok () q) :
    q.books.deficit holder ≤ (1 - t) * p.books.deficit holder + r
      + loss * (p.balanceOf holder - quote.shares) := by
  obtain ⟨⟨-, -, -, hbalance⟩, ⟨hdebt, -, hcredit, -⟩, _, -, hbooks⟩ := carryOut_ok h
  obtain ⟨-, hown⟩ := Books.row_replaced (b := p.books) (congrArg Books.row hbooks)
  push_cast [hbalance, hdebt, hcredit] at hown
  have hleft : (0 : ℚ) ≤ p.balanceOf holder - quote.shares :=
    sub_nonneg.mpr (Nat.cast_le.mpr hbalance)
  have hrest : 0 ≤ 1 - t := sub_nonneg.mpr hpart.le_one
  have hvalue := mul_le_mul_of_nonneg_right hshare hleft
  have hdeficit := mul_le_mul_of_nonneg_left
    (Books.neg_entitlement_le_deficit p.books holder) hrest
  have hslice : t * (p.books.perShare * p.balanceOf holder) = p.books.perShare * quote.shares := by
    rw [← hpart.shares_eq]
    ring
  have hdebtGe := hpart.debt_ge
  have hcreditLe := hpart.credit_le
  rw [entitlement_eq] at hdeficit
  refine max_le ?_ ?_
  · have hkept := mul_nonneg hrest (Books.deficit_nonneg p.books holder)
    have hlost := mul_nonneg hloss hleft
    linarith
  · rw [hown]
    linarith

/-- An exit of a part: the others lose no more than what the part lies below
zero, and a rounding; the rest of the holder loses another rounding. -/
theorem overhang_carryOut {quote : ExitQuote} {now : ℕ} {t r : ℚ} (hp : p.Sound)
    (hsupply : p.shares.supply ≠ 0) (hr : 0 ≤ r) (hpart : ExitQuote.Part p holder quote t r)
    (h : (carryOut holder quote now).run p = .ok () q) :
    q.books.overhang ≤ p.books.overhang + 2 * r := by
  obtain ⟨⟨-, -, hshares, hbalance⟩, -, _, -, hbooks⟩ := carryOut_ok h
  obtain ⟨hoff, -⟩ := Books.row_replaced (b := p.books) (congrArg Books.row hbooks)
  have hnet := carryOut_netReserve_ge hsupply hpart h
  have hafter : q.books.totals.supply = p.shares.supply - quote.shares := by rw [hbooks]
  have hgone : 0 ≤ t * p.books.deficit holder + r :=
    add_nonneg (mul_nonneg hpart.nonneg (Books.deficit_nonneg _ _)) hr
  have hcovered : p.books.uncovered = 0 := Books.uncovered_of_supply_ne_zero hsupply
  by_cases hlast : p.shares.supply - quote.shares = 0
  · -- the last shares go: nobody else has any, and what is lost is lost to nobody
    obtain ⟨hall, hothers⟩ := hp.last_shares hbalance hlast
    have hsame : quote.shares = p.shares.supply := by omega
    have hshare : p.books.perShare - |p.books.perShare| ≤ q.books.perShare := by
      rw [Books.perShare_of_supply_eq_zero (hafter.trans hlast)]
      exact sub_nonpos.mpr (le_abs_self _)
    have hown := carryOut_deficit_le hr (abs_nonneg _) hshare hpart h
    have hlack : q.books.uncovered ≤ t * p.books.deficit holder + r := by
      rw [Books.uncovered_of_supply_eq_zero (hafter.trans hlast)]
      rw [hsame, sub_self, mul_zero] at hnet
      exact max_le hgone (by linarith)
    refine Books.overhang_le_of_off (i := holder) (fun j hj =>
      (Books.entitlement_eq_of_row (hoff j hj) (hothers j hj)).ge) ?_
    rw [hall] at hown
    linarith
  · have hne : q.books.totals.supply ≠ 0 := hafter ▸ hlast
    have hstay : ((p.shares.supply - quote.shares : ℕ) : ℚ) = p.shares.supply - quote.shares :=
      Nat.cast_sub hshares
    have hpositive : (0 : ℚ) < p.shares.supply - quote.shares := by
      rw [← hstay]
      exact Nat.cast_pos.mpr (Nat.pos_of_ne_zero hlast)
    -- what each share that stays loses
    let loss : ℚ := (t * p.books.deficit holder + r) / (p.shares.supply - quote.shares)
    have hloss : 0 ≤ loss := div_nonneg hgone hpositive.le
    have hpaid : loss * (p.shares.supply - quote.shares) = t * p.books.deficit holder + r :=
      div_mul_cancel₀ _ hpositive.ne'
    have hshare : p.books.perShare - loss ≤ q.books.perShare := by
      refine Books.le_perShare hne ?_
      rw [hafter, hstay, sub_mul, hpaid]
      exact hnet
    have hown := carryOut_deficit_le hr hloss hshare hpart h
    refine Books.overhang_le_of_loss (i := holder) (e := fun j => loss * p.balanceOf j)
      (fun j => mul_nonneg hloss (Nat.cast_nonneg _)) (fun j hj => ?_) ?_
    · rw [Books.entitlement_of_row (hoff j hj)]
      have hchange := mul_le_mul_of_nonneg_right hshare (Nat.cast_nonneg (α := ℚ) (p.balanceOf j))
      show _ - loss * p.balanceOf j ≤ _ + _ * (p.balanceOf j : ℚ)
      linarith
    · have hsum : ∑ j, loss * p.balanceOf j = loss * p.shares.supply := by
        rw [← Finset.mul_sum]
        exact congrArg _ hp.balanced.sum_balance
      rw [hsum, Books.uncovered_of_supply_ne_zero hne, hcovered]
      linarith

theorem overhang_exit {shares now : ℕ} {quote : ExitQuote} (hp : p.Sound)
    (hquote : p.quoteExit holder shares now = .ok quote)
    (h : (carryOut holder quote now).run p = .ok () q) :
    q.books.overhang ≤ p.books.overhang + 2 := by
  have hfor := quoteExit_ok hquote
  obtain ⟨t, r, hr, hone, hpart⟩ := hfor.part
  have hstep := overhang_carryOut hp hfor.supply_ne hr hpart h
  linarith

/-! ## Fees -/

/-- A withdrawal takes no more than what its holder owns. -/
theorem overhang_withdrawFees {amount : ℕ} (h : (withdrawFees holder amount).run p = .ok () q) :
    q.books.overhang ≤ p.books.overhang := by
  obtain ⟨claimable, hclaimable, hle, hreserve, hbooks⟩ := withdrawFees_ok h
  obtain ⟨hoff, hown⟩ := Books.row_replaced (b := p.books) (congrArg Books.row hbooks)
  have hnet : q.books.netReserve = p.books.netReserve := by
    rw [hbooks]
    simp only [Books.netReserve, books, totals]
    push_cast [hreserve]
    ring
  have hsupply : q.books.totals.supply = p.books.totals.supply := by rw [hbooks]; rfl
  have hclaim : (amount : ℚ) ≤ p.books.entitlement holder + p.books.deficit holder :=
    (Nat.cast_le.mpr hle).trans (claimableFees_le hclaimable)
  have hpaid : q.books.entitlement holder = p.books.entitlement holder - amount := by
    rw [hown, Books.perShare_congr hnet hsupply, entitlement_eq]
    push_cast
    show _ * (p.balanceOf holder : ℚ) + p.creditOf holder - _ = _
    ring
  refine Books.overhang_of_row hoff hnet hsupply ?_
  exact max_le (Books.deficit_nonneg _ _) (by linarith)

theorem overhang_payFeeDebt {amount : ℕ} (h : (payFeeDebt holder amount).run p = .ok () q) :
    q.books.overhang ≤ p.books.overhang := by
  obtain ⟨hdebt, htotal, hbooks⟩ := payFeeDebt_ok h
  obtain ⟨hoff, hown⟩ := Books.row_replaced (b := p.books) (congrArg Books.row hbooks)
  have hnet : q.books.netReserve = p.books.netReserve := by
    rw [hbooks]
    simp only [Books.netReserve, books, totals]
    push_cast [htotal]
    ring
  have hsupply : q.books.totals.supply = p.books.totals.supply := by rw [hbooks]; rfl
  have hpaid : q.books.entitlement holder = p.books.entitlement holder + amount := by
    rw [hown, Books.perShare_congr hnet hsupply, entitlement_eq]
    push_cast [hdebt]
    show _ * (p.balanceOf holder : ℚ) + p.creditOf holder - _ = _
    ring
  have hnonneg : (0 : ℚ) ≤ amount := Nat.cast_nonneg _
  refine Books.overhang_of_row hoff hnet hsupply (max_le_max le_rfl ?_)
  linarith

theorem overhang_depositFees {amount : ℕ} (h : (depositFees amount).run p = .ok () q) :
    q.books.overhang ≤ p.books.overhang := by
  have hq := depositFees_ok h
  have hnet : q.books.netReserve = p.books.netReserve + amount := by
    rw [hq]
    simp only [Books.netReserve, books, totals]
    push_cast
    ring
  have hsupply : q.books.totals.supply = p.books.totals.supply := by rw [hq]; rfl
  have hmore : (p.books.netReserve : ℚ) ≤ q.books.netReserve := by
    rw [hnet]
    push_cast
    exact le_add_of_nonneg_right (Nat.cast_nonneg _)
  have hshare : p.books.perShare ≤ q.books.perShare := by
    unfold Books.perShare
    rw [hsupply]
    exact div_le_div_of_nonneg_right hmore (Nat.cast_nonneg _)
  refine Books.overhang_mono (fun j => ?_) ?_
  · have hrow : q.books.row j = p.books.row j := by rw [hq]; rfl
    exact max_le_max le_rfl (neg_le_neg (Books.entitlement_le_of_row hrow hshare))
  · unfold Books.uncovered
    rw [hsupply]
    split
    · exact max_le_max le_rfl (neg_le_neg hmore)
    · exact le_rfl

theorem overhang_receiveCollateral {amount : ℕ} (h : (receiveCollateral amount).run p = .ok () q) :
    q.books.overhang ≤ p.books.overhang := by
  rw [receiveCollateral_ok h]
  exact le_rfl

/-! ## Administration -/

/-- The slice of seized shares is rounded down against their holder, which gets
it as credit. -/
theorem overhang_payout {collateral shares now : ℕ} (hp : p.Sound)
    (h : (payout holder collateral shares now).run p = .ok () q) :
    q.books.overhang ≤ p.books.overhang + 1 := by
  by_cases hshares : shares = 0
  · subst hshares
    rw [payout_ok_of_none h]
    exact le_add_of_nonneg_right zero_le_one
  · exact (payout_neutral hp hshares h).overhang_le

/-- The shares that stay with the sender back its net debt. -/
theorem entitlement_of_transferable {amount indebted : ℕ} (hp : p.Sound)
    (hindebted : p.indebtedShares holder = .ok indebted) (hamount : amount ≠ 0)
    (hle : amount ≤ p.balanceOf holder - indebted) :
    0 ≤ p.books.perShare ∧
      (0 ≤ p.books.entitlement holder - p.books.perShare * amount ∨ p.books.perShare = 0) := by
  obtain ⟨hcredit, hrest⟩ := indebtedShares_ok hindebted
  have hnet := netReserve_eq_sub hcredit
  have hshare : 0 ≤ p.books.perShare := Books.perShare_nonneg (by rw [hnet]; positivity)
  have hleft : (0 : ℚ) ≤ p.balanceOf holder - amount :=
    sub_nonneg.mpr (Nat.cast_le.mpr (by omega))
  refine ⟨hshare, ?_⟩
  rw [entitlement_eq]
  obtain ⟨hnone | hnone, -⟩ | ⟨shares, hshares, rfl⟩ := hrest
  · left
    have hdebt : (p.debtOf holder : ℚ) ≤ p.creditOf holder :=
      Nat.cast_le.mpr (Nat.le_of_sub_eq_zero hnone)
    have hvalue := mul_nonneg hshare hleft
    linarith
  · right
    rw [Books.perShare, hnet, hnone]
    simp
  · left
    have hfree : shares + amount ≤ p.balanceOf holder := by omega
    have hsupply : p.shares.supply ≠ 0 := by
      have hall : p.balanceOf holder ≤ p.shares.supply := hp.balanced.balance_le holder
      omega
    have hpositive : (0 : ℚ) < p.shares.supply := Nat.cast_pos.mpr (Nat.pos_of_ne_zero hsupply)
    have hback : (p.fees.netDebt holder : ℚ) ≤ p.books.perShare * shares := by
      rw [Books.perShare, hnet, div_mul_eq_mul_div, Int.cast_natCast]
      refine (le_div_iff₀ hpositive).mpr ?_
      rw [mul_comm _ (shares : ℚ)]
      exact_mod_cast (Amount.mulDivUp_covers hshares).1
    have hkept : p.books.perShare * shares ≤ p.books.perShare * (p.balanceOf holder - amount) := by
      refine mul_le_mul_of_nonneg_left ?_ hshare
      rw [le_sub_iff_add_le]
      exact_mod_cast hfree
    have hdebt : (p.debtOf holder : ℚ) ≤ p.creditOf holder + p.fees.netDebt holder := by
      exact_mod_cast (show p.debtOf holder ≤ p.creditOf holder + p.fees.netDebt holder by
        unfold debtOf creditOf FeeBook.netDebt
        omega)
    linarith

section Transfers

variable {sender receiver other : Address} {amount now : ℕ}

/-- A transfer moves what its shares own from the sender to the receiver. -/
structure Handed (p q : Pool) (sender receiver : Address) (amount : ℕ) : Prop where
  totals_eq : q.books.totals = p.books.totals
  entitlement_sender : q.books.entitlement sender
    = p.books.entitlement sender - p.books.perShare * amount
  entitlement_receiver : q.books.entitlement receiver
    = p.books.entitlement receiver + p.books.perShare * amount
  off : ∀ other, other ≠ sender → other ≠ receiver → q.books.row other = p.books.row other

theorem transfer_handed (hamount : amount ≠ 0) (hdiff : sender ≠ receiver)
    (h : (transfer sender receiver amount now).run p = .ok () q) :
    Handed p q sender receiver amount := by
  obtain ⟨_, _, -, -, -, hle, ⟨hnone, -⟩ | ⟨-, -, a, -, hbooks⟩⟩ := transfer_ok h
  · exact absurd hnone (not_or.mpr ⟨hamount, hdiff⟩)
  · have htotals : q.books.totals = p.books.totals := by rw [hbooks]; rfl
    have hshare : q.books.perShare = p.books.perShare :=
      Books.perShare_congr (by rw [Books.netReserve, htotals]; rfl) (by rw [htotals])
    refine ⟨htotals, ?_, ?_, fun other hsender hreceiver => ?_⟩
    · have hrow : q.books.row sender = { p.holderRow sender with
          balance := p.balanceOf sender - amount, locks := a.locks.locks } := by
        rw [hbooks]
        simp only [update_of_ne hdiff, update_self]
      rw [Books.entitlement, hshare, hrow, entitlement_eq]
      push_cast [show amount ≤ p.balanceOf sender by omega]
      show _ + (p.creditOf sender : ℚ) - p.debtOf sender = _
      ring
    · have hrow : q.books.row receiver
          = { p.holderRow receiver with balance := p.balanceOf receiver + amount } := by
        rw [hbooks]
        exact update_self _ _ _
      rw [Books.entitlement, hshare, hrow, entitlement_eq]
      push_cast
      show _ + (p.creditOf receiver : ℚ) - p.debtOf receiver = _
      ring
    · rw [hbooks]
      simp only [update_of_ne hreceiver, update_of_ne hsender]
      rfl

theorem Handed.netReserve_eq (h : Handed p q sender receiver amount) :
    q.books.netReserve = p.books.netReserve := by
  unfold Books.netReserve
  rw [h.totals_eq]

theorem Handed.supply_eq (h : Handed p q sender receiver amount) :
    q.books.totals.supply = p.books.totals.supply :=
  congrArg Totals.supply h.totals_eq

/-- Nobody else's entitlement moves. -/
theorem Handed.entitlement_other (h : Handed p q sender receiver amount) (hsender : other ≠ sender)
    (hreceiver : other ≠ receiver) : q.books.entitlement other = p.books.entitlement other := by
  rw [Books.entitlement_of_row (h.off other hsender hreceiver),
    Books.perShare_congr h.netReserve_eq h.supply_eq, sub_self, zero_mul, add_zero]

/-- Shares that leave by a transfer are not needed to back debt. -/
theorem overhang_transfer (hp : p.Sound)
    (h : (transfer sender receiver amount now).run p = .ok () q) :
    q.books.overhang ≤ p.books.overhang := by
  obtain ⟨_, indebted, -, hindebted, -, hle, hmove⟩ := transfer_ok h
  obtain ⟨-, rfl⟩ | ⟨hamount, hdiff, -⟩ := hmove
  · exact le_rfl
  · have hmoved := transfer_handed hamount hdiff h
    obtain ⟨hvalue, hback⟩ := entitlement_of_transferable hp hindebted hamount hle
    refine Books.overhang_mono (fun j => ?_)
      (Books.uncovered_congr hmoved.netReserve_eq hmoved.supply_eq).le
    by_cases hreceiver : j = receiver
    · subst hreceiver
      have hgain := mul_nonneg hvalue (Nat.cast_nonneg (α := ℚ) amount)
      have hreceived := hmoved.entitlement_receiver
      exact max_le_max le_rfl (by linarith)
    · by_cases hsender : j = sender
      · subst hsender
        have hkept := hmoved.entitlement_sender
        obtain hback | hnone := hback
        · exact max_le (Books.deficit_nonneg _ _) (by
            have hdeficit := Books.deficit_nonneg p.books j
            linarith)
        · refine max_le_max le_rfl (neg_le_neg ?_)
          rw [hkept, hnone, zero_mul, sub_zero]
      · rw [Books.deficit, Books.deficit, hmoved.entitlement_other hsender hreceiver]

end Transfers

theorem overhang_updateSettings {settings : Settings}
    (h : (updateSettings settings).run p = .ok () q) :
    q.books.overhang ≤ p.books.overhang := by
  rw [(updateSettings_ok h).2]
  exact le_rfl

theorem overhang_cleanup {limit now : ℕ} {done : Bool}
    (h : (cleanup holder limit now).run p = .ok done q) : q.books.overhang ≤ p.books.overhang := by
  have hbooks := cleanup_ok h
  obtain ⟨hoff, hown⟩ := Books.row_replaced (b := p.books) (congrArg Books.row hbooks)
  have hnet : q.books.netReserve = p.books.netReserve := by rw [hbooks]; rfl
  have hsupply : q.books.totals.supply = p.books.totals.supply := by rw [hbooks]
  refine Books.overhang_of_row hoff hnet hsupply (max_le_max le_rfl (neg_le_neg ?_))
  rw [hown, Books.perShare_congr hnet hsupply]
  exact le_rfl

/-! ## Runs -/

/-- How often an operation may round against its holder or the others. -/
def Operation.roundings : Operation → ℕ
  | .enter .. => 1
  | .exit .. => 2
  | .selfClose .. => 2
  | .payout .. => 1
  | _ => 0

variable {op : Operation} {ops : List Operation}

theorem overhang_operate (hp : p.Sound) (h : (operate op).run p = .ok () q) :
    q.books.overhang ≤ p.books.overhang + op.roundings := by
  cases op with
  | enter holder collateral price now =>
    obtain ⟨_, henter⟩ := operate_enter_ok h
    simpa [Operation.roundings] using overhang_enter hp henter
  | exit holder shares backing now =>
    obtain ⟨quote, hplan, hcarry⟩ := operate_exit_ok h
    exact overhang_exit hp (planExit_ok hplan) hcarry
  | selfClose holder shares backing now =>
    obtain ⟨plan, hplan, hcarry⟩ := operate_selfClose_ok h
    exact overhang_exit hp (planSelfClose_ok hplan).1 hcarry
  | withdrawFees => simpa [Operation.roundings] using overhang_withdrawFees h
  | payFeeDebt => simpa [Operation.roundings] using overhang_payFeeDebt h
  | depositFees => simpa [Operation.roundings] using overhang_depositFees h
  | receiveCollateral => simpa [Operation.roundings] using overhang_receiveCollateral h
  | payout => simpa [Operation.roundings] using overhang_payout hp h
  | updateSettings => simpa [Operation.roundings] using overhang_updateSettings h
  | transfer => simpa [Operation.roundings] using overhang_transfer hp h
  | cleanup holder limit now =>
    obtain ⟨_, hclean⟩ := operate_cleanup_ok h
    simpa [Operation.roundings] using overhang_cleanup hclean

/-- How often the operations of a run may round. -/
def roundings (ops : List Operation) : ℕ := (ops.map Operation.roundings).sum

/-- By induction on the run: what each operation adds is counted by its
roundings. -/
theorem overhang_run (hp : p.Sound) (h : Run p ops q) :
    q.books.overhang ≤ p.books.overhang + roundings ops := by
  induction ops generalizing p with
  | nil =>
    rw [run_nil.mp h]
    simp [roundings]
  | cons op ops ih =>
    obtain ⟨m, hop, hops⟩ := run_cons.mp h
    have hfirst := overhang_operate hp hop
    have hrest := ih (operate_sound hop hp) hops
    simp only [roundings, List.map_cons, List.sum_cons, Nat.cast_add] at hrest ⊢
    linarith

/-- A fresh pool has no overhang. -/
theorem overhang_create {settings : Settings} (h : create settings = .ok p) :
    p.books.overhang = 0 := by
  obtain ⟨-, rfl⟩ := create_ok h
  have hnet : (Pool.books ⟨settings, 0, 0, ShareBook.empty, FeeBook.empty⟩).netReserve = 0 := rfl
  have hdeficit : ∀ j,
      (Pool.books ⟨settings, 0, 0, ShareBook.empty, FeeBook.empty⟩).deficit j = 0 := by
    intro j
    rw [Books.deficit, entitlement_eq, Books.perShare, hnet]
    simp [creditOf, debtOf, FeeBook.empty]
  rw [Books.overhang, Finset.sum_congr rfl fun j _ => hdeficit j,
    Books.uncovered_of_supply_eq_zero rfl, hnet]
  simp

end Pool

end PooledCollateral
