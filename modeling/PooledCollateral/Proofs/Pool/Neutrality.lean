/-
PooledCollateral.Proofs.Pool.Neutrality — shares that come and go without moving
what the other holders own of the fees, but for a rounding.

What a share was worth before a change is compared with what the shares own after
it. The difference is the `residue` of the change, and every holder gets its
`portion` of it (`entitlement_of_portion`). An entry pays for the slice of its
shares rounded up, a payout gives up the slice of its shares rounded down; so the
residue of either is less than a unit, and it is their own holder who pays it
(`enter_neutral`, `payout_neutral`). Such a change is `NeutralAt` that holder:
everybody else gains less than a unit, and the holder loses less than one.
-/
import PooledCollateral.Proofs.Pool.Entitlement

namespace PooledCollateral

namespace Books

variable {b b' : Books} {holder other : Address}

/-! ## Residues -/

/-- The part of the supply that a holder has; nothing if there are no shares. -/
def portion (b : Books) (holder : Address) : ℚ := (b.row holder).balance / b.totals.supply

/-- What the shares after a change own beyond what each of them was worth before. -/
def residue (b b' : Books) : ℚ := b'.netReserve - b.perShare * b'.totals.supply

theorem portion_nonneg (b : Books) (holder : Address) : 0 ≤ b.portion holder := by
  unfold portion
  positivity

theorem Balanced.portion_le_one (hb : b.Balanced) (holder : Address) : b.portion holder ≤ 1 :=
  div_le_one_of_le₀ (Nat.cast_le.mpr (hb.balance_le holder)) (Nat.cast_nonneg _)

/-- The shares of a holder after a change are worth what they were worth before it,
and a portion of the residue. -/
theorem Balanced.perShare_mul_balance (hb : b'.Balanced) (b : Books) (holder : Address) :
    b'.perShare * (b'.row holder).balance
      = b.perShare * (b'.row holder).balance + b.residue b' * b'.portion holder := by
  by_cases hsupply : b'.totals.supply = 0
  · have hnone : (b'.row holder).balance = 0 := Nat.le_zero.mp (hsupply ▸ hb.balance_le holder)
    simp [portion, hnone]
  · have hne : (b'.totals.supply : ℚ) ≠ 0 := Nat.cast_ne_zero.mpr hsupply
    rw [residue, ← perShare_mul_supply hsupply, ← sub_mul, portion, mul_assoc,
      mul_div_cancel₀ _ hne, sub_mul]
    ring

/-- A holder whose row stays gets its portion of the residue. -/
theorem Balanced.entitlement_of_portion (hb : b'.Balanced) (hrow : b'.row holder = b.row holder) :
    b'.entitlement holder = b.entitlement holder + b.residue b' * b'.portion holder := by
  have hshares := hb.perShare_mul_balance b holder
  rw [hrow] at hshares
  rw [entitlement, entitlement, hrow, hshares]
  ring

/-- A holder whose row stays loses no more than the residue lacks. -/
theorem Balanced.entitlement_ge_of_residue {c : ℚ} (hb : b'.Balanced)
    (hrow : b'.row holder = b.row holder) (hc : 0 ≤ c) (hresidue : -c ≤ b.residue b') :
    b.entitlement holder - c ≤ b'.entitlement holder := by
  have hlost := mul_le_mul_of_nonneg_right hresidue (portion_nonneg b' holder)
  have hround := mul_le_of_le_one_right hc (hb.portion_le_one holder)
  rw [hb.entitlement_of_portion hrow]
  linarith

/-- The rows and the replaced holder's entitlement after one row has been replaced. -/
theorem row_replaced {r : HolderRow} (h : b'.row = Function.update b.row holder r) :
    (∀ j, j ≠ holder → b'.row j = b.row j) ∧
      b'.entitlement holder = b'.perShare * r.balance + r.feeCredit - r.feeDebt := by
  refine ⟨fun j hj => ?_, ?_⟩
  · rw [h, Function.update_of_ne hj]
  · rw [entitlement, h, Function.update_self]

/-! ## Neutral changes -/

/-- A change at one holder whose residue is a rounding at that holder's expense; the
rows of the others and the fees held stay. -/
structure NeutralAt (holder : Address) (b b' : Books) : Prop where
  balanced : b'.Balanced
  off : ∀ other, other ≠ holder → b'.row other = b.row other
  feeReserve_eq : b'.totals.feeReserve = b.totals.feeReserve
  residue_nonneg : 0 ≤ b.residue b'
  residue_lt : b.residue b' < 1
  own : b'.entitlement holder = b.entitlement holder - b.residue b' * (1 - b'.portion holder)

/-- A change of one row is neutral if, at the old worth of a share, the new row is worth
what the old one was, less the residue. -/
theorem Balanced.neutralAt {r : HolderRow} (hb : b'.Balanced)
    (hrow : b'.row = Function.update b.row holder r)
    (hheld : b'.totals.feeReserve = b.totals.feeReserve)
    (hworth : b.perShare * r.balance + r.feeCredit - r.feeDebt
      = b.entitlement holder - b.residue b')
    (hnonneg : 0 ≤ b.residue b') (hlt : b.residue b' < 1) : NeutralAt holder b b' := by
  obtain ⟨hoff, hown⟩ := row_replaced hrow
  have hshares := hb.perShare_mul_balance b holder
  rw [hrow, Function.update_self] at hshares
  refine ⟨hb, hoff, hheld, hnonneg, hlt, ?_⟩
  rw [hown, hshares]
  linarith

/-- Everybody else gains less than a unit. -/
theorem NeutralAt.others (h : NeutralAt holder b b') (hother : other ≠ holder) :
    b.entitlement other ≤ b'.entitlement other ∧
      b'.entitlement other < b.entitlement other + 1 := by
  have hgain := mul_nonneg h.residue_nonneg (portion_nonneg b' other)
  have hround := mul_le_of_le_one_right h.residue_nonneg (h.balanced.portion_le_one other)
  have hlt := h.residue_lt
  rw [h.balanced.entitlement_of_portion (h.off other hother)]
  exact ⟨by linarith, by linarith⟩

/-- The holder itself loses less than a unit. -/
theorem NeutralAt.self (h : NeutralAt holder b b') :
    b.entitlement holder < b'.entitlement holder + 1 ∧
      b'.entitlement holder ≤ b.entitlement holder := by
  have hrest : 0 ≤ 1 - b'.portion holder := sub_nonneg.mpr (h.balanced.portion_le_one holder)
  have hloss := mul_nonneg h.residue_nonneg hrest
  have hround := mul_le_of_le_one_right h.residue_nonneg
    (sub_le_self (1 : ℚ) (portion_nonneg b' holder))
  have hlt := h.residue_lt
  rw [h.own]
  exact ⟨by linarith, by linarith⟩

/-- A virtual reserve that is not negative stays so. -/
theorem NeutralAt.netReserve_nonneg (h : NeutralAt holder b b') (hnet : 0 ≤ b.netReserve) :
    0 ≤ b'.netReserve := by
  have hvalue := mul_nonneg (perShare_nonneg hnet) (Nat.cast_nonneg (α := ℚ) b'.totals.supply)
  have hresidue := h.residue_nonneg
  unfold residue at hresidue
  have hpaid : (0 : ℚ) ≤ b'.netReserve := by linarith
  exact_mod_cast hpaid

end Books

namespace Pool

variable {p q : Pool} {holder : Address}

/-- The debt of an entry is the exact part of the virtual reserve, rounded up. -/
theorem mulDivUp_bounds {shares debt : ℕ}
    (hcredit : p.fees.totalCredit ≤ p.feeReserve + p.fees.totalDebt)
    (h : Amount.mulDivUp (p.feeReserve + p.fees.totalDebt - p.fees.totalCredit) shares
      p.shares.supply = .ok debt) :
    p.books.perShare * shares ≤ debt ∧ (debt : ℚ) < p.books.perShare * shares + 1 := by
  have hsupply : p.shares.supply ≠ 0 := (Amount.mulDivUp_eq_ok_iff.mp h).1
  have hcovers := Amount.mulDivUp_covers h
  have hpositive : (0 : ℚ) < p.shares.supply := Nat.cast_pos.mpr (Nat.pos_of_ne_zero hsupply)
  rw [perShare_mul_eq_div hcredit, div_add_one hpositive.ne', div_le_iff₀ hpositive, lt_div_iff₀ hpositive]
  exact_mod_cast hcovers

/-- An entry into a pool that has shares is neutral at the entrant: its debt is the
slice of its shares, rounded up. -/
theorem enter_neutral {collateral now : ℕ} {price : Option Price} {receipt : EntryReceipt}
    (hp : p.Sound) (hsupply : p.shares.supply ≠ 0)
    (h : (enter holder collateral price now).run p = .ok receipt q) :
    Books.NeutralAt holder p.books q.books := by
  have hq : q.books.Balanced := (((enter_confined _ _ _ _ p).of_ok h).sound hp).balanced
  obtain ⟨quote, hquote, -, hbooks⟩ := enter_ok h
  obtain ⟨-, -, -, hlater⟩ := quoteEntry_ok hquote
  obtain ⟨-, hcredit, hdebt⟩ := hlater hsupply
  obtain ⟨hup, hround⟩ := mulDivUp_bounds hcredit hdebt
  have hresidue : p.books.residue q.books = quote.feeDebt - p.books.perShare * quote.shares := by
    have hvalue : p.books.perShare * p.shares.supply = p.books.netReserve :=
      Books.perShare_mul_supply hsupply
    have hnet : (q.books.netReserve : ℚ) = p.books.netReserve + quote.feeDebt := by
      rw [hbooks]
      simp only [Books.netReserve, books, totals]
      push_cast
      ring
    have hafter : q.books.totals.supply = p.shares.supply + quote.shares := by rw [hbooks]
    rw [Books.residue, hnet, hafter, ← hvalue]
    push_cast
    ring
  refine hq.neutralAt (congrArg Books.row hbooks) (by rw [hbooks]; rfl) ?_ ?_ ?_
  · rw [hresidue, entitlement_eq]
    push_cast
    ring
  · rw [hresidue]
    linarith
  · rw [hresidue]
    linarith

/-- A payout of shares is neutral at their holder: what becomes its credit is the
slice of the shares, rounded down. -/
theorem payout_neutral {collateral shares now : ℕ} (hp : p.Sound) (hshares : shares ≠ 0)
    (h : (payout holder collateral shares now).run p = .ok () q) :
    Books.NeutralAt holder p.books q.books := by
  have hq : q.books.Balanced := (((payout_confined _ _ _ _ p).of_ok h).sound hp).balanced
  obtain ⟨hbalance, hle, -, slice, _, hslice, -, hbooks⟩ := payout_ok h
  obtain ⟨hlow, hhigh⟩ := slice_bounds hslice
  have hresidue : p.books.residue q.books = p.books.perShare * shares - slice := by
    have hvalue : p.books.perShare * p.shares.supply = p.books.netReserve :=
      Books.perShare_mul_supply (show p.shares.supply ≠ 0 by omega)
    have hnet : (q.books.netReserve : ℚ) = p.books.netReserve - slice := by
      rw [hbooks]
      simp only [Books.netReserve, books, totals]
      push_cast
      ring
    have hafter : q.books.totals.supply = p.shares.supply - shares := by rw [hbooks]
    rw [Books.residue, hnet, hafter, ← hvalue, Nat.cast_sub hle]
    ring
  refine hq.neutralAt (congrArg Books.row hbooks) (by rw [hbooks]; rfl) ?_ ?_ ?_
  · rw [hresidue, entitlement_eq, Nat.cast_sub hbalance]
    push_cast
    ring
  · rw [hresidue]
    linarith
  · rw [hresidue]
    linarith

end Pool

end PooledCollateral
