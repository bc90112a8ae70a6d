/-
PooledCollateral.FeeBook — who may claim how much of a growing fee reserve.

Fees are shared out without touching every holder when they come in. Each
share owns an equal slice of the *virtual reserve*: the fees held, plus all
outstanding debt, less all credit. An entrant is charged, as debt, the slice
that its new shares would otherwise take from the others; a withdrawal is
charged as debt too. A holder's claim is

    virtual reserve * balance / supply + credit - debt

and the claims of all holders add up to the fees held, but for rounding.

When shares are seized, the slice they owned moves into the holder's credit and
leaves the virtual reserve with them, so that nobody else's claim moves and the
holder keeps what it had earned.
-/
import PooledCollateral.Amount
import PooledCollateral.Table.Amounts

namespace PooledCollateral

/-- Fee debt and credit per holder, with their totals. -/
structure FeeBook where
  totalDebt : Nat
  totalCredit : Nat
  debts : Amounts
  /-- What holders keep of the fees of seized shares. -/
  credits : Amounts

/-- The debt and the credit that go with shares that leave. -/
structure Settlement where
  debt : Nat
  credit : Nat
  deriving DecidableEq

namespace FeeBook

/-- A book without debt and credit. -/
def empty : FeeBook := ⟨0, 0, Amounts.empty, Amounts.empty⟩

/-! ## Queries -/

/-- The debt of a holder that its credit does not cover. -/
def netDebt (book : FeeBook) (holder : Address) : Nat :=
  book.debts.get holder - book.credits.get holder

/-- Fees held plus all debt, less all credit. -/
def virtualReserve (book : FeeBook) (reserve : Nat) : Checked Nat := do
  Amount.sub (← Amount.add reserve book.totalDebt) book.totalCredit

/-- Held fees on which no holder has a claim, once there are no shares. -/
def unowned (book : FeeBook) (reserve : Nat) : Nat :=
  reserve - (book.totalCredit - book.totalDebt)

/-- The slice of the virtual reserve that belongs to `shares` of the supply. -/
def slice (book : FeeBook) (reserve shares supply : Nat) : Checked Nat := do
  if supply = 0 ∨ shares = 0 then return 0
  Amount.mulDiv (← book.virtualReserve reserve) shares supply

/-- The fees a holder may claim: nothing if its debt exceeds what it owns. -/
def claimable (book : FeeBook) (holder : Address) (reserve balance supply : Nat) : Checked Nat := do
  let owned ← Amount.add (← book.slice reserve balance supply) (book.credits.get holder)
  return owned - book.debts.get holder

/-- The shares of a holder that back its net debt. -/
def indebtedShares (book : FeeBook) (holder : Address) (reserve balance supply : Nat) :
    Checked Nat := do
  let reserve ← book.virtualReserve reserve
  if book.netDebt holder = 0 ∨ reserve = 0 then return 0
  return min (← Amount.mulDivUp (book.netDebt holder) supply reserve) balance

/-- The debt to charge for shares minted on top of a supply: their slice,
rounded up. Where there was no supply the entrant takes over the net debt
left behind, which is meant to leave it a claim only on what nobody else owns. -/
def entryDebt (book : FeeBook) (reserve shares supply : Nat) : Checked Nat := do
  if supply = 0 then return book.totalDebt - book.totalCredit
  Amount.mulDivUp (← book.virtualReserve reserve) shares supply

/-- The debt and the credit that go when `shares` of a balance leave. -/
def settlement (book : FeeBook) (holder : Address) (shares balance : Nat) : Checked Settlement := do
  let debt := book.debts.get holder
  let credit := book.credits.get holder
  if balance ≤ shares then return { debt, credit }
  return { debt := ← Amount.mulDiv debt shares balance
           credit := ← Amount.mulDiv credit shares balance }

/-! ## Changes -/

/-- Adds debt to a holder. -/
def charge (holder : Address) (amount : Nat) : Action FeeBook Unit := do
  let book ← get
  if amount = 0 then return
  let totalDebt ← Amount.add book.totalDebt amount
  let debt ← Amount.add (book.debts.get holder) amount
  set { book with totalDebt, debts := book.debts.set holder debt }

/-- Takes debt off a holder. -/
def reduce (holder : Address) (amount : Nat) : Action FeeBook Unit := do
  let book ← get
  let debt := book.debts.get holder
  require (amount ≤ debt) (.exceedsDebt amount debt)
  if amount = 0 then return
  let totalDebt ← Amount.sub book.totalDebt amount
  let left ← Amount.take debt amount
  set { book with totalDebt, debts := book.debts.set holder left }

/-- Moves the slice of seized shares into the credit of their holder, and
returns it. The shares still belong to the supply. -/
def seize (holder : Address) (reserve shares supply : Nat) : Action FeeBook Nat := do
  let book ← get
  let slice ← book.slice reserve shares supply
  if slice = 0 then return 0
  let totalCredit ← Amount.add book.totalCredit slice
  let credit ← Amount.add (book.credits.get holder) slice
  set { book with totalCredit, credits := book.credits.set holder credit }
  return slice

/-- Takes the debt and the credit of leaving shares off a holder. -/
def settle (holder : Address) (s : Settlement) : Action FeeBook Unit := do
  let credit := (← get).credits.get holder
  require (s.credit ≤ credit) .overflow
  reduce holder s.debt
  let book ← get
  let totalCredit ← Amount.sub book.totalCredit s.credit
  let left ← Amount.take credit s.credit
  set { book with totalCredit, credits := book.credits.set holder left }

end FeeBook

end PooledCollateral
