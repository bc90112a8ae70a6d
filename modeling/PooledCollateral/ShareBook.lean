/-
PooledCollateral.ShareBook — who owns the shares of a pool.

The book keeps one account per holder, a balance and a queue of locks, and the
number of shares outstanding. Shares are minted under a lock, burned without
regard to locks (free shares first, then the oldest locks), and transferred
without their locks. An account that a burn or a transfer leaves empty is
closed.
-/
import PooledCollateral.LockQueue
import PooledCollateral.Restriction
import PooledCollateral.Table.Basic

namespace PooledCollateral

/-! ## Accounts -/

/-- The shares of one holder. -/
structure Account where
  balance : Nat
  /-- The locks on shares minted to this holder. -/
  locks : LockQueue
  deriving DecidableEq

namespace Account

/-- An account without shares and locks. -/
def empty : Account := ⟨0, LockQueue.empty⟩

/-- Whether the account holds neither shares nor locks. -/
def isEmpty (a : Account) : Bool := a.balance = 0 && a.locks.locks.isEmpty

/-- The shares of the balance that are still locked. -/
def lockedBalance (a : Account) (now : Nat) : Checked Nat := do
  return min (← a.locks.lockedAmount now) a.balance

/-- The account after some of its shares are burned. Locks are released only
for the part that the free shares do not cover; ended locks that the burned
shares account for are dropped. -/
def burn (a : Account) (shares now : Nat) : Checked Account := do
  let locked ← a.locks.lockedAmount now
  let balance ← Amount.take a.balance shares
  let released ←
    if balance < locked then a.locks.consumeLocked now (locked - balance) else pure a.locks
  return { balance, locks := ← released.consumeExpired now shares }

/-- The account after some of its shares are sent away. -/
def send (a : Account) (shares now : Nat) : Checked Account := do
  let balance ← Amount.take a.balance shares
  return { balance, locks := ← a.locks.consumeExpired now shares }

end Account

/-! ## The book -/

/-- The accounts of all holders. -/
structure ShareBook where
  /-- Shares outstanding. -/
  supply : Nat
  accounts : Table Account

namespace ShareBook

/-- A book without shares. -/
def empty : ShareBook := ⟨0, Table.empty⟩

/-- The shares of a holder. -/
def balanceOf (book : ShareBook) (holder : Address) : Nat :=
  ((book.accounts.get? holder).map (·.balance)).getD 0

/-- The locks of a holder. -/
def locksOf (book : ShareBook) (holder : Address) : LockQueue :=
  ((book.accounts.get? holder).map (·.locks)).getD LockQueue.empty

/-- The shares of a holder that are still locked. -/
def lockedBalance (book : ShareBook) (holder : Address) (now : Nat) : Checked Nat :=
  match book.accounts.get? holder with
  | none => .ok 0
  | some account => account.lockedBalance now

/-- The sum of all balances. -/
def totalBalance (book : ShareBook) : Nat := book.accounts.sum (·.balance)

/-- Accounts with the one of a holder replaced, or closed if it is empty. -/
def settle (accounts : Table Account) (holder : Address) (account : Account) : Table Account :=
  if account.isEmpty then accounts.erase holder else accounts.insert holder account

/-- Replaces the account of a holder; without one, or with an empty one, the
account is closed. -/
def putAccount (book : ShareBook) (holder : Address) (account : Option Account) : ShareBook :=
  { book with accounts := settle book.accounts holder (account.getD Account.empty) }

/-- Mints shares to a holder under a lock, and returns when the lock ends. -/
def mint (holder : Address) (shares unlockTime : Nat) : Action ShareBook Nat := do
  let book ← get
  let supply ← Amount.add book.supply shares
  let account := (book.accounts.get? holder).getD Account.empty
  set { book with accounts := book.accounts.insert holder account }
  let balance ← Amount.add account.balance shares
  let minted : Account := { balance, locks := account.locks.push shares unlockTime }
  set ({ supply, accounts := book.accounts.insert holder minted } : ShareBook)
  return account.locks.unlockTimeFor unlockTime

/-- Burns shares of a holder, locked or not. -/
def burn (holder : Address) (shares now : Nat) : Action ShareBook Unit := do
  let book ← get
  let balance := book.balanceOf holder
  require (shares ≤ balance) (.insufficientBalance shares balance)
  if shares = 0 then return
  let account ← ((book.accounts.get? holder).getD Account.empty).burn shares now
  set { book with accounts := settle book.accounts holder account }
  let supply ← Amount.take book.supply shares
  modify fun book => { book with supply }

/-- Moves shares from one holder to another, as far as the restriction on the
sender allows. The receiver's locks stay as they are. -/
def transfer (sender receiver : Address) (amount : Nat) (restriction : Restriction) (now : Nat) :
    Action ShareBook Unit := do
  let book ← get
  restriction.authorizeTransfer (book.balanceOf sender) amount
  if amount = 0 ∨ sender = receiver then return
  let received ← Amount.add (book.balanceOf receiver) amount
  let account ← ((book.accounts.get? sender).getD Account.empty).send amount now
  let sent := settle book.accounts sender account
  let credited : Account := { balance := received, locks := book.locksOf receiver }
  set { book with accounts := sent.insert receiver credited }

/-- Removes ended locks of a holder, at most `limit` of them. -/
def cleanup (book : ShareBook) (holder : Address) (now limit : Nat) : ShareBook :=
  match book.accounts.get? holder with
  | none => book
  | some account =>
    let cleaned : Account := { account with locks := account.locks.cleanup now limit }
    { book with accounts := book.accounts.insert holder cleaned }

/-- Whether none of the holder's locks stands ended at the front. -/
def isClean (book : ShareBook) (holder : Address) (now : Nat) : Bool :=
  (book.locksOf holder).isClean now

end ShareBook

end PooledCollateral
