/-
PooledCollateral.TokenBook — the balances and approvals of a fungible token.

An owner may send its own tokens, and may approve a spender to move up to an
amount of them. A movement of nothing, or to oneself, changes no balance.
-/
import PooledCollateral.Amount
import PooledCollateral.Table.Amounts

namespace PooledCollateral

/-- The state of a fungible token. -/
structure TokenBook where
  /-- The name of the token in messages. -/
  symbol : String
  balances : Amounts
  /-- For every owner, what each spender may still move. -/
  approvals : Table Amounts

namespace TokenBook

/-- A token that nobody holds. -/
def create (symbol : String) : TokenBook :=
  { symbol, balances := Amounts.empty, approvals := Table.empty }

/-- The tokens of an account. -/
def balanceOf (book : TokenBook) (account : Address) : Nat := book.balances.get account

/-- What a spender may still move of an owner's tokens. -/
def allowance (book : TokenBook) (owner spender : Address) : Nat :=
  ((book.approvals.get? owner).getD Amounts.empty).get spender

/-- Makes tokens for an account, up to the largest amount. -/
def mint (book : TokenBook) (account : Address) (amount : Nat) : TokenBook :=
  let balance := Amount.addSaturating (book.balanceOf account) amount
  { book with balances := book.balances.set account balance }

/-- Sets what a spender may move of an owner's tokens. -/
def approve (book : TokenBook) (owner spender : Address) (amount : Nat) : TokenBook :=
  let approvals := ((book.approvals.get? owner).getD Amounts.empty).set spender amount
  { book with approvals := book.approvals.insert owner approvals }

/-- The sum of all balances. -/
def totalSupply (book : TokenBook) : Checked Nat :=
  Amount.gather (book.balances.table.rows.map (·.2))

/-- Sends tokens from one account to another. The sender is debited first. -/
def transfer (sender receiver : Address) (amount : Nat) : Action TokenBook Unit := do
  let book ← get
  let available := book.balanceOf sender
  require (amount ≤ available) (.token (.balanceBelow book.symbol available amount))
  if amount = 0 ∨ sender = receiver then return
  let debited := book.balances.set sender (available - amount)
  set { book with balances := debited }
  let received ← Amount.add (debited.get receiver) amount
  set { book with balances := debited.set receiver received }

/-- Sends an owner's tokens to another account on the owner's approval, which
is used up by the amount. -/
def transferFrom (spender owner receiver : Address) (amount : Nat) : Action TokenBook Unit := do
  let allowed := (← get).allowance owner spender
  require (amount ≤ allowed) (.allowanceTooLow amount allowed)
  transfer owner receiver amount
  modify fun book => book.approve owner spender (allowed - amount)

end TokenBook

end PooledCollateral
