/-
PooledCollateral.LockQueue — the locks on freshly minted shares of one holder.

Each entry into the pool adds a lock at the back of the queue. A new lock never
ends before the lock in front of it, so in a queue built by `push` the locks
that have ended stand at the front; the queries and the removals below rely on
that and look at one end only. A queue read back from storage need not be in
order, and is taken as it is.
-/
import PooledCollateral.Amount
import PooledCollateral.Bisect

namespace PooledCollateral

/-- Shares that are locked until a time. -/
structure Lock where
  amount : Nat
  /-- The first moment at which the shares are free. -/
  unlockTime : Nat
  deriving DecidableEq

/-- Whether a lock has ended. -/
def Lock.isExpired (lock : Lock) (now : Nat) : Bool := lock.unlockTime ≤ now

/-- The locks of one holder, oldest first. -/
structure LockQueue where
  locks : List Lock
  deriving DecidableEq

namespace LockQueue

/-- A queue without locks. -/
def empty : LockQueue := ⟨[]⟩

/-- The time at which a new lock ends: never before the newest lock there is. -/
def unlockTimeFor (q : LockQueue) (requested : Nat) : Nat :=
  match q.locks.getLast? with
  | none => requested
  | some newest => max requested newest.unlockTime

/-- Adds a lock at the back. -/
def push (q : LockQueue) (amount requested : Nat) : LockQueue :=
  ⟨q.locks ++ [⟨amount, q.unlockTimeFor requested⟩]⟩

/-! ## Queries -/

/-- The locks counted as still running: those at the back, up to the newest
that has ended. -/
def running (q : LockQueue) (now : Nat) : List Lock :=
  (q.locks.reverse.takeWhile fun lock => !lock.isExpired now).reverse

/-- The shares still locked. -/
def lockedAmount (q : LockQueue) (now : Nat) : Checked Nat :=
  Amount.gather ((q.running now).map (·.amount))

/-- Whether the oldest lock has ended. -/
def hasExpired (q : LockQueue) (now : Nat) : Bool := q.locks.head?.any (·.isExpired now)

/-- Whether no lock stands ended at the front, as is answered after a cleanup. -/
def isClean (q : LockQueue) (now : Nat) : Bool := !q.hasExpired now

/-! ## Removals -/

/-- Drops ended locks from the front, at most `limit` of them. -/
def dropExpired (now : Nat) : Nat → List Lock → List Lock
  | limit + 1, lock :: rest =>
    if lock.isExpired now then dropExpired now limit rest else lock :: rest
  | _, locks => locks

/-- Removes ended locks, oldest first, at most `limit` of them. -/
def cleanup (q : LockQueue) (now limit : Nat) : LockQueue := ⟨dropExpired now limit q.locks⟩

/-- Drops ended locks from the front while their amounts fit in what is left
of an amount. -/
def dropExpiredWithin (now : Nat) : Nat → List Lock → Checked (List Lock)
  | _, [] => .ok []
  | remaining, lock :: rest =>
    if lock.isExpired now ∧ lock.amount ≤ remaining then do
      dropExpiredWithin now (← Amount.take remaining lock.amount) rest
    else .ok (lock :: rest)

/-- Removes ended locks, oldest first, while their amounts fit in `amount`. -/
def consumeExpired (q : LockQueue) (now amount : Nat) : Checked LockQueue := do
  return ⟨← dropExpiredWithin now amount q.locks⟩

/-- Releases an amount from the locks at the front: whole locks while they
fit, and a part of the next. -/
def release : Nat → List Lock → Checked (List Lock)
  | _, [] => .ok []
  | remaining, lock :: rest => do
    if lock.amount ≤ remaining then
      release (← Amount.take remaining lock.amount) rest
    else
      return { lock with amount := ← Amount.take lock.amount remaining } :: rest

/-- Releases an amount of shares that are still locked, oldest lock first. -/
def consumeLocked (q : LockQueue) (now amount : Nat) : Checked LockQueue := do
  let ended := Bisect.splitPoint (·.isExpired now) q.locks
  return ⟨q.locks.take ended ++ (← release amount (q.locks.drop ended))⟩

end LockQueue

end PooledCollateral
