/-
PooledCollateral.Proofs.LockChanges — what changes make of a queue of locks.

Whatever a queue has been asked to do, its locks are in order (`inOrder_run`), so
that what the queries and a cleanup find at one end of it is all there is to find
(`one_end_tells_all`). A removal from a queue in order changes only what it is for.
Ended locks go from the front, which takes nothing from the locked amount; a release
of locks that run on leaves the ended ones where they are, and cuts the locked amount
off at one height from then on (`removals_exact`).
-/
import PooledCollateral.Proofs.LockQueue

namespace PooledCollateral.LockQueue

variable {q : LockQueue}

/-! ## Runs -/

/-- What a queue is asked to do. -/
inductive Call
  | push (amount requested : ℕ)
  | cleanup (now limit : ℕ)
  | consumeExpired (now amount : ℕ)
  | consumeLocked (now amount : ℕ)

/-- Does what it is asked. -/
def perform (q : LockQueue) : Call → Checked LockQueue
  | .push amount requested => pure (q.push amount requested)
  | .cleanup now limit => pure (q.cleanup now limit)
  | .consumeExpired now amount => q.consumeExpired now amount
  | .consumeLocked now amount => q.consumeLocked now amount

/-- The queue that calls lead to. -/
def run (q : LockQueue) (calls : List Call) : Checked LockQueue := calls.foldlM perform q

/-- No call fails, or puts locks out of order. -/
theorem inOrder_perform (h : InOrder q.locks) (call : Call) :
    ∃ r, q.perform call = .ok r ∧ InOrder r.locks := by
  cases call with
  | push amount requested => exact ⟨_, rfl, inOrder_push h amount requested⟩
  | cleanup now limit => exact ⟨_, rfl, (cleared_dropExpired now limit q.locks).inOrder h⟩
  | consumeExpired now amount =>
    obtain ⟨r, hrun⟩ := q.consumeExpired_run now amount
    exact ⟨r, hrun, (cleared_consumeExpired hrun).inOrder h⟩
  | consumeLocked now amount =>
    obtain ⟨r, hrun⟩ := q.consumeLocked_run now amount
    exact ⟨r, hrun, (consumeLocked_ok h hrun).1⟩

theorem inOrder_run (h : InOrder q.locks) (calls : List Call) :
    ∃ r, q.run calls = .ok r ∧ InOrder r.locks := by
  induction calls generalizing q with
  | nil => exact ⟨q, rfl, h⟩
  | cons call calls ih =>
    obtain ⟨next, hnext, hordered⟩ := inOrder_perform h call
    obtain ⟨r, hrun, hr⟩ := ih hordered
    refine ⟨r, ?_, hr⟩
    rw [run, List.foldlM_cons, hnext]
    exact hrun

/-- Whatever a new queue has been asked to do, at whatever times, it has done, and its
locks are in order. So at any time the locked amount is what all locks hold that run
past it, if that is an amount; the oldest lock tells whether any has ended; and a cleanup
removes as many of the oldest locks as have ended, up to its limit, and finds the queue
clean just if no lock is left in it that has ended. -/
theorem one_end_tells_all (calls : List Call) :
    ∃ q, empty.run calls = .ok q ∧ InOrder q.locks ∧ ∀ now,
      (∀ locked, q.lockedAmount now = .ok locked ↔
        locked = held q.locks now ∧ held q.locks now ≤ Amount.max) ∧
      (q.hasExpired now = true ↔ ∃ lock ∈ q.locks, lock.isExpired now = true) ∧
      ∀ limit,
        (q.cleanup now limit).locks
            = q.locks.drop (min limit (q.locks.countP (·.isExpired now))) ∧
          ((q.cleanup now limit).isClean now = true ↔
            ∀ lock ∈ (q.cleanup now limit).locks, lock.isExpired now = false) := by
  obtain ⟨q, hrun, horder⟩ := inOrder_run InOrder.nil calls
  refine ⟨q, hrun, horder, fun now => ⟨fun locked => lockedAmount_eq_ok_iff horder,
    hasExpired_iff horder, fun limit => ⟨locks_cleanup horder now limit, ?_⟩⟩⟩
  exact isClean_iff ((cleared_dropExpired now limit q.locks).inOrder horder)

/-- A lock that is asked to end before the one in front of it ends with it. -/
example :
    empty.run [.push 10 500, .push 20 300, .cleanup 400 2, .consumeLocked 400 10, .push 5 900]
      = .ok ⟨[⟨20, 500⟩, ⟨5, 900⟩]⟩ := by decide +kernel

/-! ## Removals -/

/-- Removals from a queue in order, whose locks together hold an amount, change only what
they are for. Consuming ended locks takes the longest front of them that fits in the
amount, a cleanup takes some of them from the front, and neither takes anything from what
is locked then or later. A release leaves the ended locks where they are; at any time from
then on it leaves as much locked as there was, but no more than it leaves locked at once.
None of them takes more from anything than there is. -/
theorem removals_exact (horder : InOrder q.locks)
    (hsum : (q.locks.map (·.amount)).sum ≤ Amount.max) (now amount limit : ℕ) :
    ∃ locked : ℕ → ℕ, (∀ t, q.lockedAmount t = .ok (locked t)) ∧
      (∃ dropped r, q.consumeExpired now amount = .ok r ∧ q.locks = dropped ++ r.locks ∧
        ExpiredWithin now amount q.locks dropped ∧
        (∀ front, ExpiredWithin now amount q.locks front → front <+: dropped) ∧
        ∀ t, now ≤ t → r.lockedAmount t = .ok (locked t)) ∧
      (Cleared now q.locks (q.cleanup now limit).locks ∧
        ∀ t, now ≤ t → (q.cleanup now limit).lockedAmount t = .ok (locked t)) ∧
      ∃ r, q.consumeLocked now amount = .ok r ∧ SameEnded now q.locks r.locks ∧
        ∀ t, now ≤ t →
          r.lockedAmount t = .ok (min (locked t) (locked now - min amount (locked now))) := by
  have hbound : ∀ t, held q.locks t ≤ Amount.max := fun t => (held_le_sum q.locks t).trans hsum
  have hlocked : ∀ t, q.lockedAmount t = .ok (held q.locks t) := fun t =>
    (lockedAmount_eq_ok_iff horder).mpr ⟨rfl, hbound t⟩
  refine ⟨held q.locks, hlocked, ?_, ?_, ?_⟩
  · obtain ⟨dropped, r, hrun, hsplit, hdropped, hlongest⟩ := consumeExpired_longest q now amount
    refine ⟨dropped, r, hrun, hsplit, hdropped, hlongest, fun t ht => ?_⟩
    rw [(cleared_consumeExpired hrun).lockedAmount_eq ht, hlocked]
  · have hcleared : Cleared now q.locks (q.cleanup now limit).locks :=
      cleared_dropExpired now limit q.locks
    exact ⟨hcleared, fun t ht => by rw [hcleared.lockedAmount_eq ht, hlocked]⟩
  · obtain ⟨r, hrun⟩ := q.consumeLocked_run now amount
    obtain ⟨hordered, hheld⟩ := consumeLocked_ok horder hrun
    refine ⟨r, hrun, sameEnded_consumeLocked horder hrun, fun t ht => ?_⟩
    have hcut : held q.locks now - min amount (held q.locks now) = held q.locks now - amount := by
      omega
    rw [lockedAmount_eq_ok_iff hordered, hheld t ht, hcut]
    exact ⟨rfl, (Nat.min_le_left _ _).trans (hbound t)⟩

/-- Locks of which three have ended at 500 and three run on, one of each without shares. -/
def mixed : LockQueue :=
  ⟨[⟨5, 100⟩, ⟨0, 100⟩, ⟨7, 200⟩, ⟨10, 900⟩, ⟨0, 900⟩, ⟨10, 950⟩]⟩

/-- Consuming eleven shares of ended locks takes two locks, as the third does not fit, and
leaves all twenty shares locked that were. A release of eleven leaves nine locked, at once
and when only ten would have been. -/
theorem mixed_removals :
    InOrder mixed.locks ∧ (mixed.locks.map (·.amount)).sum ≤ Amount.max ∧
      mixed.lockedAmount 500 = .ok 20 ∧ mixed.lockedAmount 920 = .ok 10 ∧
      (∃ r, mixed.consumeExpired 500 11 = .ok r ∧ r.locks = mixed.locks.drop 2 ∧
        r.lockedAmount 500 = .ok 20) ∧
      ∃ r, mixed.consumeLocked 500 11 = .ok r ∧ r.lockedAmount 500 = .ok 9 ∧
        r.lockedAmount 920 = .ok 9 := by
  have horder : InOrder mixed.locks := by decide
  have hsum : (mixed.locks.map (·.amount)).sum ≤ Amount.max := by decide
  have hnow : mixed.lockedAmount 500 = .ok 20 := rfl
  have hlater : mixed.lockedAmount 920 = .ok 10 := rfl
  obtain ⟨locked, hlocked, ⟨dropped, left, hconsumed, -, -, -, hkept⟩, -, r, hreleased, -, hcut⟩ :=
    removals_exact horder hsum 500 11 0
  have hlocked_now : locked 500 = 20 := Except.ok.inj ((hlocked 500).symm.trans hnow)
  have hlocked_later : locked 920 = 10 := Except.ok.inj ((hlocked 920).symm.trans hlater)
  have hleft : left = ⟨mixed.locks.drop 2⟩ := Except.ok.inj (hconsumed.symm.trans rfl)
  refine ⟨horder, hsum, hnow, hlater, ⟨left, hconsumed, congrArg locks hleft, ?_⟩, r, hreleased,
    ?_, ?_⟩
  · rw [hkept 500 (Nat.le_refl 500), hlocked_now]
  · rw [hcut 500 (Nat.le_refl 500), hlocked_now]
    rfl
  · rw [hcut 920 (by decide), hlocked_now, hlocked_later]
    rfl

end PooledCollateral.LockQueue
