/-
PooledCollateral.Proofs.LockQueue — what a queue of locks holds back.

The locks of a holder are in order when none ends before the one in front of it.
In such a queue the locks that have ended stand in front, so looking at one end
finds them all: the locked amount is what all locks hold that run on
(`lockedAmount_eq_ok_iff`), the oldest lock tells whether any has ended
(`hasExpired_iff`), and a cleanup removes as many of them as it may
(`locks_cleanup`). Clearing takes nothing from the locked amount
(`Cleared.lockedAmount_eq`); how far ended locks are consumed is a matter of the
longest front of them that fits (`consumeExpired_longest`). A release takes exactly
what it is asked to. It takes from the oldest locks, so that what is held at the
times to come is cut off at one height (`consumeLocked_ok`).
-/
import Mathlib.Algebra.Order.BigOperators.Group.List
import Mathlib.Algebra.Order.Ring.Nat
import Mathlib.Data.List.TakeWhile
import PooledCollateral.LockQueue
import PooledCollateral.Proofs.Bisect

namespace PooledCollateral

theorem Amount.gather_eq_ok_iff {amounts : List ℕ} {n : ℕ} :
    gather amounts = .ok n ↔ n = amounts.sum ∧ amounts.sum ≤ max := by
  unfold gather
  rw [← List.sum_eq_foldl]
  by_cases h : amounts.sum ≤ max <;> simp [h, eq_comm]

namespace LockQueue

variable {locks left front back : List Lock} {q r : LockQueue} {now t amount : ℕ}

/-! ## Held shares -/

/-- No lock ends before the one in front of it. -/
def InOrder (locks : List Lock) : Prop := (locks.map (·.unlockTime)).Pairwise (· ≤ ·)

instance (locks : List Lock) : Decidable (InOrder locks) :=
  inferInstanceAs (Decidable ((locks.map (·.unlockTime)).Pairwise (· ≤ ·)))

/-- The shares under the locks that run past a time. -/
def held (locks : List Lock) (t : ℕ) : ℕ :=
  ((locks.filter fun lock => t < lock.unlockTime).map (·.amount)).sum

@[simp] theorem held_nil : held [] t = 0 := rfl

@[simp] theorem held_cons (lock : Lock) :
    held (lock :: locks) t = (if t < lock.unlockTime then lock.amount else 0) + held locks t := by
  by_cases h : t < lock.unlockTime <;> simp [held, h]

@[simp] theorem held_append : held (front ++ back) t = held front t + held back t := by
  simp [held]

theorem held_le_sum (locks : List Lock) (t : ℕ) : held locks t ≤ (locks.map (·.amount)).sum :=
  (List.filter_sublist.map _).sum_le_sum fun _ _ => Nat.zero_le _

/-- As time goes on, less is held. -/
theorem held_anti (h : now ≤ t) : held locks t ≤ held locks now := by
  induction locks with
  | nil => simp
  | cons lock rest ih =>
    simp only [held_cons]
    split_ifs <;> omega

/-- Locks that have ended hold nothing from then on. -/
theorem held_of_expired (h : ∀ lock ∈ locks, lock.isExpired now = true) (ht : now ≤ t) :
    held locks t = 0 := by
  induction locks with
  | nil => rfl
  | cons lock rest ih =>
    have hlock : lock.unlockTime ≤ now := by simpa [Lock.isExpired] using h lock (by simp)
    rw [held_cons, ih fun other hother => h other (by simp [hother]), if_neg (by omega)]

/-- Locks that run on hold all their shares. -/
theorem held_of_running (h : ∀ lock ∈ locks, lock.isExpired now = false) :
    held locks now = (locks.map (·.amount)).sum := by
  induction locks with
  | nil => rfl
  | cons lock rest ih =>
    have hlock : now < lock.unlockTime := by simpa [Lock.isExpired] using h lock (by simp)
    rw [held_cons, ih fun other hother => h other (by simp [hother]), if_pos hlock, List.map_cons,
      List.sum_cons]

/-! ## Order -/

theorem InOrder.nil : InOrder [] := List.Pairwise.nil

/-- A queue stays in order when only its ends and its amounts change. -/
theorem InOrder.of_sublist (h : InOrder locks)
    (hsub : (left.map (·.unlockTime)).Sublist (locks.map (·.unlockTime))) : InOrder left :=
  List.Pairwise.sublist hsub h

/-- In order, no lock ends before the first. -/
theorem InOrder.first_le {lock : Lock} (h : InOrder (lock :: locks)) :
    ∀ other ∈ lock :: locks, lock.unlockTime ≤ other.unlockTime := by
  intro other hother
  rcases List.mem_cons.mp hother with rfl | hmem
  · exact Nat.le_refl _
  · exact (List.pairwise_cons.mp h).1 _ (List.mem_map_of_mem hmem)

/-- In order, the locks that have ended stand in front of those that run on. -/
theorem InOrder.split (h : InOrder locks) (now : ℕ) :
    ∃ ended running, locks = ended ++ running ∧ (∀ lock ∈ ended, lock.isExpired now = true) ∧
      ∀ lock ∈ running, lock.isExpired now = false := by
  induction locks with
  | nil => exact ⟨[], [], rfl, by simp, by simp⟩
  | cons lock rest ih =>
    by_cases hlock : lock.unlockTime ≤ now
    · obtain ⟨ended, running, rfl, hended, hrunning⟩ := ih (List.pairwise_cons.mp h).2
      exact ⟨lock :: ended, running, rfl, by simpa [Lock.isExpired, hlock] using hended, hrunning⟩
    · -- the first lock runs on, and none behind it ends earlier
      refine ⟨[], lock :: rest, rfl, by simp, fun other hother => ?_⟩
      have hle := h.first_le other hother
      simp only [Lock.isExpired, decide_eq_false_iff_not]
      omega

/-- In order, the locks behind one that runs on hold all their shares. -/
theorem InOrder.held_of_front {lock : Lock} (h : InOrder (lock :: locks))
    (hlock : t < lock.unlockTime) : held locks t = (locks.map (·.amount)).sum := by
  refine held_of_running fun other hother => ?_
  have hle := h.first_le other (List.mem_cons_of_mem lock hother)
  simp only [Lock.isExpired, decide_eq_false_iff_not]
  omega

/-! ## New locks -/

/-- A new lock ends no earlier than any there is. -/
theorem le_unlockTimeFor (h : InOrder q.locks) (requested : ℕ) :
    ∀ lock ∈ q.locks, lock.unlockTime ≤ q.unlockTimeFor requested := by
  obtain ⟨locks⟩ := q
  rcases List.eq_nil_or_concat locks with rfl | ⟨front, newest, rfl⟩
  · simp
  · intro lock hlock
    have hnewest : lock.unlockTime ≤ newest.unlockTime := by
      simp only [InOrder, List.concat_eq_append, List.map_append, List.pairwise_append] at h
      rcases List.mem_append.mp (List.concat_eq_append ▸ hlock) with hmem | hmem
      · exact h.2.2 _ (List.mem_map_of_mem hmem) _ (by simp)
      · exact Nat.le_of_eq (congrArg Lock.unlockTime (List.mem_singleton.mp hmem))
    simp only [unlockTimeFor, List.concat_eq_append, List.getLast?_append, List.getLast?_singleton,
      Option.some_or]
    omega

theorem inOrder_push (h : InOrder q.locks) (amount requested : ℕ) :
    InOrder (q.push amount requested).locks := by
  simp only [InOrder, push, List.map_append, List.pairwise_append]
  refine ⟨h, List.pairwise_singleton _ _, fun time htime newest hnewest => ?_⟩
  obtain ⟨lock, hlock, rfl⟩ := List.mem_map.mp htime
  rw [show newest = q.unlockTimeFor requested by simpa using hnewest]
  exact le_unlockTimeFor h requested lock hlock

theorem held_push (q : LockQueue) (amount requested t : ℕ) :
    held (q.push amount requested).locks t
      = held q.locks t + if t < q.unlockTimeFor requested then amount else 0 := by
  simp [push]

/-! ## The locked amount -/

/-- No lock is counted as running behind those that have ended. -/
theorem running_of_expired (h : ∀ lock ∈ locks, lock.isExpired now = true) :
    running ⟨locks⟩ now = [] := by
  unfold running
  cases hreverse : locks.reverse with
  | nil => rfl
  | cons newest rest =>
    have hmem : newest ∈ locks := List.mem_reverse.mp (hreverse ▸ List.mem_cons_self)
    simp [h newest hmem]

/-- In order, the locks counted as running are those that run on. -/
theorem running_append (hended : ∀ lock ∈ front, lock.isExpired now = true)
    (hrunning : ∀ lock ∈ back, lock.isExpired now = false) :
    running ⟨front ++ back⟩ now = back := by
  have hstop := List.reverse_eq_nil_iff.mp (running_of_expired hended)
  unfold running
  rw [List.reverse_append, List.takeWhile_append_of_pos (fun lock hlock => by
    simp [hrunning lock (List.mem_reverse.mp hlock)]), hstop]
  simp

theorem isExpired_of_mem_running {lock : Lock} (h : lock ∈ q.running now) :
    lock.isExpired now = false := by
  have hmem := List.mem_takeWhile_imp (List.mem_reverse.mp h)
  simpa using hmem

/-- In order, the locked amount is what is held, and is one unless it leaves the
range of amounts. -/
theorem lockedAmount_eq_ok_iff (h : InOrder q.locks) {locked : ℕ} :
    q.lockedAmount now = .ok locked ↔
      locked = held q.locks now ∧ held q.locks now ≤ Amount.max := by
  obtain ⟨ended, running, hsplit, hended, hrunning⟩ := h.split now
  have hq : q = ⟨ended ++ running⟩ := congrArg LockQueue.mk hsplit
  have hheld : held q.locks now = (running.map (·.amount)).sum := by
    rw [hsplit, held_append, held_of_expired hended (Nat.le_refl now), held_of_running hrunning,
      Nat.zero_add]
  unfold lockedAmount
  rw [hheld, hq, running_append hended hrunning, Amount.gather_eq_ok_iff]

/-! ## Ended locks -/

/-- In order, the oldest lock tells whether any has ended. -/
theorem hasExpired_iff (h : InOrder q.locks) :
    q.hasExpired now = true ↔ ∃ lock ∈ q.locks, lock.isExpired now = true := by
  obtain ⟨_ | ⟨oldest, rest⟩⟩ := q
  · simp [hasExpired]
  · refine ⟨fun hended => ⟨oldest, List.mem_cons_self, hended⟩, fun ⟨lock, hlock, hended⟩ => ?_⟩
    have hle := h.first_le lock hlock
    simp only [hasExpired, List.head?_cons, Option.any_some, Lock.isExpired, decide_eq_true_eq]
      at hended ⊢
    omega

/-- In order, a queue is clean if all its locks run on. -/
theorem isClean_iff (h : InOrder q.locks) :
    q.isClean now = true ↔ ∀ lock ∈ q.locks, lock.isExpired now = false := by
  rw [isClean, Bool.not_eq_true', ← Bool.not_eq_true, hasExpired_iff h]
  simp

/-- Dropping stops at the first lock that runs on. -/
theorem dropExpired_append (hended : ∀ lock ∈ front, lock.isExpired now = true)
    (hrunning : ∀ lock ∈ back, lock.isExpired now = false) (limit : ℕ) :
    dropExpired now limit (front ++ back) = front.drop limit ++ back := by
  induction front generalizing limit with
  | nil =>
    cases limit with
    | zero => rfl
    | succ limit =>
      cases back with
      | nil => rfl
      | cons lock rest => simp [dropExpired, hrunning lock List.mem_cons_self]
  | cons lock rest ih =>
    cases limit with
    | zero => rfl
    | succ limit =>
      simp only [List.cons_append, dropExpired, hended lock List.mem_cons_self, if_true,
        List.drop_succ_cons]
      exact ih (fun other hother => hended other (List.mem_cons_of_mem lock hother)) limit

/-- In order, a cleanup removes from the front as many locks as have ended, up to its
limit. -/
theorem locks_cleanup (h : InOrder q.locks) (now limit : ℕ) :
    (q.cleanup now limit).locks
      = q.locks.drop (min limit (q.locks.countP (·.isExpired now))) := by
  obtain ⟨ended, running, hsplit, hended, hrunning⟩ := h.split now
  have hcount : q.locks.countP (·.isExpired now) = ended.length := by
    have hnone : running.countP (·.isExpired now) = 0 :=
      List.countP_eq_zero.mpr fun lock hlock => by simp [hrunning lock hlock]
    rw [hsplit, List.countP_append, List.countP_eq_length.mpr hended, hnone, Nat.add_zero]
  rw [hcount, cleanup, hsplit, dropExpired_append hended hrunning,
    List.drop_append_of_le_length (Nat.min_le_right _ _)]
  by_cases hlimit : limit ≤ ended.length
  · rw [Nat.min_eq_left hlimit]
  · rw [Nat.min_eq_right (Nat.le_of_not_le hlimit), List.drop_length,
      List.drop_eq_nil_of_le (Nat.le_of_not_le hlimit)]

/-! ## Clearing -/

/-- What is left of the locks when some that have ended are dropped from the
front. -/
def Cleared (now : ℕ) (locks left : List Lock) : Prop :=
  ∃ ended, locks = ended ++ left ∧ ∀ lock ∈ ended, lock.isExpired now = true

/-- In order, the locks that do not run on can be cleared. -/
theorem cleared_running (h : InOrder q.locks) (now : ℕ) : Cleared now q.locks (q.running now) := by
  obtain ⟨ended, running, hsplit, hended, hrunning⟩ := h.split now
  have hq : q = ⟨ended ++ running⟩ := congrArg LockQueue.mk hsplit
  rw [hq, running_append hended hrunning]
  exact ⟨ended, rfl, hended⟩

theorem Cleared.refl (now : ℕ) (locks : List Lock) : Cleared now locks locks :=
  ⟨[], rfl, by simp⟩

theorem Cleared.cons {lock : Lock} (hlock : lock.isExpired now = true)
    (h : Cleared now locks left) : Cleared now (lock :: locks) left := by
  obtain ⟨ended, rfl, hended⟩ := h
  exact ⟨lock :: ended, rfl, by simpa [hlock] using hended⟩

/-- Clearing that leaves as many locks as there were has dropped none. -/
theorem Cleared.eq_of_length (h : Cleared now locks left) (hlength : left.length = locks.length) :
    left = locks := by
  obtain ⟨ended, rfl, -⟩ := h
  exact (List.suffix_append ended left).eq_of_length hlength

theorem Cleared.inOrder (h : Cleared now locks left) (horder : InOrder locks) : InOrder left := by
  obtain ⟨ended, rfl, -⟩ := h
  exact horder.of_sublist ((List.sublist_append_right ended left).map _)

theorem Cleared.mono (h : Cleared now locks left) (ht : now ≤ t) : Cleared t locks left := by
  obtain ⟨ended, rfl, hended⟩ := h
  refine ⟨ended, rfl, fun lock hlock => ?_⟩
  have htime := hended lock hlock
  simp only [Lock.isExpired, decide_eq_true_eq] at htime ⊢
  omega

/-- Clearing takes nothing from the locks counted as running. -/
theorem Cleared.running_eq (h : Cleared now locks left) :
    running ⟨left⟩ now = running ⟨locks⟩ now := by
  obtain ⟨ended, rfl, hended⟩ := h
  have hstop := List.reverse_eq_nil_iff.mp (running_of_expired hended)
  unfold running
  rw [List.reverse_append, List.takeWhile_append]
  split
  · rename_i hall
    rw [hstop, List.append_nil, (List.takeWhile_prefix _).eq_of_length hall]
  · rfl

/-- Clearing takes nothing from the locked amount, now and later, even out of order. -/
theorem Cleared.lockedAmount_eq (h : Cleared now q.locks r.locks) (ht : now ≤ t) :
    r.lockedAmount t = q.lockedAmount t := by
  have hrunning : r.running t = q.running t := (h.mono ht).running_eq
  rw [lockedAmount, lockedAmount, hrunning]

/-- Clearing takes nothing from what is held. -/
theorem Cleared.held_eq (h : Cleared now locks left) (ht : now ≤ t) :
    held left t = held locks t := by
  obtain ⟨ended, rfl, hended⟩ := h
  rw [held_append, held_of_expired hended ht, Nat.zero_add]

theorem cleared_dropExpired (now limit : ℕ) (locks : List Lock) :
    Cleared now locks (dropExpired now limit locks) := by
  fun_induction dropExpired now limit locks with
  | case1 limit lock rest hlock ih => exact ih.cons hlock
  | case2 limit lock rest _ => exact Cleared.refl now _
  | case3 limit locks _ => exact Cleared.refl now _

/-- Locks at the front that have ended, and whose shares fit in an amount. -/
structure ExpiredWithin (now amount : ℕ) (locks front : List Lock) : Prop where
  atFront : front <+: locks
  expired : ∀ lock ∈ front, lock.isExpired now = true
  fits : (front.map (·.amount)).sum ≤ amount

theorem ExpiredWithin.nil : ExpiredWithin now amount locks [] :=
  ⟨List.nil_prefix, by simp, Nat.zero_le _⟩

theorem expiredWithin_cons_iff {lock : Lock} :
    ExpiredWithin now amount (lock :: locks) (lock :: front) ↔
      (lock.isExpired now = true ∧ lock.amount ≤ amount) ∧
        ExpiredWithin now (amount - lock.amount) locks front := by
  constructor
  · rintro ⟨hfront, hexpired, hfits⟩
    rw [List.map_cons, List.sum_cons] at hfits
    rw [List.forall_mem_cons] at hexpired
    exact ⟨⟨hexpired.1, by omega⟩, (List.cons_prefix_cons.mp hfront).2, hexpired.2, by omega⟩
  · rintro ⟨⟨hlock, hle⟩, hfront, hexpired, hfits⟩
    refine ⟨List.cons_prefix_cons.mpr ⟨rfl, hfront⟩, List.forall_mem_cons.mpr ⟨hlock, hexpired⟩, ?_⟩
    rw [List.map_cons, List.sum_cons]
    omega

/-- Ended locks are dropped as far as the amount goes, that is, as many as a front of
them that fits can hold. -/
theorem dropExpiredWithin_longest (now amount : ℕ) (locks : List Lock) :
    ∃ dropped left, dropExpiredWithin now amount locks = .ok left ∧ locks = dropped ++ left ∧
      ExpiredWithin now amount locks dropped ∧
      ∀ front, ExpiredWithin now amount locks front → front <+: dropped := by
  induction locks generalizing amount with
  | nil => exact ⟨[], [], rfl, rfl, .nil, fun front hfront => hfront.atFront⟩
  | cons lock rest ih =>
    unfold dropExpiredWithin
    split
    · rename_i hlock
      obtain ⟨dropped, left, hrun, rfl, hdropped, hlongest⟩ := ih (amount - lock.amount)
      refine ⟨lock :: dropped, left, ?_, rfl, expiredWithin_cons_iff.mpr ⟨hlock, hdropped⟩, ?_⟩
      · rw [Amount.take_eq_ok_iff.mpr ⟨rfl, hlock.2⟩]
        exact hrun
      · rintro (_ | ⟨first, front⟩) hfront
        · exact List.nil_prefix
        · obtain ⟨rfl, -⟩ := List.cons_prefix_cons.mp hfront.atFront
          have hrest := hlongest front (expiredWithin_cons_iff.mp hfront).2
          exact List.cons_prefix_cons.mpr ⟨rfl, hrest⟩
    · rename_i hlock
      refine ⟨[], lock :: rest, rfl, rfl, .nil, ?_⟩
      rintro (_ | ⟨first, front⟩) hfront
      · exact List.nil_prefix
      · -- a front with a lock in it would start with the one that may not be dropped
        obtain ⟨rfl, -⟩ := List.cons_prefix_cons.mp hfront.atFront
        exact absurd (expiredWithin_cons_iff.mp hfront).1 hlock

/-- Of the locks, the longest front that has ended and fits in the amount is consumed;
that cannot fail. -/
theorem consumeExpired_longest (q : LockQueue) (now amount : ℕ) :
    ∃ dropped r, q.consumeExpired now amount = .ok r ∧ q.locks = dropped ++ r.locks ∧
      ExpiredWithin now amount q.locks dropped ∧
      ∀ front, ExpiredWithin now amount q.locks front → front <+: dropped := by
  obtain ⟨dropped, left, hrun, hsplit, hdropped, hlongest⟩ :=
    dropExpiredWithin_longest now amount q.locks
  exact ⟨dropped, ⟨left⟩, by rw [consumeExpired, hrun]; rfl, hsplit, hdropped, hlongest⟩

theorem consumeExpired_run (q : LockQueue) (now amount : ℕ) :
    ∃ r, q.consumeExpired now amount = .ok r := by
  obtain ⟨-, r, hrun, -⟩ := consumeExpired_longest q now amount
  exact ⟨r, hrun⟩

theorem cleared_consumeExpired (h : q.consumeExpired now amount = .ok r) :
    Cleared now q.locks r.locks := by
  obtain ⟨dropped, left, hrun, hsplit, hdropped, -⟩ := consumeExpired_longest q now amount
  obtain rfl : left = r := Except.ok.inj (hrun.symm.trans h)
  exact ⟨dropped, hsplit, hdropped.expired⟩

/-! ## Releasing -/

/-- A release takes no more from a lock than there is; it cannot fail. -/
theorem release_run (amount : ℕ) (locks : List Lock) : ∃ left, release amount locks = .ok left := by
  induction locks generalizing amount with
  | nil => exact ⟨[], rfl⟩
  | cons lock rest ih =>
    unfold release
    split
    · rename_i hwhole
      rw [Amount.take_eq_ok_iff.mpr ⟨rfl, hwhole⟩]
      exact ih (amount - lock.amount)
    · rename_i hpart
      rw [Amount.take_eq_ok_iff.mpr ⟨rfl, Nat.le_of_not_le hpart⟩]
      exact ⟨_, rfl⟩

/-- Running locks are released as far as the amount goes; that cannot fail. -/
theorem consumeLocked_run (q : LockQueue) (now amount : ℕ) :
    ∃ r, q.consumeLocked now amount = .ok r := by
  obtain ⟨left, hleft⟩ :=
    release_run amount (q.locks.drop (Bisect.splitPoint (·.isExpired now) q.locks))
  exact ⟨_, by simp only [consumeLocked, hleft]; rfl⟩

/-- A release changes the end of no lock. -/
theorem release_times (h : release amount locks = .ok left) :
    (left.map (·.unlockTime)).Sublist (locks.map (·.unlockTime)) := by
  induction locks generalizing amount with
  | nil =>
    cases h
    exact List.Sublist.refl _
  | cons lock rest ih =>
    unfold release at h
    split at h
    · obtain ⟨_, -, hrest⟩ := Checked.bind_eq_ok_iff.mp h
      exact (ih hrest).cons _
    · obtain ⟨_, -, hreturn⟩ := Checked.bind_eq_ok_iff.mp h
      cases hreturn
      exact List.Sublist.refl _

/-- In order, a release leaves of what is held at a time as much as all locks together
have left. -/
theorem held_release (h : InOrder locks) (hr : release amount locks = .ok left) (t : ℕ) :
    held left t = min (held locks t) ((locks.map (·.amount)).sum - amount) := by
  induction locks generalizing amount with
  | nil =>
    cases hr
    rfl
  | cons lock rest ih =>
    have hrest : held rest t ≤ (rest.map (·.amount)).sum := held_le_sum rest t
    -- a lock that runs on at the time has all the others running behind it
    have hfront : t < lock.unlockTime → held rest t = (rest.map (·.amount)).sum := h.held_of_front
    simp only [held_cons, List.map_cons, List.sum_cons]
    unfold release at hr
    split at hr
    · rename_i hfits
      obtain ⟨_, hremaining, hleft⟩ := Checked.bind_eq_ok_iff.mp hr
      obtain ⟨rfl, -⟩ := Amount.take_eq_ok_iff.mp hremaining
      rw [ih (List.pairwise_cons.mp h).2 hleft]
      split_ifs with hruns
      · have hall := hfront hruns
        omega
      · omega
    · rename_i hpart
      obtain ⟨_, hamount, hreturn⟩ := Checked.bind_eq_ok_iff.mp hr
      obtain ⟨rfl, -⟩ := Amount.take_eq_ok_iff.mp hamount
      cases hreturn
      simp only [held_cons]
      split_ifs with hruns
      · have hall := hfront hruns
        omega
      · omega

/-- No lock ends by being released. -/
theorem running_of_release (hrunning : ∀ lock ∈ locks, lock.isExpired now = false)
    (h : release amount locks = .ok left) : ∀ lock ∈ left, lock.isExpired now = false := by
  intro lock hlock
  obtain ⟨old, hold, htime⟩ :=
    List.mem_map.mp ((release_times h).subset (List.mem_map_of_mem hlock))
  have hrun := hrunning old hold
  unfold Lock.isExpired at hrun ⊢
  rwa [htime] at hrun

/-- In order, a release is one from the locks that run on. -/
theorem consumeLocked_running (h : InOrder q.locks) (now amount : ℕ) :
    ∃ ended, q.locks = ended ++ q.running now ∧ (∀ lock ∈ ended, lock.isExpired now = true) ∧
      q.consumeLocked now amount = do return ⟨ended ++ (← release amount (q.running now))⟩ := by
  obtain ⟨ended, hsplit, hended⟩ := cleared_running h now
  refine ⟨ended, hsplit, hended, ?_⟩
  have hpoint := Bisect.splitPoint_append hended fun lock hlock =>
    isExpired_of_mem_running (q := q) hlock
  unfold consumeLocked
  rw [hsplit]
  simp only [hpoint, List.take_left, List.drop_left]

/-- The locks that have ended stand in front, and are the same in both queues. -/
def SameEnded (now : ℕ) (locks left : List Lock) : Prop :=
  ∃ ended running rest, locks = ended ++ running ∧ left = ended ++ rest ∧
    (∀ lock ∈ ended, lock.isExpired now = true) ∧
    ∀ lock ∈ running ++ rest, lock.isExpired now = false

/-- In order, a release of shares that are still locked leaves the ended locks where they
are. -/
theorem sameEnded_consumeLocked (h : InOrder q.locks) (hr : q.consumeLocked now amount = .ok r) :
    SameEnded now q.locks r.locks := by
  obtain ⟨ended, hsplit, hended, hrelease⟩ := consumeLocked_running h now amount
  obtain ⟨left, hleft, hreturn⟩ := Checked.bind_eq_ok_iff.mp (hrelease ▸ hr)
  cases hreturn
  have hrunning : ∀ lock ∈ q.running now, lock.isExpired now = false :=
    fun lock => isExpired_of_mem_running
  exact ⟨ended, q.running now, left, hsplit, rfl, hended,
    List.forall_mem_append.mpr ⟨hrunning, running_of_release hrunning hleft⟩⟩

/-- In order, a release of shares that are still locked cuts off what is held from then
on at what it leaves of them. -/
theorem consumeLocked_ok (h : InOrder q.locks) (hr : q.consumeLocked now amount = .ok r) :
    InOrder r.locks ∧
      ∀ t, now ≤ t → held r.locks t = min (held q.locks t) (held q.locks now - amount) := by
  obtain ⟨ended, hsplit, hended, hrelease⟩ := consumeLocked_running h now amount
  obtain ⟨left, hleft, hreturn⟩ := Checked.bind_eq_ok_iff.mp (hrelease ▸ hr)
  cases hreturn
  constructor
  · refine h.of_sublist ?_
    rw [hsplit, List.map_append, List.map_append]
    exact (release_times hleft).append_left _
  · intro t ht
    have hrunning : ∀ lock ∈ q.running now, lock.isExpired now = false :=
      fun lock => isExpired_of_mem_running
    have horder : InOrder (q.running now) := (cleared_running h now).inOrder h
    rw [hsplit, held_append, held_append, held_append, held_of_expired hended ht,
      held_of_expired hended (Nat.le_refl now), held_of_running hrunning,
      held_release horder hleft]
    simp only [Nat.zero_add]

end LockQueue

end PooledCollateral
