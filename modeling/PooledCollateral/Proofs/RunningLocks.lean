/-
PooledCollateral.Proofs.RunningLocks — only the locks that run on matter.

Two queues are `Alike` at a time when the same locks run on in both; how many
ended ones stand in front does not count. In order, and with locks that end
within the range of times, such queues answer all queries alike, and stay alike
as time goes on (`Alike.mono`) and under every change: a new lock ends at the
same time, a release takes from the same locks, and clearing one of them, with
or without the other, changes nothing that matters (`Alike.cleanup`). The same
holds of accounts and of share books, whose actions are `Blind` to the
difference.
-/
import PooledCollateral.Proofs.Agreement
import PooledCollateral.Proofs.LockedShares

namespace PooledCollateral

open PooledCollateral.Action Function

variable {now t shares amount requested limit : ℕ}

/-! ## Queues -/

namespace LockQueue

variable {locks left : List Lock} {q r : LockQueue}

/-- Later on, the locks that run are among those that run now. -/
theorem running_running (h : InOrder q.locks) (ht : now ≤ t) :
    running ⟨q.running now⟩ t = q.running t :=
  ((cleared_running h now).mono ht).running_eq

/-- The locks are in order, and end within the range of times. -/
structure Timely (q : LockQueue) : Prop where
  inOrder : InOrder q.locks
  le_max : ∀ time ∈ q.locks.map (·.unlockTime), time ≤ maxTime

theorem timely_empty : empty.Timely := ⟨InOrder.nil, by simp [empty]⟩

/-- No removal makes locks end at another time. -/
theorem Timely.of_sublist (h : q.Timely)
    (hsub : (r.locks.map (·.unlockTime)).Sublist (q.locks.map (·.unlockTime))) : r.Timely :=
  ⟨h.inOrder.of_sublist hsub, fun time htime => h.le_max time (hsub.subset htime)⟩

theorem Timely.of_cleared (h : q.Timely) (hcleared : Cleared now q.locks r.locks) : r.Timely := by
  obtain ⟨ended, hsplit, -⟩ := hcleared
  exact h.of_sublist (hsplit ▸ (List.sublist_append_right ended r.locks).map _)

/-- A lock that has ended does not keep a new one from ending when it is asked
to, if that is not before now. -/
theorem unlockTimeFor_running (h : q.Timely) (hlow : min now maxTime ≤ requested) :
    q.unlockTimeFor requested = unlockTimeFor ⟨q.running now⟩ requested := by
  obtain ⟨ended, hsplit, hended⟩ := cleared_running h.inOrder now
  unfold unlockTimeFor
  rw [hsplit, List.getLast?_append]
  cases hnewest : (q.running now).getLast? with
  | some newest => rfl
  | none =>
    rw [Option.none_or]
    cases hlast : ended.getLast? with
    | none => rfl
    | some newest =>
      have hmem : newest ∈ ended := List.mem_of_getLast? hlast
      have hnow : newest.unlockTime ≤ now := by simpa [Lock.isExpired] using hended newest hmem
      have hmax : newest.unlockTime ≤ maxTime := by
        refine h.le_max _ (List.mem_map_of_mem ?_)
        rw [hsplit]
        exact List.mem_append_left _ hmem
      exact max_eq_left (by omega)

theorem running_push (q : LockQueue) (amount requested now : ℕ) :
    (q.push amount requested).running now =
      if q.unlockTimeFor requested ≤ now then []
      else q.running now ++ [⟨amount, q.unlockTimeFor requested⟩] := by
  unfold running push
  by_cases hended : q.unlockTimeFor requested ≤ now <;> simp [Lock.isExpired, hended]

theorem timely_push (h : q.Timely) (hhigh : requested ≤ maxTime) :
    (q.push amount requested).Timely := by
  refine ⟨inOrder_push h.inOrder amount requested, fun time htime => ?_⟩
  simp only [push, List.map_append, List.mem_append, List.map_cons, List.map_nil,
    List.mem_singleton] at htime
  obtain hold | rfl := htime
  · exact h.le_max time hold
  · unfold unlockTimeFor
    cases hnewest : q.locks.getLast? with
    | none => exact hhigh
    | some newest =>
      exact max_le hhigh (h.le_max _ (List.mem_map_of_mem (List.mem_of_getLast? hnewest)))

/-- The same locks run on in both queues. -/
structure Alike (now : ℕ) (q r : LockQueue) : Prop where
  left : q.Timely
  right : r.Timely
  running : q.running now = r.running now

theorem Timely.alike (h : q.Timely) (now : ℕ) : q.Alike now q := ⟨h, h, rfl⟩

theorem Alike.mono (h : q.Alike now r) (ht : now ≤ t) : q.Alike t r := by
  refine ⟨h.left, h.right, ?_⟩
  rw [← running_running h.left.inOrder ht, h.running, running_running h.right.inOrder ht]

theorem Alike.lockedAmount (h : q.Alike now r) : q.lockedAmount now = r.lockedAmount now := by
  unfold LockQueue.lockedAmount
  rw [h.running]

theorem Alike.unlockTimeFor (h : q.Alike now r) (hlow : min now maxTime ≤ requested) :
    q.unlockTimeFor requested = r.unlockTimeFor requested := by
  rw [unlockTimeFor_running h.left hlow, h.running, ← unlockTimeFor_running h.right hlow]

theorem Alike.push (h : q.Alike now r) (hlow : min now maxTime ≤ requested)
    (hhigh : requested ≤ maxTime) : (q.push amount requested).Alike now (r.push amount requested) := by
  refine ⟨timely_push h.left hhigh, timely_push h.right hhigh, ?_⟩
  rw [running_push, running_push, h.unlockTimeFor hlow, h.running]

/-- Either queue may be cleared, and the other not. -/
theorem Alike.of_cleared (h : q.Alike now r) {q' r' : LockQueue}
    (hq : Cleared now q.locks q'.locks) (hr : Cleared now r.locks r'.locks) : q'.Alike now r' :=
  ⟨h.left.of_cleared hq, h.right.of_cleared hr,
    hq.running_eq.trans (h.running.trans hr.running_eq.symm)⟩

theorem Alike.consumeExpired (h : q.Alike now r) (amount : ℕ) :
    Checked.Agree (Alike now) (q.consumeExpired now amount) (r.consumeExpired now amount) := by
  obtain ⟨q', hq⟩ := consumeExpired_run q now amount
  obtain ⟨r', hr⟩ := consumeExpired_run r now amount
  rw [hq, hr]
  exact .ok (h.of_cleared (cleared_consumeExpired hq) (cleared_consumeExpired hr))

theorem Alike.consumeLocked (h : q.Alike now r) (amount : ℕ) :
    Checked.Agree (Alike now) (q.consumeLocked now amount) (r.consumeLocked now amount) := by
  obtain ⟨ended, hq, hended, hrelease⟩ := consumeLocked_running h.left.inOrder now amount
  obtain ⟨ended', hr, hended', hrelease'⟩ := consumeLocked_running h.right.inOrder now amount
  rw [hrelease, hrelease', ← h.running]
  cases hleft : release amount (q.running now) with
  | error e => exact .error e
  | ok left =>
    have htimes := release_times hleft
    have hstill := running_of_release (fun lock => isExpired_of_mem_running (q := q)) hleft
    refine .ok ⟨h.left.of_sublist ?_, h.right.of_sublist ?_, ?_⟩
    · rw [hq, List.map_append, List.map_append]
      exact htimes.append_left _
    · rw [hr, ← h.running, List.map_append, List.map_append]
      exact htimes.append_left _
    · rw [running_append hended hstill, running_append hended' hstill]

theorem Alike.cleanup (h : q.Alike now r) (limit : ℕ) : (q.cleanup now limit).Alike now r :=
  h.of_cleared (cleared_dropExpired now limit q.locks) (Cleared.refl now r.locks)

end LockQueue

/-! ## Accounts -/

namespace Account

variable {a b : Account}

/-- The balances are the same, and so are the locks that run on. -/
structure Alike (now : ℕ) (a b : Account) : Prop where
  balance : a.balance = b.balance
  locks : a.locks.Alike now b.locks

theorem Alike.mono (h : a.Alike now b) (ht : now ≤ t) : a.Alike t b :=
  ⟨h.balance, h.locks.mono ht⟩

theorem Alike.lockedBalance (h : a.Alike now b) : a.lockedBalance now = b.lockedBalance now := by
  unfold Account.lockedBalance
  rw [h.locks.lockedAmount, h.balance]

theorem Alike.send (h : a.Alike now b) (shares : ℕ) :
    Checked.Agree (Alike now) (a.send shares now) (b.send shares now) := by
  unfold Account.send
  rw [h.balance]
  refine (Checked.agree_of_eq rfl).bind fun balance _ hbalance => ?_
  exact (h.locks.consumeExpired shares).bind fun _ _ hlocks => .ok ⟨hbalance, hlocks⟩

theorem Alike.burn (h : a.Alike now b) (shares : ℕ) :
    Checked.Agree (Alike now) (a.burn shares now) (b.burn shares now) := by
  unfold Account.burn
  rw [h.locks.lockedAmount, h.balance]
  refine (Checked.agree_of_eq rfl).bind fun locked _ hlocked => ?_
  refine (Checked.agree_of_eq rfl).bind fun balance _ hbalance => ?_
  subst hlocked hbalance
  -- whether or not locks were released, ended ones are dropped as far as the shares go
  have hreturn : ∀ {q r : LockQueue}, q.Alike now r →
      Checked.Agree (Alike now)
        (do return { balance, locks := ← q.consumeExpired now shares })
        (do return { balance, locks := ← r.consumeExpired now shares }) := fun hlocks =>
    (hlocks.consumeExpired shares).bind fun _ _ hleft => .ok ⟨rfl, hleft⟩
  split
  · exact (h.locks.consumeLocked _).bind fun _ _ hlocks => hreturn hlocks
  · exact hreturn h.locks

end Account

/-! ## The book -/

namespace ShareBook

variable {b c : ShareBook} {holder : Address} {x y : Account}

/-- The supply and the balances are the same, and so are the locks that run on. -/
structure Alike (now : ℕ) (b c : ShareBook) : Prop where
  supply : b.supply = c.supply
  accounts : ∀ holder, (b.accountOf holder).Alike now (c.accountOf holder)

theorem Alike.mono (h : b.Alike now c) (ht : now ≤ t) : b.Alike t c :=
  ⟨h.supply, fun holder => (h.accounts holder).mono ht⟩

theorem alike_empty (now : ℕ) : empty.Alike now empty :=
  ⟨rfl, fun _ => ⟨rfl, LockQueue.timely_empty.alike now⟩⟩

theorem Alike.balanceOf (h : b.Alike now c) (holder : Address) :
    b.balanceOf holder = c.balanceOf holder := by
  rw [balanceOf_eq, balanceOf_eq, (h.accounts holder).balance]

/-- Who has no account has no locked shares either. -/
theorem lockedBalance_eq (book : ShareBook) (holder : Address) (now : ℕ) :
    book.lockedBalance holder now = (book.accountOf holder).lockedBalance now := by
  unfold lockedBalance accountOf
  cases book.accounts.get? holder <;> rfl

theorem Alike.lockedBalance (h : b.Alike now c) (holder : Address) :
    b.lockedBalance holder now = c.lockedBalance holder now := by
  rw [lockedBalance_eq, lockedBalance_eq, (h.accounts holder).lockedBalance]

/-- Accounts that are alike can be put into books that are alike. -/
theorem Alike.update {b' c' : ShareBook} (h : b.Alike now c) (hxy : x.Alike now y)
    (hb : b'.accountOf = Function.update b.accountOf holder x)
    (hc : c'.accountOf = Function.update c.accountOf holder y) (hsupply : b'.supply = c'.supply) :
    b'.Alike now c' := by
  refine ⟨hsupply, fun other => ?_⟩
  rw [hb, hc]
  by_cases hother : other = holder
  · rw [hother, update_self, update_self]
    exact hxy
  · rw [update_of_ne hother, update_of_ne hother]
    exact h.accounts other

theorem Alike.cleanup (h : b.Alike now c) (holder : Address) (limit : ℕ) :
    (b.cleanup holder now limit).Alike now c := by
  have hholder := h.accounts holder
  have hcleaned : Account.Alike now
      { b.accountOf holder with locks := (b.accountOf holder).locks.cleanup now limit }
      (c.accountOf holder) := ⟨hholder.balance, hholder.locks.cleanup limit⟩
  refine h.update hcleaned (accountOf_cleanup b holder now limit)
    (update_eq_self holder c.accountOf).symm ?_
  rw [supply_cleanup, h.supply]

/-! ### Actions -/

theorem mint_blind {unlockTime : ℕ} (hlow : min now maxTime ≤ unlockTime)
    (hhigh : unlockTime ≤ maxTime) (holder : Address) (shares : ℕ) :
    Blind (Alike now) (mint holder shares unlockTime) := by
  unfold mint
  refine paired_get.bind fun b c hbc => ?_
  have hholder := hbc.accounts holder
  -- the account is opened first, and stays open where the balance leaves the range of amounts
  have hopened : Alike now { b with accounts := b.accounts.insert holder (b.accountOf holder) }
      { c with accounts := c.accounts.insert holder (c.accountOf holder) } :=
    hbc.update hholder (accountOf_insert b _ holder _) (accountOf_insert c _ holder _) hbc.supply
  have hsupply : Amount.add b.supply shares = Amount.add c.supply shares := by rw [hbc.supply]
  refine (paired_lift (Checked.agree_of_eq hsupply)).bind_eq fun supply => ?_
  refine Paired.bind_eq (paired_set hopened) fun _ => ?_
  have hbalance : Amount.add (b.accountOf holder).balance shares
      = Amount.add (c.accountOf holder).balance shares := by rw [hholder.balance]
  refine (paired_lift (Checked.agree_of_eq hbalance)).bind_eq fun balance => ?_
  refine Paired.bind_eq (paired_set ?_) fun _ => paired_pure ?_
  · exact hbc.update (x := ⟨balance, (b.accountOf holder).locks.push shares unlockTime⟩)
      (y := ⟨balance, (c.accountOf holder).locks.push shares unlockTime⟩)
      ⟨rfl, hholder.locks.push hlow hhigh⟩ (accountOf_insert b _ holder _)
      (accountOf_insert c _ holder _) rfl
  · exact hholder.locks.unlockTimeFor hlow

theorem burn_blind (holder : Address) (shares now : ℕ) :
    Blind (Alike now) (burn holder shares now) := by
  unfold burn
  refine paired_get.bind fun b c hbc => ?_
  have hholder := hbc.accounts holder
  rw [hbc.balanceOf]
  refine paired_lift_bind fun _ => ?_
  split
  · exact paired_pure rfl
  · refine (paired_lift (hholder.burn shares)).bind fun x y hxy => ?_
    refine Paired.bind_eq (paired_set ?_) fun _ => ?_
    · exact hbc.update hxy (accountOf_settle b _ holder _) (accountOf_settle c _ holder _) hbc.supply
    · refine (paired_lift (Checked.agree_of_eq (by rw [hbc.supply]))).bind_eq fun supply => ?_
      exact paired_modify fun _ _ h => ⟨rfl, h.accounts⟩

theorem transfer_blind (sender receiver : Address) (amount : ℕ) (restriction : Restriction)
    (now : ℕ) : Blind (Alike now) (transfer sender receiver amount restriction now) := by
  unfold transfer
  refine paired_get.bind fun b c hbc => ?_
  have hreceiver := hbc.accounts receiver
  rw [hbc.balanceOf, hbc.balanceOf]
  refine paired_lift_bind fun _ => ?_
  split
  · exact paired_pure rfl
  · refine paired_lift_bind fun received => ?_
    refine (paired_lift ((hbc.accounts sender).send amount)).bind fun x y hxy => paired_set ?_
    have hsent : Alike now { b with accounts := settle b.accounts sender x }
        { c with accounts := settle c.accounts sender y } :=
      hbc.update hxy (accountOf_settle b _ sender _) (accountOf_settle c _ sender _) hbc.supply
    refine hsent.update (x := ⟨received, b.locksOf receiver⟩) (y := ⟨received, c.locksOf receiver⟩)
      ⟨rfl, ?_⟩ (accountOf_insert { b with accounts := settle b.accounts sender x } _ receiver _)
      (accountOf_insert { c with accounts := settle c.accounts sender y } _ receiver _) hbc.supply
    rw [locksOf_eq, locksOf_eq]
    exact hreceiver.locks

end ShareBook

end PooledCollateral
