/-
PooledCollateral.Proofs.Pool.Clearing — clearing ended locks cannot be observed.

Two pools are `Alike` at a time when they differ in nothing but locks that have
ended by then. Such pools answer every query alike, and every call except a
clearing is blind to the difference: it answers the same, or is refused for the
same cause, and leaves pools that are alike (`perform_blind`). A clearing of one
of them keeps them alike (`Alike.clear`). So a run answers what it answers with
the clearings left out, and ends in a pool that cannot be told from the one
without them (`clearing_unobservable`).
-/
import PooledCollateral.Proofs.Pool.Locks
import PooledCollateral.Proofs.RunningLocks

namespace PooledCollateral.Pool

open PooledCollateral.Action

variable {p q fresh : Pool} {holder : Address} {now t shares : ℕ} {settings : Settings}
  {α β : Type}

/-! ## Pools that are alike -/

/-- The pools differ in nothing but locks that have ended. -/
structure Alike (now : ℕ) (p q : Pool) : Prop where
  settings : p.settings = q.settings
  collateral : p.collateral = q.collateral
  feeReserve : p.feeReserve = q.feeReserve
  fees : p.fees = q.fees
  shares : p.shares.Alike now q.shares

namespace Alike

theorem mono (h : p.Alike now q) (ht : now ≤ t) : p.Alike t q := { h with shares := h.shares.mono ht }

/-- If the locks of one pool are in order and end within the range of times,
nothing that has happened to other locks matters. -/
theorem self (h : p.Alike now q) (t : ℕ) : p.Alike t p where
  settings := rfl
  collateral := rfl
  feeReserve := rfl
  fees := rfl
  shares := ⟨rfl, fun holder => ⟨rfl, (h.shares.accounts holder).locks.left.alike t⟩⟩

theorem totals_eq (h : p.Alike now q) : p.totals = q.totals := by
  unfold totals
  rw [h.collateral, h.feeReserve, h.fees, h.shares.supply]

/-! ### Queries -/

theorem balanceOf (h : p.Alike now q) (holder : Address) : p.balanceOf holder = q.balanceOf holder :=
  h.shares.balanceOf holder

theorem lockedBalance (h : p.Alike now q) (holder : Address) :
    p.lockedBalance holder now = q.lockedBalance holder now := h.shares.lockedBalance holder

theorem claimableFees (h : p.Alike now q) (holder : Address) :
    p.claimableFees holder = q.claimableFees holder := by
  unfold Pool.claimableFees claim
  rw [h.fees, h.feeReserve, h.balanceOf, h.shares.supply]

theorem restriction (h : p.Alike now q) (holder : Address) :
    p.restriction holder now = q.restriction holder now := by
  unfold Pool.restriction indebtedShares
  rw [h.lockedBalance, h.fees, h.feeReserve, h.balanceOf, h.shares.supply]

theorem quoteEntry (h : p.Alike now q) (collateral : ℕ) (price : Option Price) :
    p.quoteEntry collateral price = q.quoteEntry collateral price := by
  unfold Pool.quoteEntry entryShares leftoverFeeValue
  rw [h.settings, h.collateral, h.feeReserve, h.fees, h.shares.supply]

theorem quoteExit (h : p.Alike now q) (holder : Address) (shares : ℕ) :
    p.quoteExit holder shares now = q.quoteExit holder shares now := by
  unfold Pool.quoteExit exitFees
  rw [h.lockedBalance, h.claimableFees, h.balanceOf, h.collateral, h.fees, h.shares.supply]

theorem planExit (h : p.Alike now q) (holder : Address) (shares : ℕ) (backing : Backing) :
    p.planExit holder shares backing now = q.planExit holder shares backing now := by
  unfold Pool.planExit checkResiduals
  rw [h.quoteExit, h.settings]

theorem planSelfClose (h : p.Alike now q) (holder : Address) (shares : ℕ) (backing : Backing) :
    p.planSelfClose holder shares backing now = q.planSelfClose holder shares backing now := by
  unfold Pool.planSelfClose guardSelfClose checkResiduals
  rw [h.quoteExit, h.collateral, h.settings]

end Alike

/-! ## Operations -/

theorem paired_onShares {same : α → β → Prop} {x : Action ShareBook α} {y : Action ShareBook β}
    (h : Paired (ShareBook.Alike now) same x y) :
    Paired (Alike now) same (onShares x) (onShares y) :=
  h.onPart (fun _ _ hpq => hpq.shares) fun _ _ _ _ hpq hshares => { hpq with shares := hshares }

theorem onFees_blind (act : Action FeeBook α) : Blind (Alike now) (onFees act) :=
  (blind_of_eq act).onPart (fun _ _ hpq => hpq.fees) fun _ _ _ _ hpq hfees =>
    { hpq with fees := hfees }

theorem setFeeReserve_blind (feeReserve : ℕ) :
    Blind (Alike now) (modify fun pool : Pool => { pool with feeReserve }) :=
  paired_modify fun _ _ hpq => { hpq with feeReserve := rfl }

theorem setCollateral_blind (collateral : ℕ) :
    Blind (Alike now) (modify fun pool : Pool => { pool with collateral }) :=
  paired_modify fun _ _ hpq => { hpq with collateral := rfl }

/-- A lock of new shares ends no earlier than now, within the range of times. -/
theorem enter_blind (holder : Address) (collateral : ℕ) (price : Option Price) (now : ℕ) :
    Blind (Alike now) (enter holder collateral price now) := by
  unfold enter
  refine paired_get.bind fun p q hpq => ?_
  have hunlock : p.unlockTime now = q.unlockTime now := by
    unfold unlockTime
    rw [hpq.settings]
  rw [hpq.quoteEntry, hunlock]
  refine paired_lift_bind fun quote => ?_
  refine (paired_onShares (ShareBook.mint_blind ?_ ?_ holder quote.shares)).bind_eq fun time => ?_
  · exact min_le_min_right maxTime (Nat.le_add_right now q.settings.lockDuration)
  · exact Nat.min_le_right _ _
  · refine (onFees_blind _).bind_eq fun _ => ?_
    exact (setCollateral_blind _).bind_eq fun _ => paired_pure rfl

theorem carryOut_blind (holder : Address) (quote : ExitQuote) (now : ℕ) :
    Blind (Alike now) (carryOut holder quote now) := by
  unfold carryOut
  refine paired_get.bind fun p q hpq => ?_
  rw [hpq.feeReserve, hpq.collateral]
  refine paired_lift_bind fun feeReserve => ?_
  refine paired_lift_bind fun collateral => ?_
  refine (paired_onShares (ShareBook.burn_blind holder quote.shares now)).bind_eq fun _ => ?_
  refine (onFees_blind _).bind_eq fun _ => ?_
  exact paired_modify fun _ _ h => { h with feeReserve := rfl, collateral := rfl }

theorem exit_blind (holder : Address) (shares : ℕ) (backing : Backing) (now : ℕ) :
    Blind (Alike now) (exit holder shares backing now) := by
  unfold exit
  refine paired_get.bind fun p q hpq => ?_
  rw [hpq.planExit]
  refine paired_lift_bind fun quote => ?_
  exact (carryOut_blind holder quote now).bind_eq fun _ => paired_pure rfl

theorem applySelfClose_blind (holder : Address) (plan : SelfClosePlan) (now : ℕ) :
    Blind (Alike now) (applySelfClose holder plan now) := by
  unfold applySelfClose
  exact (carryOut_blind holder plan.quote now).bind_eq fun _ => paired_pure rfl

theorem withdrawFees_blind (holder : Address) (amount now : ℕ) :
    Blind (Alike now) (withdrawFees holder amount) := by
  unfold withdrawFees
  refine paired_get.bind fun p q hpq => ?_
  rw [hpq.claimableFees, hpq.feeReserve]
  refine paired_lift_bind fun claimable => ?_
  refine paired_lift_bind fun _ => ?_
  refine paired_lift_bind fun feeReserve => ?_
  exact (onFees_blind _).bind_eq fun _ => setFeeReserve_blind feeReserve

theorem payFeeDebt_blind (holder : Address) (amount now : ℕ) :
    Blind (Alike now) (payFeeDebt holder amount) := by
  unfold payFeeDebt
  refine paired_lift_bind fun _ => ?_
  refine paired_get.bind fun p q hpq => ?_
  rw [hpq.feeReserve]
  refine paired_lift_bind fun feeReserve => ?_
  exact (onFees_blind _).bind_eq fun _ => setFeeReserve_blind feeReserve

theorem depositFees_blind (amount now : ℕ) : Blind (Alike now) (depositFees amount) := by
  unfold depositFees
  refine paired_get.bind fun p q hpq => ?_
  rw [hpq.feeReserve]
  exact paired_lift_bind setFeeReserve_blind

theorem receiveCollateral_blind (amount now : ℕ) :
    Blind (Alike now) (receiveCollateral amount) := by
  unfold receiveCollateral
  refine paired_get.bind fun p q hpq => ?_
  rw [hpq.collateral]
  exact paired_lift_bind setCollateral_blind

theorem payout_blind (holder : Address) (collateral shares now : ℕ) :
    Blind (Alike now) (payout holder collateral shares now) := by
  unfold payout
  refine paired_get.bind fun p q hpq => ?_
  rw [hpq.balanceOf, hpq.collateral, hpq.feeReserve, hpq.shares.supply]
  refine paired_lift_bind fun _ => ?_
  refine paired_lift_bind fun _ => ?_
  refine (onFees_blind _).bind_eq fun _ => ?_
  refine (paired_onShares (ShareBook.burn_blind holder shares now)).bind_eq fun _ => ?_
  exact paired_lift_bind setCollateral_blind

theorem updateSettings_blind (settings : Settings) (now : ℕ) :
    Blind (Alike now) (updateSettings settings) := by
  unfold updateSettings
  refine paired_lift_bind fun _ => ?_
  exact paired_modify fun _ _ hpq => { hpq with settings := rfl }

theorem transfer_blind (sender receiver : Address) (amount now : ℕ) :
    Blind (Alike now) (transfer sender receiver amount now) := by
  unfold transfer
  refine paired_get.bind fun p q hpq => ?_
  rw [hpq.restriction]
  refine paired_lift_bind fun restriction => ?_
  exact paired_onShares (ShareBook.transfer_blind sender receiver amount restriction now)

/-! ## Calls -/

/-- The time at which a call takes place, if that matters to it. -/
def Call.time? : Call → Option ℕ
  | .enter _ _ _ now => some now
  | .quoteExit _ _ now => some now
  | .exit _ _ _ now => some now
  | .planSelfClose _ _ _ now => some now
  | .applySelfClose _ _ now => some now
  | .withdrawFees _ _ => none
  | .payFeeDebt _ _ => none
  | .depositFees _ => none
  | .receiveCollateral _ => none
  | .payout _ _ _ now => some now
  | .updateSettings _ => none
  | .transfer _ _ _ now => some now
  | .cleanup _ _ now => some now

/-- Whether a call clears locks. -/
def Call.isClearing : Call → Bool
  | .cleanup .. => true
  | _ => false

/-- No call but a clearing can tell apart pools that differ only in locks that
have ended when it takes place. -/
theorem perform_blind {call : Call} (hcall : call.isClearing = false)
    (htime : ∀ time ∈ call.time?, time = now) : Blind (Alike now) (perform call) := by
  cases call with
  | enter holder collateral price time =>
    obtain rfl := htime time rfl
    exact (enter_blind _ _ _ _).bind_eq fun _ => paired_pure rfl
  | quoteExit holder shares time =>
    obtain rfl := htime time rfl
    refine paired_get.bind fun p q hpq => ?_
    rw [hpq.quoteExit]
    exact paired_lift_bind fun _ => paired_pure rfl
  | exit holder shares backing time =>
    obtain rfl := htime time rfl
    exact (exit_blind _ _ _ _).bind_eq fun _ => paired_pure rfl
  | planSelfClose holder shares backing time =>
    obtain rfl := htime time rfl
    refine paired_get.bind fun p q hpq => ?_
    rw [hpq.planSelfClose]
    exact paired_lift_bind fun _ => paired_pure rfl
  | applySelfClose holder plan time =>
    obtain rfl := htime time rfl
    exact (applySelfClose_blind _ _ _).bind_eq fun _ => paired_pure rfl
  | withdrawFees => exact (withdrawFees_blind _ _ _).bind_eq fun _ => paired_pure rfl
  | payFeeDebt => exact (payFeeDebt_blind _ _ _).bind_eq fun _ => paired_pure rfl
  | depositFees => exact (depositFees_blind _ _).bind_eq fun _ => paired_pure rfl
  | receiveCollateral => exact (receiveCollateral_blind _ _).bind_eq fun _ => paired_pure rfl
  | payout holder collateral shares time =>
    obtain rfl := htime time rfl
    exact (payout_blind _ _ _ _).bind_eq fun _ => paired_pure rfl
  | updateSettings => exact (updateSettings_blind _ _).bind_eq fun _ => paired_pure rfl
  | transfer sender receiver amount time =>
    obtain rfl := htime time rfl
    exact (transfer_blind _ _ _ _).bind_eq fun _ => paired_pure rfl
  | cleanup => cases hcall

/-- A pool that is cleared stays like one that is not. -/
theorem Alike.clear {call : Call} (h : p.Alike now q) (hcall : call.isClearing = true)
    (htime : ∀ time ∈ call.time?, time = now) : ((perform call).stateAfter p).Alike now q := by
  cases call with
  | cleanup holder limit time =>
    obtain rfl := htime time rfl
    exact { h with shares := h.shares.cleanup holder limit }
  | _ => cases hcall

/-! ## Runs -/

/-- What the calls of a run answer, those that clear locks left aside. -/
def answers : Pool → List Call → List (Checked Reply)
  | _, [] => []
  | p, call :: rest =>
    let later := answers ((perform call).stateAfter p) rest
    if call.isClearing then later else (perform call).outcome p :: later

/-- The calls of a run without those that clear locks. -/
def uncleared (calls : List Call) : List Call := calls.filter fun call => !call.isClearing

/-- In a pool that calls have led to from a fresh one, at whatever times, the
locks are in order and end within the range of times. -/
theorem alike_after (h : p.Alike now q) (calls : List Call) (t : ℕ) :
    (after p calls).Alike t (after p calls) := by
  induction calls generalizing p q now with
  | nil => exact h.self t
  | cons call rest ih =>
    have hself := h.self (call.time?.getD 0)
    have htime := eq_getD_of_time call.time? 0
    cases hcall : call.isClearing with
    | true => exact ih (hself.clear hcall htime)
    | false => exact ih ((perform_blind hcall htime).stateAfter hself)

/-- By induction on the calls: at the time of each, the two runs have come to
pools that are alike. -/
theorem Alike.run {clock : ℕ} {calls : List Call} (h : p.Alike clock q)
    (htimes : (clock :: (calls.filterMap Call.time? ++ [now])).Pairwise (· ≤ ·)) :
    answers p calls = answers q (uncleared calls) ∧
      (after p calls).Alike now (after q (uncleared calls)) := by
  induction calls generalizing p q clock with
  | nil => exact ⟨rfl, h.mono ((List.pairwise_cons.mp htimes).1 now (by simp))⟩
  | cons call rest ih =>
    -- the pools are alike when the call takes place, and time goes on from there
    obtain ⟨hnotBefore, hlater⟩ := times_cons htimes
    have hclock : p.Alike (call.time?.getD clock) q := h.mono (clock_le_getD hnotBefore)
    have htime := eq_getD_of_time call.time? clock
    cases hcall : call.isClearing with
    | true =>
      obtain ⟨hanswers, hafter⟩ := ih (hclock.clear hcall htime) hlater
      rw [uncleared, List.filter_cons_of_neg (by simp [hcall])]
      refine ⟨?_, hafter⟩
      simp only [answers, hcall, if_true]
      exact hanswers
    | false =>
      have hblind := perform_blind hcall htime
      obtain ⟨hanswers, hafter⟩ := ih (hblind.stateAfter hclock) hlater
      rw [uncleared, List.filter_cons_of_pos (by simp [hcall])]
      refine ⟨?_, hafter⟩
      simp only [answers, hcall, Bool.false_eq_true, if_false, hblind.outcome_eq hclock]
      exact congrArg _ hanswers

/-- Take any pool that calls have led to from a fresh one, whichever of them
failed, and any further calls whose times do not run backwards. Without those
that clear locks, all other calls answer the same, values and refusals alike,
and in the end the totals, the settings, the balance, debt and credit of every
holder, and what is locked of it at the last or any later time, are the same. -/
theorem clearing_unobservable (hfresh : create settings = .ok fresh) (past : List Call)
    {calls : List Call} (htimes : (calls.filterMap Call.time? ++ [now]).Pairwise (· ≤ ·)) :
    answers (after fresh past) calls = answers (after fresh past) (uncleared calls) ∧
      let cleared := after (after fresh past) calls
      let kept := after (after fresh past) (uncleared calls)
      cleared.totals = kept.totals ∧ cleared.settings = kept.settings ∧
        (∀ holder, cleared.balanceOf holder = kept.balanceOf holder ∧
          cleared.debtOf holder = kept.debtOf holder ∧
            cleared.creditOf holder = kept.creditOf holder) ∧
        ∀ holder, cleared.lockedBalance holder now = kept.lockedBalance holder now := by
  have hshares : fresh.shares = ShareBook.empty := congrArg Pool.shares (create_ok hfresh).2
  have hstart : fresh.Alike 0 fresh := ⟨rfl, rfl, rfl, rfl, hshares ▸ ShareBook.alike_empty 0⟩
  obtain ⟨hanswers, halike⟩ := (alike_after hstart past 0).run
    (List.pairwise_cons.mpr ⟨fun _ _ => Nat.zero_le _, htimes⟩)
  refine ⟨hanswers, halike.totals_eq, halike.settings, fun holder => ?_, halike.lockedBalance⟩
  refine ⟨halike.balanceOf holder, ?_, ?_⟩
  · exact congrArg (fun fees => fees.debts.get holder) halike.fees
  · exact congrArg (fun fees => fees.credits.get holder) halike.fees

/-! ## Clearings in between -/

/-- Entries under longer and shorter locks, an exit, a payout that reaches into
running locks, and a transfer, with clearings in between. -/
def tidied : List Call :=
  [.cleanup rich 5 50, .enter rich 200 none 60, .cleanup rich 1 120, .exit rich 300 ⟨0, ⟨1, 1⟩⟩ 130,
    .payout rich 800 800 140, .updateSettings looseSettings, .cleanup rich 9 165,
    .enter rich 50 none 170, .updateSettings lockingSettings, .enter rich 40 none 175,
    .transfer rich poor 10 180]

/-- The clearings have removed two locks that are still there without them, and
nobody can tell: the last lock holds 40 shares in both pools. -/
theorem tidied_unobservable :
    let p := after lockingPool [.enter rich 1000 none 0]
    let cleared := after p tidied
    let kept := after p (uncleared tidied)
    ((cleared.shares.locksOf rich).locks.length = 2 ∧
        (kept.shares.locksOf rich).locks.length = 4 ∧ cleared.lockedBalance rich 200 = .ok 40) ∧
      answers p tidied = answers p (uncleared tidied) ∧
      cleared.totals = kept.totals ∧ cleared.settings = kept.settings ∧
        (∀ holder, cleared.balanceOf holder = kept.balanceOf holder ∧
          cleared.debtOf holder = kept.debtOf holder ∧
            cleared.creditOf holder = kept.creditOf holder) ∧
        ∀ holder, cleared.lockedBalance holder 200 = kept.lockedBalance holder 200 := by
  have hfresh : create lockingSettings = .ok lockingPool := rfl
  have htimes : (tidied.filterMap Call.time? ++ [200]).Pairwise (· ≤ ·) := by decide
  refine ⟨⟨by decide +kernel, by decide +kernel, by decide +kernel⟩, ?_⟩
  exact clearing_unobservable hfresh [.enter rich 1000 none 0] htimes

end PooledCollateral.Pool
