/-
PooledCollateral.Proofs.Pool.Hollowing — how a pool comes to keep accounts with
nothing in them.

No call but a clearing of locks makes an account hollow (`perform_closes`), and
what a clearing makes hollow stays so while nothing comes in. So after a run from
a pool without hollow accounts the hollow ones are exactly those that a clearing
has `Hollowed` (`hollow_after_iff`): each call of the run adds its part to the
next (`hollow_perform_iff`).
-/
import PooledCollateral.Proofs.HollowAccounts
import PooledCollateral.Proofs.Pool.Locks
import PooledCollateral.Proofs.Pool.Totals
import Mathlib.Data.List.Induction

namespace PooledCollateral.Pool

open PooledCollateral.Action ShareBook

variable {p q r : Pool} {k : Address} {call : Call} {calls : List Call} {α β : Type}

/-! ## Calls that close what they empty -/

/-- The share book, if it was sound, closes the accounts that it empties. -/
def Closes (p q : Pool) : Prop := p.shares.Sound → p.shares.Closes q.shares

theorem SameShares.closes (h : SameShares p q) : p.Closes q := fun _ =>
  (closes_refl p.shares).congr (congrArg ShareBook.accounts h)

/-- Shares may be moved once; what comes before leaves them alone … -/
theorem closes_behind {x : Action Pool β} {f : β → Action Pool α}
    (hx : Always SameShares x) (hf : ∀ b, Always Closes (f b)) : Always Closes (x >>= f) := by
  intro p
  rw [ensures_bind]
  have hsame : ∀ q r, SameShares p q → q.Closes r → p.Closes r := fun q r hpq hqr => by
    unfold Closes at *
    rwa [hpq] at hqr
  exact (hx p).mono (fun b q hpq => (hf b q).mono (fun _ r => hsame q r hpq) fun _ r => hsame q r hpq)
    fun _ q hpq => hpq.closes

/-- … and so does what comes behind. -/
theorem closes_before {x : Action Pool β} {f : β → Action Pool α}
    (hx : Always Closes x) (hf : ∀ b, Always SameShares (f b)) : Always Closes (x >>= f) := by
  intro p
  rw [ensures_bind]
  have hsame : ∀ q r, p.Closes q → SameShares q r → p.Closes r := fun q r hpq hqr hs =>
    (hpq hs).congr (congrArg ShareBook.accounts hqr)
  exact (hx p).mono (fun b q hpq => (hf b q).mono (fun _ r => hsame q r hpq) fun _ r => hsame q r hpq)
    fun _ q hpq => hpq

theorem always_onShares_closes {act : Action ShareBook α}
    (h : ∀ book, book.Sound →
      act.Ensures book (fun _ b => book.Closes b) (fun _ b => book.Closes b)) :
    Always Closes (onShares act) := by
  intro p
  rw [onShares, ensures_onPart]
  by_cases hs : p.shares.Sound
  · exact (h p.shares hs).mono (fun _ _ hb _ => hb) fun _ _ hb _ => hb
  · exact ensures_of_forall (fun _ _ hsound => absurd hsound hs) fun _ _ hsound => absurd hsound hs

theorem always_sameShares_closes {act : Action Pool α} (h : Always SameShares act) :
    Always Closes act := fun p =>
  (h p).mono (fun _ _ => SameShares.closes) fun _ _ => SameShares.closes

theorem enter_closes (holder : Address) (collateral : ℕ) (price : Option Price) (now : ℕ) :
    Always Closes (enter holder collateral price now) := by
  unfold enter
  apply closes_behind always_get
  intro pool
  apply closes_behind (always_lift _)
  intro quote
  apply closes_before (always_onShares_closes fun book hs => mint_closes hs _ _ _)
  intro unlockTime
  apply (always_onFees_sameShares _).bind
  intro _
  exact Always.bind (fun _ => ensures_modify.mpr rfl) fun _ => always_pure _

theorem carryOut_closes (holder : Address) (quote : ExitQuote) (now : ℕ) :
    Always Closes (carryOut holder quote now) := by
  unfold carryOut
  apply closes_behind always_get
  intro pool
  apply closes_behind (always_lift _)
  intro feeReserve
  apply closes_behind (always_lift _)
  intro collateral
  apply closes_before (always_onShares_closes fun book _ => burn_closes book _ _ _)
  intro _
  exact (always_onFees_sameShares _).bind fun _ _ => ensures_modify.mpr rfl

theorem exit_closes (holder : Address) (shares : ℕ) (backing : Backing) (now : ℕ) :
    Always Closes (exit holder shares backing now) := by
  unfold exit
  apply closes_behind always_get
  intro pool
  apply closes_behind (always_lift _)
  intro quote
  exact closes_before (carryOut_closes holder quote now) fun _ => always_pure _

theorem payout_closes (holder : Address) (collateral shares now : ℕ) :
    Always Closes (payout holder collateral shares now) := by
  unfold payout
  apply closes_behind always_get
  intro pool
  apply closes_behind (always_lift _)
  intro _
  apply closes_behind (always_lift _)
  intro _
  apply closes_behind (always_onFees_sameShares _)
  intro _
  apply closes_before (always_onShares_closes fun book _ => burn_closes book _ _ _)
  intro _
  exact (always_lift _).bind fun _ _ => ensures_modify.mpr rfl

theorem transferShares_closes (sender receiver : Address) (amount now : ℕ) :
    Always Closes (transfer sender receiver amount now) := by
  unfold transfer
  apply closes_behind always_get
  intro pool
  apply closes_behind (always_lift _)
  intro restriction
  exact always_onShares_closes fun book _ => transfer_closes book _ _ _ _ _

/-- Every call but a clearing closes the accounts that it empties, wherever it
fails. -/
theorem perform_closes (hcall : ∀ holder limit now, call ≠ .cleanup holder limit now) :
    Always Closes (perform call) := by
  cases call with
  | enter => exact closes_before (enter_closes _ _ _ _) fun _ => always_pure _
  | quoteExit =>
    exact always_sameShares_closes
      (always_get.bind fun _ => (always_lift _).bind fun _ => always_pure _)
  | exit => exact closes_before (exit_closes _ _ _ _) fun _ => always_pure _
  | planSelfClose =>
    exact always_sameShares_closes
      (always_get.bind fun _ => (always_lift _).bind fun _ => always_pure _)
  | applySelfClose =>
    exact closes_before (closes_before (carryOut_closes _ _ _) fun _ => always_pure _)
      fun _ => always_pure _
  | withdrawFees =>
    exact always_sameShares_closes ((withdrawFees_sameShares _ _).bind fun _ => always_pure _)
  | payFeeDebt =>
    exact always_sameShares_closes ((payFeeDebt_sameShares _ _).bind fun _ => always_pure _)
  | depositFees =>
    exact always_sameShares_closes ((depositFees_sameShares _).bind fun _ => always_pure _)
  | receiveCollateral =>
    exact always_sameShares_closes ((receiveCollateral_sameShares _).bind fun _ => always_pure _)
  | payout => exact closes_before (payout_closes _ _ _ _) fun _ => always_pure _
  | updateSettings =>
    exact always_sameShares_closes ((updateSettings_sameShares _).bind fun _ => always_pure _)
  | transfer => exact closes_before (transferShares_closes _ _ _ _) fun _ => always_pure _
  | cleanup holder limit now => exact absurd rfl (hcall holder limit now)

/-- After a call the hollow accounts are those that were hollow before, and the one
that a clearing has emptied, as far as nothing is in them. -/
theorem hollow_perform_iff (hp : p.Sound) (call : Call) (k : Address) :
    ((perform call).stateAfter p).shares.Hollow k ↔
      ((perform call).stateAfter p).shares.Vacant k ∧
        (p.shares.Hollow k ∨
          ((∃ limit now, call = .cleanup k limit now) ∧ ¬ p.shares.Vacant k)) := by
  by_cases hclearing : ∃ holder limit now, call = .cleanup holder limit now
  · obtain ⟨holder, limit, now, rfl⟩ := hclearing
    have hshares : ((perform (.cleanup holder limit now)).stateAfter p).shares =
        p.shares.cleanup holder now limit := rfl
    have hholder : (∃ limit' now', Call.cleanup holder limit now = .cleanup k limit' now') ↔
        k = holder := by
      simp [eq_comm]
    rw [hshares, hollow_cleanup, hholder]
  · have hcall : ∀ holder limit now, call ≠ .cleanup holder limit now := fun holder limit now h =>
      hclearing ⟨holder, limit, now, h⟩
    have hcloses := (perform_closes hcall p).stateAfter hp.shares k
    have hnone : ¬ ∃ limit now, call = .cleanup k limit now := fun ⟨limit, now, h⟩ =>
      hcall k limit now h
    rw [hcloses]
    simp [hnone]

/-! ## Runs -/

/-- A clearing in the run has taken the last locks of an address that had no shares,
and nothing has come in since. -/
inductive Hollowed (p : Pool) (k : Address) : List Call → Prop
  /-- The clearing itself. -/
  | cleared (calls : List Call) (limit now : ℕ) (before : ¬ (after p calls).shares.Vacant k)
      (vacant : (after p (calls ++ [.cleanup k limit now])).shares.Vacant k) :
      Hollowed p k (calls ++ [.cleanup k limit now])
  /-- A call behind it that brings nothing in. -/
  | left (calls : List Call) (call : Call) (before : Hollowed p k calls)
      (vacant : (after p (calls ++ [call])).shares.Vacant k) : Hollowed p k (calls ++ [call])

theorem after_concat (p : Pool) (calls : List Call) (call : Call) :
    after p (calls ++ [call]) = (perform call).stateAfter (after p calls) := by
  simp [after]

theorem not_hollowed_nil : ¬ Hollowed p k [] := by
  intro h
  generalize hnil : ([] : List Call) = calls at h
  cases h <;> simp at hnil

theorem hollowed_concat_iff :
    Hollowed p k (calls ++ [call]) ↔
      (after p (calls ++ [call])).shares.Vacant k ∧
        (Hollowed p k calls ∨
          ((∃ limit now, call = .cleanup k limit now) ∧ ¬ (after p calls).shares.Vacant k)) := by
  constructor
  · intro h
    generalize hall : calls ++ [call] = all at h
    cases h with
    | cleared front limit now before vacant =>
      obtain ⟨rfl, hcall⟩ := List.append_inj' hall rfl
      exact ⟨vacant, Or.inr ⟨⟨limit, now, List.singleton_inj.mp hcall⟩, before⟩⟩
    | left front last before vacant =>
      obtain ⟨rfl, -⟩ := List.append_inj' hall rfl
      exact ⟨vacant, Or.inl before⟩
  · rintro ⟨vacant, before | ⟨⟨limit, now, rfl⟩, before⟩⟩
    · exact .left calls call before vacant
    · exact .cleared calls limit now before vacant

/-- By induction on the calls from the back: after a run from a sound pool without
hollow accounts, those are hollow that a clearing has hollowed. -/
theorem hollow_after_iff (hp : p.Sound) (hnone : ¬ p.shares.Hollow k) (calls : List Call) :
    (after p calls).shares.Hollow k ↔ Hollowed p k calls := by
  induction calls using List.reverseRecOn with
  | nil => exact iff_of_false hnone not_hollowed_nil
  | append_singleton calls call ih =>
    have hsound : (after p calls).Sound := (after_confined p calls).sound hp
    rw [hollowed_concat_iff, after_concat, hollow_perform_iff hsound, ih]

end PooledCollateral.Pool
