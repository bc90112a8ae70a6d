/-
PooledCollateral.Proofs.Pool.CollateralPerShare — no share loses collateral
except through a payout.

An entry gets shares for its collateral and an exit gets collateral for its
shares, both rounded down; everything else but a payout leaves the shares alone
and takes no collateral. So no such operation dilutes the shares there are
(`operate_undiluted`), and no run of them does, whatever its length and order,
as long as there are shares throughout (`collateral_per_share_never_falls`).
Collateral per share is compared by multiplying across.
-/
import Mathlib.Data.List.Infix
import PooledCollateral.Proofs.Pool.Locks
import PooledCollateral.Proofs.Pool.Ratio

namespace PooledCollateral.Pool

open PooledCollateral.Action

variable {p q m : Pool} {holder : Address} {op : Operation} {ops : List Operation}

/-! ## Undiluted shares -/

/-- There is at least as much collateral per share as before. -/
def Undiluted (p q : Pool) : Prop :=
  p.collateral * q.shares.supply ≤ q.collateral * p.shares.supply

/-- Shares that are there in between carry the comparison on. -/
theorem Undiluted.trans (h : Undiluted p m) (h' : Undiluted m q) (hm : m.shares.supply ≠ 0) :
    Undiluted p q := by
  unfold Undiluted at h h' ⊢
  refine Nat.le_of_mul_le_mul_right ?_ (Nat.pos_of_ne_zero hm)
  calc p.collateral * q.shares.supply * m.shares.supply
      = p.collateral * m.shares.supply * q.shares.supply := Nat.mul_right_comm _ _ _
    _ ≤ m.collateral * p.shares.supply * q.shares.supply := Nat.mul_le_mul_right _ h
    _ = m.collateral * q.shares.supply * p.shares.supply := Nat.mul_right_comm _ _ _
    _ ≤ q.collateral * m.shares.supply * p.shares.supply := Nat.mul_le_mul_right _ h'
    _ = q.collateral * p.shares.supply * m.shares.supply := Nat.mul_right_comm _ _ _

/-- The same shares with no less collateral. -/
theorem undiluted_of_supply_eq {b : Books} (hbooks : q.books = b)
    (hsupply : b.totals.supply = p.shares.supply) (hle : p.collateral ≤ b.totals.collateral) :
    Undiluted p q := by
  subst hbooks
  unfold Undiluted
  rw [show q.shares.supply = p.shares.supply from hsupply]
  exact Nat.mul_le_mul_right _ hle

/-! ## Operations -/

/-- The shares of an entry are worth no more than its collateral. -/
theorem enter_undiluted {collateral now : ℕ} {price : Option Price} {receipt : EntryReceipt}
    (hp : p.shares.supply ≠ 0) (h : (enter holder collateral price now).run p = .ok receipt q) :
    Undiluted p q := by
  obtain ⟨quote, hquote, -, hbooks⟩ := enter_ok h
  obtain ⟨-, hafter, -, hlater⟩ := quoteEntry_ok hquote
  have hcollateral : q.collateral = p.collateral + collateral :=
    (congrArg (·.totals.collateral) hbooks).trans hafter
  have hsupply : q.shares.supply = p.shares.supply + quote.shares :=
    congrArg (·.totals.supply) hbooks
  have hworth : quote.shares * p.collateral ≤ collateral * p.shares.supply := by
    rw [(hlater hp).1]
    exact Nat.div_mul_le_self _ _
  unfold Undiluted
  rw [hcollateral, hsupply, Nat.mul_add, Nat.add_mul, Nat.mul_comm p.collateral quote.shares]
  exact Nat.add_le_add_left hworth _

/-- The collateral of an exit is worth no more than its shares. -/
theorem carryOut_undiluted {shares now : ℕ} {quote : ExitQuote}
    (hquote : ExitQuote.For p holder shares quote)
    (h : (carryOut holder quote now).run p = .ok () q) : Undiluted p q := by
  obtain ⟨hcollateral, hsupply, -⟩ := carryOut_totals hquote h
  have hworth : quote.collateral * p.shares.supply ≤ p.collateral * shares := by
    rw [hquote.collateral_eq, Nat.mul_comm p.collateral]
    exact Nat.div_mul_le_self _ _
  unfold Undiluted
  rw [hcollateral, hsupply, hquote.collateralAfter_eq, hquote.supplyAfter_eq, Nat.mul_sub,
    Nat.sub_mul]
  exact Nat.sub_le_sub_left hworth _

/-- No operation but a payout dilutes the shares there are. -/
theorem operate_undiluted (hp : p.shares.supply ≠ 0) (hpayout : op.seizedFrom? = none)
    (h : (operate op).run p = .ok () q) : Undiluted p q := by
  cases op with
  | enter holder collateral price now =>
    obtain ⟨receipt, henter⟩ := operate_enter_ok h
    exact enter_undiluted hp henter
  | exit holder shares backing now =>
    obtain ⟨quote, hplan, hcarry⟩ := operate_exit_ok h
    exact carryOut_undiluted (quoteExit_ok (planExit_ok hplan)) hcarry
  | selfClose holder shares backing now =>
    obtain ⟨plan, hplan, hcarry⟩ := operate_selfClose_ok h
    exact carryOut_undiluted (quoteExit_ok (planSelfClose_ok hplan).1) hcarry
  | withdrawFees holder amount =>
    obtain ⟨_, -, -, -, hbooks⟩ := withdrawFees_ok h
    exact undiluted_of_supply_eq hbooks rfl (Nat.le_refl _)
  | payFeeDebt holder amount =>
    obtain ⟨-, -, hbooks⟩ := payFeeDebt_ok h
    exact undiluted_of_supply_eq hbooks rfl (Nat.le_refl _)
  | depositFees amount =>
    exact undiluted_of_supply_eq (congrArg books (depositFees_ok h)) rfl (Nat.le_refl _)
  | receiveCollateral amount =>
    exact undiluted_of_supply_eq (congrArg books (receiveCollateral_ok h)) rfl
      (Nat.le_add_right _ _)
  | payout => cases hpayout
  | updateSettings settings =>
    exact undiluted_of_supply_eq (congrArg books (updateSettings_ok h).2) rfl (Nat.le_refl _)
  | transfer sender receiver amount now =>
    obtain ⟨_, _, -, -, -, -, ⟨-, rfl⟩ | ⟨-, -, _, -, hbooks⟩⟩ := transfer_ok h
    · exact Nat.le_refl _
    · exact undiluted_of_supply_eq hbooks rfl (Nat.le_refl _)
  | cleanup holder limit now =>
    obtain ⟨done, hcleanup⟩ := operate_cleanup_ok h
    exact undiluted_of_supply_eq (cleanup_ok hcleanup) rfl (Nat.le_refl _)

/-! ## Runs -/

/-- Between any two points of a run, with no payout and shares throughout, the
collateral per share does not fall. The run may start anywhere, so the first
point is any, too. -/
theorem collateral_per_share_never_falls (hrun : Run p ops q)
    (hpayout : ∀ op ∈ ops, op.seizedFrom? = none)
    (hshares : ∀ done m, done <+: ops → Run p done m → m.shares.supply ≠ 0) :
    p.collateral * q.shares.supply ≤ q.collateral * p.shares.supply := by
  -- by induction on the operations, the first of them taken off the run
  induction ops generalizing p with
  | nil =>
    rw [run_nil.mp hrun]
  | cons op ops ih =>
    obtain ⟨m, hop, hops⟩ := run_cons.mp hrun
    have hp : p.shares.supply ≠ 0 := hshares [] p List.nil_prefix (run_nil.mpr rfl)
    have hlater : ∀ done n, done <+: ops → Run m done n → n.shares.supply ≠ 0 :=
      fun done n hdone hn => hshares (op :: done) n ((List.prefix_cons_inj op).mpr hdone)
        (run_cons.mpr ⟨m, hop, hn⟩)
    have hfirst : Undiluted p m := operate_undiluted hp (hpayout op List.mem_cons_self) hop
    have hrest : Undiluted m q :=
      ih hops (fun op' hop' => hpayout op' (List.mem_cons_of_mem _ hop')) hlater
    exact hfirst.trans hrest (hlater [] m List.nil_prefix (run_nil.mpr rfl))

/-! ## Uneven numbers -/

/-- With 1007 units of collateral for 1000 shares, an entry, an exit and a
self-close exit each round; fees come and go, and shares change hands. -/
def uneven : List Operation :=
  [.receiveCollateral 7, .enter poor 100 none 1, .depositFees 50, .exit rich 333 ⟨0, ⟨1, 1⟩⟩ 2,
    .transfer poor rich 5 3, .selfClose rich 400 ⟨100, ⟨1, 1⟩⟩ 4, .withdrawFees rich 3]

/-- What is left of the thousand units and shares: 369 units for 366 shares. -/
def evened : Pool := stateAfter (forM uneven operate : Action Pool Unit) entered

theorem uneven_undiluted :
    Run entered uneven evened ∧ (∀ op ∈ uneven, op.seizedFrom? = none) ∧
      (∀ done m, done <+: uneven → Run entered done m → m.shares.supply ≠ 0) ∧
      evened.collateral = 369 ∧ evened.shares.supply = 366 ∧
      entered.collateral * evened.shares.supply ≤ evened.collateral * entered.shares.supply := by
  have hrun : Run entered uneven evened := run_stateAfter (by decide +kernel)
  have hpayout : ∀ op ∈ uneven, op.seizedFrom? = none := by decide
  have hkept : ∀ done ∈ uneven.inits,
      (stateAfter (forM done operate : Action Pool Unit) entered).shares.supply ≠ 0 := by
    decide +kernel
  have hshares : ∀ done m, done <+: uneven → Run entered done m → m.shares.supply ≠ 0 :=
    fun done m hdone hm => hm.stateAfter_eq ▸ hkept done ((List.mem_inits _ _).mpr hdone)
  exact ⟨hrun, hpayout, hshares, by decide +kernel, by decide +kernel,
    collateral_per_share_never_falls hrun hpayout hshares⟩

end PooledCollateral.Pool
