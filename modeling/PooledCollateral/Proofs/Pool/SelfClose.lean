/-
PooledCollateral.Proofs.Pool.SelfClose — what a self-close exit burns, and when it
is a plain exit.

The burn is sized by division, and checked again by products. The two agree: a burn
that has been sized suffices, so that the check never refuses it
(`ratioFree_planSelfClose`), and no smaller one would do (`selfClose_burns_least`).
A plain exit asks for what a self-close exit asks for with nothing to burn
(`planExit_iff_no_burn`), and a quoted burn can always be carried out. So the two exits
are one where nothing has to be burned (`exit_iff_no_burn`).
-/
import PooledCollateral.Proofs.Burn
import PooledCollateral.Proofs.Pool.Audit
import PooledCollateral.Proofs.Pool.CarryOut
import PooledCollateral.Proofs.Pool.Ratio
import PooledCollateral.Proofs.Pool.Totals

namespace PooledCollateral.Pool

open PooledCollateral.Action CollateralRatio

variable {p fresh : Pool} {holder : Address} {shares now : ℕ} {backing : Backing}
  {settings : Settings} {calls : List Call}

/-! ## Refusals for the ratio -/

/-- A computation that is never refused for the exit ratio. -/
def RatioFree {α : Type} (x : Checked α) : Prop :=
  ∀ ratio required, x ≠ .error (.rejected (.belowExitRatio ratio required))

section

variable {α β : Type}

theorem ratioFree_pure (a : α) : RatioFree (pure a : Checked α) := fun _ _ h => by cases h

theorem OverflowOnly.ratioFree {x : Checked α} (h : OverflowOnly x) : RatioFree x := by
  intro ratio required hx
  cases h _ hx

theorem ratioFree_require {condition : Prop} [Decidable condition] {cause : Rejection}
    (hcause : ∀ ratio required, cause ≠ .belowExitRatio ratio required) :
    RatioFree (require condition cause) := by
  intro ratio required h
  unfold require reject at h
  split at h
  · cases h
  · exact hcause ratio required (Failure.rejected.inj (Except.error.inj h))

/-- Of the second of two computations only the case in which the first has given its
result counts. -/
theorem RatioFree.bind {x : Checked α} {f : α → Checked β} (hx : RatioFree x)
    (hf : ∀ a, x = .ok a → RatioFree (f a)) : RatioFree (x >>= f) := by
  cases x with
  | ok a => exact hf a rfl
  | error e => exact fun ratio required h => hx ratio required (congrArg _ (Except.error.inj h))

end

/-! ### Amounts and ratios -/

theorem overflowOnly_product (factors : List ℕ) : OverflowOnly (Amount.product factors) := by
  unfold Amount.product
  generalize 1 = acc
  induction factors generalizing acc with
  | nil => exact overflowOnly_ok acc
  | cons factor factors ih =>
    rw [List.foldlM_cons]
    refine OverflowOnly.bind ?_ ih
    split
    · exact overflowOnly_ok _
    · exact fun cause h => by cases h; rfl

theorem overflowOnly_mulDivUp (a b c : ℕ) : OverflowOnly (Amount.mulDivUp a b c) :=
  overflowOnly_require.bind fun _ => (overflowOnly_mul a b).bind fun _ => overflowOnly_fit _

theorem overflowOnly_backs (collateral : ℕ) (backing : Backing) (threshold : ℕ) :
    OverflowOnly (backs collateral backing threshold) := by
  unfold backs
  split
  · exact overflowOnly_ok true
  · exact (overflowOnly_product _).bind fun _ => (overflowOnly_product _).bind fun _ =>
      overflowOnly_ok _

theorem overflowOnly_notWorse (collateral liability collateral' liability' : ℕ) :
    OverflowOnly (CollateralRatio.notWorse collateral liability collateral' liability') := by
  unfold CollateralRatio.notWorse
  split
  · exact overflowOnly_ok true
  · split
    · exact overflowOnly_ok false
    · exact (overflowOnly_product _).bind fun _ => (overflowOnly_product _).bind fun _ =>
        overflowOnly_ok _

theorem overflowOnly_required (total share : ℕ) (backing : Backing) (exitRatio : ℕ) :
    OverflowOnly (Burn.required total share backing exitRatio) := by
  unfold Burn.required
  split
  · exact overflowOnly_ok 0
  · refine (overflowOnly_backs _ _ _).bind fun backed => ?_
    split
    · refine OverflowOnly.bind ?_ fun allowed => overflowOnly_ok _
      exact (overflowOnly_product _).bind fun _ => (overflowOnly_product _).bind fun _ =>
        overflowOnly_require.bind fun _ => overflowOnly_ok _
    · exact (overflowOnly_mulDivUp _ _ _).bind fun _ => overflowOnly_ok _

/-! ### Quotes -/

theorem overflowOnly_lockedAmount (q : LockQueue) (now : ℕ) :
    OverflowOnly (q.lockedAmount now) := by
  intro cause h
  unfold LockQueue.lockedAmount Amount.gather at h
  dsimp only at h
  split at h <;> cases h

theorem overflowOnly_lockedBalance (p : Pool) (holder : Address) (now : ℕ) :
    OverflowOnly (p.lockedBalance holder now) := by
  unfold lockedBalance ShareBook.lockedBalance
  split
  · exact overflowOnly_ok 0
  · exact (overflowOnly_lockedAmount _ _).bind fun _ => overflowOnly_ok _

theorem overflowOnly_exitFees (p : Pool) (holder : Address) (shares balance : ℕ) :
    OverflowOnly (p.exitFees holder shares balance) := by
  refine OverflowOnly.bind ?_ fun claimable => ?_
  · exact (overflowOnly_claim p holder).bind fun _ => overflowOnly_ok _
  · split
    · exact overflowOnly_ok claimable
    · exact overflowOnly_mulDiv _ _ _

theorem overflowOnly_settlement (book : FeeBook) (holder : Address) (shares balance : ℕ) :
    OverflowOnly (book.settlement holder shares balance) := by
  unfold FeeBook.settlement
  split
  · exact overflowOnly_ok _
  · exact (overflowOnly_mulDiv _ _ _).bind fun _ => (overflowOnly_mulDiv _ _ _).bind fun _ =>
      overflowOnly_ok _

theorem ratioFree_quoteExit (p : Pool) (holder : Address) (shares now : ℕ) :
    RatioFree (p.quoteExit holder shares now) := by
  refine (ratioFree_require fun _ _ h => by cases h).bind fun _ _ =>
    (overflowOnly_lockedBalance p holder now).ratioFree.bind fun locked _ => ?_
  refine RatioFree.bind ?_ fun _ _ => ?_
  · exact (ratioFree_require fun _ _ h => by cases h).bind fun _ _ =>
      ratioFree_require fun _ _ h => by cases h
  refine (overflowOnly_mulDiv _ _ _).ratioFree.bind fun _ _ =>
    (ratioFree_require fun _ _ h => by cases h).bind fun _ _ => ?_
  refine (overflowOnly_exitFees p holder _ _).ratioFree.bind fun _ _ =>
    (overflowOnly_settlement _ _ _ _).ratioFree.bind fun _ _ => ?_
  exact (overflowOnly_sub _ _).ratioFree.bind fun _ _ =>
    (overflowOnly_sub _ _).ratioFree.bind fun _ _ => ratioFree_pure _

theorem ratioFree_checkResiduals (p : Pool) (quote : ExitQuote) :
    RatioFree (p.checkResiduals quote) :=
  (ratioFree_require fun _ _ h => by cases h).bind fun _ _ =>
    ratioFree_require fun _ _ h => by cases h

/-! ## The least burn -/

/-- A burn that suffices passes one of the two comparisons of the guard. -/
theorem ratioFree_guardSelfClose {quote : ExitQuote} {burn : ℕ}
    (hafter : quote.collateralAfter = p.collateral - quote.collateral)
    (hburn : Burn.Suffices p.collateral quote.collateral backing p.settings.exitRatio burn) :
    RatioFree (p.guardSelfClose quote backing burn) := by
  refine (overflowOnly_sub _ _).ratioFree.bind fun left hleft => ?_
  obtain ⟨rfl, hle⟩ := Amount.sub_eq_ok_iff.mp hleft
  dsimp only
  split
  · exact ratioFree_pure ()
  · refine (overflowOnly_backs _ _ _).ratioFree.bind fun backed hbacks => ?_
    cases backed with
    | true => exact ratioFree_pure ()
    | false =>
      refine (overflowOnly_notWorse _ _ _ _).ratioFree.bind fun sustained hnotWorse => ?_
      cases sustained with
      | true => exact ratioFree_pure ()
      | false =>
        exfalso
        have hshort := (backs_ok hbacks).not.mp Bool.false_ne_true
        have hworse := (notWorse_iff (Nat.sub_le _ _) hnotWorse).not.mp Bool.false_ne_true
        rw [hafter] at hshort hworse
        by_cases hbefore : Backed p.collateral backing p.settings.exitRatio
        · exact hshort (hburn.backed hbefore)
        · exact hworse (hburn.notWorse hbefore)

/-- No plan of a self-close exit is refused for the exit ratio. -/
theorem ratioFree_planSelfClose (p : Pool) (holder : Address) (shares : ℕ) (backing : Backing)
    (now : ℕ) : RatioFree (p.planSelfClose holder shares backing now) := by
  refine (ratioFree_quoteExit p holder shares now).bind fun quote hquote =>
    (overflowOnly_required _ _ _ _).ratioFree.bind fun burn hburn => ?_
  have hfor := quoteExit_ok hquote
  have hsuffices := Burn.required_suffices hburn hfor.collateral_le
  refine (ratioFree_guardSelfClose hfor.collateralAfter_eq hsuffices).bind fun _ _ =>
    (ratioFree_checkResiduals p quote).bind fun _ _ => ?_
  rw [Burn.fund_eq]
  exact ratioFree_pure _

theorem planSelfClose_isLeast {plan : SelfClosePlan} (hliability : backing.liability ≤ Amount.max)
    (h : p.planSelfClose holder shares backing now = .ok plan) :
    IsLeast {burn | Burn.Suffices p.collateral plan.quote.collateral backing
      p.settings.exitRatio burn} plan.burn := by
  obtain ⟨hquote, hburn, -⟩ := planSelfClose_eq_ok_iff.mp h
  exact Burn.required_isLeast hburn (quoteExit_ok hquote).collateral_le hliability

/-- Whatever the pool, the liability and the price, a self-close exit is never
refused for the exit ratio. What it burns is at most the liability, is paid by fees
of the exit and by the holder, and is the least that keeps a backed liability backed
at the exit ratio, or else the ratio no worse than before. -/
theorem selfClose_burns_least (hliability : backing.liability ≤ Amount.max) :
    (∀ ratio required, p.planSelfClose holder shares backing now
        ≠ .error (.rejected (.belowExitRatio ratio required))) ∧
      ∀ plan, p.planSelfClose holder shares backing now = .ok plan →
        p.quoteExit holder shares now = .ok plan.quote ∧
          plan.burn ≤ backing.liability ∧
          plan.funding.fromFees + plan.funding.fromHolder = plan.burn ∧
          plan.funding.fromFees + plan.funding.toRecipient = plan.quote.fees ∧
          IsLeast {burn | Burn.Suffices p.collateral plan.quote.collateral backing
            p.settings.exitRatio burn} plan.burn := by
  refine ⟨ratioFree_planSelfClose p holder shares backing now, fun plan hplan => ?_⟩
  obtain ⟨hquote, hburn, hfunding⟩ := planSelfClose_ok hplan
  refine ⟨hquote, hburn, ?_, ?_, planSelfClose_isLeast hliability hplan⟩
  · rw [hfunding]
    dsimp only
    omega
  · rw [hfunding]
    dsimp only
    omega

/-- A pool with a thousand units of collateral, as many shares, and a hundred units
of fees. -/
def earning : Pool := after freshPool [.enter rich 1000 none 0, .depositFees 100]

/-- What half of the shares take along. -/
def halfQuote : ExitQuote where
  shares := 500
  collateral := 500
  fees := 50
  debtForgiven := 0
  creditUsed := 0
  collateralAfter := 500
  supplyAfter := 500

/-- At two and a half to one, half of the shares leave with a burn of 150, down to
the exit ratio of two; below that ratio they leave with half of the liability,
rounded up. Either burn is the least that will do. -/
theorem halfQuote_burns_least :
    (earning.planSelfClose rich 500 ⟨400, ⟨1, 1⟩⟩ 0 = .ok ⟨halfQuote, 150, ⟨50, 100, 0⟩⟩ ∧
        IsLeast {burn | Burn.Suffices earning.collateral halfQuote.collateral ⟨400, ⟨1, 1⟩⟩
          earning.settings.exitRatio burn} 150) ∧
      earning.planSelfClose rich 500 ⟨601, ⟨1, 1⟩⟩ 0 = .ok ⟨halfQuote, 301, ⟨50, 251, 0⟩⟩ ∧
        IsLeast {burn | Burn.Suffices earning.collateral halfQuote.collateral ⟨601, ⟨1, 1⟩⟩
          earning.settings.exitRatio burn} 301 := by
  have hhealthy : earning.planSelfClose rich 500 ⟨400, ⟨1, 1⟩⟩ 0
      = .ok ⟨halfQuote, 150, ⟨50, 100, 0⟩⟩ := by decide +kernel
  have hshort : earning.planSelfClose rich 500 ⟨601, ⟨1, 1⟩⟩ 0
      = .ok ⟨halfQuote, 301, ⟨50, 251, 0⟩⟩ := by decide +kernel
  obtain ⟨-, -, -, -, hleast⟩ := (selfClose_burns_least (by decide)).2 _ hhealthy
  obtain ⟨-, -, -, -, hleast'⟩ := (selfClose_burns_least (by decide)).2 _ hshort
  exact ⟨⟨hhealthy, hleast⟩, hshort, hleast'⟩

/-! ## Plain exits -/

/-- With nothing to burn, what passes the guard of a self-close exit passes that of
a plain one: collateral has left, and so the ratio has fallen. -/
theorem exitRatio_of_guardSelfClose {quote : ExitQuote} {u : Unit}
    (hless : quote.collateralAfter < p.collateral)
    (h : p.guardSelfClose quote backing 0 = .ok u) :
    Guard.exitRatio quote.collateralAfter quote.supplyAfter backing p.settings.exitRatio
      = .ok () := by
  obtain ⟨-, hpasses⟩ := guardSelfClose_eq_ok_iff.mp h
  rw [Nat.sub_zero] at hpasses
  refine Guard.exitRatio_eq_ok_iff.mpr ?_
  rcases hpasses with hexempt | hbacks | ⟨-, hnotWorse⟩
  · exact Or.inl hexempt
  · exact Or.inr hbacks
  · refine Or.inl (Or.inl ?_)
    by_contra howed
    have hle := Nat.le_of_mul_le_mul_right (notWorse_ok hnotWorse) (Nat.pos_of_ne_zero howed)
    exact Nat.not_le_of_lt hless hle

/-- What a self-close exit plans, a plain exit plans if and only if nothing has to be
burned, unless nothing is left. -/
theorem planExit_iff_no_burn {plan : SelfClosePlan} (hliability : backing.liability ≤ Amount.max)
    (hplan : p.planSelfClose holder shares backing now = .ok plan)
    (hkept : ¬ (plan.quote.supplyAfter = 0 ∧ plan.quote.collateralAfter = 0)) :
    p.planExit holder shares backing now = .ok plan.quote ↔ plan.burn = 0 := by
  obtain ⟨hquote, -, hguard, hresiduals, -⟩ := planSelfClose_eq_ok_iff.mp hplan
  have hfor := quoteExit_ok hquote
  constructor
  · intro hexit
    have hbacked := (planExit_backed hexit).resolve_left hkept
    rw [hfor.collateralAfter_eq] at hbacked
    have hnone : Burn.Suffices p.collateral plan.quote.collateral backing p.settings.exitRatio 0 :=
      sustained_of_backed (Nat.sub_le _ _) hbacked
    exact Nat.le_zero.mp ((planSelfClose_isLeast hliability hplan).2 hnone)
  · intro hburn
    rw [hburn] at hguard
    have hless : plan.quote.collateralAfter < p.collateral := by
      have hle := hfor.collateral_le
      have hne := hfor.collateral_ne
      rw [hfor.collateralAfter_eq]
      omega
    exact planExit_eq_ok_iff.mpr ⟨hquote, exitRatio_of_guardSelfClose hless hguard, hresiduals⟩

/-- In a pool that any calls on a fresh one lead to, successful or not, where a
self-close exit is planned that does not empty the pool: it burns nothing if and only
if the plain exit succeeds, and then both answer alike and leave the same pool. -/
theorem exit_iff_no_burn (hfresh : create settings = .ok fresh) (hpast : after fresh calls = p)
    (hliability : backing.liability ≤ Amount.max) {plan : SelfClosePlan}
    (hplan : p.planSelfClose holder shares backing now = .ok plan)
    (hkept : ¬ (plan.quote.supplyAfter = 0 ∧ plan.quote.collateralAfter = 0)) :
    (plan.burn = 0 ↔ ∃ receipt q, (exit holder shares backing now).run p = .ok receipt q) ∧
      (plan.burn = 0 →
        (applySelfClose holder plan now).run p = (exit holder shares backing now).run p) := by
  obtain ⟨hquote, -, hfunding⟩ := planSelfClose_ok hplan
  have hplain := planExit_iff_no_burn hliability hplan hkept
  obtain ⟨q, hcarry⟩ := carryOut_succeeds (sound_after hfresh hpast) hquote
  have hexit : plan.burn = 0 → (exit holder shares backing now).run p
      = .ok ⟨plan.quote.shares, plan.quote.collateral, plan.quote.fees, plan.quote.debtForgiven⟩
          q := by
    intro hburn
    simp only [exit, run_bind_eq_ok_iff, run_lift_eq_ok_iff]
    exact ⟨p, p, rfl, plan.quote, p, ⟨hplain.mpr hburn, rfl⟩, (), q, hcarry, rfl⟩
  refine ⟨⟨fun hburn => ⟨_, q, hexit hburn⟩, fun hsucceeds => ?_⟩, fun hburn => ?_⟩
  · obtain ⟨receipt, q', hrun⟩ := hsucceeds
    obtain ⟨quote, hplanned, -⟩ := exit_ok hrun
    obtain rfl : plan.quote = quote := Except.ok.inj (hquote.symm.trans (planExit_ok hplanned))
    exact hplain.mp hplanned
  · rw [hexit hburn]
    exact run_bind_eq_ok_iff.mpr ⟨(), q, hcarry, by rw [hfunding, hburn]; rfl⟩

/-- Down to the exit ratio half of the shares leave either way, with nothing to burn;
one more unit of liability has to be burned, and the plain exit is refused. -/
theorem halfQuote_exits_either_way :
    (earning.planSelfClose rich 500 ⟨250, ⟨1, 1⟩⟩ 0 = .ok ⟨halfQuote, 0, ⟨0, 0, 50⟩⟩ ∧
        (∃ receipt q, (exit rich 500 ⟨250, ⟨1, 1⟩⟩ 0).run earning = .ok receipt q) ∧
        (applySelfClose rich ⟨halfQuote, 0, ⟨0, 0, 50⟩⟩ 0).run earning
          = (exit rich 500 ⟨250, ⟨1, 1⟩⟩ 0).run earning) ∧
      earning.planSelfClose rich 500 ⟨251, ⟨1, 1⟩⟩ 0 = .ok ⟨halfQuote, 1, ⟨1, 0, 49⟩⟩ ∧
        ¬ ∃ receipt q, (exit rich 500 ⟨251, ⟨1, 1⟩⟩ 0).run earning = .ok receipt q := by
  have hfresh : create looseSettings = .ok freshPool := rfl
  have hkept : ¬ (halfQuote.supplyAfter = 0 ∧ halfQuote.collateralAfter = 0) := by decide
  have hbacked : earning.planSelfClose rich 500 ⟨250, ⟨1, 1⟩⟩ 0
      = .ok ⟨halfQuote, 0, ⟨0, 0, 50⟩⟩ := by decide +kernel
  have hshort : earning.planSelfClose rich 500 ⟨251, ⟨1, 1⟩⟩ 0
      = .ok ⟨halfQuote, 1, ⟨1, 0, 49⟩⟩ := by decide +kernel
  obtain ⟨hexits, hsame⟩ := exit_iff_no_burn hfresh rfl (by decide) hbacked hkept
  obtain ⟨hrefused, -⟩ := exit_iff_no_burn hfresh rfl (by decide) hshort hkept
  exact ⟨⟨hbacked, hexits.mp rfl, hsame rfl⟩, hshort, fun hexit => by cases hrefused.mpr hexit⟩

end PooledCollateral.Pool
