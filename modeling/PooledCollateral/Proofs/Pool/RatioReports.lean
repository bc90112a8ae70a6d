/-
PooledCollateral.Proofs.Pool.RatioReports — one ratio, told in three ways.

Whether collateral backs a liability is decided by products. The ratio that is reported
and the largest backed liability are quotients, rounded down and stopped at the largest
amount. A whole number is no more than a quotient exactly when it is no more than the
quotient rounded down, and neither a threshold nor a liability lies beyond the largest
amount: so each of the three says whether the collateral is `Backed`, and all say the same
(`concordant`). The worth of the collateral is the one product on which it depends whether
the quotients can be told at all.

A plain exit is refused for the ratio by the first of the three and reports the second. The
ratio in the report is therefore below the one that is asked for
(`ratio_answers_agree`); that nothing after the guard is refused for the ratio is seen part
by part (`NotForRatio`).
-/
import PooledCollateral.Proofs.Pool.SelfClose

namespace PooledCollateral

/-! ## Products -/

/-- The product of two amounts is never above the largest product. -/
theorem Amount.product_pair {a b : ℕ} (ha : a ≤ max) (hb : b ≤ max) :
    product [a, b] = .ok (a * b) := by
  have hsquare : max * max ≤ maxProduct := by decide
  have hfirst : a ≤ maxProduct := (ha.trans (by decide)).trans hsquare
  have hboth : a * b ≤ maxProduct := (Nat.mul_le_mul ha hb).trans hsquare
  simp [product, hfirst, hboth, bind, Except.bind, pure, Except.pure]

namespace CollateralRatio

variable {collateral threshold worth ratio : ℕ} {backing : Backing}

/-- What the collateral is worth, in the unit in which ratios are formed, if that can be
told. -/
def weigh (collateral : ℕ) (price : Price) : Checked ℕ :=
  Amount.product [collateral, price.denominator, bips]

theorem weigh_ok {price : Price} (h : weigh collateral price = .ok worth) :
    worth = collateral * price.denominator * bips := by
  simpa [Nat.mul_assoc] using Amount.product_ok h

/-! ## Quotients -/

/-- A threshold is reached by the rounded ratio if it is reached by the ratio. -/
theorem le_ratio_iff_backed (howed : backing.liability * backing.price.numerator ≠ 0) :
    threshold ≤ collateral * backing.price.denominator * bips
        / (backing.liability * backing.price.numerator) ↔
      Backed collateral backing threshold := by
  rw [Nat.le_div_iff_mul_le (Nat.pos_of_ne_zero howed), Backed, ← Nat.mul_assoc threshold]

/-- A liability has a ratio if it is owed: a quotient, stopped at the largest amount. -/
theorem ratioBips_ok {answer : Option ℕ} (h : ratioBips collateral backing = .ok answer)
    (howed : backing.liability ≠ 0) :
    (∃ worth, weigh collateral backing.price = .ok worth) ∧
      backing.liability * backing.price.numerator ≠ 0 ∧
      answer = some (min (collateral * backing.price.denominator * bips
        / (backing.liability * backing.price.numerator)) Amount.max) := by
  unfold ratioBips at h
  rw [if_neg howed] at h
  obtain ⟨worth, hworth, h⟩ := Checked.bind_eq_ok_iff.mp h
  obtain ⟨debt, hdebt, h⟩ := Checked.bind_eq_ok_iff.mp h
  obtain rfl : debt = backing.liability * backing.price.numerator := by
    simpa using Amount.product_ok hdebt
  split at h
  · cases h
  · rename_i hdebt_ne
    cases h
    exact ⟨⟨worth, hworth⟩, hdebt_ne, by rw [weigh_ok hworth]⟩

/-- Stopping at the largest amount does not matter to a threshold that is one. -/
theorem le_ratioBips_iff (h : ratioBips collateral backing = .ok (some ratio))
    (howed : backing.liability ≠ 0) (hthreshold : threshold ≤ Amount.max) :
    threshold ≤ ratio ↔ Backed collateral backing threshold := by
  obtain ⟨-, hdebt, hratio⟩ := ratioBips_ok h howed
  cases hratio
  rw [le_min_iff, le_ratio_iff_backed hdebt, and_iff_left hthreshold]

/-! ## Answers -/

/-- The amounts of which a ratio is formed: something is owed, at some price, and something
is asked for. -/
structure InRange (backing : Backing) (threshold : ℕ) : Prop where
  liability_pos : 0 < backing.liability
  liability_le : backing.liability ≤ Amount.max
  numerator_pos : 0 < backing.price.numerator
  numerator_le : backing.price.numerator ≤ Amount.max
  threshold_pos : 0 < threshold
  threshold_le : threshold ≤ Amount.max

theorem InRange.ratioBips_run (h : InRange backing threshold)
    (hworth : weigh collateral backing.price = .ok worth) :
    ∃ ratio, ratioBips collateral backing = .ok (some ratio) := by
  have hdebt := Amount.product_pair h.liability_le h.numerator_le
  have hdebt_ne : backing.liability * backing.price.numerator ≠ 0 :=
    (Nat.mul_pos h.liability_pos h.numerator_pos).ne'
  unfold weigh at hworth
  simp only [ratioBips, if_neg h.liability_pos.ne', hworth, hdebt, if_neg hdebt_ne, bind,
    Except.bind]
  exact ⟨_, rfl⟩

theorem InRange.maxBacked_run (h : InRange backing threshold)
    (hworth : weigh collateral backing.price = .ok worth) :
    ∃ allowed, maxBacked collateral backing.price threshold = .ok allowed := by
  have hunit := Amount.product_pair h.numerator_le h.threshold_le
  have hunit_ne : backing.price.numerator * threshold ≠ 0 :=
    (Nat.mul_pos h.numerator_pos h.threshold_pos).ne'
  unfold weigh at hworth
  simp only [maxBacked, hworth, hunit, require, if_pos hunit_ne, bind, Except.bind]
  exact ⟨_, rfl⟩

theorem worth_of_backs {answer : Bool} (h : backs collateral backing threshold = .ok answer)
    (howed : backing.liability ≠ 0) : ∃ worth, weigh collateral backing.price = .ok worth := by
  unfold backs at h
  rw [if_neg howed] at h
  obtain ⟨worth, hworth, -⟩ := Checked.bind_eq_ok_iff.mp h
  exact ⟨worth, hworth⟩

theorem worth_of_maxBacked {price : Price} {allowed : ℕ}
    (h : maxBacked collateral price threshold = .ok allowed) :
    ∃ worth, weigh collateral price = .ok worth := by
  obtain ⟨worth, hworth, -⟩ := Checked.bind_eq_ok_iff.mp h
  exact ⟨worth, hworth⟩

/-- The comparison with a threshold, the ratio and the largest backed liability do not
contradict each other, whichever of them can be told. -/
structure Concordant (collateral : ℕ) (backing : Backing) (threshold : ℕ) : Prop where
  backs_iff_ratio : ∀ backed ratio, backs collateral backing threshold = .ok backed →
    ratioBips collateral backing = .ok (some ratio) → (backed = true ↔ threshold ≤ ratio)
  backs_iff_allowed : ∀ backed allowed, backs collateral backing threshold = .ok backed →
    maxBacked collateral backing.price threshold = .ok allowed →
      (backed = true ↔ backing.liability ≤ allowed)
  ratio_iff_allowed : ∀ ratio allowed, ratioBips collateral backing = .ok (some ratio) →
    maxBacked collateral backing.price threshold = .ok allowed →
      (threshold ≤ ratio ↔ backing.liability ≤ allowed)
  /-- What is owed is never said to have no ratio. -/
  ratio_ne_none : ratioBips collateral backing ≠ .ok none
  /-- Where the comparison can be made the ratio can be told, and with it the largest backed
  liability; neither of these can be told without the other. -/
  ratio_of_backs : ∀ backed, backs collateral backing threshold = .ok backed →
    ∃ ratio, ratioBips collateral backing = .ok (some ratio)
  ratio_run_iff : (∃ ratio, ratioBips collateral backing = .ok (some ratio)) ↔
    ∃ allowed, maxBacked collateral backing.price threshold = .ok allowed

theorem concordant (h : InRange backing threshold) : Concordant collateral backing threshold where
  backs_iff_ratio _ _ hbacks hratio := by
    rw [backs_ok hbacks, le_ratioBips_iff hratio h.liability_pos.ne' h.threshold_le]
  backs_iff_allowed _ _ hbacks hallowed := by
    rw [backs_ok hbacks, le_maxBacked_iff hallowed h.liability_le]
  ratio_iff_allowed _ _ hratio hallowed := by
    rw [le_ratioBips_iff hratio h.liability_pos.ne' h.threshold_le,
      le_maxBacked_iff hallowed h.liability_le]
  ratio_ne_none hnone := by
    obtain ⟨-, -, hsome⟩ := ratioBips_ok hnone h.liability_pos.ne'
    cases hsome
  ratio_of_backs _ hbacks := by
    obtain ⟨_, hworth⟩ := worth_of_backs hbacks h.liability_pos.ne'
    exact h.ratioBips_run hworth
  ratio_run_iff := by
    constructor
    · rintro ⟨_, hratio⟩
      obtain ⟨⟨_, hworth⟩, -⟩ := ratioBips_ok hratio h.liability_pos.ne'
      exact h.maxBacked_run hworth
    · rintro ⟨_, hallowed⟩
      obtain ⟨_, hworth⟩ := worth_of_maxBacked hallowed
      exact h.ratioBips_run hworth

end CollateralRatio

/-! ## Refusals for the ratio -/

namespace Action

variable {σ τ α β : Type}

/-- However the action fails, it is not for the exit ratio. -/
def NotForRatio (act : Action σ α) : Prop :=
  ∀ s, act.Ensures s (fun _ _ => True)
    fun e _ => ∀ ratio required, e ≠ .rejected (.belowExitRatio ratio required)

theorem notForRatio_pure (a : α) : NotForRatio (pure a : Action σ α) := fun _ => trivial

theorem notForRatio_get : NotForRatio (get : Action σ σ) := fun _ => trivial

theorem notForRatio_set (s : σ) : NotForRatio (set s : Action σ PUnit) := fun _ => trivial

theorem notForRatio_modify (f : σ → σ) : NotForRatio (modify f : Action σ PUnit) :=
  fun _ => trivial

theorem notForRatio_lift {x : Checked α} (h : Pool.RatioFree x) :
    NotForRatio (liftM x : Action σ α) := fun _ =>
  ensures_lift.mpr ⟨fun _ _ => trivial, fun _ he ratio required heq => h ratio required (heq ▸ he)⟩

theorem NotForRatio.bind {x : Action σ β} {f : β → Action σ α} (hx : NotForRatio x)
    (hf : ∀ b, NotForRatio (f b)) : NotForRatio (x >>= f) := fun s =>
  ensures_bind.mpr ((hx s).mono (fun b t _ => hf b t) fun _ _ he => he)

theorem notForRatio_onPart {view : σ → τ} {put : σ → τ → σ} {act : Action τ α}
    (h : NotForRatio act) : NotForRatio (act.onPart view put) := fun s =>
  ensures_onPart.mpr (h (view s))

end Action

open PooledCollateral.Action Pool

theorem Account.overflowOnly_burn (a : Account) (shares now : ℕ) :
    OverflowOnly (a.burn shares now) := by
  refine (overflowOnly_lockedAmount _ _).bind fun locked =>
    (overflowOnly_take _ _).bind fun balance => ?_
  -- whether or not locks have been released, ended ones are dropped last
  have hlast : ∀ released : LockQueue, OverflowOnly
      (do return { balance, locks := ← released.consumeExpired now shares } : Checked Account) :=
    fun released => (OverflowOnly.of_run (released.consumeExpired_run now shares)).bind fun _ =>
      overflowOnly_ok _
  dsimp only
  split
  · exact (OverflowOnly.of_run (a.locks.consumeLocked_run now _)).bind hlast
  · exact hlast a.locks

theorem ShareBook.burn_notForRatio (holder : Address) (shares now : ℕ) :
    NotForRatio (burn holder shares now) := by
  refine notForRatio_get.bind fun book =>
    (notForRatio_lift (ratioFree_require fun _ _ h => by cases h)).bind fun _ => ?_
  split
  · exact notForRatio_pure ()
  · exact (notForRatio_lift (Account.overflowOnly_burn _ _ _).ratioFree).bind fun account =>
      (notForRatio_set _).bind fun _ =>
        (notForRatio_lift (overflowOnly_take _ _).ratioFree).bind fun supply =>
          notForRatio_modify _

namespace FeeBook

theorem reduce_notForRatio (holder : Address) (amount : ℕ) :
    NotForRatio (reduce holder amount) := by
  refine notForRatio_get.bind fun book =>
    (notForRatio_lift (ratioFree_require fun _ _ h => by cases h)).bind fun _ => ?_
  split
  · exact notForRatio_pure ()
  · exact (notForRatio_lift (overflowOnly_sub _ _).ratioFree).bind fun _ =>
      (notForRatio_lift (overflowOnly_take _ _).ratioFree).bind fun _ => notForRatio_set _

theorem settle_notForRatio (holder : Address) (s : Settlement) :
    NotForRatio (settle holder s) :=
  notForRatio_get.bind fun _ =>
    (notForRatio_lift (ratioFree_require fun _ _ h => by cases h)).bind fun _ =>
      (reduce_notForRatio holder s.debt).bind fun _ => notForRatio_get.bind fun _ =>
        (notForRatio_lift (overflowOnly_sub _ _).ratioFree).bind fun _ =>
          (notForRatio_lift (overflowOnly_take _ _).ratioFree).bind fun _ => notForRatio_set _

end FeeBook

namespace Pool

open CollateralRatio

variable {p q : Pool} {holder : Address} {shares now ratio required : ℕ} {backing : Backing}

theorem carryOut_notForRatio (holder : Address) (quote : ExitQuote) (now : ℕ) :
    NotForRatio (carryOut holder quote now) :=
  notForRatio_get.bind fun _ =>
    (notForRatio_lift (overflowOnly_sub _ _).ratioFree).bind fun _ =>
      (notForRatio_lift (overflowOnly_sub _ _).ratioFree).bind fun _ =>
        (notForRatio_onPart (ShareBook.burn_notForRatio _ _ _)).bind fun _ =>
          (notForRatio_onPart (FeeBook.settle_notForRatio _ _)).bind fun _ =>
            notForRatio_modify _

theorem overflowOnly_ratioBips (collateral : ℕ) (backing : Backing) :
    OverflowOnly (CollateralRatio.ratioBips collateral backing) := by
  unfold CollateralRatio.ratioBips
  split
  · exact overflowOnly_ok none
  · refine (overflowOnly_product _).bind fun _ => (overflowOnly_product _).bind fun _ => ?_
    split
    · exact fun cause h => by cases h
    · exact overflowOnly_ok _

/-- The guard of a plain exit reports the ratio that it finds too low. -/
theorem exitRatio_refused {collateralAfter supplyAfter threshold : ℕ}
    (h : Guard.exitRatio collateralAfter supplyAfter backing threshold
      = .error (.rejected (.belowExitRatio ratio required))) :
    required = threshold ∧
      CollateralRatio.ratioBips collateralAfter backing = .ok (some ratio) ∧
      ratio < threshold := by
  unfold Guard.exitRatio at h
  split at h
  · cases h
  · rename_i howed
    have hliability : backing.liability ≠ 0 := fun hnone => howed (Or.inl hnone)
    obtain hfailed | ⟨backed, hbacks, h⟩ := Checked.bind_eq_error_iff.mp h
    · cases overflowOnly_backs _ _ _ _ hfailed
    · cases backed with
      | true => cases h
      | false =>
        obtain hfailed | ⟨answer, hanswer, h⟩ := Checked.bind_eq_error_iff.mp h
        · cases overflowOnly_ratioBips _ _ _ hfailed
        · obtain ⟨-, hdebt, rfl⟩ := ratioBips_ok hanswer hliability
          cases h
          have hshort := (backs_ok hbacks).not.mp Bool.false_ne_true
          rw [← le_ratio_iff_backed hdebt, Nat.not_le] at hshort
          exact ⟨rfl, hanswer, (Nat.min_le_left _ _).trans_lt hshort⟩

/-- A plain exit that is refused for the ratio has been refused by its guard, before anything
was changed. -/
theorem exit_refused (h : (exit holder shares backing now).run p
      = .error (.rejected (.belowExitRatio ratio required)) q) :
    q = p ∧ ∃ quote, p.quoteExit holder shares now = .ok quote ∧
      Guard.exitRatio quote.collateralAfter quote.supplyAfter backing p.settings.exitRatio
        = .error (.rejected (.belowExitRatio ratio required)) := by
  have hplan : (exit holder shares backing now).Ensures p (fun _ _ => True) fun e t =>
      e = .rejected (.belowExitRatio ratio required) →
        t = p ∧ p.planExit holder shares backing now = .error e := by
    refine ensures_bind.mpr (ensures_bind.mpr (ensures_lift.mpr ⟨fun quote _ => ?_, ?_⟩))
    · refine ensures_bind.mpr ((carryOut_notForRatio holder quote now p).mono ?_ ?_)
      · exact fun _ _ _ => trivial
      · exact fun e _ hother he => absurd he (hother ratio required)
    · exact fun e he _ => ⟨rfl, he⟩
  obtain ⟨rfl, hrefused⟩ := hplan.of_error h rfl
  refine ⟨rfl, ?_⟩
  obtain hfailed | ⟨quote, hquote, hrefused⟩ := Checked.bind_eq_error_iff.mp hrefused
  · exact absurd hfailed (ratioFree_quoteExit _ _ _ _ _ _)
  · obtain hguard | ⟨_, -, hrefused⟩ := Checked.bind_eq_error_iff.mp hrefused
    · exact ⟨quote, hquote, hguard⟩
    · have hfree := (ratioFree_checkResiduals q quote).bind fun _ _ => ratioFree_pure quote
      exact absurd hrefused (hfree ratio required)

/-- The comparison, the ratio and the largest backed liability agree at every threshold, where
the collateral is any amount, something is owed and the price is not zero. In particular a
plain exit that is refused for the ratio, in whatever pool, reports a ratio below the one that
is asked for: the ratio that the exit would have led to. -/
theorem ratio_answers_agree :
    (∀ collateral backing threshold, InRange backing threshold →
      Concordant collateral backing threshold) ∧
    ∀ (p q : Pool) (holder : Address) (shares : ℕ) (backing : Backing) (now ratio required : ℕ),
      (exit holder shares backing now).run p
          = .error (.rejected (.belowExitRatio ratio required)) q →
        ratio < required ∧ required = p.settings.exitRatio ∧
          ∃ quote, p.quoteExit holder shares now = .ok quote ∧
            CollateralRatio.ratioBips quote.collateralAfter backing = .ok (some ratio) := by
  refine ⟨fun _ _ _ => concordant, fun p q holder shares backing now ratio required h => ?_⟩
  obtain ⟨-, quote, hquote, hguard⟩ := exit_refused h
  obtain ⟨rfl, hratio, hless⟩ := exitRatio_refused hguard
  exact ⟨hless, rfl, quote, hquote, hratio⟩

/-- Both quotients stopped at the largest amount, at the lowest threshold; and an exit that
would lead to a ratio just below the one that is asked for. -/
theorem stopped_and_refused :
    let most : Backing := ⟨1, ⟨1, 1⟩⟩
    (backs Amount.max most 1 = .ok true ∧
      CollateralRatio.ratioBips Amount.max most = .ok (some Amount.max) ∧
      maxBacked Amount.max most.price 1 = .ok Amount.max ∧
      (true = true ↔ 1 ≤ Amount.max) ∧ (1 ≤ Amount.max ↔ most.liability ≤ Amount.max)) ∧
    (exit rich 500 ⟨251, ⟨1, 1⟩⟩ 0).failure? earning
        = some (.rejected (.belowExitRatio 19920 20000)) ∧ 19920 < 20000 := by
  intro most
  have hrange : InRange most 1 := by constructor <;> decide
  have hbacks : backs Amount.max most 1 = .ok true := by decide +kernel
  have hratio : CollateralRatio.ratioBips Amount.max most = .ok (some Amount.max) := by
    decide +kernel
  have hallowed : maxBacked Amount.max most.price 1 = .ok Amount.max := by decide +kernel
  have hagree := ratio_answers_agree.1 Amount.max most 1 hrange
  have hexit : (exit rich 500 ⟨251, ⟨1, 1⟩⟩ 0).failure? earning
      = some (.rejected (.belowExitRatio 19920 20000)) := by decide +kernel
  have hreport := ratio_answers_agree.2 _ _ _ _ _ _ _ _ (run_of_failure hexit)
  exact ⟨⟨hbacks, hratio, hallowed, hagree.backs_iff_ratio _ _ hbacks hratio,
    hagree.ratio_iff_allowed _ _ hratio hallowed⟩, hexit, hreport.1⟩

end Pool

end PooledCollateral
