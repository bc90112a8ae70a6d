/-
PooledCollateral.Proofs.Pool.Ratio — holders cannot spoil the collateral ratio.

Only exits take collateral away. A plain exit leaves the liability alone and has
to keep it backed; a self-close exit redeems a part of it, and has to leave the
rest backed or the ratio no worse (`guardSelfClose_ok`). Whatever else a holder
does or the manager reports adds to the collateral or leaves it. So the ratio is
sustained by every such operation that does not empty the pool
(`ratio_sustained`), and by every run of them (`ratio_sustained_of_run`).
-/
import Mathlib.Logic.Relation
import PooledCollateral.Proofs.CollateralRatio
import PooledCollateral.Proofs.Pool.Run

namespace PooledCollateral.Pool

open PooledCollateral.Action CollateralRatio

variable {p q : Pool} {holder : Address} {shares now : ℕ} {backing : Backing} {price : Price}

/-! ## Exits -/

/-- There were shares before, and now there are neither shares nor collateral. -/
def Emptied (p q : Pool) : Prop :=
  p.shares.supply ≠ 0 ∧ q.shares.supply = 0 ∧ q.collateral = 0

/-- What a plain exit leaves is empty or backed. -/
theorem planExit_backed {quote : ExitQuote}
    (h : p.planExit holder shares backing now = .ok quote) :
    (quote.supplyAfter = 0 ∧ quote.collateralAfter = 0) ∨
      Backed quote.collateralAfter backing p.settings.exitRatio := by
  exact Guard.exitRatio_ok (planExit_eq_ok_iff.mp h).2.1

/-- A burn passes that is no more than the liability, if then nothing is owed, the pool
is empty, or one of the two comparisons says so. -/
theorem guardSelfClose_eq_ok_iff {quote : ExitQuote} {burn : ℕ} {u : Unit} :
    p.guardSelfClose quote backing burn = .ok u ↔
      burn ≤ backing.liability ∧
        ((backing.liability - burn = 0 ∨ (quote.supplyAfter = 0 ∧ quote.collateralAfter = 0)) ∨
          backs quote.collateralAfter ⟨backing.liability - burn, backing.price⟩
            p.settings.exitRatio = .ok true ∨
          (backs quote.collateralAfter ⟨backing.liability - burn, backing.price⟩
              p.settings.exitRatio = .ok false ∧
            CollateralRatio.notWorse p.collateral backing.liability quote.collateralAfter
              (backing.liability - burn) = .ok true)) := by
  unfold guardSelfClose
  constructor
  · intro h
    obtain ⟨_, hburn, h⟩ := Checked.bind_eq_ok_iff.mp h
    obtain ⟨rfl, hle⟩ := Amount.sub_eq_ok_iff.mp hburn
    refine ⟨hle, ?_⟩
    dsimp only at h
    split at h
    · rename_i hexempt
      exact Or.inl hexempt
    · obtain ⟨backed, hbacks, h⟩ := Checked.bind_eq_ok_iff.mp h
      cases backed with
      | true => exact Or.inr (Or.inl hbacks)
      | false =>
        obtain ⟨better, hbetter, h⟩ := Checked.bind_eq_ok_iff.mp h
        cases better with
        | true => exact Or.inr (Or.inr ⟨hbacks, hbetter⟩)
        | false =>
          obtain ⟨_, -, hrefused⟩ := Checked.bind_eq_ok_iff.mp h
          cases hrefused
  · rintro ⟨hle, hpasses⟩
    refine Checked.bind_eq_ok_iff.mpr ⟨_, Amount.sub_eq_ok_iff.mpr ⟨rfl, hle⟩, ?_⟩
    dsimp only
    split
    · rfl
    · rename_i howed
      rw [Checked.bind_eq_ok_iff]
      rcases hpasses.resolve_left howed with hbacks | ⟨hbacks, hbetter⟩
      · exact ⟨true, hbacks, rfl⟩
      · exact ⟨false, hbacks, Checked.bind_eq_ok_iff.mpr ⟨true, hbetter, rfl⟩⟩

/-- A burn that passes is no more than the liability, and leaves an empty pool, a
backed liability, or a ratio no worse than before. -/
theorem guardSelfClose_ok {quote : ExitQuote} {burn : ℕ} {u : Unit}
    (h : p.guardSelfClose quote backing burn = .ok u) :
    burn ≤ backing.liability ∧
      ((quote.supplyAfter = 0 ∧ quote.collateralAfter = 0) ∨
        Backed quote.collateralAfter ⟨backing.liability - burn, backing.price⟩
          p.settings.exitRatio ∨
        p.collateral * (backing.liability - burn)
          ≤ quote.collateralAfter * backing.liability) := by
  obtain ⟨hle, (hnone | hempty) | hbacks | ⟨-, hbetter⟩⟩ := guardSelfClose_eq_ok_iff.mp h
  · exact ⟨hle, Or.inr (Or.inl (backed_of_no_liability hnone))⟩
  · exact ⟨hle, Or.inl hempty⟩
  · exact ⟨hle, Or.inr (Or.inl ((backs_ok hbacks).mp rfl))⟩
  · exact ⟨hle, Or.inr (Or.inr (notWorse_ok hbetter))⟩

/-- The collateral, the supply and the settings after a quoted burn. -/
theorem carryOut_totals {quote : ExitQuote} (hquote : ExitQuote.For p holder shares quote)
    (h : (carryOut holder quote now).run p = .ok () q) :
    q.collateral = quote.collateralAfter ∧ q.shares.supply = quote.supplyAfter ∧
      q.settings = p.settings := by
  obtain ⟨-, -, a, -, hbooks⟩ := carryOut_ok h
  rw [hquote.collateralAfter_eq, hquote.supplyAfter_eq, ← hquote.shares_eq]
  exact ⟨congrArg (·.totals.collateral) hbooks, congrArg (·.totals.supply) hbooks,
    congrArg Books.settings hbooks⟩

/-- Burns that leave nothing have emptied the pool. -/
theorem carryOut_emptied {quote : ExitQuote} (hquote : ExitQuote.For p holder shares quote)
    (h : (carryOut holder quote now).run p = .ok () q)
    (hempty : quote.supplyAfter = 0 ∧ quote.collateralAfter = 0) : Emptied p q := by
  obtain ⟨hcollateral, hsupply, -⟩ := carryOut_totals hquote h
  exact ⟨hquote.supply_ne, hsupply.trans hempty.1, hcollateral.trans hempty.2⟩

theorem exit_sustained {quote : ExitQuote}
    (hplan : p.planExit holder shares backing now = .ok quote)
    (hcarry : (carryOut holder quote now).run p = .ok () q) :
    q.settings = p.settings ∧
      (Sustained p.settings.exitRatio backing.price p.collateral backing.liability q.collateral
        backing.liability ∨ Emptied p q) := by
  have hquote := quoteExit_ok (planExit_ok hplan)
  obtain ⟨hcollateral, -, hsettings⟩ := carryOut_totals hquote hcarry
  refine ⟨hsettings, ?_⟩
  rcases planExit_backed hplan with hempty | hbacked
  · exact Or.inr (carryOut_emptied hquote hcarry hempty)
  · rw [hcollateral]
    exact Or.inl (sustained_of_backed (Nat.le_refl _) hbacked)

theorem selfClose_sustained {plan : SelfClosePlan}
    (hplan : p.planSelfClose holder shares backing now = .ok plan)
    (hcarry : (carryOut holder plan.quote now).run p = .ok () q) :
    q.settings = p.settings ∧ plan.burn ≤ backing.liability ∧
      (Sustained p.settings.exitRatio backing.price p.collateral backing.liability q.collateral
        (backing.liability - plan.burn) ∨ Emptied p q) := by
  obtain ⟨hquoted, hburn, -⟩ := planSelfClose_ok hplan
  have hquote := quoteExit_ok hquoted
  obtain ⟨hcollateral, -, hsettings⟩ := carryOut_totals hquote hcarry
  refine ⟨hsettings, hburn, ?_⟩
  have hle := Nat.sub_le backing.liability plan.burn
  rw [hcollateral]
  obtain ⟨-, -, hguard, -⟩ := planSelfClose_eq_ok_iff.mp hplan
  rcases (guardSelfClose_ok hguard).2 with hempty | hbacked | hratio
  · exact Or.inr (carryOut_emptied hquote hcarry hempty)
  · exact Or.inl (sustained_of_backed hle hbacked)
  · exact Or.inl (sustained_of_notWorse hle hratio)

/-! ## Every operation -/

/-- The liability and the price that an operation is given, if it asks for them. -/
def Operation.backing? : Operation → Option Backing
  | .exit _ _ backing _ => some backing
  | .selfClose _ _ backing _ => some backing
  | _ => none

/-- Whether the manager decides what happens, and does not just report it. -/
def Operation.decided : Operation → Bool
  | .payout .. => true
  | .updateSettings _ => true
  | _ => false

/-- The backing asset that an operation redeems, if it succeeds. -/
def redeemed (p : Pool) : Operation → ℕ
  | .selfClose holder shares backing now =>
    match p.planSelfClose holder shares backing now with
    | .ok plan => plan.burn
    | .error _ => 0
  | _ => 0

/-- Every operation of a holder, and every report, sustains the ratio or empties
the pool. -/
theorem operate_sustained {op : Operation} (hdecided : op.decided = false)
    (hbacking : ∀ given ∈ op.backing?, given = backing) (h : (operate op).run p = .ok () q) :
    q.settings = p.settings ∧ p.redeemed op ≤ backing.liability ∧
      (Sustained p.settings.exitRatio backing.price p.collateral backing.liability q.collateral
        (backing.liability - p.redeemed op) ∨ Emptied p q) := by
  have hkept : ∀ {b : Books}, q.books = b → b.settings = p.settings →
      p.collateral ≤ b.totals.collateral → q.settings = p.settings ∧ 0 ≤ backing.liability ∧
        (Sustained p.settings.exitRatio backing.price p.collateral backing.liability q.collateral
          (backing.liability - 0) ∨ Emptied p q) := by
    intro b hbooks hsettings hle
    subst hbooks
    exact ⟨hsettings, Nat.zero_le _, Or.inl (sustained_of_le hle)⟩
  cases op with
  | enter holder collateral enterPrice now =>
    obtain ⟨receipt, henter⟩ := operate_enter_ok h
    obtain ⟨quote, hquote, -, hbooks⟩ := enter_ok henter
    refine hkept hbooks rfl ?_
    show p.collateral ≤ quote.collateralAfter
    rw [(quoteEntry_ok hquote).2.1]
    exact Nat.le_add_right _ _
  | exit holder shares given now =>
    obtain rfl := hbacking given rfl
    obtain ⟨quote, hplan, hcarry⟩ := operate_exit_ok h
    obtain ⟨hsettings, hratio⟩ := exit_sustained hplan hcarry
    exact ⟨hsettings, Nat.zero_le _, hratio⟩
  | selfClose holder shares given now =>
    obtain rfl := hbacking given rfl
    obtain ⟨plan, hplan, hcarry⟩ := operate_selfClose_ok h
    have hredeemed : p.redeemed (.selfClose holder shares given now) = plan.burn := by
      simp only [redeemed, hplan]
    rw [hredeemed]
    exact selfClose_sustained hplan hcarry
  | withdrawFees holder amount =>
    obtain ⟨_, -, -, -, hbooks⟩ := withdrawFees_ok h
    exact hkept hbooks rfl (Nat.le_refl _)
  | payFeeDebt holder amount =>
    obtain ⟨-, -, hbooks⟩ := payFeeDebt_ok h
    exact hkept hbooks rfl (Nat.le_refl _)
  | depositFees amount => exact hkept (congrArg books (depositFees_ok h)) rfl (Nat.le_refl _)
  | receiveCollateral amount =>
    exact hkept (congrArg books (receiveCollateral_ok h)) rfl (Nat.le_add_right _ _)
  | payout => cases hdecided
  | updateSettings => cases hdecided
  | transfer sender receiver amount now =>
    obtain ⟨_, _, -, -, -, -, ⟨-, rfl⟩ | ⟨-, -, _, -, hbooks⟩⟩ := transfer_ok h
    · exact hkept rfl rfl (Nat.le_refl _)
    · exact hkept hbooks rfl (Nat.le_refl _)
  | cleanup holder limit now =>
    obtain ⟨done, hcleanup⟩ := operate_cleanup_ok h
    exact hkept (cleanup_ok hcleanup) rfl (Nat.le_refl _)

/-- A holder's operation, or a report, that succeeds leaves the liability backed
at the exit ratio if it was before, and the ratio no worse if it was not, unless
it empties the pool. Nobody but a self-close exit redeems, and never more than
is owed. The price is the same before and after. -/
theorem ratio_sustained {op : Operation} (hdecided : op.decided = false)
    (hbacking : ∀ given ∈ op.backing?, given = backing) (h : (operate op).run p = .ok () q) :
    p.redeemed op ≤ backing.liability ∧
      (Backed p.collateral backing p.settings.exitRatio →
        Backed q.collateral ⟨backing.liability - p.redeemed op, backing.price⟩
            q.settings.exitRatio ∨ Emptied p q) ∧
      (¬ Backed p.collateral backing p.settings.exitRatio →
        p.collateral * (backing.liability - p.redeemed op) ≤ q.collateral * backing.liability ∨
          Emptied p q) := by
  obtain ⟨hsettings, hredeemed, hratio⟩ := operate_sustained hdecided hbacking h
  rw [hsettings]
  exact ⟨hredeemed, fun hbacked => hratio.imp_left fun hkept => hkept.backed hbacked,
    fun hshort => hratio.imp_left fun hkept => hkept.notWorse hshort⟩

/-! ## Half of the shares -/

/-- A pool with a thousand units of collateral and as many shares. -/
def entered : Pool := reached [.enter rich 1000 none 0]

/-- A self-close exit of half of them, while so much is owed. -/
def halfClose (liability : ℕ) : Operation := .selfClose rich 500 ⟨liability, ⟨1, 1⟩⟩ 0

/-- What it leaves. -/
def halved (liability : ℕ) : Pool := (operate (halfClose liability)).stateAfter entered

/-- At two and a half to one, the exit redeems down to the exit ratio of two; below
that ratio it redeems as large a part of the liability as it takes of the
collateral. -/
theorem halfClose_sustained :
    (entered.redeemed (halfClose 400) = 150 ∧ entered.redeemed (halfClose 600) = 300) ∧
      (Backed entered.collateral ⟨400, ⟨1, 1⟩⟩ entered.settings.exitRatio ∧
        (Backed (halved 400).collateral ⟨400 - entered.redeemed (halfClose 400), ⟨1, 1⟩⟩
            (halved 400).settings.exitRatio ∨ Emptied entered (halved 400))) ∧
      ¬ Backed entered.collateral ⟨600, ⟨1, 1⟩⟩ entered.settings.exitRatio ∧
        (entered.collateral * (600 - entered.redeemed (halfClose 600))
            ≤ (halved 600).collateral * 600 ∨ Emptied entered (halved 600)) := by
  have hbacked : Backed entered.collateral ⟨400, ⟨1, 1⟩⟩ entered.settings.exitRatio := by
    decide +kernel
  have hshort : ¬ Backed entered.collateral ⟨600, ⟨1, 1⟩⟩ entered.settings.exitRatio := by
    decide +kernel
  have hbacking : ∀ liability, ∀ given ∈ (halfClose liability).backing?,
      given = ⟨liability, ⟨1, 1⟩⟩ := fun _ _ hgiven => (Option.some.inj hgiven).symm
  obtain ⟨_, hhealthy⟩ : ∃ u, (operate (halfClose 400)).run entered = .ok u (halved 400) :=
    run_of_success (by decide +kernel)
  obtain ⟨_, hbelow⟩ : ∃ u, (operate (halfClose 600)).run entered = .ok u (halved 600) :=
    run_of_success (by decide +kernel)
  refine ⟨⟨by decide +kernel, by decide +kernel⟩, ⟨hbacked, ?_⟩, hshort, ?_⟩
  · exact (ratio_sustained rfl (hbacking 400) hhealthy).2.1 hbacked
  · exact (ratio_sustained rfl (hbacking 600) hbelow).2.2 hshort

/-! ## Runs -/

/-- A pool with its liability, before and after an operation of a holder, or a
report, at a price; the pool is not emptied. -/
inductive Trade (price : Price) : Pool × ℕ → Pool × ℕ → Prop
  | step {p q : Pool} {liability : ℕ} (op : Operation) (hdecided : op.decided = false)
      (hbacking : ∀ given ∈ op.backing?, given = ⟨liability, price⟩)
      (h : (operate op).run p = .ok () q) (hkept : ¬ Emptied p q) :
      Trade price (p, liability) (q, liability - p.redeemed op)

/-- Over a whole run at one price, what was backed at the exit ratio stays so,
and what was not does not get worse. -/
theorem ratio_sustained_of_run {liability liability' : ℕ}
    (h : Relation.ReflTransGen (Trade price) (p, liability) (q, liability')) :
    q.settings = p.settings ∧
      Sustained p.settings.exitRatio price p.collateral liability q.collateral liability' := by
  generalize hlast : (q, liability') = last at h
  induction h generalizing q liability' with
  | refl =>
    cases hlast
    exact ⟨rfl, sustained_of_le (Nat.le_refl _)⟩
  | @tail middle last _ hstep ih =>
    cases hstep with
    | @step m n owed op hdecided hbacking hop hkept =>
      cases hlast
      obtain ⟨hsettings, hbefore⟩ := ih rfl
      obtain ⟨hsame, -, hratio⟩ := operate_sustained hdecided hbacking hop
      rw [hsettings] at hratio
      exact ⟨hsame.trans hsettings, hbefore.trans (hratio.resolve_right hkept)⟩

end PooledCollateral.Pool
