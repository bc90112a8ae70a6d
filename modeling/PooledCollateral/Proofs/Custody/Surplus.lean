/-
PooledCollateral.Proofs.Custody.Surplus — the pool's account holds what the pool
books.

A `Step` is a call of anybody but the pool's account, in which the manager
reports only tokens that are there already, or something that happens around
the pool and takes nothing from its account, as every `Circumstance` does
(`step_meet`). No call lets the surplus of an asset fall, except by what the
manager reports, and so no run lets the account hold less than the pool books
(`surplus_never_falls`). A fresh pool books nothing (`covered_of_fresh`).
-/
import Mathlib.Logic.Relation
import PooledCollateral.Proofs.Custody.Failure

namespace PooledCollateral.Custody

open PooledCollateral.Action

/-- The pool's account holds what the pool books. -/
def Covered (c : Custody) : Prop := ∀ asset, 0 ≤ c.surplus asset

/-- A step of a run. -/
inductive Step (c : Custody) : Custody → Prop
  /-- A call, successful or not; the manager reports no more than the surplus. -/
  | call (call : Call) (hcaller : call.caller? ≠ some c.parties.poolAccount)
      (hreport : call.caller? = some c.parties.managerAccount → ∀ asset amount,
        call.report? = some (asset, amount) → amount ≤ c.surplus asset) :
      Step c ((perform call).stateAfter c)
  /-- Something around the pool, which takes nothing from the pool's account. -/
  | around (c' : Custody) (hpool : c'.pool = c.pool)
      (haccount : c'.parties.poolAccount = c.parties.poolAccount)
      (hbounded : c'.parties.Bounded)
      (hholding : ∀ asset, c.parties.holding asset ≤ c'.parties.holding asset) : Step c c'

variable {c c' : Custody} {call : Call}

/-! ## Steps -/

/-- A call neither makes nor loses tokens, whatever its outcome. -/
theorem conserves_stateAfter (hb : c.parties.Bounded)
    (hcaller : call.caller? ≠ some c.parties.poolAccount) :
    c.parties.Conserves ((perform call).stateAfter c).parties := by
  have hafter : (perform call).Ensures c (fun _ c' => c.parties.Conserves c'.parties)
      (fun _ c' => c.parties.Conserves c'.parties) :=
    (perform_ensures hb call).mono (fun _ _ h => (h hcaller).conserves) fun _ _ h =>
      h.tokens.conserves
  exact hafter.stateAfter

/-- What is reported was there before. -/
theorem Kept.covered (h : c.Kept call c') (hc : c.Covered)
    (hreport : call.caller? = some c.parties.managerAccount → ∀ asset amount,
      call.report? = some (asset, amount) → amount ≤ c.surplus asset) : c'.Covered := by
  intro asset
  cases hcall : call.report? with
  | none => exact (hc asset).trans (h.surplus hcall asset)
  | some report =>
    obtain ⟨reported, amount⟩ := report
    obtain ⟨hmanager, hlowered, hkept⟩ := h.reported reported amount hcall
    by_cases hasset : asset = reported
    · have hle := hreport hmanager reported amount hcall
      rw [hasset, hlowered]
      exact sub_nonneg.mpr hle
    · rw [hkept asset hasset]
      exact hc asset

/-- No step makes the balances of a token exceed an amount, or the holdings of
the pool's account fall short of the books. -/
theorem Step.covered (h : Step c c') (hb : c.parties.Bounded) (hc : c.Covered) :
    c'.parties.Bounded ∧ c'.Covered := by
  cases h with
  | call call hcaller hreport =>
    have hafter : (perform call).Ensures c (fun _ c' => c'.Covered) (fun _ c' => c'.Covered) := by
      refine (perform_ensures hb call).mono ?_ ?_
      · intro _ _ hkept
        exact (hkept hcaller).covered hc hreport
      · intro _ _ hundone asset
        rw [hundone.surplus]
        exact hc asset
    exact ⟨(conserves_stateAfter hb hcaller).bounded hb, hafter.stateAfter⟩
  | around c' hpool haccount hbounded hholding =>
    refine ⟨hbounded, fun asset => (hc asset).trans ?_⟩
    unfold surplus
    rw [hpool]
    have hle := hholding asset
    omega

/-- What no step breaks, no run breaks. -/
theorem covered_of_run (h : Relation.ReflTransGen Step c c') (hb : c.parties.Bounded)
    (hc : c.Covered) : c'.parties.Bounded ∧ c'.Covered := by
  induction h with
  | refl => exact ⟨hb, hc⟩
  | tail _ hstep ih => exact hstep.covered ih.1 ih.2

/-! ## The surplus -/

/-- While the balances of each token add up to an amount, a call of anybody but
the pool's account does not lower the surplus of an asset, except by exactly
what a successful call reports; and a run in which the manager reports only what
is there leaves the pool's account holding at least what the pool books. -/
theorem surplus_never_falls (hbounded : c.parties.Bounded) :
    (∀ call : Call, call.caller? ≠ some c.parties.poolAccount →
      (∀ reply c', (perform call).run c = .ok reply c' →
        (call.report? = none → ∀ asset, c.surplus asset ≤ c'.surplus asset) ∧
        ∀ asset amount, call.report? = some (asset, amount) →
          c'.surplus asset = c.surplus asset - amount ∧
            ∀ other, other ≠ asset → c'.surplus other = c.surplus other) ∧
      ∀ failure c', (perform call).run c = .error failure c' →
        ∀ asset, c'.surplus asset = c.surplus asset) ∧
    (c.Covered → ∀ c', Relation.ReflTransGen Step c c' → c'.Covered) := by
  refine ⟨fun call hcaller => ⟨fun reply c' hrun => ?_, fun failure c' hrun => ?_⟩, ?_⟩
  · have hkept := (perform_ensures hbounded call).of_ok hrun hcaller
    exact ⟨hkept.surplus, fun asset amount hreport => (hkept.reported asset amount hreport).2⟩
  · exact ((perform_ensures hbounded call).of_error hrun).surplus
  · intro hcovered c' hrun
    exact (covered_of_run hrun hbounded hcovered).2

/-! ## Around the pool -/

/-- A fresh pool books nothing. -/
theorem covered_of_fresh {settings : Settings} (h : Pool.create settings = .ok c.pool) :
    c.Covered := by
  have hpool := (Pool.create_ok h).2
  intro asset
  unfold surplus
  rw [hpool]
  cases asset <;> simp [Pool.booked]

/-- Only tokens that are made for it change what an account holds. -/
theorem step_meet (hb : c.parties.Bounded) (circumstance : Circumstance)
    (hbounded : (c.meet circumstance).parties.Bounded) : Step c (c.meet circumstance) := by
  cases circumstance with
  | mint asset account amount =>
    refine .around _ rfl (Parties.poolAccount_setToken _ _ _) hbounded fun other => ?_
    unfold meet Parties.holding
    rw [Parties.poolAccount_setToken]
    by_cases hother : other = asset
    · rw [hother, Parties.token_setToken_self]
      exact TokenBook.balanceOf_le_mint (hb asset) _ _ _
    · rw [Parties.token_setToken_of_ne _ _ hother]
  | approve asset owner amount =>
    refine .around _ rfl (Parties.poolAccount_setToken _ _ _) hbounded fun other => ?_
    unfold meet Parties.holding
    rw [Parties.poolAccount_setToken]
    by_cases hother : other = asset
    · rw [hother, Parties.token_setToken_self]
      exact le_rfl
    · rw [Parties.token_setToken_of_ne _ _ hother]
  | setPrice | setLiability | withholdPrice | withholdLiability | refuseRedemptions =>
    exact .around _ rfl rfl hbounded fun asset => by cases asset <;> exact le_rfl
  | refuseCommits | failWrites | setTime | advance =>
    exact .around _ rfl rfl hbounded fun _ => le_rfl

/-! ## A report -/

/-- The pool's account has got 50 units of collateral, which nobody has reported
yet. -/
def gifted : Custody := refusing.meet (.mint .collateral refusing.parties.poolAccount 50)

/-- The manager reports 30 of them. -/
def reporting : Call := .receiveCollateral refusing.parties.managerAccount 30

/-- What the report leaves. -/
def reported : Custody := (perform reporting).stateAfter gifted

theorem gifted_bounded : gifted.parties.Bounded := by
  intro asset
  cases asset <;> decide +kernel

theorem refusing_covered : refusing.Covered := by
  intro asset
  cases asset <;> decide +kernel

/-- The gift and the report are a run. -/
theorem run_reported : Relation.ReflTransGen Step refusing reported := by
  have hgift : Step refusing gifted := step_meet refusing_bounded _ gifted_bounded
  refine (Relation.ReflTransGen.single hgift).tail (.call reporting (by decide +kernel) ?_)
  intro _ asset amount hreport
  cases hreport
  decide +kernel

/-- The report takes 30 of the 50 off the surplus, and what the pool's account
holds still covers the books. -/
theorem reported_covered :
    gifted.parties.Bounded ∧ gifted.surplus .collateral = 50 ∧
      reported.surplus .collateral = gifted.surplus .collateral - (30 : ℕ) ∧
      reported.surplus .backing = gifted.surplus .backing ∧
      refusing.Covered ∧ Relation.ReflTransGen Step refusing reported ∧ reported.Covered := by
  obtain ⟨reply, hrun⟩ : ∃ reply, (perform reporting).run gifted = .ok reply reported :=
    run_of_success (by decide +kernel)
  obtain ⟨hlowered, hkept⟩ := (((surplus_never_falls gifted_bounded).1 reporting
    (by decide +kernel)).1 reply reported hrun).2 .collateral 30 rfl
  refine ⟨gifted_bounded, by decide +kernel, hlowered, hkept .backing (by decide),
    refusing_covered, run_reported, ?_⟩
  exact (surplus_never_falls refusing_bounded).2 refusing_covered reported run_reported

end PooledCollateral.Custody
