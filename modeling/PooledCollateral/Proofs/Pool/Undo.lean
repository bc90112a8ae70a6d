/-
PooledCollateral.Proofs.Pool.Undo — a checkpoint undoes a run.

A checkpoint keeps the rows of some holders only. It is enough all the same: calls
that name nobody else leave every other row as it was, wherever they fail, and the
totals and the settings are kept as a whole (`restore_undoes_run`).
-/
import PooledCollateral.Proofs.Pool.Restore
import PooledCollateral.Proofs.Pool.Totals

namespace PooledCollateral.Pool

variable {p : Pool} {holders : List Address} {calls : List Call}

/-- Calls that name only some holders touch only their rows. -/
theorem after_confined_of_named (p : Pool) (hnamed : ∀ call ∈ calls, call.holders ⊆ holders) :
    Confined holders p (after p calls) :=
  (after_confined p calls).mono fun holder hholder => by
    obtain ⟨call, hcall, hmem⟩ := List.mem_flatMap.mp hholder
    exact hnamed call hcall hmem

/-- Whatever calls have been made on a pool since a checkpoint was taken of it,
successful, refused or failed half-way, restoring the checkpoint brings back the
totals, the settings and the row of every address, as long as the calls name none
but the holders of the checkpoint. The holders may come in it in any order and
more than once, and fees, collateral and settings name nobody. -/
theorem restore_undoes_run (p : Pool) (hnamed : ∀ call ∈ calls, call.holders ⊆ holders) :
    let q := (after p calls).restore (p.checkpoint holders)
    q.totals = p.totals ∧ q.settings = p.settings ∧
      ∀ other, q.holderRow other = p.holderRow other := by
  have hbooks := books_restore (after_confined_of_named p hnamed)
  exact ⟨congrArg Books.totals hbooks, congrArg Books.settings hbooks,
    congrFun (congrArg Books.row hbooks)⟩

/-! ## Seven calls undone -/

/-- Fees are deposited, the plan for one holder is applied to the other and fails
half-way, shares are sent, fees withdrawn, locks cleared, collateral comes in and
the settings change. -/
def muddle : List Call :=
  [.depositFees 30, misapplied, .transfer poor rich 20 1, .withdrawFees poor 5, .cleanup poor 1 1,
    .receiveCollateral 7, .updateSettings { looseSettings with exitRatio := 30000 }]

/-- Both holders are in the checkpoint, one of them twice; one call has failed after
it had burned shares, and totals, settings and rows are no longer what they were. -/
theorem muddle_undone :
    let p := after freshPool indebtedEntry
    let mark := p.checkpoint [poor, rich, poor]
    let muddled := after p muddle
    (perform misapplied).failure? (after p [.depositFees 30]) ≠ none ∧
      (muddled.totals ≠ p.totals ∧ muddled.settings ≠ p.settings ∧
        muddled.holderRow poor ≠ p.holderRow poor ∧ muddled.holderRow rich ≠ p.holderRow rich) ∧
      (muddled.restore mark).totals = p.totals ∧ (muddled.restore mark).settings = p.settings ∧
        ∀ other, (muddled.restore mark).holderRow other = p.holderRow other := by
  have hnamed : ∀ call ∈ muddle, call.holders ⊆ [poor, rich, poor] := by decide
  exact ⟨by decide +kernel, by decide +kernel,
    restore_undoes_run (after freshPool indebtedEntry) hnamed⟩

end PooledCollateral.Pool
