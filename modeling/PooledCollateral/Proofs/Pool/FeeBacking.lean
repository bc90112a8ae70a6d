/-
PooledCollateral.Proofs.Pool.FeeBacking — how far the fees held cover the claims.

The audit grants every holder two units of rounding. Roundings, however, come
with operations and not with holders: each entry, payout and exit of a part may
push its holder one further below zero, as often as it is repeated. So the
claims of a reached pool exceed the fees held by the roundings of its run at
most, and the audit objects exactly if net debts lie above slices by more than
it grants (`fees_backed_up_to_roundings`). A handful of tiny entries of one
holder is enough (`audit_objects_to_tiny_entries`).
-/
import PooledCollateral.Proofs.Pool.Audit
import PooledCollateral.Proofs.Pool.Overhang

namespace PooledCollateral.Pool

/-- In every pool that a run reaches from a fresh one, the claims exceed the
fees held by the roundings of the run at most. The audit objects exactly if the
holders' slices, each raised to the holder's net debt where that is more, exceed
the virtual reserve by more than two for each holder; so it cannot object
to a run with no more roundings than that. -/
theorem fees_backed_up_to_roundings {settings : Settings} {fresh p : Pool} {ops : List Operation}
    (hfresh : create settings = .ok fresh) (hrun : Run fresh ops p) :
    (∀ issue, p.verify = .error (.rejected (.storage issue)) ↔
      ∃ claims, p.totalClaims = .ok claims ∧
        issue = .claimsExceedReserve claims p.feeReserve Guard.roundingSlack ∧
        p.books.netReserve + 2 * p.holders.length
          < ((∑ holder, max (p.sliceOf holder) (p.fees.netDebt holder) : ℕ) : ℤ)) ∧
    (∀ claims, p.totalClaims = .ok claims → claims ≤ p.feeReserve + roundings ops) ∧
    (roundings ops ≤ 2 * p.holders.length →
      ∀ issue, p.verify ≠ .error (.rejected (.storage issue))) := by
  have hp : p.Sound := hrun.sound (sound_create hfresh)
  have hclaims : ∀ claims, p.totalClaims = .ok claims → claims ≤ p.feeReserve + roundings ops := by
    intro claims h
    have hover := overhang_run (sound_create hfresh) hrun
    rw [overhang_create hfresh, zero_add] at hover
    have hle := (totalClaims_le hp h).trans (add_le_add le_rfl hover)
    exact_mod_cast hle
  refine ⟨fun issue => ?_, hclaims, fun hfew issue h => ?_⟩
  · rw [verify_eq_storage_iff hp]
    refine exists_congr fun claims => and_congr_right fun h => and_congr_right fun _ => ?_
    have hbalance := totalClaims_add_netReserve hp h
    constructor <;> intro hlt <;> omega
  · obtain ⟨claims, h, -, hlt⟩ := (verify_eq_storage_iff hp).mp h
    have hle := hclaims claims h
    omega

/-- A holder of a hundred shares, a unit of fees, and another holder who enters
with a single share six times, each time charged a whole unit for its slice. -/
def tinyEntries : List Operation :=
  [.enter rich 100 none 0, .depositFees 1, .enter poor 1 none 0, .enter poor 1 none 0,
    .enter poor 1 none 0, .enter poor 1 none 0, .enter poor 1 none 0, .enter poor 1 none 0]

/-- After the tiny entries the claims exceed the fees held by five, and there
were seven roundings. -/
theorem tinyEntries_backed : ∃ claims, (reached tinyEntries).totalClaims = .ok claims ∧
    claims ≤ (reached tinyEntries).feeReserve + roundings tinyEntries := by
  have hfresh : create looseSettings = .ok freshPool := rfl
  have hrun : Run freshPool tinyEntries (reached tinyEntries) :=
    run_stateAfter (by decide +kernel)
  have hclaims : (reached tinyEntries).totalClaims = .ok 6 := by decide +kernel
  exact ⟨6, hclaims, (fees_backed_up_to_roundings hfresh hrun).2.1 6 hclaims⟩

/-- The audit does object to a pool that a run has reached. -/
theorem audit_objects_to_tiny_entries :
    ¬ ∀ settings fresh ops p issue, create settings = .ok fresh → Run fresh ops p →
      p.verify ≠ .error (.rejected (.storage issue)) := by
  intro hnever
  have hrun : Run freshPool tinyEntries (reached tinyEntries) :=
    run_stateAfter (by decide +kernel)
  have hverify : (reached tinyEntries).verify
      = .error (.rejected (.storage (.claimsExceedReserve 6 1 2))) := by decide +kernel
  exact hnever looseSettings freshPool tinyEntries _ _ rfl hrun hverify

end PooledCollateral.Pool
