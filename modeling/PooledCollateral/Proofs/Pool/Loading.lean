/-
PooledCollateral.Proofs.Pool.Loading — what a pool holds that has been built from
records of any origin.

The check of a snapshot adds up every row; the pool keeps, of the rows of one
address, only the last. The others are `superseded`, and what they say is in the
totals and nowhere else: the totals exceed the accounts by exactly their sums
(`ofSnapshot_totals`). So a pool that has been loaded is sound, and its audit free
of objections to the totals, if and only if nothing has been superseded that says
more than nothing (`loaded_sound_iff`); rows of distinct addresses always load to a
sound pool.
-/
import PooledCollateral.Proofs.Pool.Audit
import PooledCollateral.Proofs.Pool.Records
import PooledCollateral.Proofs.Pool.Run

namespace PooledCollateral

open Function

namespace Snapshot

variable {rows : List HolderRow}

/-! ## Superseded rows -/

/-- The rows behind which there is another row of the same address. -/
def superseded : List HolderRow → List HolderRow
  | [] => []
  | row :: rows =>
    if row.address ∈ rows.map (·.address) then row :: superseded rows else superseded rows

theorem superseded_eq_nil (h : (rows.map (·.address)).Nodup) : superseded rows = [] := by
  induction rows with
  | nil => rfl
  | cons row rows ih =>
    rw [List.map_cons, List.nodup_cons] at h
    rw [superseded, if_neg h.1, ih h.2]

/-- What rows say is kept where they are the last of their address, and else
superseded; to the addresses without a row nothing happens. -/
theorem sum_overlay_add_superseded (f : HolderRow → ℕ) (g : Address → HolderRow)
    (rows : List HolderRow) :
    ∑ k, f (overlay g rows k) + ((superseded rows).map f).sum
      = (rows.map f).sum + ∑ k, if k ∈ rows.map (·.address) then 0 else f (g k) := by
  induction rows generalizing g with
  | nil => simp [overlay, superseded]
  | cons row rows ih =>
    have hrest := ih (update g row.address row)
    have hoverlay : overlay g (row :: rows) = overlay (update g row.address row) rows := rfl
    -- of the addresses that are not behind the row, its own is the only one it changes
    have hfirst : ∀ k, (if k ∈ rows.map (·.address) then 0 else f (update g row.address row k))
        = (if k = row.address then
              if row.address ∈ rows.map (·.address) then 0 else f row
            else 0)
          + if k ∈ (row :: rows).map (·.address) then 0 else f (g k) := by
      intro k
      by_cases hk : k = row.address
      · subst hk
        simp
      · simp [hk]
    simp only [hfirst, Finset.sum_add_distrib, Finset.sum_ite_eq', Finset.mem_univ, if_true]
      at hrest
    rw [hoverlay, superseded, List.map_cons, List.sum_cons]
    split
    · rename_i hbehind
      rw [if_pos hbehind] at hrest
      rw [List.map_cons, List.sum_cons]
      omega
    · rename_i hlast
      rw [if_neg hlast] at hrest
      omega

end Snapshot

namespace Pool

open Snapshot

variable {p : Pool} {s : Snapshot}

/-! ## Loading -/

/-- A snapshot loads if its settings pass their check and its totals are the sums of
its rows; the rows are written one over the other. -/
theorem ofSnapshot_ok (h : ofSnapshot s = .ok p) :
    s.settings.Valid ∧
      (s.totals.supply = (s.rows.map (·.balance)).sum ∧ s.totals.supply ≤ Amount.max) ∧
      (s.totals.feeDebt = (s.rows.map (·.feeDebt)).sum ∧ s.totals.feeDebt ≤ Amount.max) ∧
      (s.totals.feeCredit = (s.rows.map (·.feeCredit)).sum ∧ s.totals.feeCredit ≤ Amount.max) ∧
      p.books = ⟨s.totals, s.settings, overlay HolderRow.blank s.rows⟩ := by
  simp only [ofSnapshot, Checked.bind_eq_ok_iff, require_eq_ok_iff] at h
  obtain ⟨fresh, hfresh, sums, hsums, _, ⟨hsupply, hdebt, hcredit⟩, hreturn⟩ := h
  cases hreturn
  obtain ⟨rfl, hbalances, hdebts, hcredits⟩ :=
    (foldlM_add_rows_eq_ok_iff (Nat.zero_le _) (Nat.zero_le _) (Nat.zero_le _)).mp hsums
  simp only [Nat.zero_add] at hsupply hdebt hcredit hbalances hdebts hcredits
  rw [← hsupply, ← hdebt, ← hcredit]
  exact ⟨(create_ok hfresh).1, ⟨rfl, hbalances⟩, ⟨rfl, hdebts⟩, ⟨rfl, hcredits⟩,
    books_loaded hfresh⟩

/-- The totals of a loaded pool exceed what is in its accounts by what the superseded
rows say. -/
theorem ofSnapshot_totals (h : ofSnapshot s = .ok p) :
    p.shares.supply = p.shares.totalBalance + ((superseded s.rows).map (·.balance)).sum ∧
      p.fees.totalDebt = p.fees.debts.total + ((superseded s.rows).map (·.feeDebt)).sum ∧
      p.fees.totalCredit = p.fees.credits.total + ((superseded s.rows).map (·.feeCredit)).sum := by
  obtain ⟨-, ⟨hsupply, -⟩, ⟨hdebt, -⟩, ⟨hcredit, -⟩, hbooks⟩ := ofSnapshot_ok h
  have htotals : p.totals = s.totals := congrArg Books.totals hbooks
  have hrow : p.holderRow = overlay HolderRow.blank s.rows := congrArg Books.row hbooks
  have hkept : ∀ f : HolderRow → ℕ, (∀ k, f (HolderRow.blank k) = 0) →
      ∑ k, f (p.holderRow k) + ((superseded s.rows).map f).sum = (s.rows.map f).sum := by
    intro f hblank
    rw [hrow, sum_overlay_add_superseded]
    simp [hblank]
  have hbalances : p.shares.totalBalance = ∑ k, (p.holderRow k).balance := by
    simp only [ShareBook.totalBalance_eq_sum, holderRow_eq]
  have hdebts : p.fees.debts.total = ∑ k, (p.holderRow k).feeDebt := Amounts.total_eq_sum _
  have hcredits : p.fees.credits.total = ∑ k, (p.holderRow k).feeCredit := Amounts.total_eq_sum _
  rw [hbalances, hdebts, hcredits, hkept (·.balance) fun _ => rfl, hkept (·.feeDebt) fun _ => rfl,
    hkept (·.feeCredit) fun _ => rfl, ← hsupply, ← hdebt, ← hcredit, ← htotals]
  exact ⟨rfl, rfl, rfl⟩

/-! ## Auditing what has been loaded -/

/-- The audit objects to a total that is not the sum of its rows. -/
def TotalsRefused (p : Pool) : Prop :=
  (∃ supply balances,
      p.verify = .error (.rejected (.storage (.supplyMismatch supply balances)))) ∨
    ∃ debt credit debtRows creditRows,
      p.verify = .error (.rejected (.storage (.feeMismatch debt credit debtRows creditRows)))

theorem Sound.not_totalsRefused (hp : p.Sound) : ¬ p.TotalsRefused := by
  rintro (⟨_, _, hverify⟩ | ⟨_, _, _, _, hverify⟩)
  · obtain ⟨_, -, hissue, -⟩ := (verify_eq_storage_iff hp).mp hverify
    cases hissue
  · obtain ⟨_, -, hissue, -⟩ := (verify_eq_storage_iff hp).mp hverify
    cases hissue

/-- Where the rows do not exceed the totals, the audit finds every total that they do
not make up. -/
theorem totalsRefused_of_ne
    (hbalances : p.shares.totalBalance ≤ Amount.max) (hdebts : p.fees.debts.total ≤ Amount.max)
    (hcredits : p.fees.credits.total ≤ Amount.max)
    (hne : ¬ (p.shares.totalBalance = p.shares.supply ∧ p.fees.debts.total = p.fees.totalDebt ∧
      p.fees.credits.total = p.fees.totalCredit)) : p.TotalsRefused := by
  have hfit : ∀ {n : ℕ}, n ≤ Amount.max → Amount.fit n = .ok n := fun h =>
    Amount.fit_eq_ok_iff.mpr ⟨rfl, h⟩
  by_cases hsupply : p.shares.totalBalance = p.shares.supply
  · have hfees : ¬ (p.fees.debts.total = p.fees.totalDebt ∧
        p.fees.credits.total = p.fees.totalCredit) := fun h => hne ⟨hsupply, h⟩
    refine Or.inr ⟨p.fees.totalDebt, p.fees.totalCredit, p.fees.debts.total,
      p.fees.credits.total, ?_⟩
    simp only [verify, hfit hbalances, hfit hdebts, hfit hcredits, require, reject, if_pos hsupply,
      if_neg hfees, bind, Except.bind]
  · refine Or.inl ⟨p.shares.supply, p.shares.totalBalance, ?_⟩
    simp only [verify, hfit hbalances, require, reject, if_neg hsupply, bind, Except.bind]

theorem sound_of_totals (h : ofSnapshot s = .ok p)
    (hsupply : p.shares.totalBalance = p.shares.supply)
    (hdebt : p.fees.debts.total = p.fees.totalDebt)
    (hcredit : p.fees.credits.total = p.fees.totalCredit) : p.Sound := by
  obtain ⟨hvalid, ⟨-, hsupplyMax⟩, ⟨-, hdebtMax⟩, ⟨-, hcreditMax⟩, hbooks⟩ := ofSnapshot_ok h
  have htotals : p.totals = s.totals := congrArg Books.totals hbooks
  have hsettings : p.settings = s.settings := congrArg Books.settings hbooks
  rw [← htotals] at hsupplyMax hdebtMax hcreditMax
  exact ⟨⟨hsupply.symm, hsupplyMax⟩, ⟨hdebt.symm, hcredit.symm, hdebtMax, hcreditMax⟩,
    hsettings ▸ hvalid⟩

/-- A loaded pool is sound exactly if nothing is superseded but rows that say nothing. -/
theorem sound_iff_superseded (h : ofSnapshot s = .ok p) :
    p.Sound ↔
      ∀ row ∈ superseded s.rows, row.balance = 0 ∧ row.feeDebt = 0 ∧ row.feeCredit = 0 := by
  obtain ⟨hsupply, hdebt, hcredit⟩ := ofSnapshot_totals h
  have hzero : ∀ f : HolderRow → ℕ, ((superseded s.rows).map f).sum = 0 ↔
      ∀ row ∈ superseded s.rows, f row = 0 := fun f => by simp [List.sum_eq_zero_iff]
  constructor
  · intro hp row hrow
    have hbalances := hp.shares.supply_eq
    have hdebts := hp.fees.debt_eq
    have hcredits := hp.fees.credit_eq
    exact ⟨(hzero (·.balance)).mp (by omega) row hrow, (hzero (·.feeDebt)).mp (by omega) row hrow,
      (hzero (·.feeCredit)).mp (by omega) row hrow⟩
  · intro hnothing
    rw [(hzero (·.balance)).mpr fun row hrow => (hnothing row hrow).1] at hsupply
    rw [(hzero (·.feeDebt)).mpr fun row hrow => (hnothing row hrow).2.1] at hdebt
    rw [(hzero (·.feeCredit)).mpr fun row hrow => (hnothing row hrow).2.2] at hcredit
    exact sound_of_totals h hsupply.symm hdebt.symm hcredit.symm

/-- Of a loaded pool the audit finds every total that is not the sum of its rows. -/
theorem totalsRefused_iff (h : ofSnapshot s = .ok p) : p.TotalsRefused ↔ ¬ p.Sound := by
  refine ⟨fun hrefused hp => hp.not_totalsRefused hrefused, fun hunsound => ?_⟩
  obtain ⟨hsupply, hdebt, hcredit⟩ := ofSnapshot_totals h
  obtain ⟨-, ⟨-, hsupplyMax⟩, ⟨-, hdebtMax⟩, ⟨-, hcreditMax⟩, hbooks⟩ := ofSnapshot_ok h
  have hkept : p.totals = s.totals := congrArg Books.totals hbooks
  rw [← hkept] at hsupplyMax hdebtMax hcreditMax
  simp only [totals] at hsupplyMax hdebtMax hcreditMax
  refine totalsRefused_of_ne (by omega) (by omega) (by omega) fun heq => hunsound ?_
  exact sound_of_totals h heq.1 heq.2.1 heq.2.2

/-- The totals of a loaded pool exceed its accounts by what is superseded. So the pool
is sound exactly if nothing is superseded but rows that say nothing — as where no
address has two rows — and unless it is, the audit objects to its totals. -/
theorem loaded_sound_iff (h : ofSnapshot s = .ok p) :
    (p.shares.supply = p.shares.totalBalance + ((superseded s.rows).map (·.balance)).sum ∧
        p.fees.totalDebt = p.fees.debts.total + ((superseded s.rows).map (·.feeDebt)).sum ∧
        p.fees.totalCredit
          = p.fees.credits.total + ((superseded s.rows).map (·.feeCredit)).sum) ∧
      (p.Sound ↔
        ∀ row ∈ superseded s.rows, row.balance = 0 ∧ row.feeDebt = 0 ∧ row.feeCredit = 0) ∧
      ((s.rows.map (·.address)).Nodup → p.Sound) ∧
      (p.TotalsRefused ↔ ¬ p.Sound) := by
  have hsound := sound_iff_superseded h
  refine ⟨ofSnapshot_totals h, hsound, fun hdistinct => hsound.mpr ?_, totalsRefused_iff h⟩
  rw [superseded_eq_nil hdistinct]
  simp

/-! ## One address, two rows -/

/-- A snapshot with two rows of one address; their sum is the supply. -/
def twoRows : Snapshot where
  totals := { collateral := 10, feeReserve := 0, feeDebt := 0, feeCredit := 0, supply := 10 }
  settings := looseSettings
  rows := [⟨rich, 4, 0, 0, []⟩, ⟨rich, 6, 0, 0, []⟩]

/-- The first of the two rows is superseded, and with it four of the ten shares are
in no account. -/
theorem twoRows_unsound :
    ∃ p, ofSnapshot twoRows = .ok p ∧ superseded twoRows.rows = [⟨rich, 4, 0, 0, []⟩] ∧
      p.shares.supply = p.shares.totalBalance + 4 ∧ ¬ p.Sound ∧ p.TotalsRefused := by
  obtain ⟨p, hp⟩ : ∃ p, ofSnapshot twoRows = .ok p := ⟨_, rfl⟩
  have hrows : superseded twoRows.rows = [⟨rich, 4, 0, 0, []⟩] := by decide +kernel
  obtain ⟨⟨hsupply, -⟩, hsound, -, hrefused⟩ := loaded_sound_iff hp
  rw [hrows] at hsupply hsound
  have hunsound : ¬ p.Sound := fun h => by simpa using hsound.mp h
  exact ⟨p, hp, hrows, hsupply, hunsound, hrefused.mpr hunsound⟩

/-- The snapshot is loaded, although its supply of ten is not what the one account
holds, and the audit objects at once. -/
theorem twoRows_pass_the_check :
    ∃ p, ofSnapshot twoRows = .ok p ∧ p.shares.supply = 10 ∧ p.shares.totalBalance = 6 ∧
      p.verify = .error (.rejected (.storage (.supplyMismatch 10 6))) :=
  ⟨_, rfl, by decide +kernel, by decide +kernel, by decide +kernel⟩

end Pool

end PooledCollateral
