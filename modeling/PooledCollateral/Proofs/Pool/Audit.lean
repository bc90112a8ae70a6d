/-
PooledCollateral.Proofs.Pool.Audit — what the audit of a sound pool can find.

The audit goes over the holders that have a row, each once (`nodup_holders`);
everybody else has nothing (`nothing_of_not_mem`). In a sound pool nothing but
the sum of the claims can fail: the sums of balances, debts and credits are the
totals. So the audit objects exactly if the claims exceed the fees held by more
than the slack (`verify_eq_storage_iff`), and that is, holder by holder, a
matter of net debts that exceed slices (`totalClaims_add_netReserve`).
-/
import PooledCollateral.Pool.Audit
import PooledCollateral.Proofs.Pool.Entitlement

namespace PooledCollateral

open Finset

namespace Table

variable {α : Type}

theorem mem_keys_iff {t : Table α} {k : Address} : k ∈ t.keys ↔ t.get? k ≠ none := by
  rw [keys, List.mem_map, Option.ne_none_iff_exists']
  constructor
  · intro hfound
    obtain ⟨⟨j, v⟩, hrow, rfl⟩ := hfound
    exact ⟨v, mem_rows_iff.mp hrow⟩
  · intro hfound
    obtain ⟨v, hv⟩ := hfound
    exact ⟨(k, v), mem_rows_iff.mpr hv, rfl⟩

theorem nodup_keys (t : Table α) : t.keys.Nodup :=
  List.pairwise_map.mpr (t.ascending.imp fun h => Address.ne_of_lt h)

end Table

namespace Pool

variable {p : Pool} {holder : Address}

/-! ## Holders -/

theorem nodup_holders (p : Pool) : p.holders.Nodup := Table.nodup_keys _

/-- By induction on the list: a key is there if it was, or is in the list. -/
theorem get?_foldl_insert (l : List Address) (seen : Table Unit) :
    (l.foldl (fun (seen : Table Unit) holder => seen.insert holder ()) seen).get? holder ≠ none ↔
      holder ∈ l ∨ seen.get? holder ≠ none := by
  induction l generalizing seen with
  | nil => simp
  | cons first l ih =>
    rw [List.foldl_cons, ih, Table.get?_insert, List.mem_cons]
    by_cases hfirst : holder = first
    · simp [hfirst]
    · simp [hfirst]

theorem mem_holders_iff :
    holder ∈ p.holders ↔ p.shares.accounts.get? holder ≠ none ∨ p.debtOf holder ≠ 0 ∨
      p.creditOf holder ≠ 0 := by
  unfold holders
  rw [Table.mem_keys_iff, get?_foldl_insert, Table.get?_empty]
  simp only [List.mem_append, Table.mem_keys_iff, Amounts.keys, ne_eq, Amounts.get?_eq_none_iff,
    not_true_eq_false, or_false, or_assoc]
  rfl

/-- Who is not a holder has no shares, no debt and no credit. -/
theorem nothing_of_not_mem (h : holder ∉ p.holders) :
    p.balanceOf holder = 0 ∧ p.debtOf holder = 0 ∧ p.creditOf holder = 0 := by
  rw [mem_holders_iff, not_or, not_or, not_ne_iff, not_ne_iff, not_ne_iff] at h
  obtain ⟨haccount, hdebt, hcredit⟩ := h
  exact ⟨by rw [balanceOf, ShareBook.balanceOf, haccount]; rfl, hdebt, hcredit⟩

/-- What nobody but a holder has any of adds up over the holders to all there is. -/
theorem sum_holders {M : Type} [AddCommMonoid M] {f : Address → M}
    (hf : ∀ holder, holder ∉ p.holders → f holder = 0) :
    (p.holders.map f).sum = ∑ holder, f holder := by
  rw [← List.sum_toFinset f p.nodup_holders]
  exact sum_subset (subset_univ _) fun holder _ hnot =>
    hf holder fun hmem => hnot (List.mem_toFinset.mpr hmem)

/-! ## Claims -/

/-- The slice of the virtual reserve that belongs to the shares of a holder. -/
def sliceOf (p : Pool) (holder : Address) : ℕ :=
  (p.feeReserve + p.fees.totalDebt - p.fees.totalCredit) * p.balanceOf holder / p.shares.supply

/-- A claim is the slice and the credit, less the debt. -/
theorem claim_eq {claim : ℕ} (h : p.claim holder = .ok claim) :
    claim = p.sliceOf holder + p.creditOf holder - p.debtOf holder := by
  obtain ⟨slice, hslice, rfl⟩ := claim_ok h
  obtain ⟨hnone, rfl⟩ | ⟨-, -, -, rfl⟩ := slice_ok hslice
  · have hzero : p.sliceOf holder = 0 := by
      unfold sliceOf
      rcases hnone with hnone | hnone <;> rw [hnone] <;> simp
    rw [hzero]
  · rfl

/-- By induction on the list: a checked sum adds up what all its parts give, and
is an amount. -/
theorem foldlM_add_ok {f : Address → Checked ℕ} {g : Address → ℕ}
    (hf : ∀ {holder n}, f holder = .ok n → n = g holder) {l : List Address} {start total : ℕ}
    (hstart : start ≤ Amount.max)
    (h : l.foldlM (fun sum holder => do Amount.add sum (← f holder)) start = .ok total) :
    total = start + (l.map g).sum ∧ total ≤ Amount.max ∧ ∀ holder ∈ l, ∃ n, f holder = .ok n := by
  induction l generalizing start with
  | nil =>
    cases h
    exact ⟨rfl, hstart, by simp⟩
  | cons holder l ih =>
    simp only [List.foldlM_cons, Checked.bind_eq_ok_iff, Amount.add_eq_ok_iff] at h
    obtain ⟨_, ⟨n, hn, rfl, hle⟩, h⟩ := h
    obtain ⟨htotal, hmax, hrest⟩ := ih hle h
    refine ⟨?_, hmax, List.forall_mem_cons.mpr ⟨⟨n, hn⟩, hrest⟩⟩
    rw [List.map_cons, List.sum_cons, htotal, hf hn]
    omega

/-- The claims of all holders, with what everybody else claims: nothing. -/
theorem totalClaims_ok {claims : ℕ} (h : p.totalClaims = .ok claims) :
    claims = ∑ holder, (p.sliceOf holder + p.creditOf holder - p.debtOf holder) ∧
      claims ≤ Amount.max ∧ ∀ holder ∈ p.holders, ∃ claim, p.claim holder = .ok claim := by
  obtain ⟨hsum, hrest⟩ := foldlM_add_ok claim_eq (Nat.zero_le _) h
  refine ⟨?_, hrest⟩
  rw [hsum, Nat.zero_add]
  refine sum_holders fun holder hnot => ?_
  obtain ⟨hbalance, -, hcredit⟩ := nothing_of_not_mem hnot
  simp [sliceOf, hbalance, hcredit]

/-- Claims and the virtual reserve, against the fees held and what each holder
takes of the virtual reserve: its slice, or its net debt if that is more. -/
theorem totalClaims_add_netReserve (hp : p.Sound) {claims : ℕ} (h : p.totalClaims = .ok claims) :
    claims + p.books.netReserve
      = p.feeReserve + ∑ holder, max (p.sliceOf holder) (p.fees.netDebt holder) := by
  have heach : ∀ holder, p.sliceOf holder + p.creditOf holder - p.debtOf holder + p.debtOf holder
      = max (p.sliceOf holder) (p.fees.netDebt holder) + p.creditOf holder := by
    intro holder
    unfold FeeBook.netDebt
    unfold creditOf debtOf
    omega
  have hsum := sum_congr rfl fun holder (_ : holder ∈ univ) => heach holder
  rw [sum_add_distrib, sum_add_distrib, ← (totalClaims_ok h).1] at hsum
  have hdebt : p.fees.totalDebt = ∑ holder, p.debtOf holder := hp.debt_eq_sum
  have hcredit : p.fees.totalCredit = ∑ holder, p.creditOf holder := hp.credit_eq_sum
  rw [← hdebt, ← hcredit] at hsum
  simp only [Books.netReserve, books, totals]
  omega

/-- The claims exceed the fees held by the overhang at most. -/
theorem totalClaims_le (hp : p.Sound) {claims : ℕ} (h : p.totalClaims = .ok claims) :
    (claims : ℚ) ≤ p.feeReserve + p.books.overhang := by
  obtain ⟨hsum, -, hclaims⟩ := totalClaims_ok h
  have heach : ∀ holder,
      ((p.sliceOf holder + p.creditOf holder - p.debtOf holder : ℕ) : ℚ)
        ≤ p.books.entitlement holder + p.books.deficit holder := by
    intro holder
    by_cases hmem : holder ∈ p.holders
    · obtain ⟨claim, hclaim⟩ := hclaims holder hmem
      exact claim_eq hclaim ▸ claim_le hclaim
    · obtain ⟨hbalance, -, hcredit⟩ := nothing_of_not_mem hmem
      rw [Books.entitlement_add_deficit]
      simp [sliceOf, hbalance, hcredit]
  have htotal := sum_le_sum fun holder (_ : holder ∈ univ) => heach holder
  rw [← Nat.cast_sum, ← hsum, sum_add_distrib, Books.sum_entitlement hp.balanced] at htotal
  have hreserve : (p.books.totals.feeReserve : ℚ) = p.feeReserve := rfl
  rw [hreserve] at htotal
  unfold Books.overhang Books.uncovered
  split at htotal
  · rename_i hsupply
    rw [if_pos hsupply]
    have hlack := le_max_right (0 : ℚ) (-p.books.netReserve)
    linarith
  · rename_i hsupply
    rw [if_neg hsupply]
    linarith

/-! ## The audit -/

/-- A computation that can be refused for an overflow only. -/
def OverflowOnly {α : Type} (x : Checked α) : Prop :=
  ∀ cause, x = .error (.rejected cause) → cause = .overflow

section

variable {α β : Type}

theorem overflowOnly_ok (a : α) : OverflowOnly (.ok a : Checked α) := by
  intro cause h
  cases h

theorem OverflowOnly.of_run {x : Checked α} (h : ∃ a, x = .ok a) : OverflowOnly x := by
  obtain ⟨a, rfl⟩ := h
  exact overflowOnly_ok a

theorem overflowOnly_require {condition : Prop} [Decidable condition] :
    OverflowOnly (require condition .overflow) := by
  intro cause h
  unfold require reject at h
  split at h
  · cases h
  · cases h
    rfl

theorem OverflowOnly.bind {x : Checked α} {f : α → Checked β} (hx : OverflowOnly x)
    (hf : ∀ a, OverflowOnly (f a)) : OverflowOnly (x >>= f) := by
  intro cause h
  cases x with
  | error e =>
    cases h
    exact hx cause rfl
  | ok a => exact hf a cause h

theorem overflowOnly_fit (n : ℕ) : OverflowOnly (Amount.fit n) := by
  intro cause h
  unfold Amount.fit reject at h
  split at h
  · cases h
  · cases h
    rfl

theorem overflowOnly_sub (a b : ℕ) : OverflowOnly (Amount.sub a b) := by
  intro cause h
  unfold Amount.sub reject at h
  split at h
  · cases h
  · cases h
    rfl

/-- A difference that is taken is never refused: where it is out of range, that is a fault. -/
theorem overflowOnly_take (a b : ℕ) : OverflowOnly (Amount.take a b) := by
  intro cause h
  unfold Amount.take at h
  split at h <;> cases h

/-- A product is never refused: where it is out of range, that is a fault. -/
theorem overflowOnly_mul (a b : ℕ) : OverflowOnly (Amount.mul a b) := by
  intro cause h
  unfold Amount.mul at h
  split at h <;> cases h

theorem overflowOnly_mulDiv (a b c : ℕ) : OverflowOnly (Amount.mulDiv a b c) :=
  overflowOnly_require.bind fun _ => (overflowOnly_mul a b).bind fun _ => overflowOnly_fit _

end

theorem overflowOnly_claim (p : Pool) (holder : Address) : OverflowOnly (p.claim holder) := by
  refine OverflowOnly.bind ?_ fun slice => (overflowOnly_fit _).bind fun _ => overflowOnly_ok _
  unfold FeeBook.slice
  split
  · exact overflowOnly_ok 0
  · exact ((overflowOnly_fit _).bind fun _ => overflowOnly_sub _ _).bind fun _ =>
      overflowOnly_mulDiv _ _ _

theorem overflowOnly_totalClaims (p : Pool) : OverflowOnly p.totalClaims := by
  unfold totalClaims
  generalize 0 = start
  induction p.holders generalizing start with
  | nil => exact overflowOnly_ok start
  | cons holder l ih =>
    rw [List.foldlM_cons]
    exact ((overflowOnly_claim p holder).bind fun _ => overflowOnly_fit _).bind ih

/-- The audit of a sound pool comes down to its claims. -/
theorem verify_eq (hp : p.Sound) :
    p.verify = (do
      let claims ← p.totalClaims
      require (Guard.feesBacked claims p.feeReserve p.holders.length)
        (.storage (.claimsExceedReserve claims p.feeReserve Guard.roundingSlack))) := by
  have hbalances : Amount.fit p.shares.totalBalance = .ok p.shares.supply :=
    Amount.fit_eq_ok_iff.mpr ⟨hp.shares.supply_eq, hp.shares.supply_eq ▸ hp.shares.supply_le⟩
  have hdebts : Amount.fit p.fees.debts.total = .ok p.fees.totalDebt :=
    Amount.fit_eq_ok_iff.mpr ⟨hp.fees.debt_eq, hp.fees.debt_eq ▸ hp.fees.debt_le⟩
  have hcredits : Amount.fit p.fees.credits.total = .ok p.fees.totalCredit :=
    Amount.fit_eq_ok_iff.mpr ⟨hp.fees.credit_eq, hp.fees.credit_eq ▸ hp.fees.credit_le⟩
  unfold verify
  simp only [hbalances, hdebts, hcredits, bind, Except.bind, require, and_self, if_true]

/-- The audit of a sound pool objects only to claims that exceed the fees held
by more than two for each holder. -/
theorem verify_eq_storage_iff (hp : p.Sound) {issue : StorageIssue} :
    p.verify = .error (.rejected (.storage issue)) ↔
      ∃ claims, p.totalClaims = .ok claims ∧
        issue = .claimsExceedReserve claims p.feeReserve Guard.roundingSlack ∧
        p.feeReserve + 2 * p.holders.length < claims := by
  rw [verify_eq hp]
  cases hclaims : p.totalClaims with
  | error e =>
    constructor
    · intro h
      cases h
      cases overflowOnly_totalClaims p _ hclaims
    · intro hfound
      obtain ⟨_, h, -⟩ := hfound
      cases h
  | ok claims =>
    obtain ⟨-, hmax, -⟩ := totalClaims_ok hclaims
    have hbacked : Guard.feesBacked claims p.feeReserve p.holders.length = true ↔
        claims ≤ p.feeReserve + 2 * p.holders.length := by
      unfold Guard.feesBacked Guard.roundingSlack Amount.addSaturating Amount.mulSaturating
      rw [decide_eq_true_iff]
      omega
    show require _ _ = _ ↔ _
    unfold require reject
    by_cases hle : claims ≤ p.feeReserve + 2 * p.holders.length
    · rw [if_pos (hbacked.mpr hle)]
      constructor
      · intro h
        cases h
      · intro hfound
        obtain ⟨_, h, -, hlt⟩ := hfound
        cases h
        omega
    · rw [if_neg (mt hbacked.mp hle)]
      constructor
      · intro h
        cases h
        exact ⟨claims, rfl, rfl, by omega⟩
      · intro hfound
        obtain ⟨_, h, rfl, -⟩ := hfound
        cases h
        rfl

end Pool

end PooledCollateral
