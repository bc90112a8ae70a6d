/-
PooledCollateral.Proofs.Pool.VirtualReserve — when the credit stays below the
fees held and the debt.

The virtual reserve is computed as a difference, and every claim of a holder of
shares, every exit and every transfer is refused once it would be negative. Only
an exit can make it so: it forgives a holder's debt also where that is more than
the virtual reserve and the credit that goes can pay, and then no fees leave
(`netReserve_of_burn`). Every other operation keeps a reserve that is not
negative (`netReserve_of_no_burn`). So a run keeps it throughout exactly if no
exit on it forgives too much (`reserve_covers_credit_iff`); and since what is
forgiven beyond measure is overhang, the reserve never lacks more than the run
has roundings (`netReserve_run`).
-/
import PooledCollateral.Proofs.Pool.Overhang

namespace PooledCollateral.Pool

open PooledCollateral.Action

variable {p q : Pool} {op : Operation} {ops : List Operation}

/-- The burn that an operation would carry out on a pool, if it is an exit that
passes. -/
def Operation.burn? (p : Pool) : Operation → Option ExitQuote
  | .exit holder shares backing now => (p.planExit holder shares backing now).toOption
  | .selfClose holder shares backing now =>
    (p.planSelfClose holder shares backing now).toOption.map (·.quote)
  | _ => none

/-! ## Exits -/

/-- An exit is quoted over a reserve that is not negative. -/
theorem netReserve_nonneg_of_quoteExit {holder : Address} {shares now : ℕ} {quote : ExitQuote}
    (hquote : p.quoteExit holder shares now = .ok quote) : 0 ≤ p.books.netReserve := by
  obtain ⟨reserve, hreserve⟩ := virtualReserve_of_quoteExit hquote
  obtain ⟨-, -, hcredit⟩ := virtualReserve_eq_ok_iff.mp hreserve
  rw [netReserve_eq_sub hcredit]
  exact Int.natCast_nonneg _

/-- An exit leaves a reserve that lacks no more than its holder lies below zero,
and a rounding. -/
theorem carryOut_netReserve_gt {holder : Address} {shares now : ℕ} {quote : ExitQuote}
    (hquote : p.quoteExit holder shares now = .ok quote)
    (h : (carryOut holder quote now).run p = .ok () q) :
    -(p.books.deficit holder + 1) < q.books.netReserve := by
  have hfor := quoteExit_ok hquote
  obtain ⟨t, r, -, hone, hpart⟩ := hfor.part
  have hge := carryOut_netReserve_ge hfor.supply_ne hpart h
  have hpartial := mul_le_of_le_one_left (Books.deficit_nonneg p.books holder) hpart.le_one
  have hstay : 0 ≤ p.books.perShare * (p.shares.supply - quote.shares) := by
    have hle : quote.shares ≤ p.shares.supply := (carryOut_ok h).1.2.2.1
    exact mul_nonneg (Books.perShare_nonneg (netReserve_nonneg_of_quoteExit hquote))
      (sub_nonneg.mpr (Nat.cast_le.mpr hle))
  linarith

/-- Who does not lie below zero leaves a reserve that is not negative. -/
theorem carryOut_netReserve_nonneg {holder : Address} {shares now : ℕ} {quote : ExitQuote}
    (hquote : p.quoteExit holder shares now = .ok quote)
    (h : (carryOut holder quote now).run p = .ok () q) (hdeficit : p.books.deficit holder = 0) :
    0 ≤ q.books.netReserve := by
  have hgt := carryOut_netReserve_gt hquote h
  rw [hdeficit, zero_add] at hgt
  have hlt : (-1 : ℤ) < q.books.netReserve := by exact_mod_cast hgt
  omega

/-- An exit succeeds over a reserve that is not negative. If fees leave with it,
it leaves such a reserve; in any case the reserve lacks no more than the
overhang and a rounding. -/
theorem carryOut_netReserve_bounds {holder : Address} {shares now : ℕ} {quote : ExitQuote}
    (hquote : p.quoteExit holder shares now = .ok quote)
    (h : (carryOut holder quote now).run p = .ok () q) :
    0 ≤ p.books.netReserve ∧
      (quote.fees ≠ 0 → 0 ≤ q.books.netReserve) ∧
      -(p.books.overhang + 1) ≤ q.books.netReserve := by
  refine ⟨netReserve_nonneg_of_quoteExit hquote, fun hfees => ?_, ?_⟩
  · -- who has fees to take along does not lie below zero
    refine carryOut_netReserve_nonneg hquote h ?_
    obtain ⟨t, r, -, -, hpart⟩ := (quoteExit_ok hquote).part
    have htaken : (1 : ℚ) ≤ t * max 0 (p.books.entitlement holder) := by
      rw [← Books.entitlement_add_deficit]
      refine le_trans ?_ hpart.fees_le
      exact_mod_cast Nat.one_le_iff_ne_zero.mpr hfees
    rcases le_total (p.books.entitlement holder) 0 with hneg | hpos
    · rw [max_eq_left hneg, mul_zero] at htaken
      linarith
    · exact max_eq_left (neg_nonpos.mpr hpos)
  · have hgt := carryOut_netReserve_gt hquote h
    have hdeficit := Books.deficit_le_overhang p.books holder
    linarith

/-- A successful operation that is an exit carries out its burn. -/
theorem carryOut_of_burn {quote : ExitQuote} (h : (operate op).run p = .ok () q)
    (hburn : op.burn? p = some quote) :
    ∃ holder shares now, p.quoteExit holder shares now = .ok quote ∧
      (carryOut holder quote now).run p = .ok () q ∧ op.roundings = 2 := by
  cases op with
  | exit holder shares backing now =>
    obtain ⟨planned, hplan, hcarry⟩ := operate_exit_ok h
    simp only [Operation.burn?, hplan, Except.toOption, Option.some.injEq] at hburn
    subst hburn
    exact ⟨holder, shares, now, planExit_ok hplan, hcarry, rfl⟩
  | selfClose holder shares backing now =>
    obtain ⟨plan, hplan, hcarry⟩ := operate_selfClose_ok h
    simp only [Operation.burn?, hplan, Except.toOption, Option.map_some, Option.some.injEq] at hburn
    subst hburn
    exact ⟨holder, shares, now, (planSelfClose_ok hplan).1, hcarry, rfl⟩
  | _ => cases hburn

/-! ## Other operations -/

theorem netReserve_payout {holder : Address} {collateral shares now : ℕ}
    (h : (payout holder collateral shares now).run p = .ok () q) :
    min p.books.netReserve 0 ≤ q.books.netReserve := by
  obtain ⟨-, hle, -, slice, _, hslice, -, hbooks⟩ := payout_ok h
  have hnet : q.books.netReserve = p.books.netReserve - slice := by
    rw [hbooks]
    simp only [Books.netReserve, books, totals]
    push_cast
    ring
  obtain ⟨-, rfl⟩ | ⟨hsupply, -, hcredit, hslice⟩ := slice_ok hslice
  · rw [hnet, Nat.cast_zero, sub_zero]
    exact min_le_left _ _
  · have hpart : slice ≤ p.feeReserve + p.fees.totalDebt - p.fees.totalCredit := by
      rw [hslice]
      refine Nat.div_le_of_le_mul ?_
      rw [Nat.mul_comm]
      exact Nat.mul_le_mul_right _ hle
    rw [hnet, netReserve_eq_sub hcredit]
    omega

/-- An operation that is no exit lowers the reserve to zero at most. -/
theorem netReserve_of_no_burn (h : (operate op).run p = .ok () q) (hburn : op.burn? p = none) :
    min p.books.netReserve 0 ≤ q.books.netReserve := by
  have hmore : p.books.netReserve ≤ q.books.netReserve →
      min p.books.netReserve 0 ≤ q.books.netReserve := (min_le_left _ _).trans
  cases op with
  | enter holder collateral price now =>
    obtain ⟨_, henter⟩ := operate_enter_ok h
    obtain ⟨quote, -, -, hbooks⟩ := enter_ok henter
    refine hmore ?_
    rw [hbooks]
    simp only [Books.netReserve, books, totals]
    omega
  | exit holder shares backing now =>
    obtain ⟨planned, hplan, -⟩ := operate_exit_ok h
    simp [Operation.burn?, hplan, Except.toOption] at hburn
  | selfClose holder shares backing now =>
    obtain ⟨plan, hplan, -⟩ := operate_selfClose_ok h
    simp [Operation.burn?, hplan, Except.toOption] at hburn
  | withdrawFees holder amount =>
    obtain ⟨_, -, -, hreserve, hbooks⟩ := withdrawFees_ok h
    refine hmore ?_
    rw [hbooks]
    simp only [Books.netReserve, books, totals]
    omega
  | payFeeDebt holder amount =>
    obtain ⟨-, hdebt, hbooks⟩ := payFeeDebt_ok h
    refine hmore ?_
    rw [hbooks]
    simp only [Books.netReserve, books, totals]
    omega
  | depositFees amount =>
    refine hmore ?_
    rw [depositFees_ok h]
    simp only [Books.netReserve, books, totals]
    omega
  | receiveCollateral amount =>
    refine hmore ?_
    rw [receiveCollateral_ok h]
    exact le_rfl
  | payout => exact netReserve_payout h
  | updateSettings =>
    refine hmore ?_
    rw [(updateSettings_ok h).2]
    exact le_rfl
  | transfer =>
    refine hmore ?_
    obtain ⟨_, _, -, -, -, -, ⟨-, rfl⟩ | ⟨-, -, _, -, hbooks⟩⟩ := transfer_ok h
    · exact le_rfl
    · rw [hbooks]
      exact le_rfl
  | cleanup holder limit now =>
    obtain ⟨_, hclean⟩ := operate_cleanup_ok h
    refine hmore ?_
    rw [cleanup_ok hclean]
    exact le_rfl

/-! ## Runs -/

/-- Whether the fees held and the debt cover the credit. -/
theorem netReserve_nonneg_iff :
    0 ≤ p.books.netReserve ↔ p.fees.totalCredit ≤ p.feeReserve + p.fees.totalDebt := by
  simp only [Books.netReserve, books, totals]
  omega

/-- A reserve that is not negative stays so, unless an exit forgives too much. -/
theorem netReserve_operate (hnet : 0 ≤ p.books.netReserve) (h : (operate op).run p = .ok () q)
    (hsafe : ∀ quote, op.burn? p = some quote →
      quote.debtForgiven ≤ p.books.netReserve + quote.creditUsed) :
    0 ≤ q.books.netReserve := by
  cases hburn : op.burn? p with
  | none =>
    have hkept := netReserve_of_no_burn h hburn
    omega
  | some quote =>
    obtain ⟨holder, shares, now, hquote, hcarry, -⟩ := carryOut_of_burn h hburn
    obtain ⟨-, hpaid, -⟩ := carryOut_netReserve_bounds hquote hcarry
    by_cases hfees : quote.fees = 0
    · have hafter := carryOut_netReserve hcarry
      have hle := hsafe quote hburn
      omega
    · exact hpaid hfees

/-- By induction on the run, together with the bound on the overhang. -/
theorem netReserve_run {k : ℕ} (hp : p.Sound) (hnet : -(k : ℤ) ≤ p.books.netReserve)
    (hover : p.books.overhang ≤ k) (h : Run p ops q) :
    -((k + roundings ops : ℕ) : ℤ) ≤ q.books.netReserve := by
  induction ops generalizing p k with
  | nil =>
    rw [run_nil.mp h]
    simpa [roundings] using hnet
  | cons op ops ih =>
    obtain ⟨m, hop, hops⟩ := run_cons.mp h
    have hsum : k + roundings (op :: ops) = k + op.roundings + roundings ops := by
      simp only [roundings, List.map_cons, List.sum_cons]
      omega
    rw [hsum]
    refine ih (operate_sound hop hp) ?_ ?_ hops
    · cases hburn : op.burn? p with
      | none =>
        have hkept := netReserve_of_no_burn hop hburn
        omega
      | some quote =>
        obtain ⟨holder, shares, now, hquote, hcarry, htwo⟩ := carryOut_of_burn hop hburn
        obtain ⟨-, -, hlack⟩ := carryOut_netReserve_bounds hquote hcarry
        have hlack' : ((-(k + 1 : ℕ) : ℤ) : ℚ) ≤ m.books.netReserve := by
          push_cast
          linarith
        have hle : (-(k + 1 : ℕ) : ℤ) ≤ m.books.netReserve := by exact_mod_cast hlack'
        omega
    · have hstep := overhang_operate hp hop
      push_cast
      linarith

/-- On a run from a fresh pool the fees held and the debt cover the credit at
every point exactly if no exit on the run forgives more debt than the virtual
reserve and the credit that goes with it can pay. Even if one does, the credit
exceeds the two by no more than the roundings of the run. -/
theorem reserve_covers_credit_iff {settings : Settings} {fresh : Pool}
    (hfresh : create settings = .ok fresh) (hrun : Run fresh ops p) :
    ((∀ done rest m, ops = done ++ rest → Run fresh done m →
        m.fees.totalCredit ≤ m.feeReserve + m.fees.totalDebt) ↔
      ∀ done op rest m quote, ops = done ++ op :: rest → Run fresh done m →
        op.burn? m = some quote →
        quote.debtForgiven + m.fees.totalCredit
          ≤ m.feeReserve + m.fees.totalDebt + quote.creditUsed) ∧
    p.fees.totalCredit ≤ p.feeReserve + p.fees.totalDebt + roundings ops := by
  have hsound := sound_create hfresh
  have hzero : fresh.books.netReserve = 0 := by
    obtain ⟨_, -, hpure⟩ := Checked.bind_eq_ok_iff.mp hfresh
    cases hpure
    rfl
  refine ⟨⟨fun hcover done op rest m quote hops hdone hburn => ?_,
    fun hsafe done => ?_⟩, ?_⟩
  · -- the run goes on after the exit, and is covered there as well
    rw [hops, List.append_cons, run_append] at hrun
    obtain ⟨after, hafter, -⟩ := hrun
    have hcovered := netReserve_nonneg_iff.mpr
      (hcover (done ++ [op]) rest after (by rw [hops, List.append_cons]) hafter)
    obtain ⟨m', hdone', hop⟩ := run_append.mp hafter
    obtain rfl := hdone'.unique hdone
    obtain ⟨_, hop, hnil⟩ := run_cons.mp hop
    obtain rfl := run_nil.mp hnil
    obtain ⟨holder, shares, now, -, hcarry, -⟩ := carryOut_of_burn hop hburn
    rw [carryOut_netReserve hcarry] at hcovered
    simp only [Books.netReserve, books, totals] at hcovered
    omega
  · -- by induction on how much of the run is done
    induction done using List.reverseRecOn with
    | nil =>
      intro rest m _ hdone
      rw [run_nil.mp hdone]
      exact netReserve_nonneg_iff.mp hzero.ge
    | append_singleton done op ih =>
      intro rest m hops hdone
      rw [List.append_assoc, List.singleton_append] at hops
      obtain ⟨before, hbefore, hop⟩ := run_append.mp hdone
      obtain ⟨_, hop, hnil⟩ := run_cons.mp hop
      obtain rfl := run_nil.mp hnil
      refine netReserve_nonneg_iff.mp (netReserve_operate
        (netReserve_nonneg_iff.mpr (ih (op :: rest) before hops hbefore)) hop fun quote hburn => ?_)
      have hle := hsafe done op rest before quote hops hbefore hburn
      simp only [Books.netReserve, books, totals]
      omega
  · have hlack := netReserve_run (k := 0) hsound (by simp [hzero])
      (by rw [overhang_create hfresh]; simp) hrun
    rw [Nat.zero_add] at hlack
    simp only [Books.netReserve, books, totals] at hlack
    omega

/-- Fees of one unit; a holder who has entered twice with a single share and
owes more than the slices of both; a seizure that makes nearly the whole reserve
credit of the other holder; and then the exit of the first. -/
def drainingExit : List Operation :=
  [.enter rich 100 none 0, .depositFees 1, .enter poor 1 none 0, .enter poor 1 none 0,
    .payout rich 0 99 1, .exit poor 2 { liability := 0, price := ⟨1, 1⟩ } 1]

/-- The draining exit leaves a credit of two over fees and debt of one. -/
theorem drainingExit_lack :
    (reached drainingExit).fees.totalCredit
      ≤ (reached drainingExit).feeReserve + (reached drainingExit).fees.totalDebt
        + roundings drainingExit := by
  have hfresh : create looseSettings = .ok freshPool := rfl
  have hrun : Run freshPool drainingExit (reached drainingExit) :=
    run_stateAfter (by decide +kernel)
  exact (reserve_covers_credit_iff hfresh hrun).2

/-- The credit does exceed the fees held and the debt in a pool that a run has
reached; there even a transfer of nothing to oneself is refused. -/
theorem drainingExit_freezes :
    (¬ ∀ settings fresh ops p, create settings = .ok fresh → Run fresh ops p →
      p.fees.totalCredit ≤ p.feeReserve + p.fees.totalDebt) ∧
    (transfer rich rich 0 1).outcome (reached drainingExit) = .error (.rejected .overflow) := by
  constructor
  · intro hcover
    have hrun : Run freshPool drainingExit (reached drainingExit) :=
      run_stateAfter (by decide +kernel)
    have hle := hcover looseSettings freshPool drainingExit _ rfl hrun
    revert hle
    decide +kernel
  · decide +kernel

end PooledCollateral.Pool
