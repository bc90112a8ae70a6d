/-
PooledCollateral.Proofs.Pool.Claims — what shares that come, go or change hands do
to the claims of the holders.

A claim is an entitlement rounded down, so that entitlements that move by less than
a unit move the claims by one unit at most. An entry and a payout are neutral:
nobody else's claim falls, nor rises by more than a unit (`entry_fee_neutral`,
`payout_fee_neutral`). Who leaves without lying below zero takes no more along than
it owns; only the credit of a part of its shares is rounded against those who stay
(`exit_does_not_dilute`). A transfer hands over what the shares own, and leaves its
sender enough of them to back its debt (`transfer_sheds_no_debt`).
-/
import PooledCollateral.Proofs.Pool.GrossReserve

namespace PooledCollateral

/-! ## Rounding down -/

/-- Less than a unit more is at most a unit more when rounded down. -/
theorem floor_le_floor_add_one {x y : ℚ} (h : y < x + 1) : ⌊y⌋₊ ≤ ⌊x⌋₊ + 1 := by
  have hx : x < ⌊x⌋₊ + 1 := Nat.lt_floor_add_one x
  have hy : y < (⌊x⌋₊ + 2 : ℕ) := by
    push_cast
    linarith
  exact Nat.le_of_lt_succ ((Nat.floor_lt' (Nat.succ_ne_zero _)).mpr hy)

/-- What moves from one number to another, and leaves the first above zero, is
rounded in favour of the two by one unit at most. -/
theorem floor_sub_add_floor_add_le {x y w : ℚ} (hw : 0 ≤ w) (hx : 0 ≤ x - w) :
    ⌊x - w⌋₊ + ⌊y + w⌋₊ ≤ ⌊x⌋₊ + ⌊y⌋₊ + 1 := by
  obtain hneg | hpos := lt_or_ge (y + w) 0
  · have hless : ⌊x - w⌋₊ ≤ ⌊x⌋₊ := Nat.floor_mono (sub_le_self x hw)
    rw [Nat.floor_of_nonpos hneg.le]
    omega
  · have hleft := Nat.floor_le hx
    have hright := Nat.floor_le hpos
    have hx' := Nat.lt_floor_add_one x
    have hy' := Nat.lt_floor_add_one y
    have hsum : ((⌊x - w⌋₊ + ⌊y + w⌋₊ : ℕ) : ℚ) < (⌊x⌋₊ + ⌊y⌋₊ + 2 : ℕ) := by
      push_cast
      linarith
    have hlt := Nat.cast_lt.mp hsum
    omega

namespace Pool

open PooledCollateral.Action

variable {p q fresh : Pool} {settings : Settings} {past : List Call} {holder other : Address}
  {before later : ℕ}

/-! ## Claims over a neutral change -/

theorem claim_of_neutral (h : Books.NeutralAt holder p.books q.books) (hother : other ≠ holder)
    (hbefore : p.claim other = .ok before) (hlater : q.claim other = .ok later) :
    before ≤ later ∧ later ≤ before + 1 := by
  obtain ⟨hkeeps, hgains⟩ := h.others hother
  rw [claim_eq_floor hbefore, claim_eq_floor hlater]
  exact ⟨Nat.floor_mono hkeeps, floor_le_floor_add_one hgains⟩

theorem own_claim_of_neutral (h : Books.NeutralAt holder p.books q.books)
    (hbefore : p.claim holder = .ok before) (hlater : q.claim holder = .ok later) :
    later ≤ before ∧ before ≤ later + 1 := by
  obtain ⟨hloses, hgains⟩ := h.self
  rw [claim_eq_floor hbefore, claim_eq_floor hlater]
  exact ⟨Nat.floor_mono hgains, floor_le_floor_add_one hloses⟩

/-- The fees held, which cap what can be claimed at once, are the same before and after. -/
theorem claimableFees_of_neutral (h : Books.NeutralAt holder p.books q.books)
    (hother : other ≠ holder) (hbefore : p.claimableFees other = .ok before)
    (hlater : q.claimableFees other = .ok later) : before ≤ later ∧ later ≤ before + 1 := by
  obtain ⟨_, hclaim, rfl⟩ := claimableFees_ok hbefore
  obtain ⟨_, hclaim', rfl⟩ := claimableFees_ok hlater
  have hheld : q.feeReserve = p.feeReserve := h.feeReserve_eq
  have hbounds := claim_of_neutral h hother hclaim hclaim'
  omega

theorem own_claimableFees_of_neutral (h : Books.NeutralAt holder p.books q.books)
    (hbefore : p.claimableFees holder = .ok before)
    (hlater : q.claimableFees holder = .ok later) : later ≤ before ∧ before ≤ later + 1 := by
  obtain ⟨_, hclaim, rfl⟩ := claimableFees_ok hbefore
  obtain ⟨_, hclaim', rfl⟩ := claimableFees_ok hlater
  have hheld : q.feeReserve = p.feeReserve := h.feeReserve_eq
  have hbounds := own_claim_of_neutral h hclaim hclaim'
  omega

/-! ## Entry -/

/-- The debt of an entry among other shares is formed from the virtual reserve. -/
theorem virtualReserve_of_quoteEntry {collateral : ℕ} {price : Option Price} {quote : EntryQuote}
    (hsupply : p.shares.supply ≠ 0) (h : p.quoteEntry collateral price = .ok quote) :
    ∃ reserve, p.fees.virtualReserve p.feeReserve = .ok reserve := by
  simp only [quoteEntry, FeeBook.entryDebt, if_neg hsupply, Checked.bind_eq_ok_iff] at h
  obtain ⟨_, -, _, -, _, ⟨reserve, hreserve, -⟩, -⟩ := h
  exact ⟨reserve, hreserve⟩

/-- In every pool with shares that calls have led to, everybody can claim when an entry
succeeds. Whenever they can still do so afterwards, everybody else can claim what it
could before or one unit more, the entrant what it could before or one unit less, and
an entrant that had nothing before nothing. They can as long as the gross reserve is an
amount. -/
theorem entry_fee_neutral (hfresh : create settings = .ok fresh) (hpast : after fresh past = p)
    (hsupply : p.shares.supply ≠ 0) {entrant : Address} {collateral now : ℕ} {price : Option Price}
    {receipt : EntryReceipt} (h : (enter entrant collateral price now).run p = .ok receipt q) :
    (∀ other, other ≠ entrant → ∃ before, p.claimableFees other = .ok before ∧
        ∀ later, q.claimableFees other = .ok later → before ≤ later ∧ later ≤ before + 1) ∧
      (∃ before, p.claimableFees entrant = .ok before ∧
        ∀ later, q.claimableFees entrant = .ok later → later ≤ before ∧ before ≤ later + 1) ∧
      (p.balanceOf entrant = 0 → p.debtOf entrant = 0 → p.creditOf entrant = 0 →
        ∀ later, q.claimableFees entrant = .ok later → later = 0) ∧
      (q.grossReserve ≤ Amount.max → ∀ holder, ∃ later, q.claimableFees holder = .ok later) := by
  have hp := sound_after hfresh hpast
  have hneutral := enter_neutral hp hsupply h
  obtain ⟨quote, hquote, -⟩ := enter_ok h
  obtain ⟨reserve, hreserve⟩ := virtualReserve_of_quoteEntry hsupply hquote
  obtain ⟨-, hfits, hcredit⟩ := virtualReserve_eq_ok_iff.mp hreserve
  refine ⟨fun other hother => ?_, ?_, ?_, fun hfits' => ?_⟩
  · obtain ⟨before, hbefore⟩ := claimableFees_of_fits hp hfits hcredit other
    exact ⟨before, hbefore, fun later hlater =>
      claimableFees_of_neutral hneutral hother hbefore hlater⟩
  · obtain ⟨before, hbefore⟩ := claimableFees_of_fits hp hfits hcredit entrant
    exact ⟨before, hbefore, fun later hlater =>
      own_claimableFees_of_neutral hneutral hbefore hlater⟩
  · intro hbalance hdebt hcredit later hlater
    obtain ⟨claim, hclaim, rfl⟩ := claimableFees_ok hlater
    have hnothing : p.books.entitlement entrant = 0 := by
      rw [entitlement_eq, hbalance, hdebt, hcredit]
      simp
    have hclaims : claim = 0 := by
      rw [claim_eq_floor hclaim]
      exact Nat.floor_of_nonpos (hneutral.self.2.trans hnothing.le)
    omega
  · have hq : q.Sound := ((enter_confined _ _ _ _ p).of_ok h).sound hp
    refine claimableFees_of_fits hq hfits' ?_
    have hnet := hneutral.netReserve_nonneg (netReserve_nonneg_iff.mpr hcredit)
    exact netReserve_nonneg_iff.mp hnet

/-- Two holders, and fees that came in after both. -/
def sharing (fewer more fees : ℕ) : List Call :=
  [.enter poor fewer none 0, .enter rich more none 0, .depositFees fees]

/-- Somebody who has no part in a pool yet. -/
def newcomer : Address := ⟨12, by decide⟩

/-- An entry moves a unit from the entrant to the other holder, and the entry of
somebody new makes that unit out of rounding alone. -/
theorem sharing_entry_rounds :
    let p := after freshPool (sharing 3 1 5)
    let q := (enter rich 1 none 0).stateAfter p
    let r := (enter newcomer 1 none 0).stateAfter p
    (p.claimableFees poor = .ok 3 ∧ q.claimableFees poor = .ok 4 ∧ r.claimableFees poor = .ok 4) ∧
      (p.claimableFees rich = .ok 1 ∧ q.claimableFees rich = .ok 0) ∧
      (∃ before, p.claimableFees rich = .ok before ∧
        ∀ later, q.claimableFees rich = .ok later → later ≤ before ∧ before ≤ later + 1) ∧
      ∀ later, r.claimableFees newcomer = .ok later → later = 0 := by
  intro p q r
  have hfresh : create looseSettings = .ok freshPool := rfl
  have hsupply : p.shares.supply ≠ 0 := by decide +kernel
  have haccepted : (enter rich 1 none 0).failure? p = none := by decide +kernel
  have haccepted' : (enter newcomer 1 none 0).failure? p = none := by decide +kernel
  obtain ⟨_, hagain⟩ := run_of_success haccepted
  obtain ⟨_, hnew⟩ := run_of_success haccepted'
  refine ⟨by decide +kernel, by decide +kernel,
    (entry_fee_neutral hfresh rfl hsupply hagain).2.1, ?_⟩
  exact (entry_fee_neutral hfresh rfl hsupply hnew).2.2.1 (by decide +kernel) (by decide +kernel)
    (by decide +kernel)

/-! ## Payout -/

/-- A payout of shares leaves everybody a claim. -/
theorem claims_after_payout {collateral shares now : ℕ} (hp : p.Sound) (hshares : shares ≠ 0)
    (h : (payout holder collateral shares now).run p = .ok () q) (other : Address) :
    ∃ later, q.claim other = .ok later := by
  obtain ⟨-, hle, -, slice, _, hslice, -, hbooks⟩ := payout_ok h
  obtain ⟨reserve, hreserve⟩ := virtualReserve_of_slice (by omega) hshares hslice
  obtain ⟨-, hfits, hcredit⟩ := virtualReserve_eq_ok_iff.mp hreserve
  have hq : q.Sound := ((payout_confined _ _ _ _ p).of_ok h).sound hp
  have hgross : q.grossReserve = p.grossReserve := grossReserve_of_books hbooks
  have hnet := (payout_neutral hp hshares h).netReserve_nonneg (netReserve_nonneg_iff.mpr hcredit)
  exact ⟨_, claim_of_fits hq (hgross ▸ hfits) (netReserve_nonneg_iff.mp hnet) other⟩

/-- In every pool that calls have led to, a payout of any number of shares leaves
everybody a claim who had one: everybody else the same or one unit more, the holder of
the shares the same or one unit less. The debt of the holder, the rows of the others and
the fees held stay as they are. -/
theorem payout_fee_neutral (hfresh : create settings = .ok fresh) (hpast : after fresh past = p)
    {collateral shares now : ℕ} (h : (payout holder collateral shares now).run p = .ok () q) :
    (∀ other, other ≠ holder → ∀ before, p.claim other = .ok before →
        ∃ later, q.claim other = .ok later ∧ before ≤ later ∧ later ≤ before + 1) ∧
      (∀ before, p.claim holder = .ok before →
        ∃ later, q.claim holder = .ok later ∧ later ≤ before ∧ before ≤ later + 1) ∧
      q.debtOf holder = p.debtOf holder ∧
      (∀ other, other ≠ holder → q.holderRow other = p.holderRow other) ∧
      q.feeReserve = p.feeReserve := by
  have hp := sound_after hfresh hpast
  by_cases hshares : shares = 0
  · subst hshares
    rw [payout_ok_of_none h]
    exact ⟨fun other _ before hbefore => ⟨before, hbefore, Nat.le_refl _, Nat.le_succ _⟩,
      fun before hbefore => ⟨before, hbefore, Nat.le_refl _, Nat.le_succ _⟩, rfl, fun _ _ => rfl,
      rfl⟩
  · have hneutral := payout_neutral hp hshares h
    have hclaims := claims_after_payout hp hshares h
    obtain ⟨-, -, -, slice, _, -, -, hbooks⟩ := payout_ok h
    refine ⟨fun other hother before hbefore => ?_, fun before hbefore => ?_, ?_, hneutral.off,
      hneutral.feeReserve_eq⟩
    · obtain ⟨later, hlater⟩ := hclaims other
      exact ⟨later, hlater, claim_of_neutral hneutral hother hbefore hlater⟩
    · obtain ⟨later, hlater⟩ := hclaims holder
      exact ⟨later, hlater, own_claim_of_neutral hneutral hbefore hlater⟩
    · have hrow : (q.books.row holder).feeDebt = p.debtOf holder := by
        rw [hbooks]
        simp only [Function.update_self]
      exact hrow

/-- A payout of two shares moves a unit from their holder to the other one. -/
theorem sharing_payout_rounds :
    let p := after freshPool (sharing 2 3 2)
    let q := (payout rich 0 2 0).stateAfter p
    (p.claim poor = .ok 0 ∧ q.claim poor = .ok 1) ∧ (p.claim rich = .ok 1 ∧ q.claim rich = .ok 0) ∧
      (∃ later, q.claim poor = .ok later ∧ 0 ≤ later ∧ later ≤ 1) ∧
      ∃ later, q.claim rich = .ok later ∧ later ≤ 1 ∧ 1 ≤ later + 1 := by
  intro p q
  have hfresh : create looseSettings = .ok freshPool := rfl
  have hpoor : p.claim poor = .ok 0 := by decide +kernel
  have hrich : p.claim rich = .ok 1 := by decide +kernel
  have haccepted : (payout rich 0 2 0).failure? p = none := by decide +kernel
  obtain ⟨_, hpaid⟩ := run_of_success haccepted
  obtain ⟨hothers, hown, -⟩ := payout_fee_neutral hfresh rfl hpaid
  exact ⟨⟨hpoor, by decide +kernel⟩, ⟨hrich, by decide +kernel⟩, hothers poor (by decide) 0 hpoor,
    hown 1 hrich⟩

/-! ## Exit -/

/-- An exit of either kind carries out the burn that it has quoted. -/
theorem carryOut_of_leave {op : Operation} {shares now : ℕ} {backing : Backing}
    (hop : op = .exit holder shares backing now ∨ op = .selfClose holder shares backing now)
    (h : (operate op).run p = .ok () q) :
    ∃ quote, p.quoteExit holder shares now = .ok quote ∧
      (carryOut holder quote now).run p = .ok () q := by
  obtain rfl | rfl := hop
  · obtain ⟨quote, hplan, hcarry⟩ := operate_exit_ok h
    exact ⟨quote, planExit_ok hplan, hcarry⟩
  · obtain ⟨plan, hplan, hcarry⟩ := operate_selfClose_ok h
    exact ⟨plan.quote, (planSelfClose_ok hplan).1, hcarry⟩

/-- The credit that goes is not rounded if there is none, or if all of it goes. -/
theorem ExitQuote.For.whole_credit {shares : ℕ} {quote : ExitQuote}
    (h : ExitQuote.For p holder shares quote)
    (hwhole : p.creditOf holder = 0 ∨ shares = p.balanceOf holder) :
    ∃ t r, ExitQuote.Part p holder quote t r ∧ t * p.creditOf holder ≤ quote.creditUsed := by
  obtain hnone | hall := hwhole
  · obtain ⟨t, r, -, -, hpart⟩ := h.part
    refine ⟨t, r, hpart, ?_⟩
    rw [hnone, Nat.cast_zero, mul_zero]
    exact Nat.cast_nonneg _
  · have hpart := h.all hall
    exact ⟨1, 0, hpart, by linarith [hpart.credit_ge]⟩

/-- If the holder does not lie below zero, those who stay lose no more than what the
credit that goes is rounded by. -/
theorem entitlement_of_carryOut {quote : ExitQuote} {now : ℕ} {t r c : ℚ} (hp : p.Sound)
    (hsupply : p.shares.supply ≠ 0) (hpart : ExitQuote.Part p holder quote t r)
    (hdeficit : p.books.deficit holder = 0) (hc : 0 ≤ c)
    (hcredit : t * p.creditOf holder - c ≤ quote.creditUsed)
    (h : (carryOut holder quote now).run p = .ok () q) (hother : other ≠ holder) :
    p.books.entitlement other - c ≤ q.books.entitlement other := by
  have hconfined := (carryOut_confined holder quote now p).of_ok h
  have hresidue := carryOut_residue_ge hsupply hpart hcredit h
  rw [hdeficit, mul_zero, zero_add] at hresidue
  exact (hconfined.sound hp).balanced.entitlement_ge_of_residue
    (hconfined.off other (by simpa using hother)) hc hresidue

/-- In every pool that calls have led to, an exit of either kind, of a holder whose debt
is covered by its slice and its credit, takes at most one unit from the claim of anybody
else, and nothing at all if the holder has no credit or leaves with all its shares.
Everybody else has a claim before and after. -/
theorem exit_does_not_dilute (hfresh : create settings = .ok fresh) (hpast : after fresh past = p)
    {op : Operation} {shares now slice : ℕ} {backing : Backing}
    (hop : op = .exit holder shares backing now ∨ op = .selfClose holder shares backing now)
    (h : (operate op).run p = .ok () q)
    (hslice : p.fees.slice p.feeReserve (p.balanceOf holder) p.shares.supply = .ok slice)
    (hcovered : p.debtOf holder ≤ slice + p.creditOf holder) :
    ∀ other, other ≠ holder → ∃ before later,
      p.claim other = .ok before ∧ q.claim other = .ok later ∧ before ≤ later + 1 ∧
        (p.creditOf holder = 0 ∨ shares = p.balanceOf holder → before ≤ later) := by
  have hp := sound_after hfresh hpast
  have hdeficit : p.books.deficit holder = 0 :=
    max_eq_left (neg_nonpos.mpr ((covered_iff hslice).mp hcovered))
  obtain ⟨quote, hquote, hcarry⟩ := carryOut_of_leave hop h
  have hfor := quoteExit_ok hquote
  obtain ⟨reserve, hreserve⟩ := virtualReserve_of_quoteExit hquote
  obtain ⟨-, hfits, hcredit⟩ := virtualReserve_eq_ok_iff.mp hreserve
  have hgross : q.grossReserve ≤ p.grossReserve := by
    have htaken := grossReserve_carryOut hcarry
    omega
  have hcredit' : q.fees.totalCredit ≤ q.grossReserve :=
    netReserve_nonneg_iff.mp (carryOut_netReserve_nonneg hquote hcarry hdeficit)
  intro other hother
  refine ⟨_, _, claim_of_fits hp hfits hcredit other,
    claim_of_fits (operate_sound h hp) (hgross.trans hfits) hcredit' other,
    floor_le_floor_add_one ?_, ?_⟩
  · obtain ⟨t, r, hr, hone, hpart⟩ := hfor.part
    have hkept := entitlement_of_carryOut hp hfor.supply_ne hpart hdeficit hr hpart.credit_ge
      hcarry hother
    linarith
  · intro hexact
    obtain ⟨t, r, hpart, hwhole⟩ := hfor.whole_credit hexact
    have hkept := entitlement_of_carryOut hp hfor.supply_ne hpart hdeficit le_rfl
      (by rwa [sub_zero]) hcarry hother
    rw [sub_zero] at hkept
    exact Nat.floor_mono hkept

/-- A holder with a unit of credit leaves with one of its two shares. Half of the credit
would go with it, but what goes is rounded to nothing, and the other holder can claim one
unit less. -/
theorem sharing_exit_rounds :
    let p := after freshPool (sharing 2 3 7 ++ [.payout rich 0 1 0])
    let leave : Operation := .exit rich 1 ⟨0, ⟨1, 1⟩⟩ 0
    let q := (operate leave).stateAfter p
    (p.creditOf rich = 1 ∧ p.debtOf rich = 0) ∧
      (p.claim poor = .ok 3 ∧ q.claim poor = .ok 2) ∧
      ∃ before later, p.claim poor = .ok before ∧ q.claim poor = .ok later ∧ before ≤ later + 1 ∧
        (p.creditOf rich = 0 ∨ 1 = p.balanceOf rich → before ≤ later) := by
  intro p leave q
  have hfresh : create looseSettings = .ok freshPool := rfl
  have hslice : p.fees.slice p.feeReserve (p.balanceOf rich) p.shares.supply = .ok 3 := by
    decide +kernel
  have hcovered : p.debtOf rich ≤ 3 + p.creditOf rich := by decide +kernel
  have haccepted : (operate leave).failure? p = none := by decide +kernel
  obtain ⟨_, hleft⟩ := run_of_success haccepted
  exact ⟨by decide +kernel, by decide +kernel,
    exit_does_not_dilute hfresh rfl (Or.inl rfl) hleft hslice hcovered poor (by decide)⟩

/-! ## Transfer -/

/-- What a transfer may send is found from the virtual reserve. -/
theorem virtualReserve_of_indebtedShares {indebted : ℕ}
    (h : p.indebtedShares holder = .ok indebted) :
    ∃ reserve, p.fees.virtualReserve p.feeReserve = .ok reserve := by
  obtain ⟨reserve, hreserve, -⟩ := Checked.bind_eq_ok_iff.mp h
  exact ⟨reserve, hreserve⟩

section Transfers

variable {sender receiver : Address} {amount now : ℕ}

theorem Handed.virtualReserve_eq (h : Handed p q sender receiver amount) :
    q.fees.virtualReserve q.feeReserve = p.fees.virtualReserve p.feeReserve := by
  have hheld : q.feeReserve = p.feeReserve := congrArg Totals.feeReserve h.totals_eq
  have hdebt : q.fees.totalDebt = p.fees.totalDebt := congrArg Totals.feeDebt h.totals_eq
  have hcredit : q.fees.totalCredit = p.fees.totalCredit := congrArg Totals.feeCredit h.totals_eq
  unfold FeeBook.virtualReserve
  rw [hheld, hdebt, hcredit]

/-- Rounding gives the two at most one unit more than they had together, unless the
sender is left below zero, where its claim would be cut off. -/
theorem Handed.floors_le (h : Handed p q sender receiver amount) (hvalue : 0 ≤ p.books.perShare)
    (hback : 0 ≤ p.books.entitlement sender - p.books.perShare * amount ∨ p.books.perShare = 0) :
    ⌊q.books.entitlement sender⌋₊ + ⌊q.books.entitlement receiver⌋₊
      ≤ ⌊p.books.entitlement sender⌋₊ + ⌊p.books.entitlement receiver⌋₊ + 1 := by
  rw [h.entitlement_sender, h.entitlement_receiver]
  obtain hback | hnone := hback
  · exact floor_sub_add_floor_add_le (mul_nonneg hvalue (Nat.cast_nonneg _)) hback
  · rw [hnone, zero_mul, sub_zero, add_zero]
    exact Nat.le_succ _

/-- In every pool that calls have led to, a transfer of shares to somebody else leaves the
claim of every third party as it is, and lifts the claims of the two together by at most
one unit. If the virtual reserve is not zero, the slice of the shares that the sender
keeps and its credit cover its debt. -/
theorem transfer_sheds_no_debt (hfresh : create settings = .ok fresh)
    (hpast : after fresh past = p) (hdiff : sender ≠ receiver) (hamount : amount ≠ 0)
    (h : (transfer sender receiver amount now).run p = .ok () q) :
    (∀ third, third ≠ sender → third ≠ receiver →
        ∃ claim, p.claim third = .ok claim ∧ q.claim third = .ok claim) ∧
      (∃ sent received sent' received',
        p.claim sender = .ok sent ∧ p.claim receiver = .ok received ∧
          q.claim sender = .ok sent' ∧ q.claim receiver = .ok received' ∧
            sent' + received' ≤ sent + received + 1) ∧
      ∃ reserve, p.fees.virtualReserve p.feeReserve = .ok reserve ∧
        q.fees.virtualReserve q.feeReserve = .ok reserve ∧
          (reserve ≠ 0 → ∃ kept,
            q.fees.slice q.feeReserve (q.balanceOf sender) q.shares.supply = .ok kept ∧
              q.debtOf sender ≤ kept + q.creditOf sender) := by
  have hp := sound_after hfresh hpast
  have hq : q.Sound := ((transfer_confined _ _ _ _ p).of_ok h).sound hp
  have hmoved := transfer_handed hamount hdiff h
  obtain ⟨_, indebted, -, hindebted, -, hle, -⟩ := transfer_ok h
  obtain ⟨hvalue, hback⟩ := entitlement_of_transferable hp hindebted hamount hle
  obtain ⟨reserve, hreserve⟩ := virtualReserve_of_indebtedShares hindebted
  have hreserve' := hmoved.virtualReserve_eq.trans hreserve
  obtain ⟨-, hfits, hcredit⟩ := virtualReserve_eq_ok_iff.mp hreserve
  obtain ⟨-, hfits', hcredit'⟩ := virtualReserve_eq_ok_iff.mp hreserve'
  have hclaim := claim_of_fits hp hfits hcredit
  have hclaim' := claim_of_fits hq hfits' hcredit'
  refine ⟨fun third hthird hthird' => ?_, ?_, reserve, hreserve, hreserve', fun hsome => ?_⟩
  · refine ⟨_, hclaim third, ?_⟩
    rw [hclaim', hmoved.entitlement_other hthird hthird']
  · exact ⟨_, _, _, _, hclaim sender, hclaim receiver, hclaim' sender, hclaim' receiver,
      hmoved.floors_le hvalue hback⟩
  · obtain ⟨kept, hkept, -⟩ := slice_of_fits hq hfits' hcredit' sender
    have hsupply : p.shares.supply ≠ 0 := by
      have hbalance : p.balanceOf sender ≤ p.shares.supply := hp.balanced.balance_le sender
      omega
    have hcovers := hback.resolve_right (perShare_ne_zero hsupply hreserve hsome)
    rw [← hmoved.entitlement_sender] at hcovers
    exact ⟨kept, hkept, (covered_iff hkept).mpr hcovers⟩

end Transfers

/-- A holder that has withdrawn a unit may hand over one of its three shares and not two.
The two that it keeps cover the unit, and rounding lets the receiver claim a unit where
neither could claim anything. -/
theorem sharing_transfer_keeps_cover :
    let p := after freshPool (sharing 1 3 2 ++ [.withdrawFees rich 1])
    let give := transfer rich poor 1 0
    let q := give.stateAfter p
    (p.claim rich = .ok 0 ∧ p.claim poor = .ok 0 ∧ q.claim rich = .ok 0 ∧ q.claim poor = .ok 1) ∧
      (transfer rich poor 2 0).failure? p ≠ none ∧
      ∃ reserve, p.fees.virtualReserve p.feeReserve = .ok reserve ∧
        q.fees.virtualReserve q.feeReserve = .ok reserve ∧
          (reserve ≠ 0 → ∃ kept,
            q.fees.slice q.feeReserve (q.balanceOf rich) q.shares.supply = .ok kept ∧
              q.debtOf rich ≤ kept + q.creditOf rich) := by
  intro p give q
  have hfresh : create looseSettings = .ok freshPool := rfl
  have haccepted : give.failure? p = none := by decide +kernel
  obtain ⟨_, hgiven⟩ := run_of_success haccepted
  exact ⟨by decide +kernel, by decide +kernel,
    (transfer_sheds_no_debt hfresh rfl (by decide) (by decide) hgiven).2.2⟩

end Pool

end PooledCollateral
