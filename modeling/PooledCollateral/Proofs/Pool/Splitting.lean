/-
PooledCollateral.Proofs.Pool.Splitting — several departures or entries in a row, against
one of the same size.

Every piece is priced over what the pieces before it have left, and since these were
rounded in favour of the pool, the later pieces are priced better. Yet no piece dilutes
the shares (`carryOut_undiluted`, `enter_undiluted`), so neither do all of them together,
and that is all it takes: shares that leave undiluted shares behind have not taken more
than their part (`Shrunk.collateral_le`), and collateral that does so has not bought more
than its part (`Grown.shares_le`). Reachability plays no role.
-/
import PooledCollateral.Proofs.Pool.CollateralPerShare
import PooledCollateral.Proofs.Pool.RoundTrip

namespace PooledCollateral.Pool

open PooledCollateral.Action

variable {p q m : Pool} {shares collateral more further : ℕ}

/-! ## Departures -/

/-- Shares and collateral have left, and not diluted the shares that stay. -/
structure Shrunk (shares collateral : ℕ) (p q : Pool) : Prop where
  supply_eq : p.shares.supply = q.shares.supply + shares
  collateral_eq : p.collateral = q.collateral + collateral
  undiluted : Undiluted p q

theorem shrunk_nil (p : Pool) : Shrunk 0 0 p p := ⟨rfl, rfl, Nat.le_refl _⟩

theorem Shrunk.trans (h : Shrunk shares collateral p m) (h' : Shrunk more further m q)
    (hm : m.shares.supply ≠ 0) : Shrunk (shares + more) (collateral + further) p q where
  supply_eq := by
    rw [h.supply_eq, h'.supply_eq]
    omega
  collateral_eq := by
    rw [h.collateral_eq, h'.collateral_eq]
    omega
  undiluted := h.undiluted.trans h'.undiluted hm

/-- What has left is worth no more than the shares that it left with, also where no shares
have stayed. -/
theorem Shrunk.collateral_le (h : Shrunk shares collateral p q) (hp : p.shares.supply ≠ 0) :
    collateral ≤ shares * p.collateral / p.shares.supply := by
  have hworth : p.collateral * q.shares.supply ≤ q.collateral * p.shares.supply := h.undiluted
  rw [Nat.le_div_iff_mul_le (Nat.pos_of_ne_zero hp)]
  rw [h.supply_eq, h.collateral_eq] at hworth ⊢
  have hstay : collateral * q.shares.supply ≤ q.collateral * shares := by
    rw [Nat.add_mul, Nat.mul_add] at hworth
    exact Nat.le_of_add_le_add_left hworth
  calc collateral * (q.shares.supply + shares)
      = collateral * q.shares.supply + shares * collateral := by ring
    _ ≤ q.collateral * shares + shares * collateral := Nat.add_le_add_right hstay _
    _ = shares * (q.collateral + collateral) := by ring

theorem depart_shrunk {d : Departure} {receipt : ExitReceipt}
    (h : (depart d).run p = .ok receipt q) :
    p.shares.supply ≠ 0 ∧
      receipt.collateral = d.shares * p.collateral / p.shares.supply ∧
      Shrunk d.shares receipt.collateral p q := by
  obtain ⟨quote, hquote, hcarry, hback, -⟩ := depart_ok h
  have hfor := quoteExit_ok hquote
  obtain ⟨hcollateral, hsupply, -⟩ := carryOut_totals hfor hcarry
  obtain ⟨⟨-, hfits, hshares, -⟩, -⟩ := carryOut_ok hcarry
  have hleft := hfor.collateralAfter_eq
  have hstay := hfor.supplyAfter_eq
  have hpart := hfor.shares_eq
  refine ⟨hfor.supply_ne, hback.trans hfor.collateral_eq, ⟨by omega, by omega, ?_⟩⟩
  exact carryOut_undiluted hfor hcarry

/-- By induction on the departures. Before each of them there are shares, or it would be
refused. -/
theorem departures_shrunk {leaving : List Departure} {receipts : List ExitReceipt}
    (h : (leaving.mapM depart).run p = .ok receipts q) :
    Shrunk (leaving.map (·.shares)).sum (receipts.map (·.collateral)).sum p q := by
  induction leaving generalizing p receipts with
  | nil =>
    cases h
    exact shrunk_nil _
  | cons d leaving ih =>
    rw [List.mapM_cons] at h
    obtain ⟨receipt, m, hfirst, h⟩ := run_bind_eq_ok_iff.mp h
    obtain ⟨rest, _, hrest, hreturn⟩ := run_bind_eq_ok_iff.mp h
    cases hreturn
    obtain ⟨-, -, hleft⟩ := depart_shrunk hfirst
    cases leaving with
    | nil =>
      cases hrest
      simpa using hleft
    | cons next leaving =>
      have hm : m.shares.supply ≠ 0 := by
        rw [List.mapM_cons] at hrest
        obtain ⟨_, _, hnext, -⟩ := run_bind_eq_ok_iff.mp hrest
        exact (depart_shrunk hnext).1
      exact hleft.trans (ih hrest) hm

/-! ## Entries -/

/-- Somebody enters with collateral. -/
structure Arrival where
  holder : Address
  collateral : ℕ
  price : Option Price
  now : ℕ

/-- Carries out an arrival. -/
def arrive (a : Arrival) : Action Pool EntryReceipt := enter a.holder a.collateral a.price a.now

/-- Collateral and shares have come in, and not diluted the shares there were. -/
structure Grown (collateral shares : ℕ) (p q : Pool) : Prop where
  supply_eq : q.shares.supply = p.shares.supply + shares
  collateral_eq : q.collateral = p.collateral + collateral
  undiluted : Undiluted p q

theorem grown_nil (p : Pool) : Grown 0 0 p p := ⟨rfl, rfl, Nat.le_refl _⟩

theorem Grown.trans (h : Grown collateral shares p m) (h' : Grown further more m q)
    (hm : m.shares.supply ≠ 0) : Grown (collateral + further) (shares + more) p q where
  supply_eq := by rw [h'.supply_eq, h.supply_eq, Nat.add_assoc]
  collateral_eq := by rw [h'.collateral_eq, h.collateral_eq, Nat.add_assoc]
  undiluted := h.undiluted.trans h'.undiluted hm

/-- The shares that have come in are worth no more than the collateral. -/
theorem Grown.shares_le (h : Grown collateral shares p q) (hp : p.collateral ≠ 0) :
    shares ≤ collateral * p.shares.supply / p.collateral := by
  have hworth : p.collateral * q.shares.supply ≤ q.collateral * p.shares.supply := h.undiluted
  rw [h.supply_eq, h.collateral_eq, Nat.mul_add, Nat.add_mul] at hworth
  rw [Nat.le_div_iff_mul_le (Nat.pos_of_ne_zero hp), Nat.mul_comm shares]
  exact Nat.le_of_add_le_add_left hworth

theorem arrive_grown {a : Arrival} {receipt : EntryReceipt} (hp : p.shares.supply ≠ 0)
    (h : (arrive a).run p = .ok receipt q) :
    receipt.shares = a.collateral * p.shares.supply / p.collateral ∧
      Grown a.collateral receipt.shares p q := by
  have hbooks := enter_booked h
  exact ⟨(enter_priced h).2.2 hp, ⟨congrArg (·.totals.supply) hbooks,
    congrArg (·.totals.collateral) hbooks, enter_undiluted hp h⟩⟩

/-- By induction on the arrivals. The shares there were stay. -/
theorem arrivals_grown {coming : List Arrival} {receipts : List EntryReceipt}
    (hp : p.shares.supply ≠ 0) (h : (coming.mapM arrive).run p = .ok receipts q) :
    Grown (coming.map (·.collateral)).sum (receipts.map (·.shares)).sum p q := by
  induction coming generalizing p receipts with
  | nil =>
    cases h
    exact grown_nil _
  | cons a coming ih =>
    rw [List.mapM_cons] at h
    obtain ⟨receipt, m, hfirst, h⟩ := run_bind_eq_ok_iff.mp h
    obtain ⟨rest, _, hrest, hreturn⟩ := run_bind_eq_ok_iff.mp h
    cases hreturn
    obtain ⟨-, hcame⟩ := arrive_grown hp hfirst
    have hm : m.shares.supply ≠ 0 := by
      have hsupply := hcame.supply_eq
      omega
    exact hcame.trans (ih hm hrest) hm

/-! ## Pieces and the whole -/

/-- In any pool with shares and collateral: exits of any holders, of either kind, one after
the other, release no more collateral in total than one exit of as many shares would, which
is the part of the collateral that the shares are, rounded down; and entries get no more
shares in total than one entry of as much collateral would, which is the part of the supply
that the collateral is, rounded down. -/
theorem splitting_gains_nothing (hsupply : p.shares.supply ≠ 0) (hcollateral : p.collateral ≠ 0) :
    (∀ (leaving : List Departure) receipts q, (leaving.mapM depart).run p = .ok receipts q →
        (receipts.map (·.collateral)).sum
          ≤ (leaving.map (·.shares)).sum * p.collateral / p.shares.supply) ∧
      (∀ d receipt q, (depart d).run p = .ok receipt q →
        receipt.collateral = d.shares * p.collateral / p.shares.supply) ∧
      (∀ (coming : List Arrival) receipts q, (coming.mapM arrive).run p = .ok receipts q →
        (receipts.map (·.shares)).sum
          ≤ (coming.map (·.collateral)).sum * p.shares.supply / p.collateral) ∧
      ∀ a receipt q, (arrive a).run p = .ok receipt q →
        receipt.shares = a.collateral * p.shares.supply / p.collateral :=
  ⟨fun _ _ _ h => (departures_shrunk h).collateral_le hsupply,
    fun _ _ _ h => (depart_shrunk h).2.1,
    fun _ _ _ h => (arrivals_grown hsupply h).shares_le hcollateral,
    fun _ _ _ h => (arrive_grown hsupply h).1⟩

/-- The holder of all shares leaves with a hundred of them. -/
def hundredOut : Departure := ⟨rich, 100, ⟨0, ⟨1, 1⟩⟩, 1, false⟩

/-- Somebody enters with a hundred units. -/
def hundredIn : Arrival := ⟨poor, 100, none, 1⟩

/-- A thousand shares are worth 1007 units. Five exits of a hundred shares release 502 units,
the last two more than the first three, and one exit of all five hundred would release 503.
Five entries of a hundred units get 495 shares, and one of all five hundred would get 496. -/
theorem fifths_gain_nothing :
    let p := after freshPool [.enter rich 1000 none 0, .receiveCollateral 7]
    let exits := List.replicate 5 hundredOut
    let entries := List.replicate 5 hundredIn
    (∃ receipts, (exits.mapM depart).outcome p = .ok receipts ∧
        receipts.map (·.collateral) = [100, 100, 100, 101, 101] ∧
        (receipts.map (·.collateral)).sum ≤ 503) ∧
      ∃ receipts, (entries.mapM arrive).outcome p = .ok receipts ∧
        receipts.map (·.shares) = [99, 99, 99, 99, 99] ∧ (receipts.map (·.shares)).sum ≤ 496 := by
  intro p exits entries
  have hsupply : p.shares.supply ≠ 0 := by decide +kernel
  have hcollateral : p.collateral ≠ 0 := by decide +kernel
  have hreleased : (exits.map (·.shares)).sum * p.collateral / p.shares.supply = 503 := by
    decide +kernel
  have hminted : (entries.map (·.collateral)).sum * p.shares.supply / p.collateral = 496 := by
    decide +kernel
  have hleft : (exits.mapM depart).outcome p = .ok [⟨100, 100, 0, 0⟩, ⟨100, 100, 0, 0⟩,
      ⟨100, 100, 0, 0⟩, ⟨100, 101, 0, 0⟩, ⟨100, 101, 0, 0⟩] := by decide +kernel
  have hcame : (entries.mapM arrive).outcome p = .ok [⟨99, 0, 1⟩, ⟨99, 0, 1⟩, ⟨99, 0, 1⟩,
      ⟨99, 0, 1⟩, ⟨99, 0, 1⟩] := by decide +kernel
  obtain ⟨hexits, -, hentries, -⟩ := splitting_gains_nothing hsupply hcollateral
  exact ⟨⟨_, hleft, rfl, hreleased ▸ hexits _ _ _ (run_of_outcome hleft)⟩,
    ⟨_, hcame, rfl, hminted ▸ hentries _ _ _ (run_of_outcome hcame)⟩⟩

end PooledCollateral.Pool
