/-
PooledCollateral.Proofs.FeeBook — what charging, reducing, seizing and settling
do to the fee book.

A book is `Sound` when its two totals are the sums of its rows, and amounts.
As for the share book, each action is described by what it leaves when it
succeeds (`charge_ensures` and the like) and by what holds whatever the outcome
(`charge_confined` and the like).
-/
import PooledCollateral.FeeBook
import PooledCollateral.Proofs.Action
import PooledCollateral.Proofs.Sums

namespace PooledCollateral

open PooledCollateral.Action Function

/-- Setting what is already there changes nothing. -/
theorem Amounts.set_get (a : Amounts) (k : Address) : a.set k (a.get k) = a :=
  ext_get fun j => by
    rw [get_set]
    split
    · rename_i h; rw [h]
    · rfl

namespace FeeBook

/-! ## Soundness -/

/-- The totals are the sums of the rows, and amounts. -/
structure Sound (book : FeeBook) : Prop where
  debt_eq : book.totalDebt = book.debts.total
  credit_eq : book.totalCredit = book.credits.total
  debt_le : book.totalDebt ≤ Amount.max
  credit_le : book.totalCredit ≤ Amount.max

theorem sound_empty : empty.Sound := ⟨rfl, rfl, Nat.zero_le _, Nat.zero_le _⟩

/-- Nobody but `holders` is touched, and a sound book stays sound. -/
structure Confined (holders : List Address) (book b : FeeBook) : Prop where
  debts : ∀ other, other ∉ holders → b.debts.get other = book.debts.get other
  credits : ∀ other, other ∉ holders → b.credits.get other = book.credits.get other
  sound : book.Sound → b.Sound

instance (holders : List Address) : IsPreorder FeeBook (Confined holders) where
  refl _ := ⟨fun _ _ => rfl, fun _ _ => rfl, id⟩
  trans _ _ _ h h' :=
    ⟨fun other ho => (h'.debts other ho).trans (h.debts other ho),
      fun other ho => (h'.credits other ho).trans (h.credits other ho),
      fun hs => h'.sound (h.sound hs)⟩

/-- The book with another debt of one holder, and a total that fits it. -/
theorem confined_debts {book : FeeBook} {holder : Address} {total n : ℕ}
    (htotal : total + book.debts.get holder = book.totalDebt + n) (hle : total ≤ Amount.max) :
    Confined [holder] book
      { book with totalDebt := total, debts := book.debts.set holder n } where
  debts other ho := Amounts.get_set_of_ne _ _ (by simpa using ho)
  credits _ _ := rfl
  sound hs := by
    have hset := Amounts.total_set book.debts holder n
    have hdebt := hs.debt_eq
    exact ⟨by simp only; omega, hs.credit_eq, hle, hs.credit_le⟩

/-- The book with another credit of one holder, and a total that fits it. -/
theorem confined_credits {book : FeeBook} {holder : Address} {total n : ℕ}
    (htotal : total + book.credits.get holder = book.totalCredit + n) (hle : total ≤ Amount.max) :
    Confined [holder] book
      { book with totalCredit := total, credits := book.credits.set holder n } where
  debts _ _ := rfl
  credits other ho := Amounts.get_set_of_ne _ _ (by simpa using ho)
  sound hs := by
    have hset := Amounts.total_set book.credits holder n
    have hcredit := hs.credit_eq
    exact ⟨hs.debt_eq, by simp only; omega, hs.debt_le, hle⟩

/-! ## Charging -/

/-- The book after debt has been added to a holder. -/
def charged (book : FeeBook) (holder : Address) (amount : ℕ) : FeeBook :=
  { book with
    totalDebt := book.totalDebt + amount
    debts := book.debts.set holder (book.debts.get holder + amount) }

theorem charge_ensures (book : FeeBook) (holder : Address) (amount : ℕ) :
    (charge holder amount).Ensures book
      (fun _ b => b = book.charged holder amount ∧
        (amount = 0 ∨ book.totalDebt + amount ≤ Amount.max))
      (fun _ b => b = book) := by
  unfold charge
  simp only [ensures_bind, ensures_get, ensures_set, ensures_lift, ensures_pure, ensures_ite,
    Amount.add_eq_ok_iff]
  refine ⟨?_, fun hamount => ⟨?_, fun _ _ => trivial⟩⟩
  · intro heq
    subst heq
    simp [charged, Amounts.set_get]
  · intro _ hpost
    obtain ⟨rfl, hle⟩ := hpost
    exact ⟨fun _ ⟨h, _⟩ => ⟨h ▸ rfl, Or.inr hle⟩, fun _ _ => trivial⟩

/-- Debt that fits is added. -/
theorem charge_run {book : FeeBook} {holder : Address} {amount : ℕ}
    (htotal : book.totalDebt + amount ≤ Amount.max)
    (hdebt : book.debts.get holder + amount ≤ Amount.max) :
    (charge holder amount).run book = .ok () (book.charged holder amount) := by
  unfold charge
  by_cases hnone : amount = 0
  · simp [hnone, charged, Amounts.set_get]
  · simp [hnone, charged, Amount.add_eq_ok_iff.mpr ⟨rfl, htotal⟩,
      Amount.add_eq_ok_iff.mpr ⟨rfl, hdebt⟩]

theorem charge_confined (holder : Address) (amount : ℕ) :
    Always (Confined [holder]) (charge holder amount) := by
  intro book
  refine (charge_ensures book holder amount).mono ?_ ?_
  · intro _ b hpost
    obtain ⟨rfl, rfl | hle⟩ := hpost
    · simp only [charged, Nat.add_zero, Amounts.set_get]
      exact refl_of (Confined [holder]) book
    · exact confined_debts (by omega) hle
  · intro _ b heq
    subst heq
    exact refl_of (Confined [holder]) b

/-! ## Reducing -/

/-- The book after debt has been taken off a holder. -/
def reduced (book : FeeBook) (holder : Address) (amount : ℕ) : FeeBook :=
  { book with
    totalDebt := book.totalDebt - amount
    debts := book.debts.set holder (book.debts.get holder - amount) }

theorem reduce_ensures (book : FeeBook) (holder : Address) (amount : ℕ) :
    (reduce holder amount).Ensures book
      (fun _ b => b = book.reduced holder amount ∧ amount ≤ book.debts.get holder ∧
        amount ≤ book.totalDebt)
      (fun _ b => b = book) := by
  unfold reduce
  simp only [ensures_bind, ensures_get, ensures_set, ensures_lift, ensures_pure, ensures_ite,
    Amount.sub_eq_ok_iff, Amount.take_eq_ok_iff, require_eq_ok_iff]
  refine ⟨fun _ hdebt => ⟨?_, fun _ => ⟨?_, fun _ _ => trivial⟩⟩, fun _ _ => trivial⟩
  · intro heq
    subst heq
    simp [reduced, Amounts.set_get]
  · intro _ hpost
    obtain ⟨rfl, hle⟩ := hpost
    exact ⟨fun _ ⟨h, _⟩ => ⟨h ▸ rfl, hdebt, hle⟩, fun _ _ => trivial⟩

theorem confined_reduced {book : FeeBook} {holder : Address} {amount : ℕ}
    (hdebt : amount ≤ book.debts.get holder) (hle : amount ≤ book.totalDebt) :
    Confined [holder] book (book.reduced holder amount) where
  debts other ho := Amounts.get_set_of_ne _ _ (by simpa using ho)
  credits _ _ := rfl
  sound hs :=
    (confined_debts (by omega) (by have := hs.debt_le; omega)).sound hs

theorem reduce_confined (holder : Address) (amount : ℕ) :
    Always (Confined [holder]) (reduce holder amount) := by
  intro book
  refine (reduce_ensures book holder amount).mono ?_ ?_
  · intro _ b hpost
    obtain ⟨rfl, hdebt, hle⟩ := hpost
    exact confined_reduced hdebt hle
  · intro _ b heq
    subst heq
    exact refl_of (Confined [holder]) b

/-! ## Seizing -/

/-- The book after credit has been added to a holder. -/
def credited (book : FeeBook) (holder : Address) (amount : ℕ) : FeeBook :=
  { book with
    totalCredit := book.totalCredit + amount
    credits := book.credits.set holder (book.credits.get holder + amount) }

theorem seize_ensures (book : FeeBook) (holder : Address) (reserve shares supply : ℕ) :
    (seize holder reserve shares supply).Ensures book
      (fun slice b => book.slice reserve shares supply = .ok slice ∧
        b = book.credited holder slice ∧
        (slice = 0 ∨ book.totalCredit + slice ≤ Amount.max))
      (fun _ b => b = book) := by
  unfold seize
  simp only [ensures_bind, ensures_get, ensures_set, ensures_lift, ensures_pure, ensures_ite,
    Amount.add_eq_ok_iff]
  refine ⟨fun slice hslice => ⟨?_, fun _ => ⟨?_, fun _ _ => trivial⟩⟩, fun _ _ => trivial⟩
  · intro heq
    subst heq
    simp [credited, Amounts.set_get, hslice]
  · intro _ hpost
    obtain ⟨rfl, hle⟩ := hpost
    exact ⟨fun _ ⟨h, _⟩ => ⟨hslice, h ▸ rfl, Or.inr hle⟩, fun _ _ => trivial⟩

theorem seize_confined (holder : Address) (reserve shares supply : ℕ) :
    Always (Confined [holder]) (seize holder reserve shares supply) := by
  intro book
  refine (seize_ensures book holder reserve shares supply).mono ?_ ?_
  · intro slice b hpost
    obtain ⟨-, rfl, rfl | hle⟩ := hpost
    · simp only [credited, Nat.add_zero, Amounts.set_get]
      exact refl_of (Confined [holder]) book
    · exact confined_credits (by omega) hle
  · intro _ b heq
    subst heq
    exact refl_of (Confined [holder]) b

/-! ## Settling -/

/-- The book after the debt and the credit of leaving shares have gone. -/
def settled (book : FeeBook) (holder : Address) (s : Settlement) : FeeBook :=
  { totalDebt := book.totalDebt - s.debt
    totalCredit := book.totalCredit - s.credit
    debts := book.debts.set holder (book.debts.get holder - s.debt)
    credits := book.credits.set holder (book.credits.get holder - s.credit) }

theorem settle_ensures (book : FeeBook) (holder : Address) (s : Settlement) :
    (settle holder s).Ensures book
      (fun _ b => b = book.settled holder s ∧ s.debt ≤ book.debts.get holder ∧
        s.debt ≤ book.totalDebt ∧ s.credit ≤ book.credits.get holder ∧
        s.credit ≤ book.totalCredit)
      (fun _ b => Confined [holder] book b) := by
  unfold settle
  simp only [ensures_bind, ensures_get, ensures_lift, require_eq_ok_iff]
  refine ⟨fun _ hcredit => ?_, fun _ _ => refl_of (Confined [holder]) book⟩
  refine (reduce_ensures book holder s.debt).mono ?_ ?_
  · intro _ b hpost
    obtain ⟨rfl, hdebt, hle⟩ := hpost
    have hhalf := confined_reduced hdebt hle
    simp only [ensures_set, Amount.sub_eq_ok_iff, Amount.take_eq_ok_iff]
    refine ⟨?_, fun _ _ => hhalf⟩
    intro _ hpost
    obtain ⟨rfl, htotal⟩ := hpost
    refine ⟨?_, fun _ _ => hhalf⟩
    intro _ hpost
    obtain ⟨rfl, -⟩ := hpost
    exact ⟨rfl, hdebt, hle, hcredit, htotal⟩
  · intro _ b heq
    subst heq
    exact refl_of (Confined [holder]) b

theorem settle_confined (holder : Address) (s : Settlement) :
    Always (Confined [holder]) (settle holder s) := by
  intro book
  refine (settle_ensures book holder s).mono ?_ fun _ _ h => h
  intro _ b hpost
  obtain ⟨rfl, hdebt, hdebtTotal, hcredit, hcreditTotal⟩ := hpost
  refine ⟨fun other ho => Amounts.get_set_of_ne _ _ (by simpa using ho),
    fun other ho => Amounts.get_set_of_ne _ _ (by simpa using ho), fun hs => ?_⟩
  have hdebts := Amounts.total_set book.debts holder (book.debts.get holder - s.debt)
  have hcredits := Amounts.total_set book.credits holder (book.credits.get holder - s.credit)
  obtain ⟨hdebtEq, hcreditEq, hdebtLe, hcreditLe⟩ := hs
  exact ⟨by simp only [settled]; omega, by simp only [settled]; omega,
    by simp only [settled]; omega, by simp only [settled]; omega⟩

end FeeBook

end PooledCollateral
