/-
PooledCollateral.Proofs.HollowAccounts — accounts that are open and have nothing
in them.

An address is `Vacant` in a share book when it has neither shares nor locks there,
and `Hollow` when it has an account all the same. Minting, burning and sending
leave no hollow account behind but those that they have found and left alone: a
book that `Closes` what it empties. Clearing locks does not: it makes an account
hollow whenever the last lock goes off an account without shares
(`hollow_cleanup`).
-/
import PooledCollateral.Proofs.ShareBook

namespace PooledCollateral.ShareBook

open PooledCollateral.Action Function

variable {book b : ShareBook} {holder k : Address} {a : Account}

/-- The address has neither shares nor locks. -/
def Vacant (book : ShareBook) (k : Address) : Prop := book.accountOf k = Account.empty

/-- The address has an account with neither shares nor locks in it. -/
def Hollow (book : ShareBook) (k : Address) : Prop :=
  book.accounts.get? k = some Account.empty

/-- The hollow accounts are those of before that still have nothing in them. -/
def Closes (book b : ShareBook) : Prop := ∀ k, b.Hollow k ↔ b.Vacant k ∧ book.Hollow k

theorem Hollow.vacant (h : book.Hollow k) : book.Vacant k := by
  unfold Vacant accountOf
  rw [h]
  rfl

theorem not_vacant_of_balance (h : book.balanceOf k ≠ 0) : ¬ book.Vacant k := by
  intro hvacant
  rw [balanceOf_eq, hvacant] at h
  exact h rfl

theorem not_hollow_empty (k : Address) : ¬ empty.Hollow k := by
  intro h
  cases h

theorem closes_refl (book : ShareBook) : book.Closes book := fun _ =>
  ⟨fun h => ⟨h.vacant, h⟩, fun h => h.2⟩

/-- Only the accounts matter. -/
theorem Closes.congr {c : ShareBook} (h : book.Closes b) (haccounts : c.accounts = b.accounts) :
    book.Closes c := by
  unfold Closes Hollow Vacant accountOf at *
  rwa [haccounts]

/-! ## Replacing an account -/

/-- Settling never leaves the account hollow. -/
theorem get?_settle_ne (accounts : Table Account) (holder : Address) (a : Account) :
    (settle accounts holder a).get? holder ≠ some Account.empty := by
  unfold settle
  split
  · simp
  · rename_i hlive
    simp only [Table.get?_insert_self, ne_eq, Option.some.injEq]
    rintro rfl
    exact hlive rfl

theorem get?_settle_of_ne (accounts : Table Account) (a : Account) (h : k ≠ holder) :
    (settle accounts holder a).get? k = accounts.get? k := by
  unfold settle
  split
  · exact Table.get?_erase_of_ne accounts h
  · exact Table.get?_insert_of_ne accounts a h

/-- An account that was not vacant may be settled. -/
theorem closes_settle (hholder : ¬ book.Vacant holder) (a : Account) :
    book.Closes { book with accounts := settle book.accounts holder a } := by
  intro k
  by_cases hk : k = holder
  · subst hk
    exact iff_of_false (get?_settle_ne _ _ _) fun h => hholder h.2.vacant
  · have hsame := get?_settle_of_ne book.accounts a hk
    unfold Hollow Vacant accountOf
    rw [hsame]
    exact closes_refl book k

/-- An account with something in it may be put in. -/
theorem Closes.insert (h : book.Closes b) (ha : a ≠ Account.empty) (holder : Address) :
    book.Closes { b with accounts := b.accounts.insert holder a } := by
  intro k
  by_cases hk : k = holder
  · subst hk
    have hnot : ¬ Vacant { b with accounts := b.accounts.insert k a } k := by
      simpa [Vacant, accountOf] using ha
    exact iff_of_false (fun hhollow => hnot hhollow.vacant) fun hboth => hnot hboth.1
  · have hsame := Table.get?_insert_of_ne b.accounts a hk
    unfold Hollow Vacant accountOf
    rw [hsame]
    exact h k

/-! ## Actions -/

theorem minted_ne_empty (a : Account) (shares unlockTime : ℕ) :
    minted a shares unlockTime ≠ Account.empty := by
  simp [minted, LockQueue.push, Account.empty, LockQueue.empty]

/-- In a sound book a balance grows as far as the supply does, so minting does not
fail once it has opened the account. -/
theorem mint_closes (hs : book.Sound) (holder : Address) (shares unlockTime : ℕ) :
    (mint holder shares unlockTime).Ensures book (fun _ b => book.Closes b)
      (fun _ b => book.Closes b) := by
  unfold mint
  simp only [ensures_bind, ensures_get, ensures_set, ensures_lift, ensures_pure,
    Amount.add_eq_ok_iff]
  refine ⟨?_, fun _ _ => closes_refl book⟩
  rintro _ ⟨rfl, hsupply⟩
  refine ⟨?_, fun e he => ?_⟩
  · rintro _ ⟨rfl, -⟩
    exact (closes_refl book).insert (minted_ne_empty _ shares unlockTime) holder
  · have hbalance : (book.accountOf holder).balance + shares ≤ Amount.max :=
      le_trans (Nat.add_le_add_right (hs.balance_le holder) shares) hsupply
    have hadd := Amount.add_eq_ok_iff.mpr ⟨rfl, hbalance⟩
    unfold accountOf at hadd
    rw [hadd] at he
    cases he

theorem burn_closes (book : ShareBook) (holder : Address) (shares now : ℕ) :
    (burn holder shares now).Ensures book (fun _ b => book.Closes b) (fun _ b => book.Closes b) := by
  unfold burn
  simp only [ensures_bind, ensures_get, ensures_set, ensures_lift, ensures_pure, ensures_ite,
    ensures_modify, require_eq_ok_iff]
  refine ⟨fun _ hle => ⟨fun _ => closes_refl book, fun hshares => ⟨fun a _ => ?_, ?_⟩⟩, ?_⟩
  · have hbalance : book.balanceOf holder ≠ 0 := by omega
    have hsettled := closes_settle (not_vacant_of_balance hbalance) a
    exact ⟨fun _ _ => hsettled.congr rfl, fun _ _ => hsettled⟩
  · exact fun _ _ => closes_refl book
  · exact fun _ _ => closes_refl book

theorem transfer_closes (book : ShareBook) (sender receiver : Address) (amount : ℕ)
    (restriction : Restriction) (now : ℕ) :
    (transfer sender receiver amount restriction now).Ensures book (fun _ b => book.Closes b)
      (fun _ b => book.Closes b) := by
  unfold transfer
  simp only [ensures_bind, ensures_get, ensures_set, ensures_lift, ensures_pure, ensures_ite,
    Amount.add_eq_ok_iff, Restriction.authorizeTransfer, require_eq_ok_iff]
  refine ⟨fun _ hallowed => ⟨fun _ => closes_refl book, fun hsome => ⟨?_, ?_⟩⟩, ?_⟩
  · rintro _ ⟨rfl, -⟩
    refine ⟨fun a _ => ?_, fun _ _ => closes_refl book⟩
    have hamount : amount ≠ 0 := fun hzero => hsome (Or.inl hzero)
    have hbalance : book.balanceOf sender ≠ 0 := fun hzero => by
      rw [hzero] at hallowed
      exact hamount (by simpa [Restriction.transferable] using hallowed)
    have hsettled := closes_settle (not_vacant_of_balance hbalance) a
    refine hsettled.insert (fun hempty => hamount ?_) receiver
    have hbalance : book.balanceOf receiver + amount = 0 := congrArg Account.balance hempty
    omega
  · exact fun _ _ => closes_refl book
  · exact fun _ _ => closes_refl book

/-- A clearing of locks makes the account of its holder hollow if it leaves nothing
where there was something. -/
theorem hollow_cleanup (book : ShareBook) (holder : Address) (now limit : ℕ) (k : Address) :
    (book.cleanup holder now limit).Hollow k ↔
      (book.cleanup holder now limit).Vacant k ∧
        (book.Hollow k ∨ (k = holder ∧ ¬ book.Vacant k)) := by
  unfold cleanup
  cases haccount : book.accounts.get? holder with
  | none =>
    have hholder : k = holder → book.Vacant k := by
      rintro rfl
      simp [Vacant, accountOf, haccount]
    refine ⟨fun h => ⟨h.vacant, Or.inl h⟩, fun h => ?_⟩
    rcases h.2 with hhollow | ⟨hk, hnot⟩
    · exact hhollow
    · exact absurd (hholder hk) hnot
  | some a =>
    by_cases hk : k = holder
    · subst hk
      simp [Hollow, Vacant, accountOf, haccount, em]
    · simp only [Hollow, Vacant, accountOf, Table.get?_insert_of_ne _ _ hk, hk, false_and, or_false]
      exact closes_refl book k

end PooledCollateral.ShareBook
