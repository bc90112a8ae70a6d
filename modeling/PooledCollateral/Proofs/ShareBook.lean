/-
PooledCollateral.Proofs.ShareBook — what minting, burning and sending shares do
to the share book.

A book is read through `accountOf`, which gives an empty account to those who
have none. A book is `Sound` when its supply is the sum of the balances, and an
amount. Each action is described twice: what it leaves when it succeeds
(`mint_ensures` and the like), and what holds whatever the outcome: only the
named holders are touched and a sound book stays sound (`mint_confined` and the
like), also where the action fails half-way.
-/
import PooledCollateral.ShareBook
import PooledCollateral.Proofs.Action
import PooledCollateral.Proofs.Sums

namespace PooledCollateral

open PooledCollateral.Action Function

/-! ## Accounts -/

namespace Account

theorem eq_empty_of_isEmpty {a : Account} (h : a.isEmpty = true) : a = empty := by
  obtain ⟨balance, ⟨locks⟩⟩ := a
  simp only [isEmpty, Bool.and_eq_true, decide_eq_true_eq, List.isEmpty_iff] at h
  obtain ⟨rfl, rfl⟩ := h
  rfl

/-- How a burn goes: the shares come off the balance, what that no longer covers of
the locked amount is released, and ended locks are dropped. -/
theorem burn_ok {a b : Account} {shares now : ℕ} (h : a.burn shares now = .ok b) :
    (b.balance = a.balance - shares ∧ shares ≤ a.balance) ∧
      ∃ locked released, a.locks.lockedAmount now = .ok locked ∧
        (if b.balance < locked then a.locks.consumeLocked now (locked - b.balance)
          else .ok a.locks) = .ok released ∧
        released.consumeExpired now shares = .ok b.locks := by
  simp only [burn, Checked.bind_eq_ok_iff, Amount.take_eq_ok_iff] at h
  obtain ⟨locked, hlocked, _, ⟨rfl, hle⟩, h⟩ := h
  split at h
  · rename_i hshort
    obtain ⟨released, hreleased, hb⟩ := Checked.bind_eq_ok_iff.mp h
    obtain ⟨_, hcleared, hreturn⟩ := Checked.bind_eq_ok_iff.mp hb
    cases hreturn
    exact ⟨⟨rfl, hle⟩, locked, released, hlocked, (if_pos hshort).trans hreleased, hcleared⟩
  · rename_i hcovered
    obtain ⟨released, hsame, hb⟩ := Checked.bind_eq_ok_iff.mp h
    obtain ⟨_, hcleared, hreturn⟩ := Checked.bind_eq_ok_iff.mp hb
    cases hreturn
    exact ⟨⟨rfl, hle⟩, locked, released, hlocked, (if_neg hcovered).trans hsame, hcleared⟩

theorem balance_burn {a b : Account} {shares now : ℕ} (h : a.burn shares now = .ok b) :
    b.balance = a.balance - shares ∧ shares ≤ a.balance := (burn_ok h).1

theorem balance_send {a b : Account} {shares now : ℕ} (h : a.send shares now = .ok b) :
    b.balance = a.balance - shares ∧ shares ≤ a.balance := by
  simp only [send, Checked.bind_eq_ok_iff, Amount.take_eq_ok_iff] at h
  obtain ⟨_, ⟨rfl, hle⟩, _, -, hb⟩ := h
  cases hb
  exact ⟨rfl, hle⟩

end Account

namespace ShareBook

/-- The account of a holder; an empty one if there is none. -/
def accountOf (book : ShareBook) (holder : Address) : Account :=
  (book.accounts.get? holder).getD Account.empty

theorem balanceOf_eq (book : ShareBook) (holder : Address) :
    book.balanceOf holder = (book.accountOf holder).balance := by
  unfold balanceOf accountOf
  cases book.accounts.get? holder <;> rfl

theorem locksOf_eq (book : ShareBook) (holder : Address) :
    book.locksOf holder = (book.accountOf holder).locks := by
  unfold locksOf accountOf
  cases book.accounts.get? holder <;> rfl

theorem accountOf_insert (book : ShareBook) (supply : ℕ) (holder : Address) (a : Account) :
    accountOf { supply, accounts := book.accounts.insert holder a }
      = update book.accountOf holder a := by
  funext other
  simp only [accountOf, Table.get?_insert, update_apply]
  split <;> rfl

/-- Closing an empty account reads like keeping it. -/
theorem accountOf_settle (book : ShareBook) (supply : ℕ) (holder : Address) (a : Account) :
    accountOf { supply, accounts := settle book.accounts holder a }
      = update book.accountOf holder a := by
  unfold settle
  split
  · rename_i hempty
    funext other
    simp only [accountOf, Table.get?_erase, update_apply, Account.eq_empty_of_isEmpty hempty]
    split <;> rfl
  · exact accountOf_insert book supply holder a

theorem totalBalance_eq_sum (book : ShareBook) :
    book.totalBalance = ∑ holder, (book.accountOf holder).balance := by
  unfold totalBalance accountOf
  rw [Table.sum_eq_sum]
  refine Finset.sum_congr rfl fun holder _ => ?_
  cases book.accounts.get? holder <;> rfl

/-- A new account puts its balance in place of the old one. -/
theorem totalBalance_of_update {book b : ShareBook} {holder : Address} {a : Account}
    (h : b.accountOf = update book.accountOf holder a) :
    b.totalBalance + (book.accountOf holder).balance = book.totalBalance + a.balance := by
  have hb : b.totalBalance
      = ∑ j, update (fun k => (book.accountOf k).balance) holder a.balance j := by
    rw [totalBalance_eq_sum, h]
    refine Finset.sum_congr rfl fun j _ => ?_
    by_cases hj : j = holder
    · subst hj; simp
    · simp [hj]
  have hold := Finset.add_sum_erase Finset.univ (fun k => (book.accountOf k).balance)
    (Finset.mem_univ holder)
  rw [hb, Finset.sum_update_of_mem (Finset.mem_univ holder), totalBalance_eq_sum book, ← hold,
    Finset.sdiff_singleton_eq_erase]
  omega

/-! ## Soundness -/

/-- The supply is the sum of all balances, and an amount. -/
structure Sound (book : ShareBook) : Prop where
  supply_eq : book.supply = book.totalBalance
  supply_le : book.supply ≤ Amount.max

theorem sound_empty : empty.Sound := ⟨rfl, Nat.zero_le _⟩

theorem Sound.balance_le {book : ShareBook} (h : book.Sound) (holder : Address) :
    (book.accountOf holder).balance ≤ book.supply := by
  rw [h.supply_eq, totalBalance_eq_sum]
  exact Finset.single_le_sum (f := fun k => (book.accountOf k).balance)
    (fun _ _ => Nat.zero_le _) (Finset.mem_univ holder)

/-- Nobody but `holders` is touched, and a sound book stays sound. -/
structure Confined (holders : List Address) (book b : ShareBook) : Prop where
  off : ∀ other, other ∉ holders → b.accountOf other = book.accountOf other
  sound : book.Sound → b.Sound

instance (holders : List Address) : IsPreorder ShareBook (Confined holders) where
  refl _ := ⟨fun _ _ => rfl, id⟩
  trans _ _ _ h h' :=
    ⟨fun other ho => (h'.off other ho).trans (h.off other ho), fun hs => h'.sound (h.sound hs)⟩

theorem off_of_update {book b : ShareBook} {holder : Address} {a : Account}
    (h : b.accountOf = update book.accountOf holder a) :
    ∀ other, other ∉ [holder] → b.accountOf other = book.accountOf other := by
  intro other ho
  rw [h, update_of_ne (by simpa using ho)]

/-! ## Minting -/

/-- The account of a holder who has got new shares under a lock. -/
def minted (a : Account) (shares unlockTime : ℕ) : Account :=
  { balance := a.balance + shares, locks := a.locks.push shares unlockTime }

theorem mint_ensures (book : ShareBook) (holder : Address) (shares unlockTime : ℕ) :
    (mint holder shares unlockTime).Ensures book
      (fun time b =>
        time = (book.accountOf holder).locks.unlockTimeFor unlockTime ∧
        b.supply = book.supply + shares ∧ book.supply + shares ≤ Amount.max ∧
        b.accountOf = update book.accountOf holder
          (minted (book.accountOf holder) shares unlockTime))
      (fun _ b => b.accountOf = book.accountOf ∧ b.supply = book.supply) := by
  have hopened :
      accountOf { book with accounts := book.accounts.insert holder (book.accountOf holder) }
        = book.accountOf := by
    rw [accountOf_insert, update_eq_self]
  unfold mint
  simp only [ensures_bind, ensures_get, ensures_set, ensures_lift, ensures_pure,
    Amount.add_eq_ok_iff]
  refine ⟨?_, fun _ _ => ⟨trivial, trivial⟩⟩
  intro _ hpost
  obtain ⟨rfl, hsupply⟩ := hpost
  refine ⟨?_, fun _ _ => ⟨hopened, trivial⟩⟩
  intro _ hpost
  obtain ⟨rfl, -⟩ := hpost
  exact ⟨rfl, rfl, hsupply, accountOf_insert book _ holder _⟩

theorem mint_confined (holder : Address) (shares unlockTime : ℕ) :
    Always (Confined [holder]) (mint holder shares unlockTime) := by
  intro book
  refine (mint_ensures book holder shares unlockTime).mono ?_ ?_
  · intro _ b hpost
    obtain ⟨-, hsupply, hle, haccounts⟩ := hpost
    refine ⟨off_of_update haccounts, fun hs => ⟨?_, by omega⟩⟩
    have htotal := totalBalance_of_update haccounts
    have hbook := hs.supply_eq
    simp only [minted] at htotal
    omega
  · intro _ b hpost
    obtain ⟨haccounts, hsupply⟩ := hpost
    have htotal : b.totalBalance = book.totalBalance := by
      rw [totalBalance_eq_sum, totalBalance_eq_sum, haccounts]
    refine ⟨fun other _ => congrFun haccounts other, fun hs => ⟨?_, hsupply ▸ hs.supply_le⟩⟩
    rw [hsupply, htotal, hs.supply_eq]

/-! ## Burning -/

/-- The account of a holder some of whose shares have been burned; a burn of
nothing leaves it alone. -/
def burned (a : Account) (shares now : ℕ) : Checked Account :=
  if shares = 0 then .ok a else a.burn shares now

theorem balance_burned {a b : Account} {shares now : ℕ} (h : burned a shares now = .ok b) :
    b.balance = a.balance - shares ∧ shares ≤ a.balance := by
  unfold burned at h
  split at h
  · rename_i hzero
    cases h
    simp [hzero]
  · exact Account.balance_burn h

/-- A burn takes off the shares and leaves the account that they leave; a sound
book that refuses is left as it is. -/
theorem burn_ensures (book : ShareBook) (holder : Address) (shares now : ℕ) :
    (burn holder shares now).Ensures book
      (fun _ b => shares ≤ book.supply ∧ b.supply = book.supply - shares ∧
        ∃ a, burned (book.accountOf holder) shares now = .ok a ∧
          b.accountOf = update book.accountOf holder a)
      (fun _ b => (∀ other, other ∉ [holder] → b.accountOf other = book.accountOf other) ∧
        (book.Sound → b = book)) := by
  unfold burn
  simp only [ensures_bind, ensures_get, ensures_set, ensures_lift, ensures_pure, ensures_ite,
    ensures_modify, Amount.take_eq_ok_iff, require_eq_ok_iff]
  refine ⟨fun _ _ => ⟨?_, fun hshares => ⟨fun a ha => ⟨?_, ?_⟩, fun _ _ => by simp⟩⟩,
    fun _ _ => by simp⟩
  · intro heq
    subst heq
    exact ⟨Nat.zero_le _, rfl, _, if_pos rfl, (update_eq_self holder book.accountOf).symm⟩
  · intro _ hpost
    obtain ⟨rfl, hle⟩ := hpost
    exact ⟨hle, rfl, a, (if_neg hshares).trans ha, accountOf_settle book _ holder a⟩
  · -- in a sound book the supply never falls short of a balance
    intro e he
    refine ⟨off_of_update (accountOf_settle book _ holder a), ?_⟩
    intro hs
    have hle : shares ≤ book.supply := (Account.balance_burn ha).2.trans (hs.balance_le holder)
    simp [Amount.take, hle] at he

theorem burn_confined (holder : Address) (shares now : ℕ) :
    Always (Confined [holder]) (burn holder shares now) := by
  intro book
  refine (burn_ensures book holder shares now).mono ?_ ?_
  · intro _ b hpost
    obtain ⟨hle, hsupply, a, ha, haccounts⟩ := hpost
    obtain ⟨hbalance, hshares⟩ := balance_burned ha
    refine ⟨off_of_update haccounts, fun hs => ⟨?_, ?_⟩⟩
    · have htotal := totalBalance_of_update haccounts
      have hbook := hs.supply_eq
      omega
    · have hbook := hs.supply_le
      omega
  · intro _ b hpost
    obtain ⟨hoff, hkept⟩ := hpost
    exact ⟨hoff, fun hs => hkept hs ▸ hs⟩

/-! ## Sending -/

/-- A transfer of nothing, or to oneself, changes nothing. Any other moves the
shares; the receiver keeps its locks. -/
theorem transfer_ensures (book : ShareBook) (sender receiver : Address) (amount : ℕ)
    (restriction : Restriction) (now : ℕ) :
    (transfer sender receiver amount restriction now).Ensures book
      (fun _ b => amount ≤ restriction.transferable (book.balanceOf sender) ∧
        (((amount = 0 ∨ sender = receiver) ∧ b = book) ∨
          (amount ≠ 0 ∧ sender ≠ receiver ∧ b.supply = book.supply ∧
            ∃ a, (book.accountOf sender).send amount now = .ok a ∧
              b.accountOf = update (update book.accountOf sender a) receiver
                { balance := (book.accountOf receiver).balance + amount,
                  locks := (book.accountOf receiver).locks })))
      (fun _ b => b = book) := by
  unfold transfer
  simp only [ensures_bind, ensures_get, ensures_set, ensures_lift, ensures_pure, ensures_ite,
    Amount.add_eq_ok_iff, Restriction.authorizeTransfer, require_eq_ok_iff]
  refine ⟨fun _ hallowed => ⟨fun hnone => ⟨hallowed, Or.inl ⟨hnone, trivial⟩⟩, fun hsome =>
    ⟨?_, fun _ _ => trivial⟩⟩, fun _ _ => trivial⟩
  intro _ hpost
  obtain ⟨rfl, -⟩ := hpost
  refine ⟨fun a ha => ⟨hallowed, Or.inr ?_⟩, fun _ _ => trivial⟩
  obtain ⟨hamount, hdiff⟩ := not_or.mp hsome
  have hsent := accountOf_settle book book.supply sender a
  refine ⟨hamount, hdiff, trivial, a, ha, ?_⟩
  rw [accountOf_insert { book with accounts := settle book.accounts sender a }, hsent,
    balanceOf_eq, locksOf_eq]

theorem transfer_confined (sender receiver : Address) (amount : ℕ) (restriction : Restriction)
    (now : ℕ) :
    Always (Confined [sender, receiver]) (transfer sender receiver amount restriction now) := by
  intro book
  refine (transfer_ensures book sender receiver amount restriction now).mono ?_ ?_
  · intro _ b hpost
    obtain ⟨-, ⟨-, rfl⟩ | ⟨-, hdiff, hsupply, a, ha, haccounts⟩⟩ := hpost
    · exact refl_of (Confined _) b
    · obtain ⟨hbalance, hamount⟩ := Account.balance_send ha
      refine ⟨fun other ho => ?_, fun hs => ⟨?_, hsupply ▸ hs.supply_le⟩⟩
      · obtain ⟨hsender, hreceiver⟩ := not_or.mp (by simpa using ho)
        rw [haccounts, update_of_ne hreceiver, update_of_ne hsender]
      · -- the book half-way, with the sender debited and the receiver not yet credited
        let sent : ShareBook := { book with accounts := settle book.accounts sender a }
        have hsent : sent.accountOf = update book.accountOf sender a :=
          accountOf_settle book book.supply sender a
        have hdebit := totalBalance_of_update hsent
        have hcredit : b.totalBalance + (sent.accountOf receiver).balance
            = sent.totalBalance + ((book.accountOf receiver).balance + amount) :=
          totalBalance_of_update (hsent ▸ haccounts)
        have hreceiver : sent.accountOf receiver = book.accountOf receiver := by
          rw [hsent, update_of_ne hdiff.symm]
        have hbook := hs.supply_eq
        rw [hreceiver] at hcredit
        omega
  · intro _ b heq
    subst heq
    exact refl_of (Confined _) b

/-! ## Clearing locks -/

theorem accountOf_cleanup (book : ShareBook) (holder : Address) (now limit : ℕ) :
    (book.cleanup holder now limit).accountOf = update book.accountOf holder
      { book.accountOf holder with locks := (book.accountOf holder).locks.cleanup now limit } := by
  unfold cleanup
  cases haccount : book.accounts.get? holder with
  | none =>
    have hempty : book.accountOf holder = Account.empty := by simp [accountOf, haccount]
    have hclean : ({ Account.empty with locks := Account.empty.locks.cleanup now limit } : Account)
        = Account.empty := by
      cases limit <;> rfl
    rw [hempty, hclean, ← hempty, update_eq_self]
  | some a =>
    have ha : book.accountOf holder = a := by simp [accountOf, haccount]
    simp only [ha]
    exact accountOf_insert book book.supply holder _

theorem supply_cleanup (book : ShareBook) (holder : Address) (now limit : ℕ) :
    (book.cleanup holder now limit).supply = book.supply := by
  unfold cleanup
  cases book.accounts.get? holder <;> rfl

theorem cleanup_confined (book : ShareBook) (holder : Address) (now limit : ℕ) :
    Confined [holder] book (book.cleanup holder now limit) := by
  have haccounts := accountOf_cleanup book holder now limit
  refine ⟨off_of_update haccounts, fun hs => ⟨?_, ?_⟩⟩
  · have htotal := totalBalance_of_update haccounts
    have hbook := hs.supply_eq
    rw [supply_cleanup]
    simp only at htotal
    omega
  · rw [supply_cleanup]
    exact hs.supply_le

end ShareBook

end PooledCollateral
