/-
PooledCollateral.Proofs.TokenTransfers — what sending tokens leaves of any book.

Tokens are sent by their owner, or on its approval by a spender. A send that succeeds
moves its amount and uses up as much of the one approval (`send_ok`). One that fails
changes nothing, except where the receiver would come to hold more than the largest
amount: then the sender has been debited already, and its tokens are gone
(`send_exact`). No book is in danger of that before more tokens than the largest
amount have been made (`total_after_le`).
-/
import PooledCollateral.Proofs.TokenBook

namespace PooledCollateral.TokenBook

open PooledCollateral.Action

variable {book b : TokenBook} {spender : Option Address} {sender receiver : Address}
  {amount : ℕ}

/-! ## Calls -/

/-- Sends an owner's tokens, on its approval if a spender does so. -/
def send (spender : Option Address) (sender receiver : Address) (amount : ℕ) :
    Action TokenBook Unit :=
  match spender with
  | none => transfer sender receiver amount
  | some spender => transferFrom spender sender receiver amount

/-- What a token is asked to do. -/
inductive Call
  | mint (account : Address) (amount : ℕ)
  | approve (owner spender : Address) (amount : ℕ)
  | send (spender : Option Address) (sender receiver : Address) (amount : ℕ)

/-- Does what it is asked. -/
def perform : Call → Action TokenBook Unit
  | .mint account amount => modify (·.mint account amount)
  | .approve owner spender amount => modify (·.approve owner spender amount)
  | .send spender sender receiver amount => send spender sender receiver amount

/-- The book that calls lead to, whether or not they succeed. -/
def after (book : TokenBook) (calls : List Call) : TokenBook :=
  calls.foldl (fun b call => (perform call).stateAfter b) book

/-- The tokens that calls make. -/
def made (calls : List Call) : ℕ :=
  (calls.map fun | .mint _ amount => amount | _ => 0).sum

/-! ## Sends -/

/-- The spender, if there is one, may move so much of the owner's tokens. -/
def Approves (book : TokenBook) (spender : Option Address) (owner : Address) (amount : ℕ) : Prop :=
  ∀ s ∈ spender, amount ≤ book.allowance owner s

/-- The book after a send: the tokens are moved, and the approval used up. -/
def sent (book : TokenBook) (spender : Option Address) (sender receiver : Address) (amount : ℕ) :
    TokenBook :=
  match spender with
  | none => book.moved sender receiver amount
  | some spender =>
    (book.moved sender receiver amount).approve sender spender
      (book.allowance sender spender - amount)

/-- The tokens and the approval are there, but the receiver would hold more than the
largest amount. -/
def Loses (book : TokenBook) (spender : Option Address) (sender receiver : Address)
    (amount : ℕ) : Prop :=
  book.Approves spender sender amount ∧ book.Overflows sender receiver amount

/-- What a transfer that fails leaves, once it has been approved of. -/
theorem kept_or_lost {e : Failure} (happroves : book.Approves spender sender amount)
    (h : (book.balanceOf sender < amount ∧ b = book) ∨
      (book.Overflows sender receiver amount ∧ e = .rejected .overflow ∧
        b = book.debited sender amount)) :
    (¬ book.Loses spender sender receiver amount ∧ b = book) ∨
      (book.Loses spender sender receiver amount ∧ e = .rejected .overflow ∧
        b = book.debited sender amount) := by
  refine h.imp (fun hshort => ⟨fun hloses => ?_, hshort.2⟩) fun hover =>
    ⟨⟨happroves, hover.1⟩, hover.2⟩
  exact Nat.not_le_of_lt hshort.1 hloses.2.available

/-- A send moves its tokens, changes nothing, or loses them. -/
theorem send_exact (book : TokenBook) (spender : Option Address) (sender receiver : Address)
    (amount : ℕ) :
    (send spender sender receiver amount).Ensures book
      (fun _ b => book.Approves spender sender amount ∧ amount ≤ book.balanceOf sender ∧
        b = book.sent spender sender receiver amount)
      (fun e b => (¬ book.Loses spender sender receiver amount ∧ b = book) ∨
        (book.Loses spender sender receiver amount ∧ e = .rejected .overflow ∧
          b = book.debited sender amount)) := by
  have hmove := transfer_exact book sender receiver amount
  cases spender with
  | none =>
    have happroves : book.Approves none sender amount := by simp [Approves]
    exact hmove.mono (fun _ _ h => ⟨happroves, h.1, h.2.2⟩) fun _ _ => kept_or_lost happroves
  | some spender =>
    unfold send transferFrom
    simp only [ensures_bind, ensures_get, ensures_lift, require_eq_ok_iff, ensures_modify]
    refine ⟨fun _ hallowed => ?_, fun e he => Or.inl ⟨fun hloses => ?_, trivial⟩⟩
    · have happroves : book.Approves (some spender) sender amount := by
        simpa [Approves] using hallowed
      refine hmove.mono (fun _ b h => ⟨happroves, h.1, ?_⟩) fun _ _ => kept_or_lost happroves
      rw [h.2.2]
      rfl
    · rw [require, if_pos (hloses.1 spender rfl)] at he
      cases he

/-- What everybody holds after tokens have been moved. -/
theorem balanceOf_moved (h : amount ≤ book.balanceOf sender) (account : Address) :
    (book.moved sender receiver amount).balanceOf account
        + (if account = sender then amount else 0)
      = book.balanceOf account + if account = receiver then amount else 0 := by
  by_cases hdiff : sender = receiver
  · rw [moved_of_none (Or.inr hdiff), hdiff]
  · rw [balanceOf_moved_of_ne book amount hdiff]
    by_cases hreceiver : account = receiver
    · have hsender : account ≠ sender := fun heq => hdiff (heq.symm.trans hreceiver)
      simp [hreceiver, Ne.symm hdiff]
    · by_cases hsender : account = sender
      · subst hsender
        simp [hreceiver, h]
      · simp [hreceiver, hsender]

theorem total_sent (h : amount ≤ book.balanceOf sender) :
    (book.sent spender sender receiver amount).total = book.total := by
  cases spender <;> exact total_moved h

theorem allowance_moved (book : TokenBook) (sender receiver : Address) (amount : ℕ) :
    (book.moved sender receiver amount).allowance = book.allowance := by
  unfold moved
  split <;> rfl

/-- A send that succeeds moves its amount, keeps all tokens together, and takes the
amount off the one allowance that it has drawn on. -/
theorem send_ok (h : (send spender sender receiver amount).run book = .ok () b) :
    (∀ account, b.balanceOf account + (if account = sender then amount else 0)
        = book.balanceOf account + if account = receiver then amount else 0) ∧
      b.total = book.total ∧
      ∀ owner s, b.allowance owner s + (if owner = sender ∧ s ∈ spender then amount else 0)
        = book.allowance owner s := by
  obtain ⟨happroves, hle, rfl⟩ := (send_exact book spender sender receiver amount).of_ok h
  cases spender with
  | none =>
    refine ⟨balanceOf_moved hle, total_moved hle, fun owner s => ?_⟩
    simp [sent, allowance_moved]
  | some spender =>
    refine ⟨balanceOf_moved hle, total_moved hle, fun owner s => ?_⟩
    have hallowed : amount ≤ book.allowance sender spender := happroves spender rfl
    rw [sent, allowance_approve, allowance_moved]
    by_cases hused : owner = sender ∧ s = spender
    · simp [hused, hallowed]
    · have hother : ¬ (owner = sender ∧ s ∈ some spender) := by
        rintro ⟨howner, hs⟩
        exact hused ⟨howner, (Option.mem_some.mp hs).symm⟩
      rw [if_neg hused, if_neg hother, Nat.add_zero]

theorem balanceOf_debited (h : amount ≤ book.balanceOf sender) (account : Address) :
    (book.debited sender amount).balanceOf account + (if account = sender then amount else 0)
      = book.balanceOf account := by
  unfold debited balanceOf at *
  rw [Amounts.get_set]
  by_cases hsender : account = sender
  · simp [hsender, h]
  · simp [hsender]

theorem total_debited (h : amount ≤ book.balanceOf sender) :
    (book.debited sender amount).total + amount = book.total := by
  have hset := Amounts.total_set book.balances sender (book.balanceOf sender - amount)
  unfold debited total balanceOf at *
  dsimp only
  omega

/-! ## Runs -/

theorem total_mint_le (book : TokenBook) (account : Address) (amount : ℕ) :
    (book.mint account amount).total ≤ book.total + amount := by
  have hset := Amounts.total_set book.balances account
    (Amount.addSaturating (book.balanceOf account) amount)
  have hle : Amount.addSaturating (book.balanceOf account) amount
      ≤ book.balanceOf account + amount := Nat.min_le_left _ _
  unfold mint total balanceOf at *
  dsimp only
  omega

/-- No tokens come but those that are made. -/
theorem total_perform_le (book : TokenBook) (call : Call) :
    ((perform call).stateAfter book).total ≤ book.total + made [call] := by
  have hle : (perform call).Ensures book (fun _ b => b.total ≤ book.total + made [call])
      (fun _ b => b.total ≤ book.total + made [call]) := by
    cases call with
    | mint account amount =>
      exact ensures_modify.mpr (by simpa [made] using total_mint_le book account amount)
    | approve owner spender amount => exact ensures_modify.mpr (Nat.le_add_right _ _)
    | send spender sender receiver amount =>
      refine (send_exact book spender sender receiver amount).mono (fun _ b h => ?_) fun _ b h => ?_
      · obtain ⟨-, hle, rfl⟩ := h
        exact (total_sent hle).trans_le (Nat.le_add_right _ _)
      · obtain ⟨-, rfl⟩ | ⟨hloses, -, rfl⟩ := h
        · exact Nat.le_add_right _ _
        · have hlost := total_debited hloses.2.available
          omega
  exact hle.stateAfter

theorem total_after_le (book : TokenBook) (calls : List Call) :
    (after book calls).total ≤ book.total + made calls := by
  induction calls generalizing book with
  | nil => exact Nat.le_add_right _ _
  | cons call calls ih =>
    have hcall := total_perform_le book call
    have hcalls := ih ((perform call).stateAfter book)
    have hmade : made (call :: calls) = made [call] + made calls := by simp [made]
    calc (after book (call :: calls)).total
        = (after ((perform call).stateAfter book) calls).total := rfl
      _ ≤ ((perform call).stateAfter book).total + made calls := hcalls
      _ ≤ book.total + made (call :: calls) := by omega

/-- Whatever a token has been asked before: a send that succeeds moves exactly its
amount, keeps all tokens together, and takes as much off the one allowance that it
draws on. One that fails leaves every allowance alone, and every balance too, unless
the receiver would hold more than the largest amount: then just the amount is gone
from the sender. As long as no more than the largest amount has been made, that does
not happen. -/
theorem sends_move_or_lose {symbol : String} {calls : List Call}
    (hpast : after (create symbol) calls = book) :
    (∀ b, (send spender sender receiver amount).run book = .ok () b →
      (∀ account, b.balanceOf account + (if account = sender then amount else 0)
          = book.balanceOf account + if account = receiver then amount else 0) ∧
        b.total = book.total ∧
        ∀ owner s, b.allowance owner s + (if owner = sender ∧ s ∈ spender then amount else 0)
          = book.allowance owner s) ∧
      (∀ e b, (send spender sender receiver amount).run book = .error e b →
        b.allowance = book.allowance ∧
          (¬ book.Loses spender sender receiver amount → b = book) ∧
          (book.Loses spender sender receiver amount → e = .rejected .overflow ∧
            (∀ account, b.balanceOf account + (if account = sender then amount else 0)
              = book.balanceOf account) ∧
            b.total + amount = book.total)) ∧
      (made calls ≤ Amount.max → ¬ book.Loses spender sender receiver amount) := by
  refine ⟨fun b hrun => send_ok hrun, fun e b hrun => ?_, fun hmade hloses => ?_⟩
  · obtain ⟨hkept, rfl⟩ | ⟨hloses, rfl, rfl⟩ :=
      (send_exact book spender sender receiver amount).of_error hrun
    · exact ⟨rfl, fun _ => rfl, fun hloses => absurd hloses hkept⟩
    · exact ⟨rfl, fun hkept => absurd hloses hkept, fun _ =>
        ⟨rfl, balanceOf_debited hloses.2.available, total_debited hloses.2.available⟩⟩
  · have htotal := total_after_le (create symbol) calls
    rw [hpast] at htotal
    have hnone : (create symbol).total = 0 := rfl
    exact not_overflows (by omega) hloses.2

/-! ## A receiver who holds all there can be -/

/-- An account with the largest amount of tokens. -/
def sated : Address := ⟨20, by decide⟩

/-- An account with one token. -/
def giver : Address := ⟨21, by decide⟩

/-- As many tokens as there can be are made for one account, and one more for another,
which approves of their being moved. -/
def overmade : List Call := [.mint sated Amount.max, .mint giver 1, .approve giver sated 5]

/-- One of the tokens can be sent to the other account. The other account's cannot
come back, on its approval or without: what is left of it then is the approval. -/
theorem overmade_sends :
    let book := after (create "T") overmade
    (∃ b, (send none sated giver 1).run book = .ok () b ∧ b.balanceOf giver = 2 ∧
        b.total = book.total) ∧
      book.Loses (some sated) giver sated 1 ∧
        ∃ b, (send (some sated) giver sated 1).run book = .error (.rejected .overflow) b ∧
          b.allowance giver sated = 5 ∧ b.balanceOf giver = 0 ∧ b.total + 1 = book.total := by
  intro book
  have hpast : after (create "T") overmade = book := rfl
  have hgiver : book.balanceOf giver = 1 := by decide +kernel
  have hallowed : book.allowance giver sated = 5 := by decide +kernel
  have hloses : book.Loses (some sated) giver sated 1 := by
    refine ⟨?_, by decide +kernel, by decide, by decide, by decide +kernel⟩
    simp [Approves, hallowed]
  have hsends : (send none sated giver 1).failure? book = none := by decide +kernel
  have hfails : (send (some sated) giver sated 1).failure? book = some (.rejected .overflow) := by
    decide +kernel
  obtain ⟨u, hsent⟩ := run_of_success hsends
  have hrun := run_of_failure hfails
  obtain ⟨hbalance, htotal, -⟩ := (sends_move_or_lose hpast).1 _ hsent
  obtain ⟨hallowance, -, hlost⟩ := (sends_move_or_lose hpast).2.1 _ _ hrun
  obtain ⟨-, hleft, hgone⟩ := hlost hloses
  have hcredit := hbalance giver
  have hdebit := hleft giver
  have hdiff : giver ≠ sated := by decide
  rw [hgiver, if_neg hdiff, if_pos rfl] at hcredit
  rw [hgiver, if_pos rfl] at hdebit
  exact ⟨⟨_, hsent, hcredit, htotal⟩, hloses, _, hrun, by rw [hallowance, hallowed],
    Nat.succ.inj hdebit, hgone⟩

/-- The send is refused, and the account has lost its token: not every balance is
unchanged, and there is one token less. -/
theorem refused_send_loses_token :
    let book := after (create "T") overmade
    let b := (send none giver sated 1).stateAfter book
    (send none giver sated 1).run book = .error (.rejected .overflow) b ∧
      book.balanceOf giver = 1 ∧ b.balanceOf giver = 0 ∧
      b.balanceOf sated = book.balanceOf sated ∧ b.total + 1 = book.total := by
  refine ⟨run_of_failure (by decide +kernel), ?_⟩
  decide +kernel

end PooledCollateral.TokenBook
