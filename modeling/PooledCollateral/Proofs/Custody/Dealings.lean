/-
PooledCollateral.Proofs.Custody.Dealings — what the dealings of an operation
leave with the parties.

While each token's balances add up to an amount (`Parties.Bounded`), a release
fails only if the pool's account holds too little, and then nothing has moved
(`release_ensures`). So the dealings of an operation, which check the holdings
first, either go through — and then it is known what has come and what has gone
(`Parties.Dealt`) — or stop at a point from which handing back the pulls restores
every balance (`Errand.Abandoned`). The manager has redeemed something only if
the dealings have gone through.
-/
import PooledCollateral.Custody.Operations
import PooledCollateral.Proofs.TokenBook

namespace PooledCollateral

open PooledCollateral.Action

namespace Parties

/-- The balances of each token add up to an amount. -/
def Bounded (p : Parties) : Prop := ∀ asset, (p.token asset).total ≤ Amount.max

/-- What the pool's account holds of an asset. -/
def holding (p : Parties) (asset : Asset) : ℕ := (p.token asset).balanceOf p.poolAccount

/-- The accounts are the same, and nobody has more or less of any token. -/
structure SameTokens (p p' : Parties) : Prop where
  poolAccount : p'.poolAccount = p.poolAccount
  managerAccount : p'.managerAccount = p.managerAccount
  balances : ∀ asset, (p'.token asset).balances = (p.token asset).balances

/-- The accounts are the same, and so is the sum of the balances of each token. -/
structure Conserves (p p' : Parties) : Prop where
  poolAccount : p'.poolAccount = p.poolAccount
  managerAccount : p'.managerAccount = p.managerAccount
  total : ∀ asset, (p'.token asset).total = (p.token asset).total

/-- What has come to the pool's account, at least, and what has gone from it, at
most, no token being made or lost. -/
structure Dealt (p p' : Parties) (came went : Asset → ℕ) : Prop where
  conserves : p.Conserves p'
  holding : ∀ asset, p.holding asset + came asset ≤ p'.holding asset + went asset

variable {p p' : Parties} {asset : Asset} {receiver : Address} {amount : ℕ}

/-! ## Tokens -/

@[simp] theorem token_setToken_self (p : Parties) (asset : Asset) (book : TokenBook) :
    (p.setToken asset book).token asset = book := by
  cases asset <;> rfl

theorem token_setToken_of_ne (p : Parties) {asset other : Asset} (book : TokenBook)
    (h : other ≠ asset) : (p.setToken asset book).token other = p.token other := by
  cases asset <;> cases other <;> first | rfl | exact absurd rfl h

@[simp] theorem setToken_token (p : Parties) (asset : Asset) :
    p.setToken asset (p.token asset) = p := by
  cases asset <;> rfl

@[simp] theorem poolAccount_setToken (p : Parties) (asset : Asset) (book : TokenBook) :
    (p.setToken asset book).poolAccount = p.poolAccount := by
  cases asset <;> rfl

@[simp] theorem managerAccount_setToken (p : Parties) (asset : Asset) (book : TokenBook) :
    (p.setToken asset book).managerAccount = p.managerAccount := by
  cases asset <;> rfl

@[simp] theorem manager_setToken (p : Parties) (asset : Asset) (book : TokenBook) :
    (p.setToken asset book).manager = p.manager := by
  cases asset <;> rfl

@[simp] theorem token_withManager (p : Parties) (m : Manager) (asset : Asset) :
    ({ p with manager := m } : Parties).token asset = p.token asset := by
  cases asset <;> rfl

theorem SameTokens.refl (p : Parties) : p.SameTokens p := ⟨rfl, rfl, fun _ => rfl⟩

theorem SameTokens.holding (h : p.SameTokens p') (asset : Asset) :
    p'.holding asset = p.holding asset := by
  unfold Parties.holding TokenBook.balanceOf
  rw [h.balances, h.poolAccount]

theorem SameTokens.conserves (h : p.SameTokens p') : p.Conserves p' :=
  ⟨h.poolAccount, h.managerAccount, fun asset => congrArg Amounts.total (h.balances asset)⟩

theorem Conserves.refl (p : Parties) : p.Conserves p := ⟨rfl, rfl, fun _ => rfl⟩

theorem Conserves.trans {p'' : Parties} (h : p.Conserves p') (h' : p'.Conserves p'') :
    p.Conserves p'' :=
  ⟨h'.poolAccount.trans h.poolAccount, h'.managerAccount.trans h.managerAccount,
    fun asset => (h'.total asset).trans (h.total asset)⟩

theorem Conserves.bounded (h : p.Conserves p') (hp : p.Bounded) : p'.Bounded := fun asset =>
  (h.total asset).trans_le (hp asset)

theorem Dealt.refl (p : Parties) : p.Dealt p 0 0 := ⟨Conserves.refl p, fun _ => le_rfl⟩

theorem Dealt.trans {p'' : Parties} {came went came' went' : Asset → ℕ} (h : p.Dealt p' came went)
    (h' : p'.Dealt p'' came' went') : p.Dealt p'' (came + came') (went + went') := by
  refine ⟨h.conserves.trans h'.conserves, ?_⟩
  intro asset
  have hfirst := h.holding asset
  have hsecond := h'.holding asset
  simp only [Pi.add_apply]
  omega

theorem dealt_withManager (p : Parties) (m : Manager) : p.Dealt { p with manager := m } 0 0 := by
  refine ⟨⟨rfl, rfl, fun asset => by rw [token_withManager]⟩, fun asset => ?_⟩
  unfold holding
  rw [token_withManager]
  exact le_rfl

/-- A book with the same total conserves. -/
theorem conserves_setToken {book : TokenBook} (h : book.total = (p.token asset).total) :
    p.Conserves (p.setToken asset book) := by
  refine ⟨poolAccount_setToken p asset book, managerAccount_setToken p asset book, ?_⟩
  intro other
  by_cases hother : other = asset
  · rw [hother, token_setToken_self, h]
  · rw [token_setToken_of_ne p book hother]

theorem Bounded.holding_le (hp : p.Bounded) (asset : Asset) : p.holding asset ≤ Amount.max :=
  (Amounts.get_le_total _ _).trans (hp asset)

/-! ## Releases -/

/-- An amount of one asset, and none of the other. -/
def only (asset : Asset) (amount : ℕ) : Asset → ℕ := Function.update 0 asset amount

/-- The parties after the pool's account has sent an amount. -/
def paid (p : Parties) (asset : Asset) (receiver : Address) (amount : ℕ) : Parties :=
  p.setToken asset ((p.token asset).moved p.poolAccount receiver amount)

theorem paid_conserves (h : amount ≤ p.holding asset) :
    p.Conserves (p.paid asset receiver amount) :=
  conserves_setToken (TokenBook.total_moved h)

@[simp] theorem manager_paid (p : Parties) (asset : Asset) (receiver : Address) (amount : ℕ) :
    (p.paid asset receiver amount).manager = p.manager := manager_setToken _ _ _

/-- The pool's account does not lose more than is sent. -/
theorem holding_paid (p : Parties) (asset : Asset) (receiver : Address) (amount : ℕ) :
    p.holding asset ≤ (p.paid asset receiver amount).holding asset + amount := by
  unfold holding paid
  rw [token_setToken_self, poolAccount_setToken]
  exact TokenBook.balanceOf_moved_sender

theorem holding_paid_of_ne (p : Parties) {asset other : Asset} (receiver : Address) (amount : ℕ)
    (h : other ≠ asset) : (p.paid asset receiver amount).holding other = p.holding other := by
  unfold holding paid
  rw [token_setToken_of_ne _ _ h, poolAccount_setToken]

@[simp] theorem only_self (asset : Asset) (amount : ℕ) : only asset amount asset = amount :=
  Function.update_self _ _ _

@[simp] theorem only_of_ne {asset other : Asset} (amount : ℕ) (h : other ≠ asset) :
    only asset amount other = 0 := Function.update_of_ne h _ _

/-- Sending one asset leaves the other where it is. -/
theorem Dealt.holding_of_ne {other : Asset} (h : p.Dealt p' 0 (only asset amount))
    (hother : other ≠ asset) : p.holding other ≤ p'.holding other := by
  have hkept := h.holding other
  rwa [Pi.zero_apply, Nat.add_zero, only_of_ne amount hother, Nat.add_zero] at hkept

theorem paid_dealt (receiver : Address) (h : amount ≤ p.holding asset) :
    p.Dealt (p.paid asset receiver amount) 0 (only asset amount) := by
  refine ⟨paid_conserves h, ?_⟩
  intro other
  rw [Pi.zero_apply, Nat.add_zero]
  by_cases hother : other = asset
  · rw [hother, only_self]
    exact holding_paid p asset receiver amount
  · rw [only_of_ne amount hother, holding_paid_of_ne p receiver amount hother]
    exact le_rfl

theorem release_ensures (hp : p.Bounded) (asset : Asset) (receiver : Address) (amount : ℕ) :
    (release asset receiver amount).Ensures p
      (fun _ p' => amount ≤ p.holding asset ∧ p' = p.paid asset receiver amount)
      (fun _ p' => p.holding asset < amount ∧ p' = p) := by
  unfold release
  simp only [ensures_bind, ensures_get, ensures_ite, ensures_pure, onToken, ensures_onPart]
  refine ⟨fun hzero => ⟨hzero ▸ Nat.zero_le _, ?_⟩, fun _ => ?_⟩
  · rw [paid, TokenBook.moved_of_none (Or.inl hzero), setToken_token]
  · refine (TokenBook.transfer_ensures (hp asset)).mono ?_ ?_
    · intro _ b hpost
      obtain ⟨hle, rfl⟩ := hpost
      exact ⟨hle, rfl⟩
    · intro _ b hpost
      obtain ⟨hlt, rfl⟩ := hpost
      exact ⟨hlt, setToken_token p asset⟩

/-- What is handed back is sent if it is there. -/
theorem handBack_eq (hp : p.Bounded) (pull : Pull) :
    p.handBack pull =
      if pull.amount ≤ p.holding pull.asset then p.paid pull.asset pull.owner pull.amount
      else p := by
  have hrelease := release_ensures hp pull.asset pull.owner pull.amount
  unfold handBack stateAfter
  unfold Ensures at hrelease
  cases hrun : EStateM.run (release pull.asset pull.owner pull.amount) p with
  | ok u p' =>
    rw [hrun] at hrelease
    rw [if_pos hrelease.1]
    exact hrelease.2
  | error e p' =>
    rw [hrun] at hrelease
    rw [if_neg (Nat.not_le_of_lt hrelease.1)]
    exact hrelease.2

end Parties

namespace Errand

/-- The parties after all pulls of an errand have been handed back. -/
def handedBack (e : Errand) : Parties := e.pulls.reverse.foldl Parties.handBack e.parties

/-- The errand with another manager. -/
def withManager (e : Errand) (m : Manager) : Errand :=
  { e with parties := { e.parties with manager := m } }

/-- Handing back the pulls brings back every balance, whatever has become of the
manager. -/
def Undoable (p : Parties) (e : Errand) : Prop :=
  ∀ m, p.SameTokens (e.withManager m).handedBack ∧ (e.withManager m).handedBack.manager = m

/-- The errand stopped where handing back the pulls brings back every balance.
If it was refused, then before the manager redeemed anything — as long as the
liability is an amount, so that a burn is one. -/
structure Abandoned (p : Parties) (failure : Failure) (e : Errand) : Prop where
  tokens : p.SameTokens e.handedBack
  manager : p.manager.liability ≤ Amount.max → ∀ cause, failure = .rejected cause →
    e.handedBack.manager = p.manager

variable {p : Parties} {e : Errand} {asset : Asset} {owner receiver : Address} {amount : ℕ}

theorem undoable_start (p : Parties) : Undoable p { parties := p, pulls := [] } := fun _ =>
  ⟨⟨rfl, rfl, fun asset => by cases asset <;> rfl⟩, rfl⟩

theorem Undoable.abandoned {failure : Failure} (h : Undoable p e)
    (hmanager : e.parties.manager = p.manager) : e.Abandoned p failure := by
  have hsame : e.withManager e.parties.manager = e := rfl
  obtain ⟨htokens, hm⟩ := h e.parties.manager
  rw [hsame] at htokens hm
  exact ⟨htokens, fun _ _ _ => hm.trans hmanager⟩

/-- A redemption that went wrong leaves the tokens alone. -/
theorem Undoable.abandoned_withManager {failure : Failure} {m : Manager} (h : Undoable p e)
    (hmanager : p.manager.liability ≤ Amount.max → ∀ cause, failure = .rejected cause →
      m = p.manager) : (e.withManager m).Abandoned p failure :=
  ⟨(h m).1, fun hle cause hcause => (h m).2.trans (hmanager hle cause hcause)⟩

/-! ## Steps -/

/-- What a pull from an owner leaves. -/
structure Pulled (p : Parties) (asset : Asset) (owner : Address) (amount : ℕ) (e : Errand) :
    Prop where
  undoable : Undoable p e
  conserves : p.Conserves e.parties
  manager : e.parties.manager = p.manager
  holding : owner ≠ p.poolAccount → e.parties.holding asset = p.holding asset + amount
  holding_of_ne : ∀ other, other ≠ asset → e.parties.holding other = p.holding other

section Moved

variable {book : TokenBook} (hp : p.Bounded) (hle : amount ≤ (p.token asset).balanceOf owner)
  (hbook : book.balances = ((p.token asset).moved owner p.poolAccount amount).balances)

include hbook

theorem balanceOf_of_moved (account : Address) :
    book.balanceOf account = ((p.token asset).moved owner p.poolAccount amount).balanceOf account :=
  congrArg (fun balances => Amounts.get balances account) hbook

include hle

theorem conserves_of_moved : p.Conserves (p.setToken asset book) := by
  refine Parties.conserves_setToken ?_
  rw [← TokenBook.total_moved hle]
  exact congrArg Amounts.total hbook

include hp

/-- The pool's account holds what it has just got, and sends it back. -/
theorem undoable_of_moved :
    Undoable p { parties := p.setToken asset book, pulls := [{ asset, owner, amount }] } := by
  intro m
  let after : Parties := { p.setToken asset book with manager := m }
  have htoken : ∀ other, after.token other = (p.setToken asset book).token other :=
    Parties.token_withManager _ m
  have hbounded : after.Bounded := fun other => by
    rw [htoken]
    exact (conserves_of_moved hle hbook).bounded hp other
  have haccount : after.poolAccount = p.poolAccount := Parties.poolAccount_setToken _ _ _
  have hhold : amount ≤ after.holding asset := by
    unfold Parties.holding
    rw [htoken, Parties.token_setToken_self, haccount, balanceOf_of_moved hbook]
    by_cases howner : owner = p.poolAccount
    · rw [TokenBook.moved_of_none (Or.inr howner), ← howner]
      exact hle
    · rw [TokenBook.balanceOf_moved_receiver howner]
      exact Nat.le_add_left _ _
  have hback : after.handBack { asset, owner, amount } = after.paid asset owner amount := by
    rw [Parties.handBack_eq hbounded, if_pos hhold]
  show p.SameTokens (after.handBack { asset, owner, amount }) ∧
    (after.handBack { asset, owner, amount }).manager = m
  rw [hback]
  refine ⟨⟨?_, ?_, fun other => ?_⟩, Parties.manager_paid _ _ _ _⟩
  · rw [Parties.paid, Parties.poolAccount_setToken, haccount]
  · rw [Parties.paid, Parties.managerAccount_setToken]
    exact Parties.managerAccount_setToken _ _ _
  · by_cases hother : other = asset
    · rw [hother, Parties.paid, Parties.token_setToken_self, htoken, Parties.token_setToken_self,
        haccount, ← TokenBook.moved_moved hle]
      exact TokenBook.balances_moved_congr hbook
    · rw [Parties.paid, Parties.token_setToken_of_ne _ _ hother, htoken,
        Parties.token_setToken_of_ne _ _ hother]

/-- A pull brings its tokens, and can be handed back. -/
theorem pulled_of_moved :
    Pulled p asset owner amount
      { parties := p.setToken asset book, pulls := [{ asset, owner, amount }] } := by
  refine ⟨undoable_of_moved hp hle hbook, conserves_of_moved hle hbook,
    Parties.manager_setToken _ _ _, ?_, ?_⟩
  · intro howner
    unfold Parties.holding
    rw [Parties.token_setToken_self, Parties.poolAccount_setToken, balanceOf_of_moved hbook]
    exact TokenBook.balanceOf_moved_receiver howner
  · intro other hother
    unfold Parties.holding
    rw [Parties.token_setToken_of_ne _ _ hother, Parties.poolAccount_setToken]

end Moved

theorem pull_ensures (hp : p.Bounded) (asset : Asset) (owner : Address) (amount : ℕ) :
    (pull asset owner amount).Ensures { parties := p, pulls := [] }
      (fun _ e => Pulled p asset owner amount e)
      (fun _ e => e = { parties := p, pulls := [] }) := by
  unfold pull
  simp only [ensures_bind, ensures_get, ensures_ite, ensures_pure, onParties, Parties.onToken,
    ensures_onPart, ensures_modify]
  refine ⟨fun hzero => ?_, fun _ => ?_⟩
  · exact ⟨undoable_start p, Parties.Conserves.refl p, rfl, fun _ => hzero ▸ rfl, fun _ _ => rfl⟩
  · refine (TokenBook.transferFrom_ensures (hp asset)).mono ?_ ?_
    · intro _ book hpost
      obtain ⟨hle, hbook⟩ := hpost
      exact pulled_of_moved hp hle hbook
    · intro _ book heq
      subst heq
      exact congrArg (fun p => Errand.mk p []) (Parties.setToken_token p asset)

theorem requireHolding_ensures (e : Errand) (asset : Asset) (amount : ℕ) :
    (requireHolding asset amount).Ensures e
      (fun _ e' => amount ≤ e.parties.holding asset ∧ e' = e) (fun _ e' => e' = e) := by
  unfold requireHolding Parties.requireHolding
  simp only [ensures_bind, ensures_get, ensures_lift, require_eq_ok_iff]
  exact ⟨fun _ hle => ⟨hle, trivial⟩, fun _ _ => trivial⟩

theorem release_ensures (hp : e.parties.Bounded) (asset : Asset) (receiver : Address)
    (amount : ℕ) :
    (release asset receiver amount).Ensures e
      (fun _ e' => amount ≤ e.parties.holding asset ∧
        e' = { e with parties := e.parties.paid asset receiver amount })
      (fun _ e' => e.parties.holding asset < amount ∧ e' = e) := by
  unfold release onParties
  rw [ensures_onPart]
  refine (Parties.release_ensures hp asset receiver amount).mono ?_ ?_
  · intro _ p' hpost
    obtain ⟨hle, rfl⟩ := hpost
    exact ⟨hle, rfl⟩
  · intro _ p' hpost
    obtain ⟨hlt, rfl⟩ := hpost
    exact ⟨hlt, rfl⟩

/-- What is held can be sent. -/
theorem release_of_holding (hp : e.parties.Bounded) (receiver : Address)
    (hle : amount ≤ e.parties.holding asset) :
    (release asset receiver amount).Ensures e
      (fun _ e' => e.parties.Dealt e'.parties 0 (Parties.only asset amount))
      (fun _ _ => False) := by
  refine (release_ensures hp asset receiver amount).mono ?_ ?_
  · intro _ _ hpost
    obtain ⟨-, rfl⟩ := hpost
    exact Parties.paid_dealt receiver hle
  · intro _ _ hpost
    obtain ⟨hlt, -⟩ := hpost
    exact absurd hle (Nat.not_le_of_lt hlt)

theorem Pulled.dealt (h : Pulled p asset owner amount e) (howner : owner ≠ p.poolAccount) :
    p.Dealt e.parties (Parties.only asset amount) 0 := by
  refine ⟨h.conserves, ?_⟩
  intro other
  by_cases hother : other = asset
  · rw [hother, Parties.only_self, h.holding howner]
    exact le_rfl
  · rw [Parties.only_of_ne amount hother, h.holding_of_ne other hother]
    exact le_rfl

end Errand

/-! ## Redemption -/

/-- The payment of a redemption may fail, but it is never refused. -/
theorem Manager.collateralFor_ne_rejected (m : Manager) (amount : ℕ) (cause : Rejection) :
    m.collateralFor amount ≠ .error (.rejected cause) := by
  intro h
  unfold collateralFor at h
  split at h
  · cases h
  · split at h <;> cases h

/-- A redemption that is refused leaves the manager as it was. -/
theorem Manager.redeem_ensures (r : Redemption) (m : Manager) :
    (Manager.redeem r).Ensures m (fun _ _ => True)
      (fun failure m' => ∀ cause, failure = .rejected cause → m' = m) := by
  unfold Manager.redeem
  rw [ensures_bind, ensures_get]
  cases hrefusal : m.refusal with
  | some cause =>
    rw [ensures_bind, ensures_throw]
    exact fun _ _ => rfl
  | none =>
    simp only [ensures_bind, ensures_pure, ensures_modify, ensures_get, ensures_ite, ensures_set,
      ensures_lift]
    refine ⟨fun _ => trivial, fun _ => ⟨fun _ _ => trivial, ?_⟩⟩
    intro failure hfailure cause hcause
    exact absurd (hcause ▸ hfailure) (collateralFor_ne_rejected _ _ _)

namespace Custody

variable {p : Parties}

/-- A redemption changes the manager alone, and if it is refused not even that. -/
theorem redeem_ensures (r : Redemption) (e : Errand) :
    (redeem r).Ensures e (fun _ e' => ∃ m, e' = e.withManager m)
      (fun failure e' => ∃ m, e' = e.withManager m ∧
        ∀ cause, failure = .rejected cause → m = e.parties.manager) := by
  unfold redeem Errand.onParties Parties.onManager
  simp only [ensures_ite, ensures_bind, ensures_pure, ensures_onPart]
  refine ⟨fun _ => ⟨e.parties.manager, rfl⟩, fun _ => ?_⟩
  refine (Manager.redeem_ensures r e.parties.manager).mono ?_ ?_
  · intro _ m _
    exact ⟨m, rfl⟩
  · intro failure m hrefused
    exact ⟨m, rfl, hrefused⟩

/-! ## Dealings of the operations -/

/-- An operation without dealings. -/
theorem pure_ensures {α : Type} (p : Parties) (a : α) :
    (pure a : Action Errand α).Ensures { parties := p, pulls := [] } (fun _ e => e.parties = p)
      (fun failure e => e.Abandoned p failure) := rfl

/-- What an owner owes to the pool comes in. -/
theorem pull_ensures (hp : p.Bounded) (asset : Asset) (owner : Address) (amount : ℕ) :
    (Errand.pull asset owner amount).Ensures { parties := p, pulls := [] }
      (fun _ e => owner ≠ p.poolAccount → p.Dealt e.parties (Parties.only asset amount) 0)
      (fun failure e => e.Abandoned p failure) := by
  refine (Errand.pull_ensures hp asset owner amount).mono ?_ ?_
  · intro _ e hpulled howner
    exact hpulled.dealt howner
  · intro failure _ heq
    subst heq
    exact (Errand.undoable_start p).abandoned rfl

/-- The pool's account sends something that it holds. -/
theorem send_ensures (hp : p.Bounded) (asset : Asset) (receiver : Address) (amount : ℕ) :
    (do
      Errand.requireHolding asset amount
      Errand.release asset receiver amount : Action Errand Unit).Ensures
      { parties := p, pulls := [] }
      (fun _ e => p.Dealt e.parties 0 (Parties.only asset amount))
      (fun failure e => e.Abandoned p failure) := by
  rw [ensures_bind]
  refine (Errand.requireHolding_ensures _ asset amount).mono ?_ ?_
  · intro _ _ hpost
    obtain ⟨hle, rfl⟩ := hpost
    exact (Errand.release_of_holding hp receiver hle).mono (fun _ _ h => h) fun _ _ => False.elim
  · intro failure _ heq
    subst heq
    exact (Errand.undoable_start p).abandoned rfl

/-- The pool's account sends something of either asset, after both holdings have
been checked. -/
theorem send_both_ensures (hp : p.Bounded) (receiver : Address) (collateral backing : ℕ) :
    (do
      Errand.requireHolding .collateral collateral
      Errand.requireHolding .backing backing
      Errand.release .collateral receiver collateral
      Errand.release .backing receiver backing : Action Errand Unit).Ensures
      { parties := p, pulls := [] }
      (fun _ e => p.Dealt e.parties 0
        (Parties.only .collateral collateral + Parties.only .backing backing))
      (fun failure e => e.Abandoned p failure) := by
  have hstart : ∀ failure, Errand.Abandoned p failure { parties := p, pulls := [] } := fun _ =>
    (Errand.undoable_start p).abandoned rfl
  simp only [ensures_bind]
  refine (Errand.requireHolding_ensures _ .collateral collateral).mono ?_
    fun failure _ h => h ▸ hstart failure
  intro _ _ hpost
  obtain ⟨hcollateral, rfl⟩ := hpost
  refine (Errand.requireHolding_ensures _ .backing backing).mono ?_
    fun failure _ h => h ▸ hstart failure
  intro _ _ hpost
  obtain ⟨hbacking, rfl⟩ := hpost
  refine (Errand.release_of_holding hp receiver hcollateral).mono ?_ fun _ _ => False.elim
  intro _ e hfirst
  have hstill : backing ≤ e.parties.holding .backing :=
    hbacking.trans (hfirst.holding_of_ne (by decide))
  refine (Errand.release_of_holding (hfirst.conserves.bounded hp) receiver hstill).mono ?_
    fun _ _ => False.elim
  intro _ e' hsecond
  exact hfirst.trans hsecond

/-- A burn for the manager and two payments to a recipient, all of which the
pool's account holds, go through. -/
theorem pay_ensures {α : Type} {e : Errand} (hbounded : e.parties.Bounded)
    (managerAccount recipient : Address) {burn collateral rest : ℕ} (a : α)
    (hcollateral : collateral ≤ e.parties.holding .collateral)
    (hbacking : burn + rest ≤ e.parties.holding .backing) :
    (do
      Errand.release .backing managerAccount burn
      Errand.release .collateral recipient collateral
      Errand.release .backing recipient rest
      return a : Action Errand α).Ensures e
      (fun _ e' => e.parties.Dealt e'.parties 0
        (Parties.only .collateral collateral + Parties.only .backing (burn + rest)))
      (fun _ _ => False) := by
  simp only [ensures_bind]
  refine (Errand.release_of_holding hbounded managerAccount (show burn ≤ _ by omega)).mono ?_
    fun _ _ => False.elim
  intro _ e₁ hfirst
  have hbounded₁ := hfirst.conserves.bounded hbounded
  have hcollateral₁ : collateral ≤ e₁.parties.holding .collateral :=
    hcollateral.trans (hfirst.holding_of_ne (by decide))
  refine (Errand.release_of_holding hbounded₁ recipient hcollateral₁).mono ?_
    fun _ _ => False.elim
  intro _ e₂ hsecond
  have hbounded₂ := hsecond.conserves.bounded hbounded₁
  have hrest₂ : rest ≤ e₂.parties.holding .backing := by
    have hpaid := hfirst.holding .backing
    have hkept : e₁.parties.holding .backing ≤ e₂.parties.holding .backing :=
      hsecond.holding_of_ne (by decide)
    rw [Pi.zero_apply, Parties.only_self] at hpaid
    omega
  refine (Errand.release_of_holding hbounded₂ recipient hrest₂).mono ?_ fun _ _ => False.elim
  intro _ e₃ hthird
  rw [ensures_pure]
  have hall := (hfirst.trans hsecond).trans hthird
  refine ⟨hall.conserves, fun asset => (hall.holding asset).trans_eq ?_⟩
  cases asset <;> simp [Nat.add_comm]

/-- After a redemption the burn and the payments go through, if the burn is an
amount. If it is not, the pool's account does not hold it. -/
theorem payRedeemed_ensures {α : Type} {e : Errand} {caller : Address} {fromHolder : ℕ}
    (hp : p.Bounded) (hpulled : Errand.Pulled p .backing caller fromHolder e) (m : Manager)
    (recipient : Address) {burn collateral rest : ℕ} (a : α)
    (hburn : p.manager.liability ≤ Amount.max → burn ≤ Amount.max)
    (hfits : burn ≤ Amount.max → burn + rest ≤ Amount.max)
    (hcollateral : collateral ≤ e.parties.holding .collateral)
    (hbacking : Amount.addSaturating burn rest ≤ e.parties.holding .backing) :
    (do
      Errand.release .backing (← get).parties.managerAccount burn
      Errand.release .collateral recipient collateral
      Errand.release .backing recipient rest
      return a : Action Errand α).Ensures (e.withManager m)
      (fun _ e' => caller ≠ p.poolAccount →
        p.Dealt e'.parties (Parties.only .backing fromHolder)
          (Parties.only .collateral collateral + Parties.only .backing (burn + rest)))
      (fun failure e' => e'.Abandoned p failure) := by
  have hredeemed : e.parties.Dealt (e.withManager m).parties 0 0 := Parties.dealt_withManager _ m
  have hbounded := hredeemed.conserves.bounded (hpulled.conserves.bounded hp)
  rw [ensures_bind, ensures_get]
  by_cases hamount : burn ≤ Amount.max
  · have hstart := hredeemed.holding
    simp only [Pi.zero_apply, Nat.add_zero] at hstart
    have hheld : burn + rest ≤ e.parties.holding .backing := by
      have hsum := hfits hamount
      unfold Amount.addSaturating at hbacking
      omega
    refine (pay_ensures hbounded e.parties.managerAccount recipient a
      (hcollateral.trans (hstart .collateral)) (hheld.trans (hstart .backing))).mono ?_
      fun _ _ => False.elim
    intro _ e' hpaid howner
    simpa only [add_zero, zero_add] using (hpulled.dealt howner).trans (hredeemed.trans hpaid)
  · rw [ensures_bind]
    refine (Errand.release_ensures hbounded .backing _ burn).mono ?_ ?_
    · intro _ _ hpost
      exact absurd (hpost.1.trans (hbounded.holding_le .backing)) hamount
    · intro failure _ hpost
      obtain ⟨-, rfl⟩ := hpost
      exact hpulled.undoable.abandoned_withManager fun hliability =>
        absurd (hburn hliability) hamount

/-- A self-close exit: the holder's part of the burn comes in; the collateral,
the burn and the leftover fees go out. Once the manager has redeemed the burn
nothing can fail any more, provided that the burn is an amount. -/
theorem dealSelfClose_ensures (hp : p.Bounded) (caller recipient : Address)
    (request : SelfCloseRequest) (plan : SelfClosePlan) (receipt : ExitReceipt)
    (hburn : p.manager.liability ≤ Amount.max → plan.burn ≤ Amount.max)
    (hfits : plan.burn ≤ Amount.max → plan.burn + plan.funding.toRecipient ≤ Amount.max) :
    (dealSelfClose caller recipient request plan receipt).Ensures { parties := p, pulls := [] }
      (fun _ e => caller ≠ p.poolAccount →
        p.Dealt e.parties (Parties.only .backing plan.funding.fromHolder)
          (Parties.only .collateral receipt.collateral
            + Parties.only .backing (plan.burn + plan.funding.toRecipient)))
      (fun failure e => e.Abandoned p failure) := by
  unfold dealSelfClose
  rw [ensures_bind]
  refine (Errand.pull_ensures hp .backing caller plan.funding.fromHolder).mono ?_ ?_
  · intro _ e hpulled
    have hstop : ∀ failure, e.Abandoned p failure := fun _ =>
      hpulled.undoable.abandoned hpulled.manager
    rw [ensures_bind]
    refine (Errand.requireHolding_ensures e .collateral receipt.collateral).mono ?_
      fun failure _ h => h ▸ hstop failure
    intro _ e hpost
    obtain ⟨hcollateral, rfl⟩ := hpost
    rw [ensures_bind]
    refine (Errand.requireHolding_ensures e .backing _).mono ?_
      fun failure _ h => h ▸ hstop failure
    intro _ e hpost
    obtain ⟨hbacking, rfl⟩ := hpost
    rw [ensures_bind]
    refine (redeem_ensures _ e).mono ?_ ?_
    · intro redemption _ hpost
      obtain ⟨m, rfl⟩ := hpost
      exact payRedeemed_ensures hp hpulled m recipient redemption hburn hfits hcollateral hbacking
    · intro failure _ hpost
      obtain ⟨m, rfl, hrefused⟩ := hpost
      exact hpulled.undoable.abandoned_withManager fun _ cause hcause =>
        (hrefused cause hcause).trans hpulled.manager
  · intro failure _ heq
    subst heq
    exact (Errand.undoable_start p).abandoned rfl

end Custody

end PooledCollateral
