/-
PooledCollateral.Proofs.Custody.Approvals — what a failed operation leaves of the
approvals.

A pull uses up approval, and handing it back is a plain transfer, which restores
the balances and no approval. So an approval is lost where an operation fails
behind its pull. Entries and repayments pull last, and whatever they fail at,
every allowance is as before. A self-close exit pulls first: once its pull has
gone through (`Draws`), every failure costs the holder just what was pulled of
what it has approved (`allowances_after_failure`), such as a redemption that the
manager refuses (`refused_redemption_uses_up_approval`).
-/
import PooledCollateral.Proofs.Custody.Restart

namespace PooledCollateral

open PooledCollateral.Action

/-! ## Tokens -/

namespace TokenBook

/-- Whatever has moved, the approvals are the same. -/
def SameApprovals (book book' : TokenBook) : Prop := book'.approvals = book.approvals

instance : IsPreorder TokenBook SameApprovals where
  refl _ := rfl
  trans _ _ _ h h' := Eq.trans h' h

/-- Owners need no approval to send. -/
theorem transfer_sameApprovals (sender receiver : Address) (amount : ℕ) :
    Always SameApprovals (transfer sender receiver amount) := by
  intro book
  unfold transfer
  simp only [ensures_bind, ensures_get, ensures_set, ensures_lift, ensures_pure, ensures_ite]
  simp [SameApprovals]

/-- A transfer on approval takes its amount off what the spender may move, and
if it fails, nothing. -/
theorem transferFrom_approvals (book : TokenBook) (spender owner receiver : Address)
    (amount : ℕ) :
    (transferFrom spender owner receiver amount).Ensures book
      (fun _ b => amount ≤ book.allowance owner spender ∧ ∀ owner' spender',
        b.allowance owner' spender' =
          (book.approve owner spender (book.allowance owner spender - amount)).allowance
            owner' spender')
      (fun _ b => book.SameApprovals b) := by
  unfold transferFrom
  simp only [ensures_bind, ensures_get, ensures_lift, require_eq_ok_iff, ensures_modify]
  refine ⟨fun _ hle => ?_, fun _ _ => refl_of SameApprovals book⟩
  refine (transfer_sameApprovals owner receiver amount book).mono (fun _ b hsame => ⟨hle, ?_⟩)
    fun _ _ hsame => hsame
  have hallowance : b.allowance = book.allowance := by
    unfold allowance
    rw [hsame]
  intro owner' spender'
  rw [allowance_approve, allowance_approve, hallowance]

end TokenBook

namespace Parties

/-- What a spender may still move of an owner's tokens. -/
def allowance (p : Parties) (asset : Asset) (owner spender : Address) : ℕ :=
  (p.token asset).allowance owner spender

/-- The approvals of both tokens are the same. -/
def SameApprovals (p p' : Parties) : Prop :=
  ∀ asset, (p.token asset).SameApprovals (p'.token asset)

instance : IsPreorder Parties SameApprovals where
  refl _ _ := rfl
  trans _ _ _ h h' asset := (h' asset).trans (h asset)

/-- An owner's approval of the pool is used up by an amount, and every other
allowance is as before. -/
structure UsedUp (p p' : Parties) (asset : Asset) (owner : Address) (amount : ℕ) : Prop where
  used : p'.allowance asset owner p.poolAccount + amount = p.allowance asset owner p.poolAccount
  kept : ∀ asset' owner' spender',
    ¬ (asset' = asset ∧ owner' = owner ∧ spender' = p.poolAccount) →
      p'.allowance asset' owner' spender' = p.allowance asset' owner' spender'

variable {p p' : Parties} {asset : Asset}

theorem SameApprovals.allowance (h : p.SameApprovals p') (asset : Asset) (owner spender : Address) :
    p'.allowance asset owner spender = p.allowance asset owner spender := by
  unfold Parties.allowance TokenBook.allowance
  rw [h asset]

theorem sameApprovals_setToken {book : TokenBook} (h : (p.token asset).SameApprovals book) :
    p.SameApprovals (p.setToken asset book) := by
  intro other
  by_cases hother : other = asset
  · rw [hother, token_setToken_self]
    exact h
  · rw [token_setToken_of_ne p book hother]
    rfl

theorem UsedUp.sameApprovals {p'' : Parties} {owner : Address} {amount : ℕ}
    (h : p.UsedUp p' asset owner amount) (hsame : p'.SameApprovals p'') :
    p.UsedUp p'' asset owner amount := by
  refine ⟨?_, fun asset' owner' spender' hother => ?_⟩
  · rw [hsame.allowance]
    exact h.used
  · rw [hsame.allowance]
    exact h.kept asset' owner' spender' hother

/-- The pool needs no approval to send what is its own. -/
theorem release_sameApprovals (asset : Asset) (receiver : Address) (amount : ℕ) :
    Always SameApprovals (release asset receiver amount) := by
  intro p
  unfold release
  simp only [ensures_bind, ensures_get, ensures_ite, ensures_pure, onToken, ensures_onPart]
  refine ⟨fun _ => refl_of SameApprovals p, fun _ => ?_⟩
  exact (TokenBook.transfer_sameApprovals _ receiver amount _).mono
    (fun _ _ h => sameApprovals_setToken h) fun _ _ h => sameApprovals_setToken h

/-- What is handed back comes without the approval that it was pulled on. -/
theorem handedBack_sameApprovals (p : Parties) (pulls : List Pull) :
    p.SameApprovals (pulls.foldl handBack p) := by
  induction pulls generalizing p with
  | nil => exact refl_of SameApprovals p
  | cons pull pulls ih =>
    have hfirst : p.SameApprovals (p.handBack pull) :=
      (release_sameApprovals pull.asset pull.owner pull.amount p).stateAfter
    exact trans_of SameApprovals hfirst (ih (p.handBack pull))

end Parties

/-! ## Dealings -/

namespace Errand

/-- The approvals of both tokens are the same. -/
def SameApprovals (e e' : Errand) : Prop := e.parties.SameApprovals e'.parties

instance : IsPreorder Errand SameApprovals where
  refl e := refl_of Parties.SameApprovals e.parties
  trans _ _ _ h h' := trans_of Parties.SameApprovals h h'

theorem requireHolding_sameApprovals (asset : Asset) (amount : ℕ) :
    Always SameApprovals (requireHolding asset amount) :=
  always_get.bind fun _ => always_lift _

theorem release_sameApprovals (asset : Asset) (receiver : Address) (amount : ℕ) :
    Always SameApprovals (release asset receiver amount) := by
  intro e
  unfold release onParties
  rw [ensures_onPart]
  exact Parties.release_sameApprovals asset receiver amount e.parties

/-- A pull uses up what it pulls, and if it fails, nothing. -/
theorem pull_usesUp (e : Errand) (asset : Asset) (owner : Address) (amount : ℕ) :
    (pull asset owner amount).Ensures e
      (fun _ e' => e.parties.UsedUp e'.parties asset owner amount)
      (fun _ e' => e.SameApprovals e') := by
  unfold pull
  simp only [ensures_bind, ensures_get, ensures_ite, ensures_pure, onParties, Parties.onToken,
    ensures_onPart, ensures_modify]
  refine ⟨fun hzero => ⟨by rw [hzero, Nat.add_zero], fun _ _ _ _ => rfl⟩, fun _ => ?_⟩
  refine (TokenBook.transferFrom_approvals _ _ owner _ amount).mono ?_
    fun _ _ hsame => Parties.sameApprovals_setToken hsame
  intro _ book hpost
  obtain ⟨hle, hallowance⟩ := hpost
  have hself := hallowance owner e.parties.poolAccount
  rw [TokenBook.allowance_approve, if_pos ⟨rfl, rfl⟩] at hself
  refine ⟨?_, fun asset' owner' spender' hother => ?_⟩
  · unfold Parties.allowance
    rw [Parties.token_setToken_self, hself]
    exact Nat.sub_add_cancel hle
  · unfold Parties.allowance
    by_cases hasset : asset' = asset
    · subst hasset
      rw [Parties.token_setToken_self, hallowance, TokenBook.allowance_approve, if_neg]
      exact fun hsame => hother ⟨rfl, hsame⟩
    · rw [Parties.token_setToken_of_ne _ _ hasset]

end Errand

namespace Custody

variable {c c' : Custody} {α β : Type}

theorem redeem_sameApprovals (r : Redemption) :
    Always Errand.SameApprovals (redeem r) := by
  have hmanager : ∀ (e : Errand) (m : Manager), e.SameApprovals (e.withManager m) := by
    intro e m asset
    unfold Errand.withManager
    rw [Parties.token_withManager]
    rfl
  intro e
  refine (redeem_ensures r e).mono ?_ ?_
  · rintro _ _ ⟨m, rfl⟩
    exact hmanager e m
  · rintro _ _ ⟨m, rfl, -⟩
    exact hmanager e m

theorem rollBack_sameApprovals (c : Custody) (mark : Checkpoint) (touched : List Address)
    (pulls : List Pull) : c.parties.SameApprovals (c.rollBack mark touched pulls).parties :=
  Parties.handedBack_sameApprovals c.parties pulls.reverse

/-! ## Operations that fail before they have pulled -/

/-- If the action fails, the approvals are the same. -/
def GivesBack (act : Action Custody α) : Prop :=
  ∀ c, act.Ensures c (fun _ _ => True) (fun _ c' => c.parties.SameApprovals c'.parties)

theorem GivesBack.concluded {kind : OperationKind} {act : Action Custody (α × List Event)}
    (h : GivesBack act) : GivesBack (concluded kind act) := fun c =>
  ensures_concluded ((h c).mono (fun _ _ _ _ => trivial) fun _ _ hsame _ => hsame)

theorem GivesBack.timed {kind : OperationKind} {act : Action Custody α} (h : GivesBack act) :
    GivesBack (timed kind act) := fun c => ensures_timed fun metrics => h { c with metrics }

/-- An action goes on with its answer. -/
theorem GivesBack.reply {act : Action Custody α} (h : GivesBack act) (answer : α → β) :
    GivesBack (do return answer (← act)) := by
  intro c
  rw [ensures_bind]
  exact h c

/-- A transaction gives back what its dealings have not used up. -/
theorem givesBack_transact {touched : List Address} {change : Action Pool α}
    {deal : α → Action Errand β}
    (hdeal : ∀ a e, (deal a).Ensures e (fun _ _ => True) (fun _ e' => e.SameApprovals e')) :
    GivesBack (transact touched change deal) := by
  intro c
  refine ensures_transact_stages (fun _ _ _ => refl_of Parties.SameApprovals c.parties)
    (fun _ _ _ _ _ _ => refl_of Parties.SameApprovals c.parties) fun a _ _ _ _ => ?_
  refine (hdeal a { parties := c.parties, pulls := [] }).mono (fun _ _ _ => trivial)
    fun _ e hsame => ?_
  exact trans_of Parties.SameApprovals hsame (rollBack_sameApprovals _ _ _ e.pulls)

/-- So does one whose dealings draw on no approval. -/
theorem givesBack_of_always {deal : Action Errand β} (h : Always Errand.SameApprovals deal)
    (e : Errand) : deal.Ensures e (fun _ _ => True) (fun _ e' => e.SameApprovals e') :=
  (h e).mono (fun _ _ _ => trivial) fun _ _ hsame => hsame

theorem enter_givesBack (caller : Address) (collateral : ℕ) :
    GivesBack (enter caller collateral) := by
  refine GivesBack.timed (GivesBack.concluded fun c => ?_)
  have htransact : ∀ price,
      GivesBack (transact [caller] (do
          let receipt ← Pool.enter caller collateral price c.now
          c.parties.requireAllowance .collateral caller collateral
          return receipt)
        fun _ => Errand.pull .collateral caller collateral) := fun price =>
    givesBack_transact fun _ e => (Errand.pull_usesUp e .collateral caller collateral).mono
      (fun _ _ _ => trivial) fun _ _ hsame => hsame
  simp only [ensures_bind, ensures_get, ensures_ite, ensures_map, ensures_lift, ensures_pure]
  refine ⟨fun _ => ⟨fun price _ => htransact price c, fun _ _ => ?_⟩, fun _ => htransact none c⟩
  exact refl_of Parties.SameApprovals c.parties

theorem exit_givesBack (caller : Address) (shares : ℕ) (recipient : Option Address) :
    GivesBack (exit caller shares recipient) := by
  refine GivesBack.timed (GivesBack.concluded fun c => ?_)
  simp only [ensures_bind, ensures_get, ensures_lift, ensures_pure]
  refine ⟨fun backing _ => ?_, fun _ _ => refl_of Parties.SameApprovals c.parties⟩
  refine givesBack_transact (fun receipt => givesBack_of_always ?_) c
  exact (Errand.requireHolding_sameApprovals _ _).bind fun _ =>
    (Errand.requireHolding_sameApprovals _ _).bind fun _ =>
      (Errand.release_sameApprovals _ _ _).bind fun _ => Errand.release_sameApprovals _ _ _

theorem withdrawFees_givesBack (caller : Address) (amount : ℕ) (recipient : Option Address) :
    GivesBack (withdrawFees caller amount recipient) := by
  refine GivesBack.timed (GivesBack.concluded fun c => ?_)
  simp only [ensures_bind, ensures_pure]
  refine givesBack_transact (fun _ => givesBack_of_always ?_) c
  exact (Errand.requireHolding_sameApprovals _ _).bind fun _ => Errand.release_sameApprovals _ _ _

theorem payFeeDebt_givesBack (caller : Address) (amount : ℕ) :
    GivesBack (payFeeDebt caller amount) := by
  refine GivesBack.timed (GivesBack.concluded fun c => ?_)
  simp only [ensures_bind, ensures_get, ensures_pure]
  exact givesBack_transact (fun _ e => (Errand.pull_usesUp e .backing caller amount).mono
    (fun _ _ _ => trivial) fun _ _ hsame => hsame) c

theorem transfer_givesBack (caller receiver : Address) (amount : ℕ) :
    GivesBack (transfer caller receiver amount) := by
  refine GivesBack.timed (GivesBack.concluded fun c => ?_)
  simp only [ensures_bind, ensures_get, ensures_pure]
  exact givesBack_transact (fun _ => givesBack_of_always (always_pure _)) c

theorem cleanup_givesBack (holder : Address) (limit : ℕ) : GivesBack (cleanup holder limit) :=
  fun _ => (cleanup_ensures holder limit).mono (fun _ _ _ => trivial) fun _ _ => False.elim

theorem payout_givesBack (caller holder recipient : Address) (collateral shares : ℕ) :
    GivesBack (payout caller holder recipient collateral shares) := by
  refine GivesBack.timed (GivesBack.concluded fun c => ?_)
  simp only [ensures_bind, ensures_get, ensures_lift, ensures_pure]
  refine ⟨fun _ _ => ?_, fun _ _ => refl_of Parties.SameApprovals c.parties⟩
  refine givesBack_transact (fun _ => givesBack_of_always ?_) c
  exact (Errand.requireHolding_sameApprovals _ _).bind fun _ => Errand.release_sameApprovals _ _ _

theorem administer_givesBack (kind : OperationKind) (caller : Address) (change : Action Pool Unit)
    (event : Event) : GivesBack (administer kind caller change event) := by
  refine GivesBack.concluded fun c => ?_
  simp only [ensures_bind, ensures_get, ensures_lift, ensures_pure]
  refine ⟨fun _ _ => ?_, fun _ _ => refl_of Parties.SameApprovals c.parties⟩
  exact givesBack_transact (fun _ => givesBack_of_always (always_pure _)) c

/-! ## Self-close exits -/

/-- What a self-close exit does to the pool, before it deals with anybody. -/
def selfCloseChange (p : Parties) (caller : Address) (request : SelfCloseRequest)
    (backing : Backing) (now : ℕ) : Action Pool (SelfClosePlan × ExitReceipt) := do
  let plan ← (← get).planSelfClose caller request.shares backing now
  p.requireAllowance .backing caller plan.funding.fromHolder
  return (plan, ← Pool.applySelfClose caller plan now)

/-- The call gets as far as to pull an amount of backing asset from an owner,
and deals on. Only a self-close exit does so: its burn has been planned, approved
by the holder and carried out, the store has taken it, and the holder's part of
it has come in. -/
inductive Draws (c : Custody) : Call → Address → ℕ → Prop
  | selfCloseExit {caller : Address} {request : SelfCloseRequest} {backing : Backing}
      {plan : SelfClosePlan} {receipt : ExitReceipt} {pool : Pool} {store : Store} {errand : Errand}
      (hbacking : c.parties.backingState = .ok backing)
      (hchange : (selfCloseChange c.parties caller request backing c.now).run c.pool
        = .ok (plan, receipt) pool)
      (hcommit : (Store.commit (pool.delta [caller])).run c.store = .ok () store)
      (hpull : (Errand.pull .backing caller plan.funding.fromHolder).run
        { parties := c.parties, pulls := [] } = .ok () errand) :
      Draws c (.selfCloseExit caller request) caller plan.funding.fromHolder

/-- What a failed call leaves of the approvals: if it has drawn on one, all but
the amount drawn, and all of them if not. -/
def Left (c : Custody) (call : Call) (c' : Custody) : Prop :=
  (∃ owner amount, c.Draws call owner amount ∧
      c.parties.UsedUp c'.parties .backing owner amount) ∨
    (∀ owner amount, ¬ c.Draws call owner amount) ∧ c.parties.SameApprovals c'.parties

/-- Behind its pull a self-close exit draws on no approval any more. -/
theorem dealSelfClose_usesUp (e : Errand) (caller recipient : Address)
    (request : SelfCloseRequest) (plan : SelfClosePlan) (receipt : ExitReceipt) :
    (dealSelfClose caller recipient request plan receipt).Ensures e (fun _ _ => True)
      (fun _ e' =>
        (∃ e₁, (Errand.pull .backing caller plan.funding.fromHolder).run e = .ok () e₁ ∧
          e.parties.UsedUp e'.parties .backing caller plan.funding.fromHolder) ∨
        (∀ e₁, (Errand.pull .backing caller plan.funding.fromHolder).run e ≠ .ok () e₁) ∧
          e.SameApprovals e') := by
  have hpull := Errand.pull_usesUp e .backing caller plan.funding.fromHolder
  unfold dealSelfClose
  rw [ensures_bind]
  unfold Ensures at hpull ⊢
  cases hrun : EStateM.run (Errand.pull .backing caller plan.funding.fromHolder) e with
  | error failure e' =>
    rw [hrun] at hpull
    exact Or.inr ⟨fun _ h => (by cases h), hpull⟩
  | ok _ e₁ =>
    rw [hrun] at hpull
    have hrest : Always Errand.SameApprovals (do
        Errand.requireHolding .collateral receipt.collateral
        Errand.requireHolding .backing (Amount.addSaturating plan.burn plan.funding.toRecipient)
        let redemption ← redeem
          { redeemer := caller, amount := plan.burn, toUnderlying := request.toUnderlying,
            destination := request.destination, recipient, executorFee := request.executorFee }
        Errand.release .backing (← get).parties.managerAccount plan.burn
        Errand.release .collateral recipient receipt.collateral
        Errand.release .backing recipient plan.funding.toRecipient
        return redemption) :=
      (Errand.requireHolding_sameApprovals _ _).bind fun _ =>
        (Errand.requireHolding_sameApprovals _ _).bind fun _ =>
          (redeem_sameApprovals _).bind fun _ => always_get.bind fun _ =>
            (Errand.release_sameApprovals _ _ _).bind fun _ =>
              (Errand.release_sameApprovals _ _ _).bind fun _ =>
                (Errand.release_sameApprovals _ _ _).bind fun _ => always_pure _
    exact (hrest e₁).mono (fun _ _ _ => trivial) fun _ _ hsame =>
      Or.inl ⟨e₁, rfl, hpull.sameApprovals hsame⟩

theorem selfCloseExit_left (c : Custody) (caller : Address) (request : SelfCloseRequest) :
    (selfCloseExit caller request).Ensures c (fun _ _ => True)
      (fun _ c' => c.Left (.selfCloseExit caller request) c') := by
  refine ensures_timed fun m => ensures_concluded ?_
  simp only [ensures_bind, ensures_get, ensures_lift, ensures_modify, ensures_pure]
  have hsame : ∀ {c' : Custody}, c'.parties = c.parties → c.parties.SameApprovals c'.parties :=
    fun hparties => hparties ▸ refl_of Parties.SameApprovals c.parties
  constructor
  · intro backing hbacking
    refine ensures_transact_stages ?_ ?_ ?_
    · intro failure q hchange metrics
      refine Or.inr ⟨?_, hsame rfl⟩
      rintro _ _ ⟨hbacking', hchange', -, -⟩
      cases hbacking.symm.trans hbacking'
      cases hchange.symm.trans hchange'
    · intro r q failure store hchange hcommit metrics
      refine Or.inr ⟨?_, hsame rfl⟩
      rintro _ _ ⟨hbacking', hchange', hcommit', -⟩
      cases hbacking.symm.trans hbacking'
      cases hchange.symm.trans hchange'
      cases hcommit.symm.trans hcommit'
    · intro r q store hchange hcommit
      obtain ⟨plan, receipt⟩ := r
      refine (dealSelfClose_usesUp _ caller _ request plan receipt).mono (fun _ _ _ _ => trivial) ?_
      intro failure e hdealt metrics
      have hback := rollBack_sameApprovals
        { c with pool := q, store, parties := e.parties, metrics := m }
        (c.pool.checkpoint [caller]) [caller] e.pulls
      rcases hdealt with ⟨e₁, hpull, hused⟩ | ⟨hpull, hkept⟩
      · exact Or.inl ⟨_, _, .selfCloseExit hbacking hchange hcommit hpull,
          hused.sameApprovals hback⟩
      · refine Or.inr ⟨?_, trans_of Parties.SameApprovals hkept hback⟩
        rintro _ _ ⟨hbacking', hchange', -, hpull'⟩
        cases hbacking.symm.trans hbacking'
        cases hchange.symm.trans hchange'
        exact hpull _ hpull'
  · intro failure hbacking metrics
    refine Or.inr ⟨?_, hsame rfl⟩
    rintro _ _ ⟨hbacking', -, -, -⟩
    cases hbacking.symm.trans hbacking'

/-! ## Every call -/

/-- An action that gives back what it draws, and a call that draws on nothing. -/
theorem GivesBack.left {act : Action Custody α} {call : Call} (h : GivesBack act)
    (hcall : ∀ owner amount, ¬ c.Draws call owner amount) :
    act.Ensures c (fun _ _ => True) (fun _ c' => c.Left call c') :=
  (h c).mono (fun _ _ _ => trivial) fun _ _ hsame => Or.inr ⟨hcall, hsame⟩

theorem perform_left (c : Custody) (call : Call) :
    (perform call).Ensures c (fun _ _ => True) (fun _ c' => c.Left call c') := by
  cases call with
  | enter => exact ((enter_givesBack _ _).reply _).left (by rintro _ _ ⟨⟩)
  | exit => exact ((exit_givesBack _ _ _).reply _).left (by rintro _ _ ⟨⟩)
  | selfCloseExit caller request =>
    simp only [perform, ensures_bind, ensures_pure]
    exact selfCloseExit_left c caller request
  | withdrawFees => exact ((withdrawFees_givesBack _ _ _).reply _).left (by rintro _ _ ⟨⟩)
  | payFeeDebt => exact ((payFeeDebt_givesBack _ _).reply _).left (by rintro _ _ ⟨⟩)
  | transfer => exact ((transfer_givesBack _ _ _).reply _).left (by rintro _ _ ⟨⟩)
  | cleanup => exact ((cleanup_givesBack _ _).reply _).left (by rintro _ _ ⟨⟩)
  | depositFees => exact ((administer_givesBack _ _ _ _).reply _).left (by rintro _ _ ⟨⟩)
  | receiveCollateral => exact ((administer_givesBack _ _ _ _).reply _).left (by rintro _ _ ⟨⟩)
  | payout => exact ((payout_givesBack _ _ _ _ _).reply _).left (by rintro _ _ ⟨⟩)
  | updateSettings => exact ((administer_givesBack _ _ _ _).reply _).left (by rintro _ _ ⟨⟩)

/-- A failed call leaves every allowance of both tokens as it was, unless it is a
self-close exit that has pulled the holder's part of its burn: then just this
amount is missing from what the holder has approved the pool for. -/
theorem allowances_after_failure {call : Call} {failure : Failure}
    (hrun : (perform call).run c = .error failure c') :
    (∃ owner amount, c.Draws call owner amount ∧
        c.parties.UsedUp c'.parties .backing owner amount) ∨
      (∀ owner amount, ¬ c.Draws call owner amount) ∧
        ∀ asset owner spender,
          c'.parties.allowance asset owner spender = c.parties.allowance asset owner spender := by
  rcases (perform_left c call).of_error hrun with hdrawn | ⟨hcall, hsame⟩
  · exact Or.inl hdrawn
  · exact Or.inr ⟨hcall, hsame.allowance⟩

/-! ## A redemption that is refused -/

/-- The holder has entered, and has approved the pool for 200 units of backing
asset; the manager refuses redemptions. -/
def invested : Custody := (perform (.enter Pool.rich 1000)).stateAfter opened

/-- What a self-close exit leaves that needs 150 units of them. -/
def turnedAway : Custody := (perform halfOut).stateAfter invested

theorem run_turnedAway :
    (perform halfOut).run invested = .error (.rejected (.unauthorized Pool.rich)) turnedAway :=
  run_of_failure (by decide +kernel)

/-- The exit has drawn 150 units before the manager refused. -/
theorem halfOut_draws :
    invested.Draws halfOut Pool.rich 150 ∧
      invested.parties.UsedUp turnedAway.parties .backing Pool.rich 150 := by
  have hbefore :
      invested.parties.allowance .backing Pool.rich invested.parties.poolAccount = 200 := by
    decide +kernel
  have hafter :
      turnedAway.parties.allowance .backing Pool.rich invested.parties.poolAccount = 50 := by
    decide +kernel
  rcases allowances_after_failure run_turnedAway with ⟨owner, amount, hdraws, hused⟩ | ⟨-, hsame⟩
  · have howner : owner = Pool.rich := by
      cases hdraws
      rfl
    subst howner
    have hamount : amount = 150 := by
      have hsum := hused.used
      rw [hbefore, hafter] at hsum
      omega
    subst hamount
    exact ⟨hdraws, hused⟩
  · have hkept := hsame .backing Pool.rich invested.parties.poolAccount
    rw [hbefore, hafter] at hkept
    cases hkept

/-- The exit has failed, its 150 units are back with the holder, and three
quarters of the approval are gone. -/
theorem refused_redemption_uses_up_approval :
    start opened.parties opened.store 5 Pool.looseSettings = .ok opened ∧
      Relation.ReflTransGen Turn opened invested ∧
      (perform halfOut).run invested = .error (.rejected (.unauthorized Pool.rich)) turnedAway ∧
      turnedAway.parties.backing.balanceOf Pool.rich
        = invested.parties.backing.balanceOf Pool.rich ∧
      invested.parties.allowance .backing Pool.rich invested.parties.poolAccount = 200 ∧
      turnedAway.parties.allowance .backing Pool.rich invested.parties.poolAccount = 50 := by
  refine ⟨rfl, Relation.ReflTransGen.single (.call _), run_turnedAway, ?_⟩
  exact ⟨by decide +kernel, by decide +kernel, by decide +kernel⟩

end Custody

end PooledCollateral
