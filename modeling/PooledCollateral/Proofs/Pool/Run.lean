/-
PooledCollateral.Proofs.Pool.Run — whole runs of a pool.

An `Operation` is a change of a pool as its callers make it: a self-close exit
is planned and applied at once. `Run p ops q` says that the operations `ops`,
one after the other, all succeed and lead from `p` to `q`. What an entry, an exit or
a cleanup answers is left aside; what they do is not (`operate_exit_ok` and the
like). What every operation preserves, every run preserves (`Run.preserves`); a run
can be cut anywhere (`run_append`).
-/
import PooledCollateral.Proofs.Pool.Effects

namespace PooledCollateral.Pool

open PooledCollateral.Action

/-- A change of a pool, as its callers make it. -/
inductive Operation
  | enter (holder : Address) (collateral : ℕ) (price : Option Price) (now : ℕ)
  | exit (holder : Address) (shares : ℕ) (backing : Backing) (now : ℕ)
  | selfClose (holder : Address) (shares : ℕ) (backing : Backing) (now : ℕ)
  | withdrawFees (holder : Address) (amount : ℕ)
  | payFeeDebt (holder : Address) (amount : ℕ)
  | depositFees (amount : ℕ)
  | receiveCollateral (amount : ℕ)
  | payout (holder : Address) (collateral shares now : ℕ)
  | updateSettings (settings : Settings)
  | transfer (sender receiver : Address) (amount now : ℕ)
  | cleanup (holder : Address) (limit now : ℕ)

/-- Makes a change; what it answers is left aside. -/
def operate : Operation → Action Pool Unit
  | .enter holder collateral price now => do let _ ← enter holder collateral price now
  | .exit holder shares backing now => do let _ ← exit holder shares backing now
  | .selfClose holder shares backing now => do let _ ← selfClose holder shares backing now
  | .withdrawFees holder amount => withdrawFees holder amount
  | .payFeeDebt holder amount => payFeeDebt holder amount
  | .depositFees amount => depositFees amount
  | .receiveCollateral amount => receiveCollateral amount
  | .payout holder collateral shares now => payout holder collateral shares now
  | .updateSettings settings => updateSettings settings
  | .transfer sender receiver amount now => transfer sender receiver amount now
  | .cleanup holder limit now => do let _ ← cleanup holder limit now

/-- The operations all succeed, one after the other, and lead from `p` to `q`. -/
def Run (p : Pool) (ops : List Operation) (q : Pool) : Prop :=
  (forM ops operate : Action Pool Unit).run p = .ok () q

variable {p q m : Pool} {op : Operation} {ops rest : List Operation}

/-! ## What becomes of an answer -/

section Answers

variable {holder : Address} {now : ℕ}

theorem operate_enter_ok {collateral : ℕ} {price : Option Price}
    (h : (operate (.enter holder collateral price now)).run p = .ok () q) :
    ∃ receipt, (enter holder collateral price now).run p = .ok receipt q := by
  obtain ⟨receipt, _, henter, hreturn⟩ := run_bind_eq_ok_iff.mp h
  cases hreturn
  exact ⟨receipt, henter⟩

/-- An exit carries out what it has planned. -/
theorem operate_exit_ok {shares : ℕ} {backing : Backing}
    (h : (operate (.exit holder shares backing now)).run p = .ok () q) :
    ∃ quote, p.planExit holder shares backing now = .ok quote ∧
      (carryOut holder quote now).run p = .ok () q := by
  obtain ⟨receipt, _, hexit, hreturn⟩ := run_bind_eq_ok_iff.mp h
  cases hreturn
  obtain ⟨quote, hplan, hcarry, -⟩ := exit_ok hexit
  exact ⟨quote, hplan, hcarry⟩

/-- A self-close exit carries out what it has planned. -/
theorem operate_selfClose_ok {shares : ℕ} {backing : Backing}
    (h : (operate (.selfClose holder shares backing now)).run p = .ok () q) :
    ∃ plan, p.planSelfClose holder shares backing now = .ok plan ∧
      (carryOut holder plan.quote now).run p = .ok () q := by
  obtain ⟨⟨plan, receipt⟩, _, hclose, hreturn⟩ := run_bind_eq_ok_iff.mp h
  cases hreturn
  exact ⟨plan, selfClose_ok hclose⟩

theorem operate_cleanup_ok {limit : ℕ}
    (h : (operate (.cleanup holder limit now)).run p = .ok () q) :
    ∃ done, (cleanup holder limit now).run p = .ok done q := by
  obtain ⟨done, _, hclean, hreturn⟩ := run_bind_eq_ok_iff.mp h
  cases hreturn
  exact ⟨done, hclean⟩

end Answers

/-! ## Runs -/

theorem run_nil : Run p [] q ↔ q = p := by
  unfold Run
  rw [List.forM_nil, EStateM.run_pure, EStateM.Result.ok.injEq]
  exact ⟨fun h => h.2.symm, fun h => ⟨rfl, h.symm⟩⟩

theorem run_cons : Run p (op :: ops) q ↔ ∃ m, (operate op).run p = .ok () m ∧ Run m ops q := by
  unfold Run
  rw [List.forM_cons, run_bind_eq_ok_iff]
  exact ⟨fun ⟨_, m, hop, hops⟩ => ⟨m, hop, hops⟩, fun ⟨m, hop, hops⟩ => ⟨(), m, hop, hops⟩⟩

theorem run_append : Run p (ops ++ rest) q ↔ ∃ m, Run p ops m ∧ Run m rest q := by
  induction ops generalizing p with
  | nil =>
    simp only [List.nil_append, run_nil]
    exact ⟨fun h => ⟨p, rfl, h⟩, fun ⟨_, hm, h⟩ => hm ▸ h⟩
  | cons op ops ih =>
    simp only [List.cons_append, run_cons, ih]
    constructor
    · intro hparts
      obtain ⟨u, hop, m, hops, hrest⟩ := hparts
      exact ⟨m, ⟨u, hop, hops⟩, hrest⟩
    · intro hparts
      obtain ⟨m, ⟨u, hop, hops⟩, hrest⟩ := hparts
      exact ⟨u, hop, m, hops, hrest⟩

/-- A run leads to one pool. -/
theorem Run.unique (h : Run p ops q) (h' : Run p ops m) : q = m := by
  unfold Run at h h'
  rw [h] at h'
  cases h'
  rfl

/-- What a run leads to when nothing in it fails. -/
theorem run_stateAfter (h : outcome (forM ops operate : Action Pool Unit) p = .ok ()) :
    Run p ops (stateAfter (forM ops operate : Action Pool Unit) p) := run_of_outcome h

theorem Run.stateAfter_eq (h : Run p ops q) :
    stateAfter (forM ops operate : Action Pool Unit) p = q := by
  unfold Run at h
  unfold stateAfter
  rw [h]

/-- What every operation preserves, every run preserves. -/
theorem Run.preserves {good : Pool → Prop}
    (hstep : ∀ {p q op}, (operate op).run p = .ok () q → good p → good q) (h : Run p ops q)
    (hp : good p) : good q := by
  induction ops generalizing p with
  | nil =>
    rw [run_nil] at h
    exact h ▸ hp
  | cons op ops ih =>
    obtain ⟨m, hop, hops⟩ := run_cons.mp h
    exact ih hops (hstep hop hp)

/-! ## Soundness -/

/-- The holders that an operation names. -/
def Operation.holders : Operation → List Address
  | .enter holder .. => [holder]
  | .exit holder .. => [holder]
  | .selfClose holder .. => [holder]
  | .withdrawFees holder _ => [holder]
  | .payFeeDebt holder _ => [holder]
  | .depositFees _ => []
  | .receiveCollateral _ => []
  | .payout holder .. => [holder]
  | .updateSettings _ => []
  | .transfer sender receiver .. => [sender, receiver]
  | .cleanup holder .. => [holder]

/-- An operation touches only the holders that it names, and a sound pool stays
sound. -/
theorem operate_confined (op : Operation) : Always (Confined op.holders) (operate op) := by
  cases op with
  | enter => exact (enter_confined _ _ _ _).bind fun _ => always_pure _
  | exit => exact (exit_confined _ _ _ _).bind fun _ => always_pure _
  | selfClose holder shares backing now =>
    refine Always.bind ?_ fun _ => always_pure _
    refine always_get.bind fun _ => (always_lift _).bind fun plan => ?_
    exact (applySelfClose_confined holder plan now).bind fun _ => always_pure _
  | withdrawFees => exact withdrawFees_confined _ _
  | payFeeDebt => exact payFeeDebt_confined _ _
  | depositFees => exact depositFees_confined _
  | receiveCollateral => exact receiveCollateral_confined _
  | payout => exact payout_confined _ _ _ _
  | updateSettings => exact updateSettings_confined _
  | transfer => exact transfer_confined _ _ _ _
  | cleanup => exact (cleanup_confined _ _ _).bind fun _ => always_pure _

theorem operate_sound (h : (operate op).run p = .ok () q) (hp : p.Sound) : q.Sound :=
  ((operate_confined op p).of_ok h).sound hp

theorem Run.sound (h : Run p ops q) (hp : p.Sound) : q.Sound := h.preserves operate_sound hp

/-! ## A pool to try -/

/-- A holder of many shares. -/
def rich : Address := ⟨10, by decide⟩

/-- A holder of few shares. -/
def poor : Address := ⟨11, by decide⟩

/-- Settings without locks, and with floors of one. -/
def looseSettings : Settings where
  exitRatio := 20000
  lockDuration := 0
  minEntry := 1
  minSupplyAfterExit := 1
  minCollateralAfterExit := 1

/-- A fresh pool under loose settings. -/
def freshPool : Pool where
  settings := looseSettings
  collateral := 0
  feeReserve := 0
  shares := ShareBook.empty
  fees := FeeBook.empty

/-- The pool that a run leads to from a fresh one. -/
def reached (ops : List Operation) : Pool :=
  stateAfter (forM ops operate : Action Pool Unit) freshPool

end PooledCollateral.Pool
