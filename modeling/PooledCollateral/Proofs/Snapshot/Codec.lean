/-
PooledCollateral.Proofs.Snapshot.Codec — what is written can be read, and nothing
else can.

A value `Fits` when every number in it fits the width that the byte form gives
it. A reader is `Exact` for a writer when it accepts just the written form of a
value that fits, with anything behind it, which it leaves unread. Numbers,
addresses and lists are read exactly, and so is every record made of them, up to
the whole snapshot (`exact_read`).

So a snapshot that fits is read back from in front of whatever follows, a byte
string that can be read at all starts with the one byte form of what is read, and
a file of any other bytes is refused (`codec_exact`).
-/
import PooledCollateral.Store

namespace PooledCollateral

/-! ## What fits -/

/-- The numbers of a lock fit their widths. -/
structure Lock.Fits (l : Lock) : Prop where
  amount : l.amount < Bytes.count 16
  unlockTime : l.unlockTime < Bytes.count 8

/-- The totals fit their widths. -/
structure Totals.Fits (t : Totals) : Prop where
  collateral : t.collateral < Bytes.count 16
  feeReserve : t.feeReserve < Bytes.count 16
  feeDebt : t.feeDebt < Bytes.count 16
  feeCredit : t.feeCredit < Bytes.count 16
  supply : t.supply < Bytes.count 16

/-- The settings fit their widths. -/
structure Settings.Fits (s : Settings) : Prop where
  exitRatio : s.exitRatio < Bytes.count 4
  lockDuration : s.lockDuration < Bytes.count 8
  minEntry : s.minEntry < Bytes.count 16
  minSupplyAfterExit : s.minSupplyAfterExit < Bytes.count 16
  minCollateralAfterExit : s.minCollateralAfterExit < Bytes.count 16

/-- The numbers of a row fit their widths, and so does the count of its locks. -/
structure HolderRow.Fits (r : HolderRow) : Prop where
  balance : r.balance < Bytes.count 16
  feeDebt : r.feeDebt < Bytes.count 16
  feeCredit : r.feeCredit < Bytes.count 16
  locks : r.locks.length < Bytes.count 8 ∧ ∀ l ∈ r.locks, l.Fits

/-- All numbers of a snapshot fit their widths, and so does the count of its rows. -/
structure Snapshot.Fits (s : Snapshot) : Prop where
  totals : s.totals.Fits
  settings : s.settings.Fits
  rows : s.rows.length < Bytes.count 8 ∧ ∀ r ∈ s.rows, r.Fits

/-- Sixteen bytes are wide enough for just the amounts, and eight for just the times. -/
example : Bytes.count 16 = Amount.max + 1 ∧ Bytes.count 8 = maxTime + 1 := by decide

namespace Snapshot.Codec

variable {α β : Type} {bytes rest : List UInt8}

/-! ## Steps of a reader -/

theorem bind_eq_some_iff {x : Reader α} {f : α → Reader β} {b : β} :
    (x >>= f) bytes = some (b, rest) ↔
      ∃ a mid, x bytes = some (a, mid) ∧ f a mid = some (b, rest) := by
  simp [bind, StateT.bind, Option.bind_eq_some_iff]

theorem pure_eq_some_iff {a b : α} :
    (pure a : Reader α) bytes = some (b, rest) ↔ a = b ∧ bytes = rest := by
  show some (a, bytes) = some (b, rest) ↔ _
  rw [Option.some.injEq, Prod.mk.injEq]

/-! ## Exact readers -/

/-- The reader accepts just what the writer writes for a value that fits, and
leaves everything behind it unread. -/
def Exact (read : Reader α) (write : α → List UInt8) (fits : α → Prop) : Prop :=
  ∀ bytes a rest, read bytes = some (a, rest) ↔ fits a ∧ bytes = write a ++ rest

theorem exact_readBytes (count : Nat) : Exact (readBytes count) id (·.length = count) := by
  intro bytes front rest
  unfold readBytes
  by_cases h : count ≤ bytes.length
  · rw [if_pos h, Option.some.injEq, Prod.mk.injEq]
    constructor
    · rintro ⟨rfl, rfl⟩
      simp [h]
    · rintro ⟨rfl, rfl⟩
      simp
  · rw [if_neg h]
    constructor
    · intro hnone
      cases hnone
    · rintro ⟨rfl, rfl⟩
      simp at h

/-- A number is read exactly if it fits its width. -/
theorem exact_readNat (width : Nat) :
    Exact (readNat width) (Bytes.ofNat width) (· < Bytes.count width) := by
  intro bytes n rest
  simp only [readNat, bind_eq_some_iff, pure_eq_some_iff, (exact_readBytes width) _ _ _]
  constructor
  · rintro ⟨front, _, ⟨rfl, rfl⟩, rfl, rfl⟩
    exact ⟨Bytes.toNat_lt front, by rw [Bytes.ofNat_toNat, id]⟩
  · rintro ⟨hn, rfl⟩
    exact ⟨_, rest, ⟨Bytes.length_ofNat width n, rfl⟩, Bytes.toNat_ofNat hn, rfl⟩

theorem exact_readAmount : Exact readAmount amount (· < Bytes.count 16) := exact_readNat 16

theorem exact_readWord : Exact readWord word (· < Bytes.count 8) := exact_readNat 8

/-- Every address is read exactly: twenty bytes always are one. -/
theorem exact_readAddress : Exact readAddress Address.toBytes fun _ => True := by
  intro bytes a rest
  have hread : readAddress bytes = some (a, rest) ↔
      ∃ front, readBytes 20 bytes = some (front, rest) ∧ Address.ofBytes? front = some a := by
    simp only [readAddress, Option.bind_eq_bind, Option.bind_eq_some_iff, Prod.exists,
      Option.pure_def, Option.some.injEq, Prod.mk.injEq]
    constructor
    · rintro ⟨front, _, hfront, _, ha, rfl, rfl⟩
      exact ⟨front, hfront, ha⟩
    · rintro ⟨front, hfront, ha⟩
      exact ⟨front, rest, hfront, a, ha, rfl, rfl⟩
  rw [hread]
  simp only [(exact_readBytes 20) _ _ _, true_and]
  constructor
  · rintro ⟨front, ⟨-, rfl⟩, ha⟩
    rw [Address.toBytes_of_ofBytes? ha, id]
  · rintro rfl
    exact ⟨a.toBytes, ⟨Address.length_toBytes a, rfl⟩, Address.ofBytes?_toBytes a⟩

/-! ## Lists -/

section Lists

variable {read : Reader α} {write : α → List UInt8} {fits : α → Prop}

/-- By induction on the count: so many elements are read exactly if each of them
is. -/
theorem exact_readMany (h : Exact read write fits) (count : Nat) :
    Exact (readMany read count) (·.flatMap write)
      (fun xs => xs.length = count ∧ ∀ x ∈ xs, fits x) := by
  induction count with
  | zero =>
    intro bytes xs rest
    simp only [readMany, pure_eq_some_iff]
    constructor
    · rintro ⟨rfl, rfl⟩
      simp
    · rintro ⟨⟨hlength, -⟩, rfl⟩
      simp [List.eq_nil_of_length_eq_zero hlength]
  | succ count ih =>
    intro bytes xs rest
    simp only [readMany, bind_eq_some_iff, pure_eq_some_iff, h _ _ _, ih _ _ _]
    constructor
    · rintro ⟨x, _, ⟨hx, rfl⟩, xs, _, ⟨⟨hlength, hxs⟩, rfl⟩, rfl, rfl⟩
      simpa [hlength, hx] using hxs
    · rintro ⟨⟨hlength, hxs⟩, rfl⟩
      cases xs with
      | nil => simp at hlength
      | cons x xs =>
        obtain ⟨hx, hxs⟩ := List.forall_mem_cons.mp hxs
        have hcount : xs.length = count := by simpa using hlength
        exact ⟨x, _, ⟨hx, by simp⟩, xs, rest, ⟨⟨hcount, hxs⟩, rfl⟩, rfl, rfl⟩

/-- A list is read exactly if its count fits: a count that promises more than
there is finds no reading. -/
theorem exact_readList (h : Exact read write fits) :
    Exact (readList read) (list write)
      (fun xs => xs.length < Bytes.count 8 ∧ ∀ x ∈ xs, fits x) := by
  intro bytes xs rest
  simp only [readList, bind_eq_some_iff, exact_readWord _ _ _, exact_readMany h _ _ _ _]
  constructor
  · rintro ⟨_, _, ⟨hcount, rfl⟩, ⟨rfl, hxs⟩, rfl⟩
    exact ⟨⟨hcount, hxs⟩, by simp [list]⟩
  · rintro ⟨⟨hcount, hxs⟩, rfl⟩
    exact ⟨_, _, ⟨hcount, by simp [list]⟩, ⟨rfl, hxs⟩, rfl⟩

end Lists

/-! ## Records

The fields of a record are read one behind the other, so that it is read exactly
because each of them is. -/

theorem exact_readLock : Exact readLock lock Lock.Fits := by
  intro bytes l rest
  simp only [readLock, bind_eq_some_iff, pure_eq_some_iff, exact_readAmount _ _ _,
    exact_readWord _ _ _]
  constructor
  · rintro ⟨amount, _, ⟨hamount, rfl⟩, time, _, ⟨htime, rfl⟩, rfl, rfl⟩
    exact ⟨⟨hamount, htime⟩, by simp [lock]⟩
  · rintro ⟨h, rfl⟩
    exact ⟨_, _, ⟨h.amount, by simp [lock]⟩, _, _, ⟨h.unlockTime, rfl⟩, rfl, rfl⟩

theorem exact_readTotals : Exact readTotals totals Totals.Fits := by
  intro bytes t rest
  simp only [readTotals, bind_eq_some_iff, pure_eq_some_iff, exact_readAmount _ _ _]
  constructor
  · rintro ⟨_, _, ⟨hcollateral, rfl⟩, _, _, ⟨hreserve, rfl⟩, _, _, ⟨hdebt, rfl⟩, _, _,
      ⟨hcredit, rfl⟩, _, _, ⟨hsupply, rfl⟩, rfl, rfl⟩
    exact ⟨⟨hcollateral, hreserve, hdebt, hcredit, hsupply⟩, by simp [totals]⟩
  · rintro ⟨h, rfl⟩
    exact ⟨_, _, ⟨h.collateral, by simp [totals]⟩, _, _, ⟨h.feeReserve, rfl⟩, _, _,
      ⟨h.feeDebt, rfl⟩, _, _, ⟨h.feeCredit, rfl⟩, _, _, ⟨h.supply, rfl⟩, rfl, rfl⟩

theorem exact_readSettings : Exact readSettings settings Settings.Fits := by
  intro bytes s rest
  simp only [readSettings, bind_eq_some_iff, pure_eq_some_iff, exact_readAmount _ _ _,
    exact_readWord _ _ _, (exact_readNat 4) _ _ _]
  constructor
  · rintro ⟨_, _, ⟨hratio, rfl⟩, _, _, ⟨hduration, rfl⟩, _, _, ⟨hentry, rfl⟩, _, _,
      ⟨hsupply, rfl⟩, _, _, ⟨hcollateral, rfl⟩, rfl, rfl⟩
    exact ⟨⟨hratio, hduration, hentry, hsupply, hcollateral⟩, by simp [settings]⟩
  · rintro ⟨h, rfl⟩
    exact ⟨_, _, ⟨h.exitRatio, by simp [settings]⟩, _, _, ⟨h.lockDuration, rfl⟩, _, _,
      ⟨h.minEntry, rfl⟩, _, _, ⟨h.minSupplyAfterExit, rfl⟩, _, _,
      ⟨h.minCollateralAfterExit, rfl⟩, rfl, rfl⟩

theorem exact_readRow : Exact readRow row HolderRow.Fits := by
  intro bytes r rest
  simp only [readRow, bind_eq_some_iff, pure_eq_some_iff, exact_readAmount _ _ _,
    exact_readAddress _ _ _, exact_readList exact_readLock _ _ _, true_and]
  constructor
  · rintro ⟨_, _, rfl, _, _, ⟨hbalance, rfl⟩, _, _, ⟨hdebt, rfl⟩, _, _, ⟨hcredit, rfl⟩, _, _,
      ⟨hlocks, rfl⟩, rfl, rfl⟩
    exact ⟨⟨hbalance, hdebt, hcredit, hlocks⟩, by simp [row]⟩
  · rintro ⟨h, rfl⟩
    exact ⟨_, _, by simp [row], _, _, ⟨h.balance, rfl⟩, _, _, ⟨h.feeDebt, rfl⟩, _, _,
      ⟨h.feeCredit, rfl⟩, _, _, ⟨h.locks, rfl⟩, rfl, rfl⟩

/-- A snapshot is read exactly. -/
theorem exact_read : Exact read encode Snapshot.Fits := by
  intro bytes s rest
  simp only [read, bind_eq_some_iff, pure_eq_some_iff, exact_readTotals _ _ _,
    exact_readSettings _ _ _, exact_readList exact_readRow _ _ _]
  constructor
  · rintro ⟨_, _, ⟨htotals, rfl⟩, _, _, ⟨hsettings, rfl⟩, _, _, ⟨hrows, rfl⟩, rfl, rfl⟩
    exact ⟨⟨htotals, hsettings, hrows⟩, by simp [encode]⟩
  · rintro ⟨h, rfl⟩
    exact ⟨_, _, ⟨h.totals, by simp [encode]⟩, _, _, ⟨h.settings, rfl⟩, _, _, ⟨h.rows, rfl⟩,
      rfl, rfl⟩

/-! ## Snapshots and files -/

/-- A byte string is read as a snapshot just if it starts with the byte form of
it, and the snapshot fits. -/
theorem decode?_eq_some_iff {s : Snapshot} :
    decode? bytes = some s ↔ s.Fits ∧ encode s <+: bytes := by
  have hread : decode? bytes = some s ↔ ∃ rest, read bytes = some (s, rest) := by
    simp [decode?]
  rw [hread]
  simp only [exact_read _ _ _, exists_and_left]
  simp [List.IsPrefix, eq_comm]

/-- Opening a file gives what can be read from its front, or refuses it. -/
theorem ofFile_eq_ok_iff {s : Snapshot} :
    FileStore.ofFile (some bytes) = .ok { file := some bytes, cached := some s } ↔
      decode? bytes = some s := by
  unfold FileStore.ofFile
  cases hdecode : decode? bytes <;> simp [hdecode, reject]

theorem ofFile_eq_truncated_iff :
    FileStore.ofFile (some bytes) = reject (.storage .truncated) ↔ decode? bytes = none := by
  unfold FileStore.ofFile
  cases hdecode : decode? bytes <;> simp [hdecode, reject]

/-- Reading undoes writing, whatever follows what was written, for just the
snapshots that fit; whatever is read was written so; and a file that does not
start with the byte form of a snapshot that fits is refused. -/
theorem codec_exact :
    (∀ s rest, decode? (encode s ++ rest) = some s ↔ s.Fits) ∧
      (∀ bytes s, decode? bytes = some s ↔ s.Fits ∧ encode s <+: bytes) ∧
      (∀ bytes s, FileStore.ofFile (some bytes) = .ok { file := some bytes, cached := some s } ↔
        s.Fits ∧ encode s <+: bytes) ∧
      ∀ bytes, FileStore.ofFile (some bytes) = reject (.storage .truncated) ↔
        ¬ ∃ s : Snapshot, s.Fits ∧ encode s <+: bytes := by
  refine ⟨fun s rest => ?_, fun _ _ => decode?_eq_some_iff, fun bytes s => ?_, fun bytes => ?_⟩
  · simp [decode?_eq_some_iff]
  · rw [ofFile_eq_ok_iff, decode?_eq_some_iff]
  · simp [ofFile_eq_truncated_iff, Option.eq_none_iff_forall_ne_some, decode?_eq_some_iff]

end Snapshot.Codec

end PooledCollateral
