/-
PooledCollateral.Snapshot.Codec — the byte form of a snapshot.

The fields follow one another in the order of their declaration. A number takes
a fixed number of bytes, least significant first: sixteen for an amount, eight
for a time, a duration and a count, four for the exit ratio. An address is its
twenty bytes. A list is the count of its elements and then the elements.
`decode?` reads a snapshot from the front of a byte string and leaves what
comes after it unread.
-/
import PooledCollateral.Snapshot.Basic

namespace PooledCollateral.Snapshot.Codec

/-! ## Writing -/

/-- An amount, in sixteen bytes. -/
def amount (n : Nat) : List UInt8 := Bytes.ofNat 16 n

/-- A time, a duration or a count, in eight bytes. -/
def word (n : Nat) : List UInt8 := Bytes.ofNat 8 n

/-- A list: its count, then its elements. -/
def list {α : Type} (write : α → List UInt8) (xs : List α) : List UInt8 :=
  word xs.length ++ xs.flatMap write

def lock (l : Lock) : List UInt8 := amount l.amount ++ word l.unlockTime

def totals (t : Totals) : List UInt8 :=
  amount t.collateral ++ amount t.feeReserve ++ amount t.feeDebt ++ amount t.feeCredit ++
    amount t.supply

def settings (s : Settings) : List UInt8 :=
  Bytes.ofNat 4 s.exitRatio ++ word s.lockDuration ++ amount s.minEntry ++
    amount s.minSupplyAfterExit ++ amount s.minCollateralAfterExit

def row (r : HolderRow) : List UInt8 :=
  r.address.toBytes ++ amount r.balance ++ amount r.feeDebt ++ amount r.feeCredit ++
    list lock r.locks

/-- The byte form of a snapshot. -/
def encode (s : Snapshot) : List UInt8 := totals s.totals ++ settings s.settings ++ list row s.rows

/-! ## Reading -/

/-- Reads a value from the front of a byte string and returns the rest. -/
abbrev Reader (α : Type) := StateT (List UInt8) Option α

/-- Reads a number of bytes, which must all be there. -/
def readBytes (count : Nat) : Reader (List UInt8) := fun bytes =>
  if count ≤ bytes.length then some (bytes.take count, bytes.drop count) else none

/-- Reads a number of `width` bytes. -/
def readNat (width : Nat) : Reader Nat := return Bytes.toNat (← readBytes width)

def readAmount : Reader Nat := readNat 16

def readWord : Reader Nat := readNat 8

/-- Reads so many elements. -/
def readMany {α : Type} (read : Reader α) : Nat → Reader (List α)
  | 0 => return []
  | count + 1 => return (← read) :: (← readMany read count)

/-- Reads a count and then so many elements. -/
def readList {α : Type} (read : Reader α) : Reader (List α) := do readMany read (← readWord)

def readAddress : Reader Address := fun bytes => do
  let (front, rest) ← readBytes 20 bytes
  return (← Address.ofBytes? front, rest)

def readLock : Reader Lock := return { amount := ← readAmount, unlockTime := ← readWord }

def readTotals : Reader Totals :=
  return { collateral := ← readAmount, feeReserve := ← readAmount, feeDebt := ← readAmount,
           feeCredit := ← readAmount, supply := ← readAmount }

def readSettings : Reader Settings :=
  return { exitRatio := ← readNat 4, lockDuration := ← readWord, minEntry := ← readAmount,
           minSupplyAfterExit := ← readAmount, minCollateralAfterExit := ← readAmount }

def readRow : Reader HolderRow :=
  return { address := ← readAddress, balance := ← readAmount, feeDebt := ← readAmount,
           feeCredit := ← readAmount, locks := ← readList readLock }

/-- Reads a snapshot. -/
def read : Reader Snapshot :=
  return { totals := ← readTotals, settings := ← readSettings, rows := ← readList readRow }

/-- The snapshot at the front of a byte string. -/
def decode? (bytes : List UInt8) : Option Snapshot := (read bytes).map (·.1)

end PooledCollateral.Snapshot.Codec
