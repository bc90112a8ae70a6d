/-
PooledCollateral.Store — where the state of a pool is kept between runs.

A store holds at most one snapshot and folds deltas into it. `MemoryStore`
keeps the snapshot itself. `FileStore` keeps its byte form in a file, and beside
it the snapshot last read or written; opening a file reads the snapshot back, or
refuses a file that is cut short.

Commits can fail: a store in memory can be made to refuse them, and a file cannot
always be written. How the commits to come will end is part of a store, one answer
for each of them, so a store may take a commit and refuse the next. A commit uses
its answer up, and one that fails leaves what the store holds.
-/
import PooledCollateral.Snapshot.Codec

namespace PooledCollateral

/-! ## In memory -/

/-- A store in memory. -/
structure MemoryStore where
  held : Option Snapshot
  /-- Whether the commits to come are refused, the next one first. -/
  refusals : Nat → Bool := fun _ => false

namespace MemoryStore

/-- A store that holds nothing, and refuses nothing. -/
def empty : MemoryStore := { held := none }

/-- Folds a delta into the store. -/
def commit (delta : Delta) : Action MemoryStore Unit := do
  let store ← get
  set { store with refusals := fun n => store.refusals (n + 1) }
  require (store.refusals 0 = false) (.storage .commitRejected)
  modify fun store => { store with held := some (Snapshot.fold store.held delta) }

end MemoryStore

/-! ## In a file -/

/-- A store in a file. -/
structure FileStore where
  /-- The bytes of the file, if there is one. -/
  file : Option (List UInt8)
  /-- The snapshot last read or written. -/
  cached : Option Snapshot
  /-- What the operating system says to the writes to come, the next one first:
  nothing if the file is written, and else why it is not. -/
  failures : Nat → Option String := fun _ => none

namespace FileStore

/-- Opens a store over what a file is read as. A file that is there but cannot be
read is left out. -/
def ofFile (file : Option (List UInt8)) : Checked FileStore :=
  match file with
  | none => .ok { file := none, cached := none }
  | some bytes =>
    match Snapshot.Codec.decode? bytes with
    | some s => .ok { file := some bytes, cached := some s }
    | none => reject (.storage .truncated)

/-- Writes a snapshot. The bytes go to a file of their own first, which replaces
the old one only when it is complete, so a write that fails leaves the old one. -/
def write (s : Snapshot) : Action FileStore Unit := do
  let store ← get
  set { store with failures := fun n => store.failures (n + 1) }
  if let some text := store.failures 0 then
    throw (.rejected (.storage (.other text)))
  modify fun store => { store with file := some (Snapshot.Codec.encode s) }

/-- Folds a delta into the store and writes the whole file anew. -/
def commit (delta : Delta) : Action FileStore Unit := do
  let next := Snapshot.fold (← get).cached delta
  write next
  modify fun store => { store with cached := some next }

end FileStore

/-! ## Either -/

/-- A store of either kind. -/
inductive Store
  | memory (store : MemoryStore)
  | file (store : FileStore)

namespace Store

/-- The snapshot that the store holds. -/
def load : Store → Option Snapshot
  | memory store => store.held
  | file store => store.cached

/-- Folds a delta into the store. -/
def commit (delta : Delta) : Action Store Unit := do
  match ← get with
  | memory store => (MemoryStore.commit delta).onPart (fun _ => store) fun _ => memory
  | file store => (FileStore.commit delta).onPart (fun _ => store) fun _ => file

/-- The store as a later run finds it: a file is opened again. -/
def reopen : Store → Checked Store
  | memory store => .ok (memory store)
  | file store => do
    let opened ← FileStore.ofFile store.file
    return file { opened with failures := store.failures }

/-- The store with other answers to the commits to come, if it is in memory. -/
def withRefusals (store : Store) (refusals : Nat → Bool) : Store :=
  match store with
  | memory store => memory { store with refusals }
  | file store => file store

/-- The store with other answers to the writes to come, if it is in a file. -/
def withFailures (store : Store) (failures : Nat → Option String) : Store :=
  match store with
  | memory store => memory store
  | file store => file { store with failures }

@[simp] theorem load_withRefusals (store : Store) (refusals : Nat → Bool) :
    (store.withRefusals refusals).load = store.load := by
  cases store <;> rfl

@[simp] theorem load_withFailures (store : Store) (failures : Nat → Option String) :
    (store.withFailures failures).load = store.load := by
  cases store <;> rfl

end Store

end PooledCollateral
