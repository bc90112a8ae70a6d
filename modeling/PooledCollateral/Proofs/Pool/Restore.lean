/-
PooledCollateral.Proofs.Pool.Restore — a checkpoint undoes an operation.

A checkpoint keeps the totals, the settings and the rows of some holders. Rows
that are put back are written over those that are there (`books_foldl_putRow`).
So after a change that touches no other rows, restoring a checkpoint brings back
everything that can be read off the pool (`books_restore`), however far the
change has got.
-/
import PooledCollateral.Pool.Checkpoint
import PooledCollateral.Proofs.Pool.Books
import PooledCollateral.Proofs.Snapshot

namespace PooledCollateral

open Function

/-- What a checkpoint row says of its holder. -/
def CheckpointRow.toHolderRow (row : CheckpointRow) : HolderRow where
  address := row.holder
  balance := (row.account.getD Account.empty).balance
  feeDebt := row.debt
  feeCredit := row.credit
  locks := (row.account.getD Account.empty).locks.locks

namespace Pool

variable {p q : Pool}

/-- Putting back a row writes it over the row of its holder. -/
theorem holderRow_putRow (q : Pool) (row : CheckpointRow) :
    (q.putRow row).holderRow = update q.holderRow row.holder row.toHolderRow := by
  refine holderRow_update ?_ ?_ ?_
  · exact ShareBook.accountOf_settle q.shares q.shares.supply row.holder _
  · exact Amounts.get_set_eq_update _ _ _
  · exact Amounts.get_set_eq_update _ _ _

/-- By induction on the rows put back: the totals and the settings stay, and the
rows are written one over the other. -/
theorem books_foldl_putRow (q : Pool) (rows : List CheckpointRow) :
    (rows.foldl putRow q).books =
      { q.books with
        row := Snapshot.overlay q.holderRow (rows.map CheckpointRow.toHolderRow) } := by
  induction rows generalizing q with
  | nil => rfl
  | cons row rows ih =>
    rw [List.foldl_cons, ih, holderRow_putRow]
    rfl

/-- The rows of a checkpoint are those of its holders. -/
theorem map_toHolderRow_checkpoint (p : Pool) (holders : List Address) :
    (p.checkpoint holders).rows.map CheckpointRow.toHolderRow = holders.map p.holderRow := by
  simp only [checkpoint, List.map_map]
  refine List.map_congr_left fun holder _ => ?_
  rw [holderRow_eq]
  rfl

/-- A checkpoint brings back what can be read off the pool, if no other rows
have been touched. -/
theorem books_restore {holders : List Address} (h : Confined holders p q) :
    (q.restore (p.checkpoint holders)).books = p.books := by
  have hrows : Snapshot.overlay q.holderRow (holders.map p.holderRow) = p.holderRow := by
    rw [Snapshot.overlay_map fun _ => rfl]
    funext other
    split
    · rfl
    · rename_i hother
      exact h.off other hother
  unfold restore
  rw [books_foldl_putRow, map_toHolderRow_checkpoint]
  exact congrArg (Books.mk p.totals p.settings) hrows

end Pool

end PooledCollateral
