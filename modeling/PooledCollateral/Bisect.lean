/-
PooledCollateral.Bisect — search by halving in an ordered list.

The search keeps a window of the list, looks at its middle, and goes on in the
half that can still hold what is sought, until one element is left. On a list
that is in order it finds the element sought, or the place where it belongs;
on any other list it still ends, at whatever place the comparisons lead to.
-/

namespace PooledCollateral.Bisect

/-- Where a search ended. -/
inductive Place
  /-- The element sought is here. -/
  | found (index : Nat)
  /-- The element sought is not in the list and belongs here. -/
  | missing (index : Nat)
  deriving DecidableEq

/-- The one element left of the window of `size` elements from `base`. The
comparison says where the element at an index lies as seen from what is
sought. -/
def narrow (compareAt : Nat → Ordering) (base size : Nat) : Nat :=
  if size ≤ 1 then base
  else
    let half := size / 2
    let middle := base + half
    narrow compareAt (if compareAt middle = .gt then base else middle) (size - half)
termination_by size

/-- Searches a list by a comparison of its elements with what is sought. -/
def search {α : Type} (compare : α → Ordering) (xs : List α) : Place :=
  let compareAt := fun i => (xs[i]?.map compare).getD .gt
  let base := narrow compareAt 0 xs.length
  match compareAt base with
  | .eq => .found base
  | .lt => .missing (base + 1)
  | .gt => .missing base

/-- How many elements come before the first that fails the test, in a list
where no element that passes comes after one that fails. -/
def splitPoint {α : Type} (test : α → Bool) (xs : List α) : Nat :=
  match search (fun x => if test x then .lt else .gt) xs with
  | .found i => i
  | .missing i => i

end PooledCollateral.Bisect
