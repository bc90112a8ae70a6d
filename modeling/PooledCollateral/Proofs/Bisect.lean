/-
PooledCollateral.Proofs.Bisect — what a search by halving finds in an ordered
list.

A list is in order for a search when what comes before the element sought stands
in front and what comes after it stands behind. There the search finds the
element (`search_found`), or the place where it belongs (`search_missing`), and
a split point counts the elements that pass the test (`splitPoint_append`).
-/
import PooledCollateral.Bisect

namespace PooledCollateral.Bisect

/-- The window always holds the last of the `n` elements that do not come after
what is sought. -/
theorem narrow_eq {compareAt : Nat → Ordering} {n base size : Nat}
    (hcompare : ∀ i, compareAt i = .gt ↔ n ≤ i) (hbase : base ≤ n - 1)
    (hn : n ≤ base + max size 1) : narrow compareAt base size = n - 1 := by
  fun_induction narrow compareAt base size with
  | case1 base size hsmall => omega
  | case2 base size hlarge half middle ih =>
    apply ih
    · split
      · exact hbase
      · rename_i hmiddle
        rw [hcompare] at hmiddle
        omega
    · split
      · rename_i hmiddle
        rw [hcompare] at hmiddle
        omega
      · omega

variable {α : Type} {compare : α → Ordering} {x : α} {l r xs : List α}

/-- As a search reads a list, what is not there comes after what is sought. -/
theorem compareAt_append_iff (hl : ∀ y ∈ l, compare y ≠ .gt) (hr : ∀ y ∈ r, compare y = .gt)
    (i : Nat) : (((l ++ r)[i]?.map compare).getD .gt = .gt) ↔ l.length ≤ i := by
  by_cases hi : i < l.length
  · have hne := hl l[i] (List.getElem_mem hi)
    simp [List.getElem?_append_left hi, hne, hi]
  · have hle : l.length ≤ i := Nat.le_of_not_lt hi
    rw [List.getElem?_append_right hle]
    cases hj : r[i - l.length]? with
    | none => simp [hle]
    | some y => simp [hr y (List.mem_of_getElem? hj), hle]

/-- Where everything comes after what is sought, its place is in front. -/
theorem search_of_gt (h : ∀ y ∈ xs, compare y = .gt) : search compare xs = .missing 0 := by
  have hcompare := compareAt_append_iff (l := []) (by simp) h
  have hbase : narrow (fun i => (xs[i]?.map compare).getD .gt) 0 xs.length = 0 :=
    narrow_eq (n := 0) hcompare (Nat.zero_le _) (Nat.zero_le _)
  have hfirst := (hcompare 0).mpr (Nat.zero_le _)
  simp only [List.nil_append] at hfirst
  simp only [search, hbase, hfirst]

/-- The search ends at the last element that does not come after what is
sought. -/
theorem search_append (hl : ∀ y ∈ l, compare y ≠ .gt) (hx : compare x ≠ .gt)
    (hr : ∀ y ∈ r, compare y = .gt) :
    search compare (l ++ x :: r) =
      if compare x = .eq then .found l.length else .missing (l.length + 1) := by
  have hfront : ∀ y ∈ l ++ [x], compare y ≠ .gt := by
    intro y hy
    rcases List.mem_append.mp hy with hy | hy
    · exact hl y hy
    · rw [List.mem_singleton.mp hy]
      exact hx
  have hsplit : l ++ x :: r = (l ++ [x]) ++ r := by simp
  have hbase : narrow (fun i => ((l ++ x :: r)[i]?.map compare).getD .gt) 0 (l ++ x :: r).length
      = l.length := by
    have hlength : (l ++ [x]).length ≤ 0 + max (l ++ [x] ++ r).length 1 := by
      simp only [List.length_append, List.length_singleton]
      omega
    rw [hsplit, narrow_eq (compareAt_append_iff hfront hr) (Nat.zero_le _) hlength]
    simp
  simp only [search, hbase]
  cases hcompare : compare x <;> simp_all

/-- What is in the list is found. -/
theorem search_found (hl : ∀ y ∈ l, compare y = .lt) (hx : compare x = .eq)
    (hr : ∀ y ∈ r, compare y = .gt) : search compare (l ++ x :: r) = .found l.length := by
  rw [search_append (fun y hy => by simp [hl y hy]) (by simp [hx]) hr, if_pos hx]

/-- What is not in the list belongs between what comes before and what comes
after. -/
theorem search_missing (hl : ∀ y ∈ l, compare y = .lt) (hr : ∀ y ∈ r, compare y = .gt) :
    search compare (l ++ r) = .missing l.length := by
  rcases List.eq_nil_or_concat l with rfl | ⟨front, x, rfl⟩
  · exact search_of_gt hr
  · have hx : compare x = .lt := hl x (by simp)
    rw [List.concat_eq_append, List.append_assoc, List.singleton_append,
      search_append (fun y hy => by simp [hl y (by simp [hy])]) (by simp [hx]) hr]
    simp [hx]

/-- A split point counts the elements in front that pass the test. -/
theorem splitPoint_append {test : α → Bool} (hl : ∀ y ∈ l, test y = true)
    (hr : ∀ y ∈ r, test y = false) : splitPoint test (l ++ r) = l.length := by
  unfold splitPoint
  rw [search_missing (fun y hy => by simp [hl y hy]) (fun y hy => by simp [hr y hy])]

end PooledCollateral.Bisect
