/-
PooledCollateral.Proofs.Text.Numeral — which texts are read as a number.

`Writes text n` is the grammar: one or more digits that write `n`, behind at most
one plus sign, with white space before and after. Reading goes by steps, the white
space at the two ends first, then the sign, then the digits with a running value;
it accepts what the grammar accepts, up to its limit, and reads the number that is
written (`decode?_trim_eq_some_iff`). No digit and no sign is white space, so that
a numeral is where the trimming stops.
-/
import Mathlib.Data.List.DropRight
import Mathlib.Data.List.TakeWhile
import Mathlib.Data.Nat.Digits.Defs
import PooledCollateral.Text.Blank
import PooledCollateral.Text.Numeral

namespace PooledCollateral.Text

variable {text before body after ends digits : List Char} {c : Char} {limit n : ℕ}

/-! ## White space -/

namespace Blank

/-- Trimming takes white space off the two ends. -/
theorem trim_split (text : List Char) :
    ∃ before after, text = before ++ trim text ++ after ∧ ∀ c ∈ before ++ after, isBlank c := by
  have htrim : trim text = (text.dropWhile isBlank).rdropWhile isBlank := rfl
  refine ⟨text.takeWhile isBlank, (text.dropWhile isBlank).rtakeWhile isBlank, ?_, fun c hc => ?_⟩
  · rw [htrim, List.append_assoc, List.rdropWhile_append_rtakeWhile,
      List.takeWhile_append_dropWhile]
  · rcases List.mem_append.mp hc with hbefore | hafter
    · exact List.mem_takeWhile_imp hbefore
    · exact List.mem_rtakeWhile_imp hafter

/-- Dropping white space stops at the first character that is none. -/
theorem dropWhile_append (hends : ∀ c ∈ ends, isBlank c) (hbody : ∀ c ∈ body, ¬ isBlank c)
    (hne : body ≠ []) (rest : List Char) :
    (ends ++ (body ++ rest)).dropWhile isBlank = body ++ rest := by
  rw [List.dropWhile_append_of_pos hends]
  obtain ⟨first, others, rfl⟩ := List.exists_cons_of_ne_nil hne
  exact List.dropWhile_cons_of_neg (hbody first List.mem_cons_self)

/-- Trimming takes off all white space around a text that has none in it. -/
theorem trim_append (hends : ∀ c ∈ before ++ after, isBlank c) (hbody : ∀ c ∈ body, ¬ isBlank c)
    (hne : body ≠ []) : trim (before ++ body ++ after) = body := by
  have hfront : (before ++ (body ++ after)).dropWhile isBlank = body ++ after :=
    dropWhile_append (fun c hc => hends c (List.mem_append_left _ hc)) hbody hne after
  have hback : (after.reverse ++ (body.reverse ++ [])).dropWhile isBlank = body.reverse ++ [] :=
    dropWhile_append (fun c hc => hends c (List.mem_append_right _ (List.mem_reverse.mp hc)))
      (fun c hc => hbody c (List.mem_reverse.mp hc)) (by simpa using hne) []
  rw [List.append_nil] at hback
  unfold trim
  rw [List.append_assoc, hfront, List.reverse_append, hback, List.reverse_reverse]

end Blank

/-! ## Numerals -/

namespace Numeral

/-- The text writes the number in base ten: its digits, the first of which counts
most, behind at most one plus sign, with white space before and after. -/
def Writes (text : List Char) (n : ℕ) : Prop :=
  ∃ before sign digits after : List Char, text = before ++ (sign ++ digits) ++ after ∧
    (∀ c ∈ before ++ after, Blank.isBlank c) ∧ (sign = [] ∨ sign = ['+']) ∧
    digits ≠ [] ∧ (∀ c ∈ digits, isDigit c) ∧
    n = Nat.ofDigits 10 (digits.reverse.map fun c => c.toNat - '0'.toNat)

theorem isDigit_iff : isDigit c ↔ 48 ≤ c.toNat ∧ c.toNat ≤ 57 := by
  simp only [isDigit, Bool.and_eq_true, decide_eq_true_eq]
  rfl

theorem not_isBlank_of_isDigit (h : isDigit c) : ¬ Blank.isBlank c := by
  obtain ⟨hlow, hhigh⟩ := isDigit_iff.mp h
  simp only [Blank.isBlank, Blank.ranges, List.any_cons, List.any_nil, Bool.or_false,
    Bool.or_eq_true, Bool.and_eq_true, decide_eq_true_eq]
  omega

/-- The running value is the number that the digits write. -/
theorem value_eq_ofDigits (digits : List Char) :
    value digits = Nat.ofDigits 10 (digits.reverse.map fun c => c.toNat - '0'.toNat) := by
  rw [Nat.ofDigits_eq_foldr, List.foldr_map, List.foldr_reverse]
  unfold value
  congr 1
  funext n c
  exact Nat.add_comm _ _

/-- What stands in front of the digits is at most one plus sign. -/
theorem unsigned_split (text : List Char) :
    ∃ sign, text = sign ++ unsigned text ∧ (sign = [] ∨ sign = ['+']) := by
  unfold unsigned
  split
  · exact ⟨['+'], rfl, Or.inr rfl⟩
  · exact ⟨[], rfl, Or.inl rfl⟩

/-- A sign in front of digits is taken off. -/
theorem unsigned_append {sign : List Char} (hsign : sign = [] ∨ sign = ['+'])
    (hdigits : ∀ c ∈ digits, isDigit c) : unsigned (sign ++ digits) = digits := by
  rcases hsign with rfl | rfl
  · rw [List.nil_append]
    unfold unsigned
    split
    · have hplus : isDigit '+' := hdigits '+' List.mem_cons_self
      exact absurd hplus (by decide)
    · rfl
  · rfl

theorem decode?_eq_some_iff : decode? limit text = some n ↔
    unsigned text ≠ [] ∧ (∀ c ∈ unsigned text, isDigit c) ∧ n = value (unsigned text) ∧
      n ≤ limit := by
  simp only [decode?, Option.ite_none_right_eq_some, Option.some.injEq, List.all_eq_true]
  constructor
  · rintro ⟨⟨hne, hdigits, hle⟩, rfl⟩
    exact ⟨hne, hdigits, rfl, hle⟩
  · rintro ⟨hne, hdigits, rfl, hle⟩
    exact ⟨⟨hne, hdigits, hle⟩, rfl⟩

/-- A text is read as a number if it writes that number, and the number is within
the limit. -/
theorem decode?_trim_eq_some_iff :
    decode? limit (Blank.trim text) = some n ↔ Writes text n ∧ n ≤ limit := by
  rw [decode?_eq_some_iff]
  constructor
  · rintro ⟨hne, hdigits, rfl, hle⟩
    obtain ⟨before, after, htext, hblank⟩ := Blank.trim_split text
    obtain ⟨sign, hbody, hsign⟩ := unsigned_split (Blank.trim text)
    refine ⟨⟨before, sign, _, after, ?_, hblank, hsign, hne, hdigits, value_eq_ofDigits _⟩, hle⟩
    rw [← hbody]
    exact htext
  · rintro ⟨⟨before, sign, digits, after, rfl, hblank, hsign, hne, hdigits, rfl⟩, hle⟩
    have hbody : ∀ c ∈ sign ++ digits, ¬ Blank.isBlank c := by
      intro c hc
      rcases List.mem_append.mp hc with hmem | hmem
      · rcases hsign with rfl | rfl
        · cases hmem
        · rw [List.mem_singleton.mp hmem]
          decide
      · exact not_isBlank_of_isDigit (hdigits c hmem)
    have htrim : Blank.trim (before ++ (sign ++ digits) ++ after) = sign ++ digits :=
      Blank.trim_append hblank hbody (List.append_ne_nil_of_right_ne_nil _ hne)
    rw [htrim, unsigned_append hsign hdigits]
    exact ⟨hne, hdigits, (value_eq_ofDigits digits).symm, hle⟩

/-- A text is not read as a number if it writes none within the limit. -/
theorem decode?_trim_eq_none_iff :
    decode? limit (Blank.trim text) = none ↔ ∀ n, Writes text n → limit < n := by
  rw [Option.eq_none_iff_forall_ne_some]
  refine forall_congr' fun n => ?_
  rw [ne_eq, decode?_trim_eq_some_iff, not_and, Nat.not_le]

end Numeral

end PooledCollateral.Text
