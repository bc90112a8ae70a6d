/-
PooledCollateral.Proofs.Settings.FromEnvironment — which environments make settings,
and which settings they make.

`sources` is the row of variables, in the order of the fields, each with the width
of its field and the number that stands for it while it is not set. A source
`Gives` one number at most: the one that its text writes, if that fits, or the
standard one if it holds no text. An environment makes settings if every source
gives its field and the fields together are valid; otherwise it is `Refused` for one
issue, a field that no number is given for before one that is invalid, and the first
of them in either case (`ofEnvironment_exact`).
-/
import Mathlib.Data.List.Forall2
import PooledCollateral.Proofs.Text.Numeral
import PooledCollateral.Settings.FromEnvironment

namespace PooledCollateral

/-! ## Rows of computations -/

namespace Checked

variable {α β : Type} {f : α → Checked β} {xs : List α} {ys : List β} {e : Failure}

/-- A row of computations succeeds if each of them does. -/
theorem mapM_eq_ok_iff :
    xs.mapM f = .ok ys ↔ List.Forall₂ (fun x y => f x = .ok y) xs ys := by
  induction xs generalizing ys with
  | nil =>
    rw [List.mapM_nil, List.forall₂_nil_left_iff]
    exact ⟨fun h => (Except.ok.inj h).symm, fun h => h ▸ rfl⟩
  | cons x rest ih =>
    rw [List.mapM_cons, List.forall₂_cons_left_iff]
    simp only [bind_eq_ok_iff, ih]
    constructor
    · rintro ⟨y, hy, zs, hzs, hreturn⟩
      exact ⟨y, zs, hy, hzs, (Except.ok.inj hreturn).symm⟩
    · rintro ⟨y, zs, hy, hzs, rfl⟩
      exact ⟨y, hy, zs, hzs, rfl⟩

/-- A row of computations fails as the first of them does that fails. -/
theorem mapM_eq_error_iff :
    xs.mapM f = .error e ↔ ∃ front x back, xs = front ++ x :: back ∧
      (∀ y ∈ front, ∃ b, f y = .ok b) ∧ f x = .error e := by
  induction xs with
  | nil =>
    rw [List.mapM_nil]
    exact iff_of_false (by rintro ⟨⟩) (by simp)
  | cons x rest ih =>
    simp only [List.mapM_cons, bind_eq_error_iff, ih]
    constructor
    · rintro (hx | ⟨b, hx, ⟨front, y, back, rfl, hfront, hy⟩ | ⟨_, _, ⟨⟩⟩⟩)
      · exact ⟨[], x, rest, rfl, by simp, hx⟩
      · exact ⟨x :: front, y, back, rfl, by simpa using ⟨⟨b, hx⟩, hfront⟩, hy⟩
    · rintro ⟨front, y, back, hsplit, hfront, hy⟩
      cases front with
      | nil =>
        obtain ⟨rfl, rfl⟩ := List.cons.inj hsplit
        exact Or.inl hy
      | cons first others =>
        obtain ⟨rfl, rfl⟩ := List.cons.inj hsplit
        obtain ⟨b, hx⟩ := hfront x List.mem_cons_self
        have hothers : ∀ y ∈ others, ∃ b, f y = .ok b := fun y hmem =>
          hfront y (List.mem_cons_of_mem _ hmem)
        exact Or.inr ⟨b, hx, Or.inl ⟨others, y, back, rfl, hothers, hy⟩⟩

end Checked

/-! ## Variables -/

namespace Environment

variable {env : Environment} {name raw : String}

/-- The variable is set to the bytes of the text. -/
def Holds (env : Environment) (name raw : String) : Prop :=
  env.entries.lookup name = some raw.toUTF8

theorem text?_eq_some_iff : env.text? name = some raw ↔ env.Holds name raw := by
  unfold text? Holds
  rw [Option.bind_eq_some_iff]
  constructor
  · rintro ⟨bytes, hbytes, hraw⟩
    obtain ⟨hvalid, htext⟩ := Option.dite_none_right_eq_some.mp hraw
    rw [hbytes, ← Option.some.inj htext]
    rfl
  · intro hraw
    exact ⟨raw.toUTF8, hraw, dif_pos raw.isValidUTF8⟩

theorem text?_eq_none_iff : env.text? name = none ↔ ∀ raw, ¬ env.Holds name raw := by
  simp only [Option.eq_none_iff_forall_ne_some, ne_eq, text?_eq_some_iff]

end Environment

namespace Settings

variable {env : Environment} {s : Settings} {n : ℕ} {e : Failure}

/-! ## Sources -/

/-- A variable that a field is read from. -/
structure Source where
  name : String
  /-- The width of the field, in bits. -/
  bits : ℕ
  /-- The number that the field has while the variable is not set. -/
  standard : ℕ

namespace Source

variable {v : Source}

/-- The number that the source gives: the one that the variable's text writes, if it
fits the field, and the standard one if the variable holds no text. -/
def Gives (v : Source) (env : Environment) (n : ℕ) : Prop :=
  ((∀ raw, ¬ env.Holds v.name raw) ∧ n = v.standard) ∨
    ∃ raw, env.Holds v.name raw ∧ Text.Numeral.Writes raw.toList n ∧ n < 2 ^ v.bits

/-- The variable holds the text, and that writes no number that fits the field. -/
def Unreadable (v : Source) (env : Environment) (raw : String) : Prop :=
  env.Holds v.name raw ∧ ∀ n, Text.Numeral.Writes raw.toList n → 2 ^ v.bits ≤ n

/-- What reading the source comes to. -/
def read (v : Source) (env : Environment) : Checked ℕ :=
  readVariable env v.name (2 ^ v.bits - 1) v.standard

end Source

theorem readVariable_eq_ok_iff {name : String} {limit standard : ℕ} :
    readVariable env name limit standard = .ok n ↔
      (env.text? name = none ∧ n = standard) ∨
        ∃ raw, env.text? name = some raw ∧
          Text.Numeral.decode? limit (Text.Blank.trim raw.toList) = some n := by
  unfold readVariable
  cases env.text? name with
  | none => simp [eq_comm]
  | some raw =>
    simp only [Option.some.injEq, exists_eq_left', reduceCtorEq, false_and, false_or]
    cases Text.Numeral.decode? limit (Text.Blank.trim raw.toList) <;> simp [reject]

theorem readVariable_eq_error_iff {name : String} {limit standard : ℕ} :
    readVariable env name limit standard = .error e ↔
      ∃ raw, env.text? name = some raw ∧
        Text.Numeral.decode? limit (Text.Blank.trim raw.toList) = none ∧
          e = .rejected (.invalidSettings (.unreadable name raw)) := by
  unfold readVariable
  cases env.text? name with
  | none => simp
  | some raw =>
    simp only [Option.some.injEq, exists_eq_left']
    cases Text.Numeral.decode? limit (Text.Blank.trim raw.toList) <;> simp [reject, eq_comm]

namespace Source

variable {v : Source}

theorem read_eq_ok_iff : v.read env = .ok n ↔ v.Gives env n := by
  have hfits : n ≤ 2 ^ v.bits - 1 ↔ n < 2 ^ v.bits := by
    have hpos := Nat.two_pow_pos v.bits
    omega
  unfold read Gives
  simp only [readVariable_eq_ok_iff, Text.Numeral.decode?_trim_eq_some_iff,
    Environment.text?_eq_some_iff, Environment.text?_eq_none_iff, hfits]

theorem read_eq_error_iff : v.read env = .error e ↔
    ∃ raw, v.Unreadable env raw ∧ e = .rejected (.invalidSettings (.unreadable v.name raw)) := by
  have hmisfits : ∀ n, 2 ^ v.bits - 1 < n ↔ 2 ^ v.bits ≤ n := by
    have hpos := Nat.two_pow_pos v.bits
    omega
  unfold read Unreadable
  simp only [readVariable_eq_error_iff, Text.Numeral.decode?_trim_eq_none_iff,
    Environment.text?_eq_some_iff, hmisfits, and_assoc]

end Source

/-! ## Settings -/

/-- The variables, in the order of the fields. -/
def sources : List Source :=
  [⟨"POOL_EXIT_CR_BIPS", 32, standard.exitRatio⟩,
   ⟨"POOL_TIMELOCK_SECS", 64, standard.lockDuration⟩,
   ⟨"POOL_MIN_ENTRY", 128, standard.minEntry⟩,
   ⟨"POOL_MIN_SUPPLY_AFTER_EXIT", 128, standard.minSupplyAfterExit⟩,
   ⟨"POOL_MIN_COLLATERAL_AFTER_EXIT", 128, standard.minCollateralAfterExit⟩]

/-- The fields, in their order. -/
def numbers (s : Settings) : List ℕ :=
  [s.exitRatio, s.lockDuration, s.minEntry, s.minSupplyAfterExit, s.minCollateralAfterExit]

/-- The settings with those fields. -/
def ofNumbers : List ℕ → Settings
  | [exitRatio, lockDuration, minEntry, minSupplyAfterExit, minCollateralAfterExit] =>
    { exitRatio, lockDuration, minEntry, minSupplyAfterExit, minCollateralAfterExit }
  | _ => standard

/-- Every field is the number that its source gives. -/
def Given (env : Environment) (s : Settings) : Prop :=
  List.Forall₂ (fun v n => v.Gives env n) sources s.numbers

/-- What is wrong with the environment: the first variable that no number is read
from, or what is wrong with the settings that are given. -/
inductive Refused (env : Environment) : SettingsIssue → Prop
  | unreadable {front back : List Source} {v : Source} {raw : String}
      (hsplit : sources = front ++ v :: back) (hfront : ∀ u ∈ front, ∃ n, u.Gives env n)
      (hraw : v.Unreadable env raw) : Refused env (.unreadable v.name raw)
  | exitRatio {s : Settings} (hgiven : Given env s) (hratio : s.exitRatio ≤ bips) :
      Refused env (.exitRatio bips s.exitRatio)
  | zeroEntry {s : Settings} (hgiven : Given env s) (hratio : bips < s.exitRatio)
      (hentry : s.minEntry = 0) : Refused env .zeroEntry

theorem numbers_ofNumbers {numbers : List ℕ} (h : numbers.length = sources.length) :
    (ofNumbers numbers).numbers = numbers := by
  match numbers, h with
  | [_, _, _, _, _], _ => rfl

theorem ofEnvironment_eq (env : Environment) : ofEnvironment env = do
    let settings := ofNumbers (← sources.mapM (·.read env))
    settings.check
    return settings := by
  simp only [sources, List.mapM_cons, List.mapM_nil, bind_assoc, pure_bind, ofNumbers]
  rfl

/-- The sources are read, one after the other, as the settings that are given. -/
theorem mapM_read_eq_ok_iff {numbers : List ℕ} :
    sources.mapM (·.read env) = .ok numbers ↔ ∃ s, Given env s ∧ s.numbers = numbers := by
  simp only [Checked.mapM_eq_ok_iff, Source.read_eq_ok_iff]
  constructor
  · intro hgives
    have hnumbers := numbers_ofNumbers hgives.length_eq.symm
    exact ⟨ofNumbers numbers, hnumbers.symm ▸ hgives, hnumbers⟩
  · rintro ⟨s, hgiven, rfl⟩
    exact hgiven

theorem check_eq_error_iff : s.check = .error e ↔
    (s.exitRatio ≤ bips ∧ e = .rejected (.invalidSettings (.exitRatio bips s.exitRatio))) ∨
      (bips < s.exitRatio ∧ s.minEntry = 0 ∧ e = .rejected (.invalidSettings .zeroEntry)) := by
  simp only [check, Checked.bind_eq_error_iff, require_eq_error_iff, require_eq_ok_iff,
    exists_const, Nat.not_lt, ne_eq, not_not]

theorem ofEnvironment_eq_ok_iff : ofEnvironment env = .ok s ↔ Given env s ∧ s.Valid := by
  simp only [ofEnvironment_eq, Checked.bind_eq_ok_iff, mapM_read_eq_ok_iff]
  constructor
  · rintro ⟨_, ⟨given, hgiven, rfl⟩, _, hcheck, hreturn⟩
    cases hreturn
    exact ⟨hgiven, check_eq_ok_iff.mp hcheck⟩
  · rintro ⟨hgiven, hvalid⟩
    exact ⟨_, ⟨s, hgiven, rfl⟩, (), check_eq_ok_iff.mpr hvalid, rfl⟩

theorem ofEnvironment_eq_error_iff : ofEnvironment env = .error e ↔
    ∃ issue, Refused env issue ∧ e = .rejected (.invalidSettings issue) := by
  simp only [ofEnvironment_eq, Checked.bind_eq_error_iff, mapM_read_eq_ok_iff,
    Checked.mapM_eq_error_iff, Source.read_eq_ok_iff, Source.read_eq_error_iff]
  constructor
  · rintro (⟨front, v, back, hsplit, hfront, raw, hraw, rfl⟩ |
      ⟨_, ⟨given, hgiven, rfl⟩, hcheck | ⟨_, -, ⟨⟩⟩⟩)
    · exact ⟨_, .unreadable hsplit hfront hraw, rfl⟩
    · obtain ⟨hratio, rfl⟩ | ⟨hratio, hentry, rfl⟩ := check_eq_error_iff.mp hcheck
      · exact ⟨_, .exitRatio hgiven hratio, rfl⟩
      · exact ⟨_, .zeroEntry hgiven hratio hentry, rfl⟩
  · rintro ⟨_, hrefused, rfl⟩
    cases hrefused with
    | unreadable hsplit hfront hraw => exact Or.inl ⟨_, _, _, hsplit, hfront, _, hraw, rfl⟩
    | exitRatio hgiven hratio =>
      exact Or.inr ⟨_, ⟨_, hgiven, rfl⟩, Or.inl (check_eq_error_iff.mpr (Or.inl ⟨hratio, rfl⟩))⟩
    | zeroEntry hgiven hratio hentry =>
      exact Or.inr ⟨_, ⟨_, hgiven, rfl⟩,
        Or.inl (check_eq_error_iff.mpr (Or.inr ⟨hratio, hentry, rfl⟩))⟩

/-- An environment makes those settings that it gives, if they are valid, and is
refused for the first issue otherwise; a text that no number is read from is quoted
as it stands, with the white space at its ends. -/
theorem ofEnvironment_exact (env : Environment) :
    (∀ s, ofEnvironment env = .ok s ↔ Given env s ∧ s.Valid) ∧
      (∀ e, ofEnvironment env = .error e ↔
        ∃ issue, Refused env issue ∧ e = .rejected (.invalidSettings issue)) ∧
      ∀ name raw, Rejection.message (.invalidSettings (.unreadable name raw))
        = "Invalid pool config: " ++ (name ++ ": cannot parse " ++ Text.Quoted.encode raw) :=
  ⟨fun _ => ofEnvironment_eq_ok_iff, fun _ => ofEnvironment_eq_error_iff, fun _ _ => rfl⟩

example : ofEnvironment ⟨[("POOL_TIMELOCK_SECS", " +007\n".toUTF8)]⟩
    = .ok { standard with lockDuration := 7 } := by cbv

-- an entry of zero is not looked at while another variable cannot be read
example : ofEnvironment
      ⟨[("POOL_MIN_ENTRY", "0".toUTF8), ("POOL_EXIT_CR_BIPS", "4294967296 ".toUTF8)]⟩
    = reject (.invalidSettings (.unreadable "POOL_EXIT_CR_BIPS" "4294967296 ")) := by
  decide +kernel

end Settings

end PooledCollateral
