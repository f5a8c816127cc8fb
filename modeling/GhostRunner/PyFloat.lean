import Mathlib.Algebra.Field.Rat
import Mathlib.Data.NNRat.Defs
import Mathlib.Data.Nat.Log

/-! Python floats, and what `float` makes of an `int`. -/

/-- A finite float is kept by its sign, which a zero has too, and its magnitude. -/
inductive PyFloat where
  | finite (negative : Bool) (magnitude : ℚ≥0)
  | infinite (negative : Bool)
  | nan
  deriving DecidableEq

namespace PyFloat

/-- The number that a finite float stands for. -/
def value : PyFloat → Option ℚ
  | .finite negative magnitude => some (if negative then -magnitude else magnitude)
  | .infinite _ | .nan => none

/-- `0 < x <= limit` -/
def within (x : PyFloat) (limit : ℚ) : Bool :=
  x.value.any fun value => 0 < value && value ≤ limit

theorem within_iff {x : PyFloat} {limit : ℚ} : x.within limit = true ↔
    ∃ value, x.value = some value ∧ 0 < value ∧ value ≤ limit := by
  simp [within,Option.any_eq_true]

/-- A number rounded to 53 bits, and in a tie to the even neighbour. -/
def rounded (n : Nat) : Nat :=
  let unit := 2 ^ (n.log2 - 52)
  let below := n / unit
  let rest := n % unit
  (if unit < 2 * rest ∨ unit = 2 * rest ∧ below % 2 = 1 then below + 1 else below) * unit

/-- `float(n)`, which raises `OverflowError` where this is `none`. -/
def ofInt (n : Int) : Option PyFloat :=
  if rounded n.natAbs < 2 ^ 1024 then some (.finite (n < 0) (rounded n.natAbs)) else none

example : rounded (2 ^ 53 + 1) = 2 ^ 53 ∧ rounded (2 ^ 53 + 3) = 2 ^ 53 + 4 := by decide

/-! ## Overflow -/

theorem two_pow_sum {e j k : Nat} (sum : e = j + k) : 2 ^ e = 2 ^ j * 2 ^ k := by
  rw [sum,Nat.pow_add]

/-- Rounding does not leave the powers of two around a number. -/
theorem rounded_bounds {n : Nat} (positive : n ≠ 0) :
    2 ^ n.log2 ≤ rounded n ∧ rounded n ≤ 2 ^ (n.log2 + 1) := by
  have low := Nat.log2_self_le positive
  have high : n < 2 ^ (n.log2 + 1) := Nat.lt_log2_self
  have one : 0 < 2 ^ (n.log2 - 52) := Nat.two_pow_pos _
  have low_split : n.log2 = min n.log2 52 + (n.log2 - 52) := by omega
  have high_split : n.log2 + 1 = min n.log2 52 + 1 + (n.log2 - 52) := by omega
  rw [two_pow_sum low_split] at low ⊢
  rw [two_pow_sum high_split] at high ⊢
  have below_low := (Nat.le_div_iff_mul_le one).2 low
  have below_high := (Nat.div_lt_iff_lt_mul one).2 high
  simp only [rounded]
  constructor
  · apply Nat.mul_le_mul_right
    split <;> omega
  · apply Nat.mul_le_mul_right
    split <;> omega

/-- In the last binade below `2 ^ 1024` floats are `2 * half` apart. -/
theorem rounded_last {n half : Nat} (unit : 2 ^ (n.log2 - 52) = 2 * half)
    (high : n < 2 ^ 53 * (2 * half)) :
    rounded n < 2 ^ 53 * (2 * half) ↔ n < 2 ^ 53 * (2 * half) - half := by
  have positive : 0 < half := by
    have some_unit : 0 < 2 ^ (n.log2 - 52) := Nat.two_pow_pos _
    omega
  have whole := Nat.div_add_mod n (2 * half)
  have rest := Nat.mod_lt n (show 0 < 2 * half by omega)
  have below : n / (2 * half) < 2 ^ 53 := (Nat.div_lt_iff_lt_mul (by omega)).2 high
  simp only [rounded,unit]
  rw [Nat.mul_lt_mul_right (show 0 < 2 * half by omega)]
  generalize n / (2 * half) = q at *
  generalize n % (2 * half) = r at *
  by_cases last : q = 2 ^ 53 - 1
  · subst last
    have odd : (2 ^ 53 - 1) % 2 = 1 := by decide
    simp only [odd,and_true]
    split <;> omega
  · have room : 2 * half * q + 2 * half ≤ 2 * half * (2 ^ 53 - 1) := by
      rw [← Nat.mul_succ]
      exact Nat.mul_le_mul_left _ (by omega)
    constructor
    · intro _
      omega
    · intro _
      split <;> omega

theorem rounded_lt_iff (n : Nat) : rounded n < 2 ^ 1024 ↔ n < 2 ^ 1024 - 2 ^ 970 := by
  have unit : 2 ^ 971 = 2 * 2 ^ 970 := by
    rw [two_pow_sum (show 971 = 1 + 970 from rfl),Nat.pow_one]
  have top : 2 ^ 1024 = 2 ^ 53 * (2 * 2 ^ 970) := by
    rw [← unit,two_pow_sum (show 1024 = 53 + 971 from rfl)]
  have twice : 2 ^ 1024 = 2 * 2 ^ 1023 := by
    rw [two_pow_sum (show 1024 = 1 + 1023 from rfl),Nat.pow_one]
  have half := Nat.two_pow_pos 970
  have gap := Nat.pow_le_pow_right (show 0 < 2 by decide) (show 970 ≤ 1023 by decide)
  by_cases zero : n = 0
  · subst n
    rw [show rounded 0 = 0 from rfl]
    omega
  obtain ⟨low,high⟩ := rounded_bounds zero
  rcases Nat.lt_trichotomy n.log2 1023 with small | last | big
  · have within := Nat.pow_le_pow_right (show 0 < 2 by decide) (show n.log2 + 1 ≤ 1023 from small)
    have below : n < 2 ^ (n.log2 + 1) := Nat.lt_log2_self
    omega
  · rw [top]
    have last_unit : 2 ^ (n.log2 - 52) = 2 * 2 ^ 970 := by
      rw [last,show 1023 - 52 = 971 from rfl,unit]
    apply rounded_last last_unit
    rw [← top,← Nat.log2_lt zero,last]
    exact Nat.lt_succ_self _
  · have beyond := Nat.pow_le_pow_right (show 0 < 2 by decide) (show 1024 ≤ n.log2 from big)
    have below : 2 ^ n.log2 ≤ n := Nat.log2_self_le zero
    omega

/-- From halfway between the largest float and the next power of two on. -/
theorem ofInt_eq_none_iff {n : Int} : ofInt n = none ↔ 2 ^ 1024 - 2 ^ 970 ≤ n.natAbs := by
  rw [← Nat.not_lt,← rounded_lt_iff]
  simp only [ofInt,ite_eq_right_iff,reduceCtorEq,imp_false]

end PyFloat
