/-
# Double-precision numbers as rationals

The value a decimal numeral has when it is read into a 64-bit IEEE 754 number:
the nearest one, a tie going to the even significand, and an infinity from
`2 ^ 1024` on. The two zeros are one number here.

Key definitions: `roundEven`, `Double`, `Double.ofRat`.
Key theorems: `ofRat_natCast`.
-/
import Mathlib.Algebra.Order.Floor.Ring
import Mathlib.Data.Int.Log
import Mathlib.Data.Rat.Floor
import Mathlib.Tactic.FieldSimp
import Mathlib.Tactic.Positivity
import Mathlib.Tactic.Ring

namespace Binary64

/-- The nearest integer, the even one of two. -/
def roundEven (q : ℚ) : ℤ :=
  if q - ⌊q⌋ < 1 / 2 then ⌊q⌋
  else if 1 / 2 < q - ⌊q⌋ then ⌊q⌋ + 1
  else if ⌊q⌋ % 2 = 0 then ⌊q⌋ else ⌊q⌋ + 1

theorem roundEven_intCast (n : ℤ) : roundEven n = n := by
  have h : (n : ℚ) - (⌊(n : ℚ)⌋ : ℤ) = 0 := by rw [Int.floor_intCast, sub_self]
  rw [roundEven, h, if_pos (by norm_num), Int.floor_intCast]

/-- The exponent of the last place of a number of this size; below the normal
numbers it is that of the least one. -/
def lastPlace (q : ℚ) : ℤ := max (Int.log 2 q - 52) (-1074)

/-- A double, but for those that are no number; a zero has no sign. -/
inductive Double
  | finite (x : ℚ)
  | infinite (negative : Bool)
  deriving DecidableEq

/-- The magnitude of the number nearest to a rational, as if the exponents had
no end. -/
def nearest (q : ℚ) : ℚ := roundEven (|q| / 2 ^ lastPlace |q|) * 2 ^ lastPlace |q|

/-- The double a number rounds to. -/
def Double.ofRat (q : ℚ) : Double :=
  if nearest q ≥ 2 ^ 1024 then .infinite (q < 0)
  else .finite (if q < 0 then -nearest q else nearest q)

/-- The integers of 53 bits are numbers. -/
theorem ofRat_natCast {n : ℕ} (h : n < 2 ^ 53) : Double.ofRat n = .finite n := by
  have hnearest : nearest n = n := by
    rcases Nat.eq_zero_or_pos n with rfl | hpos
    · simp [nearest, roundEven]
    have hlog : Int.log 2 (n : ℚ) = Nat.log 2 n := Int.log_natCast 2 n
    have hlt : Nat.log 2 n < 53 := Nat.log_lt_of_lt_pow (by omega) h
    -- the last place is not above the ones, so `n` is a whole number of it
    obtain ⟨k, hk⟩ : ∃ k : ℕ, lastPlace |(n : ℚ)| = -(k : ℤ) := by
      refine ⟨52 - Nat.log 2 n, ?_⟩
      rw [Nat.abs_cast, lastPlace, hlog]
      omega
    have hscale : |(n : ℚ)| / 2 ^ lastPlace |(n : ℚ)| = ((n * 2 ^ k : ℕ) : ℤ) := by
      rw [hk, Nat.abs_cast, zpow_neg, zpow_natCast, div_inv_eq_mul]
      push_cast
      ring
    rw [nearest, hscale, roundEven_intCast, hk, zpow_neg, zpow_natCast]
    have hne : (2 : ℚ) ^ k ≠ 0 := by positivity
    push_cast
    field_simp
  have hneg : ¬ ((n : ℚ) < 0) := not_lt.mpr (Nat.cast_nonneg n)
  have hsmall : ¬ ((n : ℚ) ≥ 2 ^ 1024) := by
    have h1 : (n : ℚ) < 2 ^ 53 := by exact_mod_cast h
    have h2 : (2 : ℚ) ^ 53 ≤ 2 ^ 1024 := pow_le_pow_right₀ (by norm_num) (by norm_num)
    exact not_le.mpr (lt_of_lt_of_le h1 h2)
  rw [Double.ofRat, hnearest, if_neg hsmall, if_neg hneg]

/-! ### Between integers -/

theorem roundEven_le {q : ℚ} {n : ℤ} (h : q ≤ n) : roundEven q ≤ n := by
  rcases h.eq_or_lt with rfl | hlt
  · exact (roundEven_intCast n).le
  · have hfloor : ⌊q⌋ < n := Int.floor_lt.mpr hlt
    unfold roundEven
    split_ifs <;> omega

theorem le_roundEven {q : ℚ} {n : ℤ} (h : (n : ℚ) ≤ q) : n ≤ roundEven q := by
  have hfloor : n ≤ ⌊q⌋ := Int.le_floor.mpr h
  unfold roundEven
  split_ifs <;> omega

/-- Below `2 ^ 53` the last place is not above the ones. -/
theorem exists_lastPlace {q : ℚ} (h : 0 < q) (hlt : q < 2 ^ 53) : ∃ k : ℕ, lastPlace q = -(k : ℤ) := by
  have hlog : Int.log 2 q < 53 := (Int.lt_zpow_iff_log_lt (by norm_num) h).mp (by exact_mod_cast hlt)
  refine ⟨(-lastPlace q).toNat, ?_⟩
  have hle : lastPlace q ≤ 0 := by
    unfold lastPlace
    omega
  omega

/-- A number between integers is so when it is rounded. -/
theorem nearest_mem {q : ℚ} {m n : ℕ} (hm : (m : ℚ) ≤ q) (hn : q ≤ n) (hlt : q < 2 ^ 53) :
    (m : ℚ) ≤ nearest q ∧ nearest q ≤ n := by
  rcases (Nat.cast_nonneg m |>.trans hm).eq_or_lt with rfl | hpos
  · have hzero : nearest 0 = 0 := by simp [nearest, roundEven]
    rw [hzero]
    exact ⟨hm, hn⟩
  · obtain ⟨k, hk⟩ := exists_lastPlace hpos hlt
    have hscale : (0 : ℚ) < 2 ^ k := by positivity
    have hnearest : nearest q = roundEven (q * 2 ^ k) / 2 ^ k := by
      rw [nearest, abs_of_pos hpos, hk, zpow_neg, zpow_natCast, div_inv_eq_mul, ← div_eq_mul_inv]
    rw [hnearest, le_div_iff₀ hscale, div_le_iff₀ hscale]
    constructor
    · have hle : (((m * 2 ^ k : ℕ) : ℤ) : ℚ) ≤ q * 2 ^ k := by
        push_cast
        exact mul_le_mul_of_nonneg_right hm hscale.le
      exact_mod_cast le_roundEven hle
    · have hle : q * 2 ^ k ≤ (((n * 2 ^ k : ℕ) : ℤ) : ℚ) := by
        push_cast
        exact mul_le_mul_of_nonneg_right hn hscale.le
      exact_mod_cast roundEven_le hle

end Binary64
