import Mathlib.Algebra.Order.Floor.Ring
import Mathlib.Algebra.Order.Round
import Mathlib.Data.Int.Log
import Mathlib.Data.Rat.Floor
import Mathlib.Tactic.Linarith
import Mathlib.Tactic.Positivity
import Mathlib.Tactic.FieldSimp

/-!
# Rounding to 53 bits

A number of at least zero is rounded to the nearest one with 53 significant bits, and halfway
between two to the one whose last bit is zero, as for numbers of 64 bits that are neither too large
nor too small for their exponents. A rounding is off by one part in `2 ^ 53` at most, and small
whole numbers stay as they are.
-/
namespace Tekir.Float64

/-- The nearest whole number, the even one when there are two. -/
def roundEven (x : ℚ) : ℤ :=
  if x - ⌊x⌋ < 1 / 2 then ⌊x⌋
  else if 1 / 2 < x - ⌊x⌋ then ⌊x⌋ + 1
  else if Even ⌊x⌋ then ⌊x⌋ else ⌊x⌋ + 1

/-- What the last of 53 bits stands for. -/
def lastBit (x : ℚ) : ℚ :=
  2 ^ (Int.log 2 x - 52)

def float64 (x : ℚ) : ℚ :=
  roundEven (x / lastBit x) * lastBit x

theorem lastBit_pos (x : ℚ) : 0 < lastBit x :=
  zpow_pos (by norm_num) _

theorem abs_roundEven_sub_le (x : ℚ) : |roundEven x - x| ≤ 1 / 2 := by
  have hfloor : (⌊x⌋ : ℚ) ≤ x := Int.floor_le x
  have hceil : x < ⌊x⌋ + 1 := Int.lt_floor_add_one x
  rw [abs_le]
  unfold roundEven
  split
  · constructor <;> linarith
  · split
    · push_cast
      constructor <;> linarith
    · split
      · constructor <;> linarith
      · push_cast
        constructor <;> linarith

theorem roundEven_intCast (n : ℤ) : roundEven n = n := by
  unfold roundEven
  rw [Int.floor_intCast, sub_self, if_pos (by norm_num)]

@[simp] theorem float64_zero : float64 0 = 0 := by
  have hround : roundEven 0 = 0 := roundEven_intCast 0
  rw [float64, zero_div, hround, Int.cast_zero, zero_mul]

/-- The last bit is worth no more than that. -/
theorem lastBit_le {x : ℚ} (hx : 0 < x) : lastBit x ≤ x / 2 ^ 52 := by
  have hlog : (2 : ℚ) ^ Int.log 2 x ≤ x := by
    exact_mod_cast Int.zpow_log_le_self (b := 2) (by norm_num) hx
  have hsplit : lastBit x = 2 ^ Int.log 2 x / 2 ^ 52 := by
    unfold lastBit
    rw [zpow_sub₀ (by norm_num)]
    norm_num
  rw [hsplit]
  exact div_le_div_of_nonneg_right hlog (by positivity)

theorem abs_float64_sub_le {x : ℚ} (hx : 0 < x) : |float64 x - x| ≤ x / 2 ^ 53 := by
  have hpos := lastBit_pos x
  have hsplit : float64 x - x = (roundEven (x / lastBit x) - x / lastBit x) * lastBit x := by
    rw [float64, sub_mul, div_mul_cancel₀ x hpos.ne']
  rw [hsplit, abs_mul, abs_of_pos hpos]
  calc |(roundEven (x / lastBit x) : ℚ) - x / lastBit x| * lastBit x
      ≤ 1 / 2 * lastBit x :=
        mul_le_mul_of_nonneg_right (abs_roundEven_sub_le (x / lastBit x)) hpos.le
    _ ≤ 1 / 2 * (x / 2 ^ 52) := mul_le_mul_of_nonneg_left (lastBit_le hx) (by norm_num)
    _ = x / 2 ^ 53 := by ring

/-- A whole number of 53 bits is its own rounding. -/
theorem float64_natCast {n : ℕ} (hn : n < 2 ^ 53) : float64 n = n := by
  rcases Nat.eq_zero_or_pos n with rfl | hpos
  · exact float64_zero
  · have hlog : Int.log 2 (n : ℚ) = Nat.log 2 n := Int.log_natCast 2 n
    have hle : Nat.log 2 n ≤ 52 := Nat.lt_succ_iff.mp (Nat.log_lt_of_lt_pow hpos.ne' hn)
    have hlast : lastBit (n : ℚ) = ((2 : ℚ) ^ (52 - Nat.log 2 n))⁻¹ := by
      have hexp : (Nat.log 2 n : ℤ) - 52 = -((52 - Nat.log 2 n : ℕ) : ℤ) := by omega
      rw [lastBit, hlog, hexp, zpow_neg, zpow_natCast]
    have hwhole : (n : ℚ) / lastBit n = ((n * 2 ^ (52 - Nat.log 2 n) : ℕ) : ℤ) := by
      rw [hlast, div_inv_eq_mul]
      push_cast
      rfl
    rw [float64, hwhole, roundEven_intCast, ← hwhole, div_mul_cancel₀ _ (lastBit_pos _).ne']

theorem float64_pos {x : ℚ} (hx : 0 < x) : 0 < float64 x := by
  have herror := (abs_le.mp (abs_float64_sub_le hx)).1
  have hsmall : x / 2 ^ 53 < x := div_lt_self hx (by norm_num)
  linarith

/-- A rounding leaves at least all but one part in `2 ^ 53`. -/
theorem le_float64 {x : ℚ} (hx : 0 < x) : x - x / 2 ^ 53 ≤ float64 x := by
  have herror := (abs_le.mp (abs_float64_sub_le hx)).1
  linarith

theorem float64_le {x : ℚ} (hx : 0 < x) : float64 x ≤ x + x / 2 ^ 53 := by
  have herror := (abs_le.mp (abs_float64_sub_le hx)).2
  linarith

/-- The quotient of whole numbers is compared with a small one as if it were exact. -/
theorem lt_quotient_iff {c d t : ℕ} (hc : c ≤ 2 ^ 10) (ht : 0 < t) (htimes : t < 2 ^ 32) :
    (c : ℚ) < float64 (float64 d / float64 t) ↔ c * t < d := by
  have htq : (0 : ℚ) < t := by exact_mod_cast ht
  have hcq : (c : ℚ) ≤ 2 ^ 10 := by exact_mod_cast hc
  have hpart : (1 : ℚ) / 2 ^ 32 ≤ 1 / t := by
    apply one_div_le_one_div_of_le htq
    exact_mod_cast htimes.le
  have ht53 : float64 t = t := float64_natCast (by omega)
  rw [ht53]
  constructor
  · intro h
    by_contra hle
    have hle : d ≤ c * t := Nat.le_of_not_lt hle
    have hbound : c * t ≤ 2 ^ 10 * 2 ^ 32 := Nat.mul_le_mul hc htimes.le
    rw [float64_natCast (by omega)] at h
    rcases Nat.eq_zero_or_pos d with rfl | hd
    · rw [Nat.cast_zero, zero_div, float64_zero] at h
      exact absurd h (not_lt_of_ge (Nat.cast_nonneg c))
    · rcases Nat.eq_or_lt_of_le hle with heq | hlt
      · have hexact : (d : ℚ) / t = c := by
          rw [heq, Nat.cast_mul, mul_div_cancel_right₀ _ htq.ne']
        rw [hexact, float64_natCast (by omega)] at h
        exact lt_irrefl _ h
      · -- the quotient is below by more than a rounding adds
        have hq : (d : ℚ) / t ≤ c - 1 / t := by
          have hnext : (d : ℚ) + 1 ≤ c * t := by exact_mod_cast hlt
          rw [le_sub_iff_add_le, ← add_div, div_le_iff₀ htq]
          exact hnext
        have hrounded := float64_le (x := (d : ℚ) / t) (div_pos (by exact_mod_cast hd) htq)
        linarith
  · intro h
    -- the quotient is above by more than two roundings take away
    have hd : (0 : ℚ) < d := by exact_mod_cast Nat.lt_of_le_of_lt (Nat.zero_le _) h
    have hq : (c : ℚ) + 1 / t ≤ d / t := by
      have hnext : (c : ℚ) * t + 1 ≤ d := by exact_mod_cast h
      rw [le_div_iff₀ htq, add_mul, one_div_mul_cancel htq.ne']
      exact hnext
    have hnumerator : (d : ℚ) / t - d / t / 2 ^ 53 ≤ float64 d / t := by
      have hrounded := div_le_div_of_nonneg_right (le_float64 hd) htq.le
      calc (d : ℚ) / t - d / t / 2 ^ 53 = (d - d / 2 ^ 53) / t := by ring
        _ ≤ float64 d / t := hrounded
    have hquotient := le_float64 (x := float64 d / t) (div_pos (float64_pos hd) htq)
    linarith

end Tekir.Float64
