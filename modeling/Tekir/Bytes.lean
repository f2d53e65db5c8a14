import Mathlib.Data.List.Basic
import Mathlib.Tactic.Ring

/-!
# Bytes

Big-endian numbers, and slices that fail outside of their bytes.
-/
namespace Tekir.Bytes

variable {α : Type*}

def bigEndian : List UInt8 → ℕ
  | [] => 0
  | b :: bs => b.toNat * 256 ^ bs.length + bigEndian bs

/-- The last `k` digits of the number. -/
def toBigEndian : ℕ → ℕ → List UInt8
  | 0, _ => []
  | k + 1, n => UInt8.ofNat (n / 256 ^ k) :: toBigEndian k n

/-- The bytes of the letters. -/
def ascii (s : String) : List UInt8 :=
  s.toList.map fun c => UInt8.ofNat c.toNat

/-- `xs[i:j]`; `none` is a panic. -/
def slice (xs : List α) (i j : ℕ) : Option (List α) :=
  if i ≤ j ∧ j ≤ xs.length then some ((xs.drop i).take (j - i)) else none

@[simp] theorem length_toBigEndian (k n : ℕ) : (toBigEndian k n).length = k := by
  induction k with
  | zero => rfl
  | succ k ih => rw [toBigEndian, List.length_cons, ih]

theorem bigEndian_append (xs ys : List UInt8) :
    bigEndian (xs ++ ys) = bigEndian xs * 256 ^ ys.length + bigEndian ys := by
  induction xs with
  | nil => simp [bigEndian]
  | cons x xs ih =>
    rw [List.cons_append, bigEndian, bigEndian, ih, List.length_append, pow_add]
    ring

theorem bigEndian_lt (xs : List UInt8) : bigEndian xs < 256 ^ xs.length := by
  induction xs with
  | nil => simp [bigEndian]
  | cons x xs ih =>
    have hx : x.toNat + 1 ≤ 256 := x.toNat_lt
    calc bigEndian (x :: xs) < x.toNat * 256 ^ xs.length + 256 ^ xs.length := by
          rw [bigEndian]
          omega
      _ = (x.toNat + 1) * 256 ^ xs.length := by ring
      _ ≤ 256 * 256 ^ xs.length := Nat.mul_le_mul_right _ hx
      _ = 256 ^ (x :: xs).length := by rw [List.length_cons, pow_succ']

theorem bigEndian_toBigEndian (k n : ℕ) : bigEndian (toBigEndian k n) = n % 256 ^ k := by
  induction k with
  | zero => simp [toBigEndian, bigEndian, Nat.mod_one]
  | succ k ih =>
    have hdigit : (UInt8.ofNat (n / 256 ^ k)).toNat = n / 256 ^ k % 256 := UInt8.toNat_ofNat'
    rw [toBigEndian, bigEndian, hdigit, length_toBigEndian, ih, pow_succ, Nat.mod_mul]
    ring

theorem bigEndian_of_lt {k n : ℕ} (h : n < 256 ^ k) : bigEndian (toBigEndian k n) = n := by
  rw [bigEndian_toBigEndian, Nat.mod_eq_of_lt h]

/-- The first digits, then the last. -/
theorem toBigEndian_add (k m n : ℕ) :
    toBigEndian (k + m) n = toBigEndian k (n / 256 ^ m) ++ toBigEndian m n := by
  induction k with
  | zero => rw [Nat.zero_add]; rfl
  | succ k ih =>
    have hdigit : n / 256 ^ (k + m) = n / 256 ^ m / 256 ^ k := by
      rw [Nat.div_div_eq_div_mul, ← pow_add, Nat.add_comm]
    rw [Nat.succ_add, toBigEndian, toBigEndian, ih, hdigit, List.cons_append]

/-- Numbers below the bound are told apart by their digits. -/
theorem toBigEndian_inj {k m n : ℕ} (hm : m < 256 ^ k) (hn : n < 256 ^ k)
    (h : toBigEndian k m = toBigEndian k n) : m = n := by
  rw [← bigEndian_of_lt hm, h, bigEndian_of_lt hn]

section Slices

variable {xs ys zs : List α} {i j k : ℕ}

theorem slice_eq_some : slice xs i j = some ys ↔
    i ≤ j ∧ j ≤ xs.length ∧ ys = (xs.drop i).take (j - i) := by
  unfold slice
  split
  · rename_i h
    rw [Option.some_inj]
    exact ⟨fun hys => ⟨h.1, h.2, hys.symm⟩, fun hys => hys.2.2.symm⟩
  · rename_i h
    exact ⟨nofun, fun hys => absurd ⟨hys.1, hys.2.1⟩ h⟩

theorem exists_slice (xs : List α) (hij : i ≤ j) (hj : j ≤ xs.length) :
    ∃ ys, slice xs i j = some ys :=
  ⟨_, slice_eq_some.mpr ⟨hij, hj, rfl⟩⟩

theorem length_slice (h : slice xs i j = some ys) : ys.length = j - i := by
  obtain ⟨hij, hj, rfl⟩ := slice_eq_some.mp h
  rw [List.length_take, List.length_drop]
  omega

/-- The part between two others. -/
theorem slice_between (hi : i = xs.length) (hj : j = i + ys.length) :
    slice (xs ++ (ys ++ zs)) i j = some ys := by
  subst hi hj
  refine slice_eq_some.mpr ⟨Nat.le_add_right _ _, ?_, ?_⟩
  · simp only [List.length_append]
    omega
  · rw [List.drop_left, Nat.add_sub_cancel_left, List.take_left]

/-- A slice of a slice. -/
theorem slice_slice (h : slice xs i j = some ys) {a b : ℕ} (hb : b ≤ ys.length) :
    slice xs (i + a) (i + b) = slice ys a b := by
  have hlength := length_slice h
  obtain ⟨hij, hj, rfl⟩ := slice_eq_some.mp h
  unfold slice
  by_cases hab : a ≤ b
  · rw [if_pos ⟨by omega, by omega⟩, if_pos ⟨hab, hb⟩, List.drop_take, List.drop_drop,
      List.take_take]
    congr 2
    omega
  · rw [if_neg (by omega), if_neg (by omega)]

end Slices

end Tekir.Bytes
