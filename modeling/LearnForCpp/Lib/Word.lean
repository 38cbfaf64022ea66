import Mathlib.Tactic

/-!
# Machine words

Arithmetic of fixed-width machine integers on `ℕ` and `ℤ`: `SizeT` is the unsigned arithmetic of a
64-bit `size_t`, modulo `2 ^ 64`; `wrap64` and `wrap32` reduce to the two's complement range of a
signed integer.  Below the bounds they are the plain operations.
-/

namespace SizeT

/-- The largest value of a `size_t`. -/
def max : ℕ := 2 ^ 64 - 1

/-- Addition of two `size_t`. -/
def add (a b : ℕ) : ℕ := (a + b) % 2 ^ 64

/-- Subtraction of two `size_t`. -/
def sub (a b : ℕ) : ℕ := (a + (2 ^ 64 - b % 2 ^ 64)) % 2 ^ 64

theorem add_eq {a b : ℕ} (h : a + b ≤ max) : add a b = a + b :=
  Nat.mod_eq_of_lt (by unfold max at h; omega)

theorem sub_eq {a b : ℕ} (hb : b ≤ a) (ha : a ≤ max) : sub a b = a - b := by
  unfold sub max at *
  omega

end SizeT

/-- Two's complement reduction to a signed 64-bit integer. -/
def wrap64 (x : ℤ) : ℤ := x.bmod (2 ^ 64)

/-- Two's complement reduction to a signed 32-bit integer. -/
def wrap32 (x : ℤ) : ℤ := x.bmod (2 ^ 32)

/-- The values of a signed 64-bit integer. -/
def InInt64 (x : ℤ) : Prop := -2 ^ 63 ≤ x ∧ x < 2 ^ 63

instance (x : ℤ) : Decidable (InInt64 x) := inferInstanceAs (Decidable (_ ∧ _))

theorem wrap64_eq {x : ℤ} (h : InInt64 x) : wrap64 x = x := by
  unfold InInt64 at h
  exact Int.bmod_eq_of_le (by omega) (by omega)

theorem wrap32_eq {x : ℤ} (h1 : -2 ^ 31 ≤ x) (h2 : x < 2 ^ 31) : wrap32 x = x :=
  Int.bmod_eq_of_le (by omega) (by omega)

/-- A `size_t` can only lose by becoming an `int`. -/
theorem wrap32_le (n : ℕ) : wrap32 n ≤ n := by
  unfold wrap32
  rw [Int.bmod_def]
  split_ifs <;> omega
