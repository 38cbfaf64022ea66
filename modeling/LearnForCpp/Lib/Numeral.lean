import Mathlib.Tactic
import Mathlib.Data.Nat.Digits.Lemmas

/-!
# Positional numerals

Lists of digits in a base, the most significant digit first.

* `value`: the number that the digits stand for.
* `Canonical`: a numeral without superfluous digits.
* `numeral`, with `numeral_canonical` and `value_numeral`: the canonical numeral of a number, and
  `numeral_succ`, how a loop of divisions finds it.
-/

namespace Numeral

variable {b n k : ℕ}

/-- The number that the digits stand for. -/
def value (b : ℕ) (ds : List ℕ) : ℕ := Nat.ofDigits b ds.reverse

/-- Some digits below the base, and no zero in front but that of 0 itself. -/
structure Canonical (b : ℕ) (ds : List ℕ) : Prop where
  ne_nil : ds ≠ []
  lt : ∀ d ∈ ds, d < b
  head : ds.head? = some 0 → ds = [0]

/-- The numeral of a number. -/
def numeral (b n : ℕ) : List ℕ := if n = 0 then [0] else (Nat.digits b n).reverse

theorem numeral_ne_nil (b n : ℕ) : numeral b n ≠ [] := by
  unfold numeral
  split_ifs with h
  · exact List.cons_ne_nil _ _
  · simpa [Nat.digits_eq_nil_iff_eq_zero] using h

/-- A number below the base is its own digit. -/
theorem numeral_of_lt (h : n < b) : numeral b n = [n] := by
  unfold numeral
  split_ifs with h0
  · rw [h0]
  · rw [Nat.digits_of_lt b n h0 h, List.reverse_singleton]

/-- The last digit is the remainder, and the digits before it are those of the quotient. -/
theorem numeral_succ (hb : 1 < b) (h : n / b ≠ 0) :
    numeral b n = numeral b (n / b) ++ [n % b] := by
  have hn : n ≠ 0 := by
    rintro rfl
    exact h (Nat.zero_div b)
  unfold numeral
  rw [if_neg hn, if_neg h, Nat.digits_def' hb (Nat.pos_of_ne_zero hn), List.reverse_cons]

theorem value_numeral (b n : ℕ) : value b (numeral b n) = n := by
  unfold value numeral
  split_ifs with h
  · rw [h, List.reverse_singleton, Nat.ofDigits_singleton]
  · rw [List.reverse_reverse, Nat.ofDigits_digits]

theorem numeral_canonical (hb : 1 < b) (n : ℕ) : Canonical b (numeral b n) := by
  refine ⟨numeral_ne_nil b n, fun d hd => ?_, fun hhead => ?_⟩
  · unfold numeral at hd
    split_ifs at hd with h
    · rw [List.mem_singleton.1 hd]
      exact Nat.zero_lt_of_lt hb
    · exact Nat.digits_lt_base hb (List.mem_reverse.1 hd)
  · unfold numeral at hhead ⊢
    split_ifs at hhead ⊢ with h
    · rfl
    · -- the last digit that the divisions find is not zero
      have hne : Nat.digits b n ≠ [] := Nat.digits_ne_nil_iff_ne_zero.2 h
      rw [List.head?_reverse, List.getLast?_eq_some_getLast hne, Option.some.injEq] at hhead
      exact absurd hhead (Nat.getLast_digit_ne_zero b h)

end Numeral
