import Mathlib.Tactic

/-!
# Bit masks

Sets of flags held in a machine word of `w` bits.  `test m k` is the C idiom `m & k` used as a
truth value: some flag of `k` is set in `m`.
-/

namespace Bitmask

variable {w : ℕ}

/-- Some flag of `k` is set in `m`. -/
def test (m k : BitVec w) : Bool := m &&& k != 0#w

theorem test_iff {m k : BitVec w} :
    test m k = true ↔ ∃ i, m.getLsbD i = true ∧ k.getLsbD i = true := by
  unfold test
  rw [bne_iff_ne, ne_eq, BitVec.eq_of_getLsbD_eq_iff]
  simp only [BitVec.getLsbD_and, BitVec.getLsbD_zero, Bool.and_eq_false_iff, not_forall]
  constructor
  · rintro ⟨i, -, h⟩
    exact ⟨i, by simpa using h⟩
  · rintro ⟨i, h1, h2⟩
    exact ⟨i, BitVec.lt_of_getLsbD h1, by simp [h1, h2]⟩

@[simp] theorem test_zero (k : BitVec w) : test 0#w k = false := by simp [test]

@[simp] theorem test_or (m n k : BitVec w) : test (m ||| n) k = (test m k || test n k) := by
  rw [Bool.eq_iff_iff, Bool.or_eq_true, test_iff, test_iff, test_iff]
  simp only [BitVec.getLsbD_or, Bool.or_eq_true]
  constructor
  · rintro ⟨i, h1 | h1, h2⟩
    · exact .inl ⟨i, h1, h2⟩
    · exact .inr ⟨i, h1, h2⟩
  · rintro (⟨i, h1, h2⟩ | ⟨i, h1, h2⟩)
    · exact ⟨i, .inl h1, h2⟩
    · exact ⟨i, .inr h1, h2⟩

/-- A mask of one flag is set as a whole. -/
theorem and_eq_of_test {m k : BitVec w}
    (hk : ∀ i j, k.getLsbD i = true → k.getLsbD j = true → i = j) (h : test m k = true) :
    k &&& m = k := by
  obtain ⟨i, hm, hi⟩ := test_iff.1 h
  refine BitVec.eq_of_getLsbD_eq fun j _ => ?_
  by_cases hj : k.getLsbD j = true
  · obtain rfl := hk i j hi hj
    simp [hm, hi]
  · simp [hj]

/-- Clearing flags leaves none of them. -/
@[simp] theorem test_and_not (m k : BitVec w) : test (m &&& ~~~k) k = false := by
  rw [Bool.eq_false_iff, ne_eq, test_iff]
  rintro ⟨i, h1, h2⟩
  simp [h2] at h1

end Bitmask
