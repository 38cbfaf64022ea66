import Mathlib.Data.List.Rotate

/-!
# Words that repeat a word

A word `w` that goes around a ring comes back behind the word `m` it began with: `w` is a prefix of
`m ++ w`.  Then `w` repeats `m`, and what is left of `m ++ w` behind `w` is a rotation of `m`.
-/

namespace Rotation

variable {α : Type*} {m w x : List α}

/-- What is still on its way around the ring. -/
theorem eq_rotate (h : w ++ x = m ++ w) : x = m.rotate w.length := by
  induction hn : w.length using Nat.strong_induction_on generalizing w with
  | _ n ih =>
    subst hn
    rcases List.append_eq_append_iff.1 h with ⟨v, rfl, rfl⟩ | ⟨v, rfl, hv⟩
    · -- `w` is the front of `m`
      exact (List.rotate_append_length_eq w v).symm
    · -- `m` is the front of `w`, and the rest of `w` is a shorter such word
      rcases eq_or_ne m [] with rfl | hm
      · rw [List.nil_append] at h
        rw [List.rotate_nil]
        exact List.append_cancel_left (h.trans (List.append_nil _).symm)
      · have hlt : v.length < (m ++ v).length := by
          rw [List.length_append]
          have := List.length_pos_iff.2 hm
          omega
        rw [ih v.length hlt hv.symm rfl, ← List.rotate_mod m (m ++ v).length, List.length_append,
          Nat.add_mod_left, List.rotate_mod]

/-- A word that came around the ring repeats `m`. -/
theorem getElem?_of_isPrefix (hm : m ≠ []) (h : w <+: m ++ w) {i : ℕ} (hi : i < w.length) :
    w[i]? = m[i % m.length]? := by
  obtain ⟨x, hx⟩ := h
  have hstep : ∀ {j}, j < w.length → w[j]? = (m ++ w)[j]? := fun hj => by
    rw [← hx, List.getElem?_append_left hj]
  induction i using Nat.strong_induction_on with
  | _ i ih =>
    rw [hstep hi]
    by_cases him : i < m.length
    · rw [List.getElem?_append_left him, Nat.mod_eq_of_lt him]
    · have hpos := List.length_pos_iff.2 hm
      rw [List.getElem?_append_right (not_lt.1 him), ih (i - m.length) (by omega) (by omega),
        ← Nat.mod_eq_sub_mod (not_lt.1 him)]

end Rotation
