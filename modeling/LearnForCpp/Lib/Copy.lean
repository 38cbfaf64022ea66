import Mathlib.Tactic

/-!
# Element-wise copies

The forward copies of the C++ standard library on a list that models memory: `overwrite` copies a
range from elsewhere to position `dst`, `copyForward` copies `n` elements from `src` to `dst` in
the same list, first element first.  Both are the loops themselves; `overwrite_eq` and
`copyForward_eq` say what they leave behind.  For an overlapping copy the order of the loop
matters, and `copyForward_eq` needs `dst ≤ src`.
-/

namespace Copy

variable {α : Type*}

/-- Copy `data` to position `dst`, one element at a time. -/
def overwrite (l : List α) (dst : ℕ) : List α → List α
  | [] => l
  | x :: data => overwrite (l.set dst x) (dst + 1) data

/-- Copy `n` elements from `src` to `dst`, one element at a time, from the first. -/
def copyForward [Inhabited α] (l : List α) (src dst : ℕ) : ℕ → List α
  | 0 => l
  | n + 1 => copyForward (l.set dst (l.getD src default)) (src + 1) (dst + 1) n

@[simp] theorem overwrite_length (l : List α) (dst : ℕ) (data : List α) :
    (overwrite l dst data).length = l.length := by
  induction data generalizing l dst with
  | nil => rfl
  | cons x data ih => rw [overwrite, ih, List.length_set]

@[simp] theorem copyForward_length [Inhabited α] (l : List α) (src dst n : ℕ) :
    (copyForward l src dst n).length = l.length := by
  induction n generalizing l src dst with
  | zero => rfl
  | succ n ih => rw [copyForward, ih, List.length_set]

theorem overwrite_eq {l data : List α} {dst : ℕ} (h : dst + data.length ≤ l.length) :
    overwrite l dst data = l.take dst ++ data ++ l.drop (dst + data.length) := by
  induction data generalizing l dst with
  | nil => simp [overwrite]
  | cons x data ih =>
    have hlen : dst < l.length := by simp only [List.length_cons] at h; omega
    rw [overwrite, ih (by simp only [List.length_set, List.length_cons] at h ⊢; omega)]
    rw [List.take_set, List.take_succ_eq_append_getElem hlen, List.set_append_right _ _ (by simp),
      List.drop_set_of_lt (by omega)]
    simp [List.length_take, Nat.min_eq_left hlen.le, Nat.add_assoc, Nat.add_comm 1]

theorem copyForward_eq [Inhabited α] {l : List α} {src dst n : ℕ} (hle : dst ≤ src)
    (h : src + n ≤ l.length) :
    copyForward l src dst n = l.take dst ++ (l.drop src).take n ++ l.drop (dst + n) := by
  induction n generalizing l src dst with
  | zero => simp [copyForward]
  | succ n ih =>
    have hs : src < l.length := by omega
    have hd : dst < l.length := by omega
    rw [copyForward, ih (by omega) (by rw [List.length_set]; omega)]
    rw [List.take_set, List.take_succ_eq_append_getElem hd, List.set_append_right _ _ (by simp),
      List.drop_set_of_lt (by omega : dst < src + 1), List.drop_set_of_lt (by omega)]
    rw [List.drop_eq_getElem_cons hs, List.take_succ_cons]
    simp [List.length_take, Nat.min_eq_left hd.le, Nat.add_assoc, Nat.add_comm 1, hs]

end Copy
