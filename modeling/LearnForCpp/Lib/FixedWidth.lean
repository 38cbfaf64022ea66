import Mathlib.Tactic

/-!
# Numbers in fields of fixed width

A number with leading zeros in a field of fixed width, and a text of several such fields, sort as
the numbers do.  Texts are compared symbol by symbol, the order of `List`.

* `text`: the last `w` digits of a number, each as a symbol.
* `text_lt_text`: larger numbers have larger texts.
* `append_lt_append`: the first field decides, and then the rest.
-/

namespace FixedWidth

variable {α : Type*} {b w m n : ℕ} {sym : ℕ → α}

/-- The last `w` digits of a number in base `b`, the most significant first. -/
def text (b : ℕ) (sym : ℕ → α) : ℕ → ℕ → List α
  | 0, _ => []
  | w + 1, n => text b sym w (n / b) ++ [sym (n % b)]

theorem length_text (w n : ℕ) : (text b sym w n).length = w := by
  induction w generalizing n with
  | zero => rfl
  | succ w ih => rw [text, List.length_append, ih, List.length_singleton]

theorem text_zero (w : ℕ) : text b sym w 0 = List.replicate w (sym 0) := by
  induction w with
  | zero => rfl
  | succ w ih => rw [text, Nat.zero_div, Nat.zero_mod, ih, List.replicate_succ']

section Order

variable [LT α]

/-- Of two texts with first fields of one width, the first fields decide. -/
theorem append_lt_append {xs xs' ys ys' : List α} (hlen : xs.length = xs'.length)
    (h : xs < xs' ∨ xs = xs' ∧ ys < ys') : xs ++ ys < xs' ++ ys' := by
  induction xs generalizing xs' with
  | nil =>
    obtain rfl : xs' = [] := List.length_eq_zero_iff.1 hlen.symm
    rcases h with h | ⟨-, h⟩
    · exact absurd h (List.not_lt_nil [])
    · exact h
  | cons x xs ih =>
    cases xs' with
    | nil => cases hlen
    | cons x' xs' =>
      rw [List.cons_append, List.cons_append, List.cons_lt_cons_iff]
      have hlen' : xs.length = xs'.length := Nat.succ.inj hlen
      rcases h with h | ⟨h, hlt⟩
      · rcases List.cons_lt_cons_iff.1 h with hx | ⟨hx, hxs⟩
        · exact .inl hx
        · exact .inr ⟨hx, ih hlen' (.inl hxs)⟩
      · obtain ⟨hx, hxs⟩ := List.cons.inj h
        exact .inr ⟨hx, ih hlen' (.inr ⟨hxs, hlt⟩)⟩

/-- Larger numbers have larger texts. -/
theorem text_lt_text (hsym : ∀ i j, i < j → j < b → sym i < sym j) (h : m < n) (hn : n < b ^ w) :
    text b sym w m < text b sym w n := by
  induction w generalizing m n with
  | zero =>
    rw [pow_zero] at hn
    omega
  | succ w ih =>
    have hb : 0 < b := by
      rcases Nat.eq_zero_or_pos b with rfl | hb
      · rw [zero_pow (Nat.succ_ne_zero w)] at hn
        omega
      · exact hb
    refine append_lt_append (by rw [length_text, length_text]) ?_
    rcases (Nat.div_le_div_right h.le).lt_or_eq with hdiv | hdiv
    · exact .inl (ih hdiv (Nat.div_lt_of_lt_mul (by rwa [mul_comm, ← pow_succ])))
    · -- the digits before the last one agree
      have hmod : m % b < n % b := by
        have hm := Nat.div_add_mod m b
        have hn := Nat.div_add_mod n b
        rw [hdiv] at hm
        omega
      refine .inr ⟨by rw [hdiv], ?_⟩
      exact List.cons_lt_cons_iff.2 (.inl (hsym _ _ hmod (Nat.mod_lt n hb)))

end Order

end FixedWidth
