import Mathlib.Data.List.Nodup
import Mathlib.Tactic.Cases

/-!
# Association lists that are searched for a position

A list of pairs that holds each key at most once.  `find` is the position of the entry of a key,
and `store` writes at a position that was found, or adds an entry at the end when there was none.
A position that `find` has just given is that of an entry with the key (`find_eq_some`), and `store`
at such a position changes what the list has for this key and for no other (`lookup_store`).
-/

namespace AssocList

variable {K V : Type*} [DecidableEq K] {k k' : K} {v : V} {e : K × V} {l : List (K × V)}

/-- The position of the entry with the key. -/
def find (k : K) (l : List (K × V)) : Option ℕ :=
  l.findIdx? fun e => e.1 = k

/-- Write at the position, or add an entry when there is none. -/
def store (found : Option ℕ) (k : K) (v : V) (l : List (K × V)) : List (K × V) :=
  match found with
  | none => l ++ [(k, v)]
  | some i => l.modify i fun e => (e.1, v)

theorem find_cons_self (v : V) (l : List (K × V)) : find k ((k, v) :: l) = some 0 := by
  simp [find, List.findIdx?_cons]

theorem find_cons_of_ne (h : e.1 ≠ k) : find k (e :: l) = (find k l).map (· + 1) := by
  simp [find, List.findIdx?_cons, h]

theorem store_cons_self (v w : V) (l : List (K × V)) :
    store (find k ((k, w) :: l)) k v ((k, w) :: l) = (k, v) :: l := by
  rw [find_cons_self, store, List.modify_zero_cons]

theorem store_cons_of_ne (h : e.1 ≠ k) :
    store (find k (e :: l)) k v (e :: l) = e :: store (find k l) k v l := by
  rw [find_cons_of_ne h]
  cases find k l with
  | none => rfl
  | some i => exact List.modify_succ_cons _ _ _ _

theorem find_eq_none (h : find k l = none) : k ∉ l.map Prod.fst := by
  intro hk
  obtain ⟨e, he, rfl⟩ := List.mem_map.1 hk
  simpa using List.findIdx?_eq_none_iff.1 h e he

theorem lookup_cons_eq (e : K × V) (l : List (K × V)) (k : K) :
    (e :: l).lookup k = if k = e.1 then some e.2 else l.lookup k := by
  rw [List.lookup_cons]
  split_ifs with h
  · rw [beq_iff_eq.2 h]
  · rw [beq_false_of_ne h]

/-- The entry at the position has the key, and it is the one that counts. -/
theorem find_eq_some {i : ℕ} (h : find k l = some i) :
    ∃ v, l[i]? = some (k, v) ∧ l.lookup k = some v := by
  induction l generalizing i with
  | nil => cases h
  | cons e l ih =>
    obtain ⟨k', w⟩ := e
    by_cases hk : k' = k
    · subst hk
      rw [find_cons_self, Option.some.injEq] at h
      subst h
      exact ⟨w, rfl, List.lookup_cons_self⟩
    · rw [find_cons_of_ne hk] at h
      obtain ⟨j, hj, rfl⟩ := Option.map_eq_some_iff.1 h
      obtain ⟨v, hget, hlookup⟩ := ih hj
      refine ⟨v, hget, ?_⟩
      rw [lookup_cons_eq, if_neg (Ne.symm hk)]
      exact hlookup

/-- **A write changes one key.** -/
theorem lookup_store (k : K) (v : V) (l : List (K × V)) (k' : K) :
    (store (find k l) k v l).lookup k' = if k' = k then some v else l.lookup k' := by
  induction l with
  | nil => exact lookup_cons_eq (k, v) [] k'
  | cons e l ih =>
    obtain ⟨j, w⟩ := e
    by_cases hj : j = k
    · subst hj
      rw [store_cons_self, lookup_cons_eq, lookup_cons_eq]
      split_ifs <;> rfl
    · rw [store_cons_of_ne hj, lookup_cons_eq, lookup_cons_eq, ih]
      -- the entry in front is not the one that is written
      split_ifs with h1 h2
      · exact absurd (h1.symm.trans h2) hj
      all_goals rfl

theorem mem_store (k : K) (v : V) (l : List (K × V)) : (k, v) ∈ store (find k l) k v l := by
  induction l with
  | nil => simp [find, store]
  | cons e l ih =>
    by_cases he : e.1 = k
    · obtain ⟨j, w⟩ := e
      obtain rfl : j = k := he
      rw [store_cons_self]
      exact List.mem_cons_self
    · rw [store_cons_of_ne he]
      exact List.mem_cons_of_mem e ih

theorem keys_store (k : K) (v : V) (l : List (K × V)) :
    (store (find k l) k v l).map Prod.fst =
      if k ∈ l.map Prod.fst then l.map Prod.fst else l.map Prod.fst ++ [k] := by
  induction l with
  | nil => simp [find, store]
  | cons e l ih =>
    by_cases he : e.1 = k
    · obtain ⟨j, w⟩ := e
      obtain rfl : j = k := he
      rw [store_cons_self]
      simp
    · rw [store_cons_of_ne he, List.map_cons, ih]
      by_cases hk : k ∈ l.map Prod.fst
      · rw [if_pos hk, if_pos (by simpa using .inr (by simpa using hk)), List.map_cons]
      · rw [if_neg hk, if_neg (by simpa [Ne.symm he] using hk), List.map_cons, List.cons_append]

/-- No key gets a second entry. -/
theorem nodup_keys_store (k : K) (v : V) (h : (l.map Prod.fst).Nodup) :
    ((store (find k l) k v l).map Prod.fst).Nodup := by
  rw [keys_store]
  split_ifs with hk
  · exact h
  · rw [← List.concat_eq_append]
    exact h.concat hk

theorem mem_keys_store (h : e ∈ store (find k l) k v l) :
    e.1 = k ∨ e.1 ∈ l.map Prod.fst := by
  have hmem := List.mem_map_of_mem (f := Prod.fst) h
  rw [keys_store] at hmem
  split_ifs at hmem
  · exact .inr hmem
  · rcases List.mem_append.1 hmem with hmem | hmem
    · exact .inr hmem
    · exact .inl (List.mem_singleton.1 hmem)

end AssocList
