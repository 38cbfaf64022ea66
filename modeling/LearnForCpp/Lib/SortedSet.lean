import Mathlib.Tactic
import Mathlib.Data.List.Sort
import Mathlib.Data.List.TakeWhile

/-!
# Ordered sets

A finite set of a linear order as `std::set` keeps it: the strictly increasing list of its
elements, which is the order of iteration.

* `insert`: the set with a new element, and whether the insertion took place.
* `before b`, `eraseBefore b`: the elements in front of `lower_bound(b)`, and the rest.
-/

/-- A finite set, as the strictly increasing list of its elements. -/
structure SortedSet (α : Type*) [LinearOrder α] where
  toList : List α
  sorted : toList.Pairwise (· < ·)

namespace SortedSet

variable {α : Type*} [LinearOrder α]

def empty : SortedSet α := ⟨[], .nil⟩

instance : Membership α (SortedSet α) := ⟨fun s a => a ∈ s.toList⟩

theorem mem_def {a : α} {s : SortedSet α} : a ∈ s ↔ a ∈ s.toList := Iff.rfl

@[simp] theorem not_mem_empty (a : α) : a ∉ (empty : SortedSet α) := List.not_mem_nil

/-- `*begin()`, or `none` when `begin()` is `end()`. -/
def begin (s : SortedSet α) : Option α := s.toList.head?

/-- A sorted list takes a new element at its place. -/
theorem pairwise_orderedInsert {l : List α} {a : α} (h : l.Pairwise (· < ·)) (ha : a ∉ l) :
    (l.orderedInsert (· ≤ ·) a).Pairwise (· < ·) := by
  have hle : (l.orderedInsert (· ≤ ·) a).Pairwise (· ≤ ·) :=
    (h.imp le_of_lt).orderedInsert a l
  have hnd : (l.orderedInsert (· ≤ ·) a).Nodup := by
    rw [(List.perm_orderedInsert _ a l).nodup_iff, List.nodup_cons]
    exact ⟨ha, h.imp ne_of_lt⟩
  exact hle.imp₂ (fun _ _ hab hne => lt_of_le_of_ne hab hne) hnd

/-- `insert(a)`: the set afterwards, and whether the insertion took place. -/
def insert (s : SortedSet α) (a : α) : SortedSet α × Bool :=
  if h : a ∈ s.toList then (s, false)
  else (⟨s.toList.orderedInsert (· ≤ ·) a, pairwise_orderedInsert s.sorted h⟩, true)

/-- The elements from `begin()` up to `lower_bound(b)`. -/
def before (s : SortedSet α) (b : α) : List α := s.toList.takeWhile (· < b)

/-- `erase(begin(), lower_bound(b))`. -/
def eraseBefore (s : SortedSet α) (b : α) : SortedSet α :=
  ⟨s.toList.dropWhile (· < b), s.sorted.sublist (List.dropWhile_sublist _)⟩

/-! ### Membership -/

variable {s : SortedSet α} {a b : α}

theorem nodup (s : SortedSet α) : s.toList.Nodup := s.sorted.imp ne_of_lt

theorem insert_snd : (s.insert a).2 = true ↔ a ∉ s := by
  unfold insert
  split_ifs with h <;> simp [mem_def, h]

@[simp] theorem mem_insert : b ∈ (s.insert a).1 ↔ b = a ∨ b ∈ s := by
  unfold insert
  split_ifs with h
  · exact ⟨.inr, by rintro (rfl | hb); exacts [h, hb]⟩
  · exact List.mem_orderedInsert _

/-- An insertion that takes place adds the element once. -/
theorem insert_perm (h : a ∉ s) : (s.insert a).1.toList.Perm (a :: s.toList) := by
  unfold insert
  rw [dif_neg (mem_def.not.1 h)]
  exact List.perm_orderedInsert _ a s.toList

theorem before_append (s : SortedSet α) (b : α) :
    s.before b ++ (s.eraseBefore b).toList = s.toList :=
  List.takeWhile_append_dropWhile

theorem mem_or_mem_of_mem (h : a ∈ s) (b : α) : a ∈ s.before b ∨ a ∈ s.eraseBefore b := by
  rw [mem_def, ← s.before_append b] at h
  exact List.mem_append.1 h

theorem before_subset (h : a ∈ s.before b) : a ∈ s :=
  (List.takeWhile_sublist _).subset h

theorem eraseBefore_subset (h : a ∈ s.eraseBefore b) : a ∈ s :=
  (List.dropWhile_sublist _).subset h

theorem lt_of_mem_before (h : a ∈ s.before b) : a < b := by
  simpa using List.mem_takeWhile_imp h

/-- Nothing in front of `lower_bound(b)` is left behind it. -/
theorem le_of_mem_eraseBefore (h : a ∈ s.eraseBefore b) : b ≤ a := by
  have hs := (s.eraseBefore b).sorted
  rw [mem_def] at h
  cases hl : (s.eraseBefore b).toList with
  | nil => simp [hl] at h
  | cons c l =>
    have hc : b ≤ c := by
      have h0 := List.head?_dropWhile_not (fun x => decide (x < b)) s.toList
      rw [show s.toList.dropWhile (fun x => decide (x < b)) = c :: l from hl] at h0
      simpa using h0
    rw [hl] at h hs
    rcases List.mem_cons.1 h with rfl | h
    · exact hc
    · exact hc.trans (List.rel_of_pairwise_cons hs h).le

theorem mem_before : a ∈ s.before b ↔ a ∈ s ∧ a < b := by
  refine ⟨fun h => ⟨before_subset h, lt_of_mem_before h⟩, fun ⟨hs, hb⟩ => ?_⟩
  exact (mem_or_mem_of_mem hs b).resolve_right fun h => absurd (le_of_mem_eraseBefore h) hb.not_ge

theorem mem_eraseBefore : a ∈ s.eraseBefore b ↔ a ∈ s ∧ b ≤ a := by
  refine ⟨fun h => ⟨eraseBefore_subset h, le_of_mem_eraseBefore h⟩, fun ⟨hs, hb⟩ => ?_⟩
  exact (mem_or_mem_of_mem hs b).resolve_left fun h => absurd (lt_of_mem_before h) hb.not_gt

theorem before_sorted (s : SortedSet α) (b : α) : (s.before b).Pairwise (· < ·) :=
  s.sorted.sublist (List.takeWhile_sublist _)

/-! ### The first element -/

theorem begin_mem (h : s.begin = some a) : a ∈ s := List.mem_of_head? h

theorem begin_eq_none : s.begin = none ↔ ∀ a, a ∉ s := by
  rw [begin, List.head?_eq_none_iff, List.eq_nil_iff_forall_not_mem]
  rfl

/-- `begin()` is the least element. -/
theorem begin_le (h : s.begin = some a) (hb : b ∈ s) : a ≤ b := by
  obtain ⟨l, hl⟩ := List.head?_eq_some_iff.1 h
  have hs := s.sorted
  rw [mem_def, hl] at hb
  rw [hl] at hs
  rcases List.mem_cons.1 hb with rfl | hb
  · exact le_rfl
  · exact (List.rel_of_pairwise_cons hs hb).le

theorem exists_begin (h : a ∈ s) : ∃ b, s.begin = some b ∧ b ≤ a := by
  cases hb : s.begin with
  | none => exact absurd h (begin_eq_none.1 hb a)
  | some b => exact ⟨b, rfl, begin_le hb h⟩

/-- The first element after an insertion is the new one or the old first one. -/
theorem begin_insert (s : SortedSet α) (a : α) :
    (s.insert a).1.begin = some (s.begin.elim a (min a)) := by
  obtain ⟨c, hc, hca⟩ := exists_begin (s := (s.insert a).1) (mem_insert.2 (.inl rfl))
  rw [hc]
  congr 1
  cases hb : s.begin with
  | none =>
    rcases mem_insert.1 (begin_mem hc) with rfl | hm
    · rfl
    · exact absurd hm (begin_eq_none.1 hb c)
  | some b =>
    refine le_antisymm (le_min hca (begin_le hc (mem_insert.2 (.inr (begin_mem hb))))) ?_
    rcases mem_insert.1 (begin_mem hc) with rfl | hm
    · exact min_le_left _ _
    · exact (min_le_right _ _).trans (begin_le hb hm)

end SortedSet
