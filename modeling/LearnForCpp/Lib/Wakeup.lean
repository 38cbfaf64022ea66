import Mathlib.Tactic
import Mathlib.Data.Fintype.Basic
import Mathlib.Data.Fintype.Card

/-!
# Items, sleepers and notifications

Threads take items out of a store, and sleep while there are none; threads that add an item then
notify one sleeper.  Only the numbers matter: of the items, and of the threads that are about to
notify, that are awake on their way to an item, and that are asleep.

`Covered items f` says that no wake-up is lost: there is a notification for each sleeper, or an
awake thread or a notification for each item.  One lemma for each kind of step says that the step
keeps it, and `Covered.not_stranded` what it is for.
-/

/-- What a thread is doing, as far as the others wait for it. -/
inductive Activity
  | away
  /-- It has added an item, and is about to notify a sleeper. -/
  | notifying
  /-- It is on its way to an item. -/
  | awake
  | asleep
  deriving DecidableEq

namespace Activity

variable {T : Type*} [Fintype T]

/-- The number of threads with an activity. -/
def count (k : Activity) (f : T → Activity) : ℕ := (Finset.univ.filter fun t => f t = k).card

variable {f : T → Activity} {t : T} {k a : Activity} {items : ℕ}

theorem count_eq_zero : count k f = 0 ↔ ∀ t, f t ≠ k := by
  simp [count, Finset.filter_eq_empty_iff]

theorem count_pos (h : f t = k) : 0 < count k f :=
  Finset.card_pos.2 ⟨t, Finset.mem_filter.2 ⟨Finset.mem_univ t, h⟩⟩

/-- There is a notification for each sleeper, or for each item a notification or an awake
thread. -/
def Covered (items : ℕ) (f : T → Activity) : Prop :=
  count .asleep f ≤ count .notifying f ∨ items ≤ count .notifying f + count .awake f

instance (items : ℕ) (f : T → Activity) : Decidable (Covered items f) :=
  inferInstanceAs (Decidable (_ ∨ _))

theorem Covered.init (h : ∀ t, f t = .away) : Covered items f := by
  left
  rw [count_eq_zero.2 fun t => by simp [h t]]
  exact Nat.zero_le _

/-- Somebody sleeps although there are items, and nobody is left to take them or to notify. -/
theorem Covered.not_stranded (h : Covered items f) (hitems : 0 < items)
    (hnotifying : ∀ t, f t ≠ .notifying) (hawake : ∀ t, f t ≠ .awake) (t : T) : f t ≠ .asleep := by
  intro ht
  have hasleep := count_pos ht
  unfold Covered at h
  rw [count_eq_zero.2 hnotifying, count_eq_zero.2 hawake] at h
  omega

/-- When there is nothing, all may sleep. -/
theorem covered_zero : Covered 0 f := Or.inr (Nat.zero_le _)

/-- A thread that nobody waits for takes items. -/
theorem Covered.of_le {fewer : ℕ} (h : Covered items f) (hle : fewer ≤ items) :
    Covered fewer f := by
  unfold Covered at h ⊢
  omega

/-! ### Steps -/

section Update

variable [DecidableEq T]

/-- One thread changes its activity. -/
theorem count_update (k : Activity) (f : T → Activity) (t : T) (a : Activity) :
    count k (Function.update f t a) + (if f t = k then 1 else 0) =
      count k f + if a = k then 1 else 0 := by
  have hsum : ∀ g : T → Activity, count k g =
      (if g t = k then 1 else 0) + ∑ v ∈ Finset.univ.erase t, if g v = k then 1 else 0 := by
    intro g
    rw [count, Finset.card_filter, ← Finset.add_sum_erase _ _ (Finset.mem_univ t)]
  have hrest : ∑ v ∈ Finset.univ.erase t, (if Function.update f t a v = k then 1 else 0) =
      ∑ v ∈ Finset.univ.erase t, if f v = k then 1 else 0 := by
    refine Finset.sum_congr rfl fun v hv => ?_
    rw [Function.update_of_ne (Finset.ne_of_mem_erase hv)]
  rw [hsum f, hsum (Function.update f t a), hrest, Function.update_self]
  omega

/-- A thread adds an item, and is about to notify. -/
theorem Covered.push (h : Covered items f) (ht : f t = .away) :
    Covered (items + 1) (Function.update f t .notifying) := by
  have hnotifying := count_update .notifying f t .notifying
  have hawake := count_update .awake f t .notifying
  have hasleep := count_update .asleep f t .notifying
  simp only [ht, reduceCtorEq, if_false, if_true] at hnotifying hawake hasleep
  unfold Covered at h ⊢
  omega

/-- A thread has notified, and there was no sleeper. -/
theorem Covered.notify_none (h : ∀ v, f v ≠ .asleep) (ht : f t = .notifying) :
    Covered items (Function.update f t .away) := by
  have hasleep := count_update .asleep f t .away
  simp only [ht, reduceCtorEq, if_false] at hasleep
  rw [count_eq_zero.2 h] at hasleep
  unfold Covered
  omega

/-- A thread comes for an item. -/
theorem Covered.enter (h : Covered items f) (ht : f t = .away) :
    Covered items (Function.update f t .awake) := by
  have hnotifying := count_update .notifying f t .awake
  have hawake := count_update .awake f t .awake
  have hasleep := count_update .asleep f t .awake
  simp only [ht, reduceCtorEq, if_false, if_true] at hnotifying hawake hasleep
  unfold Covered at h ⊢
  omega

/-- An awake thread goes away with an item. -/
theorem Covered.take (h : Covered (items + 1) f) (ht : f t = .awake) :
    Covered items (Function.update f t .away) := by
  have hnotifying := count_update .notifying f t .away
  have hawake := count_update .awake f t .away
  have hasleep := count_update .asleep f t .away
  simp only [ht, reduceCtorEq, if_false, if_true] at hnotifying hawake hasleep
  unfold Covered at h ⊢
  omega

/-- A sleeper wakes up by itself. -/
theorem Covered.wake (h : Covered items f) (ht : f t = .asleep) :
    Covered items (Function.update f t .awake) := by
  have hnotifying := count_update .notifying f t .awake
  have hawake := count_update .awake f t .awake
  have hasleep := count_update .asleep f t .awake
  simp only [ht, reduceCtorEq, if_false, if_true] at hnotifying hawake hasleep
  unfold Covered at h ⊢
  omega

/-- A notification wakes the sleeper `v` up. -/
theorem Covered.notify {v : T} (h : Covered items f) (ht : f t = .notifying) (hv : f v = .asleep) :
    Covered items (Function.update (Function.update f t .away) v .awake) := by
  have hne : v ≠ t := by
    rintro rfl
    simp [ht] at hv
  have hv' : Function.update f t .away v = .asleep := by rw [Function.update_of_ne hne, hv]
  have hnotifying := count_update .notifying f t .away
  have hawake := count_update .awake f t .away
  have hasleep := count_update .asleep f t .away
  have hnotifying' := count_update .notifying (Function.update f t .away) v .awake
  have hawake' := count_update .awake (Function.update f t .away) v .awake
  have hasleep' := count_update .asleep (Function.update f t .away) v .awake
  simp only [ht, hv', reduceCtorEq, if_false, if_true] at *
  unfold Covered at h ⊢
  omega

end Update

end Activity
