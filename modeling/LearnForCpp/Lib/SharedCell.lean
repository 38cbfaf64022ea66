import Mathlib.Tactic

/-!
# Objects owned by shared pointers

An object that some number of shared pointers own is deleted with the last of them.  `alive n v` is
an object `v` with `n + 1` owners, so that the number of owners and the life of the object cannot
disagree.  A weak pointer can be turned into one more owner as long as there is one.
-/

/-- An object and its owners. -/
inductive SharedCell (V : Type*)
  | alive (others : ℕ) (v : V)
  | deleted
  deriving DecidableEq

namespace SharedCell

variable {V : Type*} {v : V} {n : ℕ}

/-- An object with one owner. -/
def new (v : V) : SharedCell V := alive 0 v

/-- The number of owners. -/
def owners : SharedCell V → ℕ
  | alive others _ => others + 1
  | deleted => 0

def get : SharedCell V → Option V
  | alive _ v => some v
  | deleted => none

/-- `lock` on a weak pointer: whether there is a new owner. -/
def lock : SharedCell V → Bool × SharedCell V
  | alive others v => (true, alive (others + 1) v)
  | deleted => (false, deleted)

/-- An owner lets go, if there is one. -/
def release : SharedCell V → Option (SharedCell V)
  | alive (others + 1) v => some (alive others v)
  | alive 0 _ => some deleted
  | deleted => none

/-- An owner writes to the object, if it is there. -/
def set (v : V) : SharedCell V → Option (SharedCell V)
  | alive others _ => some (alive others v)
  | deleted => none

variable {c d : SharedCell V}

theorem owners_eq_zero : c.owners = 0 ↔ c = deleted := by
  cases c <;> simp [owners]

theorem lock_fst : c.lock.1 = true ↔ 0 < c.owners := by
  cases c <;> simp [lock, owners]

theorem owners_lock : c.lock.2.owners = if c.lock.1 then c.owners + 1 else 0 := by
  cases c <;> rfl

/-- An owner can let go, and only that changes. -/
theorem exists_release (h : 0 < c.owners) : ∃ d, c.release = some d ∧ d.owners + 1 = c.owners ∧
    (0 < d.owners → d.get = c.get) := by
  cases c with
  | alive others v => cases others <;> exact ⟨_, rfl, rfl, by simp [owners, get]⟩
  | deleted => exact absurd h (lt_irrefl 0)

theorem exists_set (h : 0 < c.owners) (v : V) :
    ∃ d, c.set v = some d ∧ d.owners = c.owners ∧ d.get = some v := by
  cases c with
  | alive others _ => exact ⟨_, rfl, rfl, rfl⟩
  | deleted => exact absurd h (lt_irrefl 0)

end SharedCell
