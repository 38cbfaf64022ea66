import Mathlib.Tactic

/-!
# `AtomicIntegerT`

`thread/Atomic.h`, for an integer type of `w` bits.  Each member function is one atomic
instruction: a function of the value that gives what it returns and the value after it.
-/

namespace Jiangbo

/-- `AtomicIntegerT<T>`. -/
structure AtomicIntegerT (w : ℕ) where
  value : BitVec w
  deriving DecidableEq

namespace AtomicIntegerT

variable {w : ℕ}

/-- The constructor. -/
def new : AtomicIntegerT w := ⟨0⟩

/-- `__sync_val_compare_and_swap(&value_, 0, 0)`. -/
def get (a : AtomicIntegerT w) : BitVec w × AtomicIntegerT w :=
  (a.value, if a.value = 0 then ⟨0⟩ else a)

/-- `__sync_fetch_and_add(&value_, x)`. -/
def getAndAdd (x : BitVec w) (a : AtomicIntegerT w) : BitVec w × AtomicIntegerT w :=
  (a.value, ⟨a.value + x⟩)

def addAndGet (x : BitVec w) (a : AtomicIntegerT w) : BitVec w × AtomicIntegerT w :=
  ((a.getAndAdd x).1 + x, (a.getAndAdd x).2)

def incrementAndGet (a : AtomicIntegerT w) : BitVec w × AtomicIntegerT w := a.addAndGet 1

def decrement (a : AtomicIntegerT w) : AtomicIntegerT w := (a.getAndAdd (-1)).2

@[simp] theorem get_fst (a : AtomicIntegerT w) : a.get.1 = a.value := rfl

@[simp] theorem get_snd (a : AtomicIntegerT w) : a.get.2 = a := by
  unfold get
  split_ifs with h
  · rw [← h]
  · rfl

/-- A counter below the largest value counts on. -/
theorem incrementAndGet_toNat {a : AtomicIntegerT w} (h : a.value.toNat + 1 < 2 ^ w) :
    a.incrementAndGet.1.toNat = a.value.toNat + 1 := by
  have hw : 1 < 2 ^ w := by omega
  change (a.value + 1).toNat = _
  simp [BitVec.toNat_add, Nat.mod_eq_of_lt hw, Nat.mod_eq_of_lt h]

/-- A counter above zero counts back. -/
theorem decrement_toNat {a : AtomicIntegerT w} (h : 0 < a.value.toNat) :
    a.decrement.value.toNat = a.value.toNat - 1 := by
  have hlt := a.value.isLt
  have hw : 1 < 2 ^ w := by omega
  change (a.value + -1).toNat = _
  rw [← BitVec.sub_eq_add_neg, BitVec.toNat_sub]
  simp only [BitVec.ofNat_eq_ofNat, BitVec.toNat_ofNat, Nat.mod_eq_of_lt hw]
  rw [show 2 ^ w - 1 + a.value.toNat = a.value.toNat - 1 + 2 ^ w by omega, Nat.add_mod_right,
    Nat.mod_eq_of_lt (by omega)]

end AtomicIntegerT

/-- `AtomicInt32`. -/
abbrev AtomicInt32 := AtomicIntegerT 32

end Jiangbo
