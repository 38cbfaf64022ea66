import Mathlib.Data.Finset.Insert
import Mathlib.Data.Finset.Erase
import Mathlib.Tactic.Cases

/-!
# Locks with readers and a writer

A lock that one thread has alone, or that any number of threads share.  `Holds` says who has it in
which mode; `acquire_holds` and `release_holds` are what the two operations change, and
`Holds.eq_of_exclusive` is the exclusion.
-/

/-- How a thread has a lock. -/
inductive LockMode
  | shared
  | exclusive
  deriving DecidableEq

/-- A lock: the thread that has it alone, and those that share it. -/
structure SharedMutex (T : Type*) where
  writer : Option T
  readers : Finset T
  alone : writer ≠ none → readers = ∅

namespace SharedMutex

variable {T : Type*} {m m' : SharedMutex T} {t u : T} {mode other : LockMode}

/-- A lock that nobody has. -/
def free : SharedMutex T := ⟨none, ∅, fun _ => rfl⟩

/-- The thread has the lock in this mode. -/
def Holds (m : SharedMutex T) (t : T) : LockMode → Prop
  | .shared => t ∈ m.readers
  | .exclusive => m.writer = some t

/-- A thread gets the lock, when the others allow it. -/
def acquire [DecidableEq T] (t : T) (mode : LockMode) (m : SharedMutex T) :
    Option (SharedMutex T) :=
  match mode, m.writer with
  | .shared, none => some ⟨none, insert t m.readers, fun h => absurd rfl h⟩
  | .exclusive, none => if m.readers = ∅ then some ⟨some t, ∅, fun _ => rfl⟩ else none
  | _, some _ => none

/-- A thread gives the lock back. -/
def release [DecidableEq T] (t : T) (mode : LockMode) (m : SharedMutex T) : SharedMutex T :=
  match mode with
  | .shared => ⟨m.writer, m.readers.erase t, fun h => by simp [m.alone h]⟩
  | .exclusive => ⟨none, m.readers, fun h => absurd rfl h⟩

theorem not_holds_free : ¬(free : SharedMutex T).Holds t mode := by
  cases mode <;> simp [free, Holds]

/-- **Exclusion.** Nobody else has a lock that a thread has alone. -/
theorem Holds.eq_of_exclusive (h : m.Holds t .exclusive) (h' : m.Holds u mode) :
    u = t ∧ mode = .exclusive := by
  have hw : m.writer = some t := h
  cases mode with
  | shared =>
    have hu : u ∈ m.readers := h'
    rw [m.alone (by simp [hw])] at hu
    exact absurd hu (Finset.notMem_empty u)
  | exclusive =>
    have hu : m.writer = some u := h'
    exact ⟨Option.some.inj (hu.symm.trans hw), rfl⟩

variable [DecidableEq T]

theorem acquire_holds (h : m.acquire t mode = some m') :
    m'.Holds u other ↔ m.Holds u other ∨ u = t ∧ other = mode := by
  obtain ⟨writer, readers, alone⟩ := m
  cases writer with
  | some w => cases mode <;> cases h
  | none =>
    cases mode with
    | shared =>
      cases h
      cases other <;> simp [Holds, or_comm]
    | exclusive =>
      obtain ⟨rfl, rfl⟩ : readers = ∅ ∧ m' = ⟨some t, ∅, fun _ => rfl⟩ := by
        simpa [acquire, eq_comm] using h
      cases other <;> simp [Holds, eq_comm]

theorem release_holds (h : m.Holds t mode) :
    (m.release t mode).Holds u other ↔ m.Holds u other ∧ ¬(u = t ∧ other = mode) := by
  cases mode with
  | shared => cases other <;> simp [release, Holds, and_comm]
  | exclusive =>
    have hw : m.writer = some t := h
    cases other with
    | shared => simp [release, Holds]
    | exclusive => simp [release, Holds, hw, eq_comm]

end SharedMutex
