import LearnForCpp.Lib.Transition

/-!
# Mutexes with a hierarchy

`thread/hieraarchical_mutex.cc`: a thread may lock a mutex only when its value is less than that of
the last one that the thread has locked, `this_thread_hierarchy_value`; the mutex remembers that
value in `previous_hierarchy_value` and restores it.

Threads `T` and mutexes `M` are any types, and `value` gives each mutex its `hierarchy_value`.  A
call takes several steps: the check, the operation of `internal_mutex`, which other threads see,
and the update of the two values.  `held` is for the proofs: the mutexes that a thread has locked,
the last one first.  A thread unlocks only mutexes that it holds.
-/

namespace Jiangbo

/-- Where a thread stands in the functions of `hierarchical_mutex`. -/
inductive MutexPc (M : Type*)
  | idle
  /-- `lock` has checked the hierarchy, and asks for `internal_mutex`. -/
  | locking (m : M)
  /-- `try_lock` has checked the hierarchy. -/
  | trying (m : M)
  /-- It has `internal_mutex`, and is about to update the values. -/
  | locked (m : M)
  /-- `unlock` has restored the value, and is about to unlock `internal_mutex`. -/
  | unlocking (m : M)
  deriving DecidableEq

inductive MutexAction (T M : Type*)
  /-- The call of `lock`, with its check. -/
  | lock (t : T) (m : M)
  /-- `internal_mutex.lock()` returns. -/
  | acquire (t : T) (m : M)
  /-- The call of `try_lock`, with its check. -/
  | tryLock (t : T) (m : M)
  /-- `internal_mutex.try_lock()`, which may fail when the mutex is free. -/
  | tryAcquire (t : T) (m : M) (success : Bool)
  | updateHierarchyValue (t : T) (m : M)
  /-- The call of `unlock`, with its check and the restored value. -/
  | unlock (t : T) (m : M)
  /-- `internal_mutex.unlock()`. -/
  | release (t : T) (m : M)
  deriving DecidableEq

/-- The threads and the mutexes. -/
structure MutexSystem (T M : Type*) where
  /-- Who has locked `internal_mutex`. -/
  internalMutex : M → Option T
  previousHierarchyValue : M → UInt64
  thisThreadHierarchyValue : T → UInt64
  pc : T → MutexPc M
  held : T → List M

def ULONG_MAX : UInt64 := 0xFFFFFFFFFFFFFFFF

namespace MutexSystem

variable {T M : Type*} [DecidableEq T] [DecidableEq M]

def new : MutexSystem T M :=
  ⟨fun _ => none, fun _ => 0, fun _ => ULONG_MAX, fun _ => .idle, fun _ => []⟩

def setPc (t : T) (p : MutexPc M) (s : MutexSystem T M) : MutexSystem T M :=
  { s with pc := Function.update s.pc t p }

/-- `check_for_hierarchy_violation` throws. -/
def Violates (value : M → UInt64) (s : MutexSystem T M) (t : T) (m : M) : Prop :=
  s.thisThreadHierarchyValue t ≤ value m

instance (value : M → UInt64) (s : MutexSystem T M) (t : T) (m : M) :
    Decidable (s.Violates value t m) := inferInstanceAs (Decidable (_ ≤ _))

/-- The call throws `std::logic_error`. -/
def Throws (value : M → UInt64) (s : MutexSystem T M) : MutexAction T M → Prop
  | .lock t m | .tryLock t m => s.Violates value t m
  | .unlock t m => s.thisThreadHierarchyValue t ≠ value m
  | _ => False

instance (value : M → UInt64) (s : MutexSystem T M) :
    (a : MutexAction T M) → Decidable (s.Throws value a)
  | .lock _ _ | .tryLock _ _ => inferInstanceAs (Decidable (_ ≤ _))
  | .unlock _ _ => inferInstanceAs (Decidable (_ ≠ _))
  | .acquire _ _ | .tryAcquire _ _ _ | .updateHierarchyValue _ _ | .release _ _ =>
      inferInstanceAs (Decidable False)

/-- One step. -/
def next (value : M → UInt64) (s : MutexSystem T M) : MutexAction T M → Option (MutexSystem T M)
  | .lock t m =>
      if s.pc t = .idle then
        some (if s.Violates value t m then s else s.setPc t (.locking m))
      else none
  | .acquire t m =>
      if s.pc t = .locking m ∧ s.internalMutex m = none then
        some { s with
          pc := Function.update s.pc t (.locked m)
          internalMutex := Function.update s.internalMutex m (some t) }
      else none
  | .tryLock t m =>
      if s.pc t = .idle then
        some (if s.Violates value t m then s else s.setPc t (.trying m))
      else none
  | .tryAcquire t m success =>
      if s.pc t = .trying m then
        if success then
          if s.internalMutex m = none then
            some { s with
              pc := Function.update s.pc t (.locked m)
              internalMutex := Function.update s.internalMutex m (some t) }
          else none
        else some (s.setPc t .idle)
      else none
  | .updateHierarchyValue t m =>
      if s.pc t = .locked m then
        some { s with
          pc := Function.update s.pc t .idle
          previousHierarchyValue :=
            Function.update s.previousHierarchyValue m (s.thisThreadHierarchyValue t)
          thisThreadHierarchyValue := Function.update s.thisThreadHierarchyValue t (value m)
          held := Function.update s.held t (m :: s.held t) }
      else none
  | .unlock t m =>
      if s.pc t = .idle ∧ m ∈ s.held t then
        some (if s.thisThreadHierarchyValue t ≠ value m then s
          else { s with
            pc := Function.update s.pc t (.unlocking m)
            thisThreadHierarchyValue :=
              Function.update s.thisThreadHierarchyValue t (s.previousHierarchyValue m)
            held := Function.update s.held t ((s.held t).erase m) })
      else none
  | .release t m =>
      if s.pc t = .unlocking m then
        some { s with
          pc := Function.update s.pc t .idle
          internalMutex := Function.update s.internalMutex m none }
      else none

end MutexSystem

/-- The runs of threads with hierarchical mutexes. -/
def hierarchicalMutexes (T : Type*) {M : Type*} [DecidableEq T] [DecidableEq M]
    (value : M → UInt64) : LTS (MutexSystem T M) (MutexAction T M) where
  init s := s = .new
  next := MutexSystem.next value

end Jiangbo
