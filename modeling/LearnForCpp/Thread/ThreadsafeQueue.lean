import LearnForCpp.Lib.Transition
import LearnForCpp.Lib.LinkedList
import LearnForCpp.Lib.Wakeup

/-!
# `threadsafe_queue_version_2`

`thread/threadsafe_queue_test.cc`: a linked list with a dummy node at its end.  `push` works on the
last node under `tail_mutex_`; the functions that pop work on the first one under `head_mutex_`,
and look at `tail_` through `get_tail`.

The threads `T` are any finite type, and each may call any of the functions.  The sections under
`tail_mutex_`, those of `push` and of `get_tail`, are one step each; a section under `head_mutex_`
takes a step for the lock, for `get_tail`, for the comparison and for what follows from it.  A node
of the list is at an address that no other node has; the address may be used again when the node
has been taken off.  `pushed` and `popped` are for the proofs.
-/

namespace Jiangbo

/-- The functions that lock `head_mutex_`. -/
inductive HeadCall
  | tryPop
  /-- `wait_and_pop`, which returns a pointer, or with `byValue` the one that assigns to `value`. -/
  | waitAndPop (byValue : Bool)
  | empty
  deriving DecidableEq

/-- Where a thread stands in the functions of the queue. -/
inductive QueuePc (V : Type*)
  | idle
  /-- `push` is about to lock `tail_mutex_`. -/
  | pushing (v : V)
  /-- `push` is about to call `notify_one`. -/
  | notifying
  /-- It asks for `head_mutex_`, in the beginning or after a wake-up. -/
  | locking (k : HeadCall)
  /-- It has `head_mutex_`, as in all that follow but `asleep`. -/
  | locked (k : HeadCall)
  /-- `get_tail` has returned `n`; `wasEmpty` is for the proofs: all that had been pushed had been
  popped. -/
  | gotTail (k : HeadCall) (n : ℕ) (wasEmpty : Bool)
  /-- The predicate of `wait` is false. -/
  | sleeping (byValue : Bool)
  /-- There is a node to pop. -/
  | popping (k : HeadCall)
  /-- `wait_and_pop` has moved the value out of the node. -/
  | moved (v : V)
  /-- It sleeps in `cond_.wait`. -/
  | asleep (byValue : Bool)
  deriving DecidableEq

inductive QueueAction (T V : Type*)
  | push (t : T) (v : V)
  /-- The section of `push` under `tail_mutex_`, with the address of the new node. -/
  | link (t : T) (n : ℕ)
  /-- `cond_.notify_one()`, which wakes a sleeper up if there is one. -/
  | notifyOne (t : T) (woken : Option T)
  /-- The call of a function that locks `head_mutex_`. -/
  | call (t : T) (k : HeadCall)
  | lock (t : T)
  | getTail (t : T)
  /-- `head_.get() == get_tail()`. -/
  | compare (t : T)
  /-- `head_mutex_` is unlocked, and the thread sleeps. -/
  | sleep (t : T)
  /-- `value = std::move(*head_->data)`, which leaves `w` behind. -/
  | move (t : T) (w : V)
  | popHead (t : T)
  /-- A spurious wake-up. -/
  | wake (t : T)

structure ThreadsafeQueue (T V : Type*) where
  node : ℕ → Node ℕ V
  /-- The addresses of the nodes of the list. -/
  allocated : Finset ℕ
  /-- Who has locked `head_mutex_`. -/
  headMutex : Option T
  head : Option ℕ
  tail : ℕ
  pc : T → QueuePc V
  /-- A null pointer has been dereferenced. -/
  failed : Bool
  pushed : List V
  popped : List (Option V)

/-- What a caller of the function does for the consumers, which are those that wait for data. -/
def HeadCall.activity : HeadCall → Activity
  | .waitAndPop _ => .awake
  | .tryPop | .empty => .away

namespace QueuePc

variable {V : Type*}

/-- The thread has locked `head_mutex_`. -/
def Locked : QueuePc V → Prop
  | .locked _ | .gotTail _ _ _ | .sleeping _ | .popping _ | .moved _ => True
  | _ => False

/-- The thread is in a call of `push`. -/
def InPush : QueuePc V → Prop
  | .pushing _ | .notifying => True
  | _ => False

/-- The thread sleeps in `cond_.wait`. -/
def Asleep : QueuePc V → Prop
  | .asleep _ => True
  | _ => False

instance : DecidablePred (Asleep : QueuePc V → Prop)
  | .asleep _ => isTrue trivial
  | .idle | .pushing _ | .notifying | .locking _ | .locked _ | .gotTail _ _ _ | .sleeping _
  | .popping _ | .moved _ => isFalse id

/-- What the thread does for the consumers. -/
def activity : QueuePc V → Activity
  | .notifying => .notifying
  | .locking k | .locked k | .gotTail k _ _ | .popping k => k.activity
  | .sleeping _ | .moved _ => .awake
  | .asleep _ => .asleep
  | .idle | .pushing _ => .away

end QueuePc

namespace ThreadsafeQueue

variable {T V : Type*} [DecidableEq T]

/-- The constructor. -/
def new : ThreadsafeQueue T V where
  node _ := .empty
  allocated := {0}
  headMutex := none
  head := some 0
  tail := 0
  pc _ := .idle
  failed := false
  pushed := []
  popped := []

def setPc (t : T) (p : QueuePc V) (s : ThreadsafeQueue T V) : ThreadsafeQueue T V :=
  { s with pc := Function.update s.pc t p }

/-- The thread goes on without `head_mutex_`. -/
def unlock (t : T) (p : QueuePc V) (s : ThreadsafeQueue T V) : ThreadsafeQueue T V :=
  { s with headMutex := none, pc := Function.update s.pc t p }

/-- The section of `push` under `tail_mutex_`. -/
def link (t : T) (n : ℕ) (s : ThreadsafeQueue T V) : Option (ThreadsafeQueue T V) :=
  match s.pc t with
  | .pushing v =>
      -- the address of the new dummy node, which `new` has not given to anybody
      if n ∈ s.allocated then none
      else some { s with
        node := Function.update (Function.update s.node n .empty) s.tail ⟨some v, some n⟩
        allocated := insert n s.allocated
        tail := n
        pc := Function.update s.pc t .notifying
        pushed := s.pushed ++ [v] }
  | _ => none

/-- `cond_.notify_one()`. -/
def notifyOne [Fintype T] (t : T) (woken : Option T) (s : ThreadsafeQueue T V) :
    Option (ThreadsafeQueue T V) :=
  match s.pc t, woken with
  | .notifying, none => if ∀ v, ¬(s.pc v).Asleep then some (s.setPc t .idle) else none
  | .notifying, some v =>
      match s.pc v with
      | .asleep byValue => some ((s.setPc t .idle).setPc v (.locking (.waitAndPop byValue)))
      | _ => none
  | _, _ => none

/-- `head_.get() == get_tail()`, and what each function makes of it. -/
def compare (t : T) (s : ThreadsafeQueue T V) : Option (ThreadsafeQueue T V) :=
  match s.pc t with
  | .gotTail .empty _ _ => some (s.unlock t .idle)
  | .gotTail .tryPop n _ =>
      some (if s.head = some n then s.unlock t .idle else s.setPc t (.popping .tryPop))
  -- the predicate of `cond_.wait`
  | .gotTail (.waitAndPop byValue) n _ =>
      some (s.setPc t
        (if s.head = some n then .sleeping byValue else .popping (.waitAndPop byValue)))
  | _ => none

/-- `value = std::move(*head_->data)`. -/
def move (t : T) (w : V) (s : ThreadsafeQueue T V) : Option (ThreadsafeQueue T V) :=
  match s.pc t with
  | .popping (.waitAndPop true) =>
      match s.head with
      | none => some { s with failed := true }
      | some h =>
          match (s.node h).data with
          | none => some { s with failed := true }
          | some v =>
              some { s with
                -- what a value is after it was moved from is up to its type
                node := Function.update s.node h ⟨some w, (s.node h).next⟩
                pc := Function.update s.pc t (.moved v) }
  | _ => none

/-- `pop_head`, and the end of the section; `value` is what the caller gets, when it does not read
it from the node. -/
def popHead (t : T) (value : Option V) (s : ThreadsafeQueue T V) : ThreadsafeQueue T V :=
  match s.head with
  | none => { s with failed := true }
  | some h =>
      { s with
        node := Function.update s.node h ⟨(s.node h).data, none⟩
        allocated := s.allocated.erase h
        headMutex := none
        head := (s.node h).next
        pc := Function.update s.pc t .idle
        popped := s.popped ++ [value.or (s.node h).data] }

/-- One step. -/
def next [Fintype T] (s : ThreadsafeQueue T V) : QueueAction T V → Option (ThreadsafeQueue T V)
  | .push t v =>
      match s.pc t with
      | .idle => some (s.setPc t (.pushing v))
      | _ => none
  | .link t n => s.link t n
  | .notifyOne t woken => s.notifyOne t woken
  | .call t k =>
      match s.pc t with
      | .idle => some (s.setPc t (.locking k))
      | _ => none
  | .lock t =>
      match s.headMutex, s.pc t with
      | none, .locking k =>
          some { s with headMutex := some t, pc := Function.update s.pc t (.locked k) }
      | _, _ => none
  | .getTail t =>
      match s.pc t with
      | .locked k =>
          some (s.setPc t (.gotTail k s.tail (s.pushed.length == s.popped.length)))
      | _ => none
  | .compare t => s.compare t
  | .sleep t =>
      match s.pc t with
      | .sleeping byValue => some (s.unlock t (.asleep byValue))
      | _ => none
  | .move t w => s.move t w
  | .popHead t =>
      match s.pc t with
      | .popping .tryPop | .popping (.waitAndPop false) => some (s.popHead t none)
      | .moved v => some (s.popHead t (some v))
      | _ => none
  | .wake t =>
      match s.pc t with
      | .asleep byValue => some (s.setPc t (.locking (.waitAndPop byValue)))
      | _ => none

end ThreadsafeQueue

/-- The runs of threads with a `threadsafe_queue_version_2`. -/
def threadsafeQueues (T V : Type*) [Fintype T] [DecidableEq T] :
    LTS (ThreadsafeQueue T V) (QueueAction T V) where
  init s := s = .new
  next := ThreadsafeQueue.next

end Jiangbo
