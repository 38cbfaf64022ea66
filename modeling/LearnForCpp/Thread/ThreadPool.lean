import LearnForCpp.Lib.Transition

/-!
# `threadpool`

`thread/thread_pool.cc`: `start` makes the threads, which take functors from `tasks_` in
`threadFunc`; `push` adds one and notifies, or calls it at once when there are no threads; `stop`
clears `running_` and joins.

The owner constructs the pool, may start and stop it once each, and destroys it; anyone may `push`
meanwhile.  A functor is of type `F`, and `none` is the empty one.  The pushes are numbered, and
`taken` and `invoked` are for the proofs: the numbers of the functors that were taken out of
`tasks_`, in order, and of those that were called.
-/

namespace Jiangbo

/-- Where a worker stands in `threadFunc`. -/
inductive WorkerPc (F : Type*)
  /-- `start` has not made the thread. -/
  | unborn
  /-- The test `while(running_)`. -/
  | test
  /-- `take` asks for `mutex_`, in the beginning or after a wake-up. -/
  | locking
  /-- `take` has the lock: the test `while(tasks_.empty() && running_)`. -/
  | locked
  /-- The test was true: the call of `cond_.wait`. -/
  | waiting
  | asleep
  /-- The test was false: the rest of `take`, still with the lock. -/
  | taking
  /-- `take` has returned `task`, which `push` had numbered `n`, or which was never pushed: the test
  `if(!task)`. -/
  | holding (n : Option ℕ) (task : Option F)
  | finished
  deriving DecidableEq

/-- Where the owner stands. -/
inductive PoolOwner
  | constructed
  /-- `start` has made `i` threads. -/
  | starting (i : ℕ)
  | started
  /-- `stop`, which the destructor may have called, waits for the thread `i`. -/
  | joining (destroying : Bool) (i : ℕ)
  | stopped
  | destroyed
  /-- The assertion of `stop` has failed. -/
  | aborted (destroying : Bool)
  deriving DecidableEq

inductive PoolAction (F : Type*)
  | setThreadsnum (n : ℤ)
  | start
  /-- One turn of the loop of `start`, or its end. -/
  | spawn
  /-- `push`, with the sleeper that it wakes up if there is one. -/
  | push (cb : Option F) (woken : Option ℕ)
  | stop
  /-- The destructor, up to the joins of its `stop`. -/
  | destroy
  /-- A join of `stop`, or its end. -/
  | join
  /-- The test `while(running_)`. -/
  | loopTest (w : ℕ)
  | lock (w : ℕ)
  /-- The test `while(tasks_.empty() && running_)`. -/
  | waitTest (w : ℕ)
  /-- `mutex_` is unlocked, and the thread sleeps. -/
  | sleep (w : ℕ)
  /-- A spurious wake-up. -/
  | wake (w : ℕ)
  /-- The end of `take`. -/
  | take (w : ℕ)
  /-- `if(!task) task();`. -/
  | call (w : ℕ)
  deriving DecidableEq

structure ThreadPool (F : Type*) where
  running : Bool
  threadsNum : ℤ
  /-- The size of `threads_`. -/
  threads : ℕ
  tasks : List (ℕ × Option F)
  /-- Who has locked `mutex_`. -/
  mutex : Option ℕ
  pc : ℕ → WorkerPc F
  owner : PoolOwner
  /-- A worker has called an empty functor, whose exception has ended the program. -/
  terminated : Bool
  pushes : ℕ
  taken : List ℕ
  invoked : List ℕ

namespace ThreadPool

variable {F : Type*}

/-- The constructor. -/
def new : ThreadPool F where
  running := false
  threadsNum := 0
  threads := 0
  tasks := []
  mutex := none
  pc _ := .unborn
  owner := .constructed
  terminated := false
  pushes := 0
  taken := []
  invoked := []

def setPc (w : ℕ) (p : WorkerPc F) (s : ThreadPool F) : ThreadPool F :=
  { s with pc := Function.update s.pc w p }

/-- The program has ended. -/
def Over (s : ThreadPool F) : Prop :=
  s.terminated = true ∨ s.owner = .aborted false ∨ s.owner = .aborted true

instance (s : ThreadPool F) : Decidable s.Over := inferInstanceAs (Decidable (_ ∨ _ ∨ _))

/-- The loop of `start`. -/
def spawn (s : ThreadPool F) : Option (ThreadPool F) :=
  match s.owner with
  | .starting i =>
      if (i : ℤ) < s.threadsNum then
        some { s with
          pc := Function.update s.pc s.threads .test
          threads := s.threads + 1
          owner := .starting (i + 1) }
      else some { s with owner := .started }
  | _ => none

/-- `cond_.notify_one()`. -/
def notifyOne (woken : Option ℕ) (s : ThreadPool F) : Option (ThreadPool F) :=
  match woken with
  | none => if ∀ w < s.threads, ¬s.pc w matches .asleep then some s else none
  | some w =>
      match s.pc w with
      | .asleep => some (s.setPc w .locking)
      | _ => none

/-- `push`; nobody calls it while the threads are made, nor after the destructor. -/
def push (cb : Option F) (woken : Option ℕ) (s : ThreadPool F) : Option (ThreadPool F) :=
  match s.owner with
  | .starting _ | .destroyed => none
  | _ =>
      if s.threads = 0 then
        some { s with invoked := s.invoked ++ [s.pushes], pushes := s.pushes + 1 }
      else if s.mutex = none then
        { s with tasks := s.tasks ++ [(s.pushes, cb)], pushes := s.pushes + 1 }.notifyOne woken
      else none

/-- The assertion of `stop`, and `running_ = false`. -/
def stop (destroying : Bool) (s : ThreadPool F) : ThreadPool F :=
  if s.running then { s with running := false, owner := .joining destroying 0 }
  else { s with owner := .aborted destroying }

/-- The joins of `stop`. -/
def join (s : ThreadPool F) : Option (ThreadPool F) :=
  match s.owner with
  | .joining destroying i =>
      if i < s.threads then
        match s.pc i with
        | .finished => some { s with owner := .joining destroying (i + 1) }
        | _ => none
      else some { s with owner := if destroying then .destroyed else .stopped }
  | _ => none

/-- The end of `take`. -/
def take (w : ℕ) (s : ThreadPool F) : Option (ThreadPool F) :=
  match s.pc w, s.tasks with
  | .taking, [] =>
      some { s with mutex := none, pc := Function.update s.pc w (.holding none none) }
  | .taking, (n, task) :: rest =>
      some { s with
        mutex := none
        pc := Function.update s.pc w (.holding (some n) task)
        tasks := rest
        taken := s.taken ++ [n] }
  | _, _ => none

/-- `if(!task) task();`: the call of an empty functor throws, and nothing in `threadFunc` catches
it. -/
def call (w : ℕ) (s : ThreadPool F) : Option (ThreadPool F) :=
  match s.pc w with
  | .holding n none => some { s with terminated := true, invoked := s.invoked ++ n.toList }
  | .holding _ (some _) => some (s.setPc w .test)
  | _ => none

/-- One step, while the program runs. -/
def stepAction (s : ThreadPool F) : PoolAction F → Option (ThreadPool F)
  | .setThreadsnum n => if s.owner = .constructed then some { s with threadsNum := n } else none
  | .start =>
      -- `assert(!running_)` holds, since nothing has set it yet
      if s.owner = .constructed then some { s with running := true, owner := .starting 0 } else none
  | .spawn => s.spawn
  | .push cb woken => s.push cb woken
  | .stop => if s.owner = .constructed ∨ s.owner = .started then some (s.stop false) else none
  | .destroy =>
      if s.owner = .constructed ∨ s.owner = .started ∨ s.owner = .stopped then some (s.stop true)
      else none
  | .join => s.join
  | .loopTest w =>
      match s.pc w with
      | .test => some (s.setPc w (if s.running then .locking else .finished))
      | _ => none
  | .lock w =>
      match s.mutex, s.pc w with
      | none, .locking => some { s with mutex := some w, pc := Function.update s.pc w .locked }
      | _, _ => none
  | .waitTest w =>
      match s.pc w with
      | .locked => some (s.setPc w (if s.tasks.isEmpty && s.running then .waiting else .taking))
      | _ => none
  | .sleep w =>
      match s.pc w with
      | .waiting => some { s with mutex := none, pc := Function.update s.pc w .asleep }
      | _ => none
  | .wake w =>
      match s.pc w with
      | .asleep => some (s.setPc w .locking)
      | _ => none
  | .take w => s.take w
  | .call w => s.call w

/-- One step. -/
def next (s : ThreadPool F) (a : PoolAction F) : Option (ThreadPool F) :=
  if s.Over then none else s.stepAction a

end ThreadPool

/-- The runs of a pool. -/
def threadPools (F : Type*) : LTS (ThreadPool F) (PoolAction F) where
  init s := s = .new
  next := ThreadPool.next

/-! ### What a worker does on its way to a functor -/

/-- The worker sleeps, or is about to. -/
def WorkerPc.waits {F : Type*} : WorkerPc F → Bool
  | .waiting | .asleep => true
  | _ => false

/-- The worker of a step in which it has no functor. -/
def PoolAction.seeker {F : Type*} : PoolAction F → Option ℕ
  | .loopTest w | .lock w | .waitTest w | .sleep w | .wake w => some w
  | _ => none

namespace ThreadPool

variable {F : Type*}

/-- The worker goes to `p`, with the lock or without it, and has no functor; it comes to sleep only
when it has found `running_` set. -/
structure Seeks (s : ThreadPool F) (w : ℕ) (p : WorkerPc F) (u : ThreadPool F) : Prop where
  eq : ∃ mutex, u = { s with mutex := mutex, pc := Function.update s.pc w p }
  born : s.pc w ≠ .unborn
  before : ∀ n task, s.pc w ≠ .holding n task
  after : ∀ n task, p ≠ .holding n task
  waits : p.waits = true → (s.pc w).waits = true ∨ s.running = true

theorem exists_seeks {s u : ThreadPool F} {a : PoolAction F} {w : ℕ} (ha : a.seeker = some w)
    (h : s.stepAction a = some u) : ∃ p, s.Seeks w p u := by
  cases a <;> cases ha <;> simp only [stepAction] at h <;> split at h <;> cases h
  · rename_i hpc
    exact ⟨_, ⟨s.mutex, rfl⟩, by simp [hpc], by simp [hpc], by split_ifs <;> simp,
      by split_ifs <;> simp [WorkerPc.waits]⟩
  · rename_i hmutex hpc
    exact ⟨_, ⟨some w, rfl⟩, by simp [hpc], by simp [hpc], by simp, by simp [WorkerPc.waits]⟩
  · rename_i hpc
    refine ⟨_, ⟨s.mutex, rfl⟩, by simp [hpc], by simp [hpc], by split_ifs <;> simp, ?_⟩
    cases s.running <;> simp [WorkerPc.waits]
  · rename_i hpc
    exact ⟨_, ⟨none, rfl⟩, by simp [hpc], by simp [hpc], by simp, by simp [hpc, WorkerPc.waits]⟩
  · rename_i hpc
    exact ⟨_, ⟨s.mutex, rfl⟩, by simp [hpc], by simp [hpc], by simp, by simp [WorkerPc.waits]⟩

end ThreadPool

end Jiangbo
