import LearnForCpp.Lib.Transition
import LearnForCpp.Lib.Wakeup

/-!
# `BlockingQueue`

`thread/BlockingQueue.cc`: `put` adds an item under `mutex_` and notifies after it has unlocked;
`take` waits on `notEmpty_` until there is an item; `size` counts.

The threads `T` are any finite type, and each may call any of the functions.  A wait is the test of
its predicate under the lock, the step that unlocks and sleeps, and after a wake-up, which may be
spurious, the lock again.  `puts` and `taken` are for the proofs: the items in the order of the
locked sections.
-/

namespace Jiangbo

/-- Where a thread stands in the functions of `BlockingQueue`. -/
inductive BlockingPc (V : Type*)
  | idle
  /-- `put` asks for the lock. -/
  | putting (x : V)
  /-- `put` has the lock. -/
  | pushing (x : V)
  /-- `put` has unlocked, and is about to call `notify_one`. -/
  | notifying
  /-- `take` asks for the lock, in the beginning or after a wake-up. -/
  | taking
  /-- `take` has the lock, and is about to test the predicate. -/
  | testing
  /-- The predicate holds: `take` is about to read the front. -/
  | popping
  /-- `take` sleeps in `notEmpty_.wait`. -/
  | asleep
  /-- `size` asks for the lock. -/
  | sizing
  /-- `size` has the lock. -/
  | reading
  deriving DecidableEq

inductive BlockingAction (T V : Type*)
  | put (t : T) (x : V)
  | take (t : T)
  | size (t : T)
  /-- `mutex_` is locked. -/
  | lock (t : T)
  /-- `queue_.push`, and the end of the locked section. -/
  | push (t : T)
  /-- `notEmpty_.notify_one()`, which wakes a sleeper up if there is one. -/
  | notifyOne (t : T) (woken : Option T)
  /-- The predicate of `wait`; the thread goes to sleep when there is no item. -/
  | test (t : T)
  /-- The assertion, `queue_.front` and `queue_.pop`. -/
  | pop (t : T)
  /-- `queue_.size`. -/
  | read (t : T)
  /-- A spurious wake-up. -/
  | wake (t : T)

structure BlockingQueue (T V : Type*) where
  /-- Who has locked `mutex_`. -/
  mutex : Option T
  queue : List V
  pc : T → BlockingPc V
  /-- `take` has failed its assertion, and read the front of an empty queue. -/
  failed : Bool
  puts : List V
  taken : List V

namespace BlockingPc

variable {V : Type*}

/-- What the thread does for the consumers. -/
def activity : BlockingPc V → Activity
  | .notifying => .notifying
  | .taking | .testing | .popping => .awake
  | .asleep => .asleep
  | .idle | .putting _ | .pushing _ | .sizing | .reading => .away

/-- The thread has locked `mutex_`. -/
def Locked : BlockingPc V → Prop
  | .pushing _ | .testing | .popping | .reading => True
  | _ => False

/-- The thread is in a call of `put`. -/
def InPut : BlockingPc V → Prop
  | .putting _ | .pushing _ | .notifying => True
  | _ => False

/-- Where the thread stands when it gets the lock that it asks for. -/
def afterLock : BlockingPc V → Option (BlockingPc V)
  | .putting x => some (.pushing x)
  | .taking => some .testing
  | .sizing => some .reading
  | _ => none

instance : DecidablePred (fun p : BlockingPc V => p = .asleep)
  | .asleep => isTrue rfl
  | .idle | .putting _ | .pushing _ | .notifying | .taking | .testing | .popping | .sizing
  | .reading => isFalse (by simp)

variable {p : BlockingPc V}

theorem inPut (h : p.activity = .notifying) : p.InPut := by
  cases p <;> trivial

theorem eq_asleep (h : p.activity = .asleep) : p = .asleep := by
  cases p <;> first | rfl | cases h

end BlockingPc

namespace BlockingQueue

variable {T V : Type*} [DecidableEq T]

def new : BlockingQueue T V := ⟨none, [], fun _ => .idle, false, [], []⟩

def setPc (t : T) (p : BlockingPc V) (s : BlockingQueue T V) : BlockingQueue T V :=
  { s with pc := Function.update s.pc t p }

/-- The thread goes on without the lock. -/
def unlock (t : T) (p : BlockingPc V) (s : BlockingQueue T V) : BlockingQueue T V :=
  { s with mutex := none, pc := Function.update s.pc t p }

/-- A call by a thread that is in no other. -/
def call (t : T) (p : BlockingPc V) (s : BlockingQueue T V) : Option (BlockingQueue T V) :=
  match s.pc t with
  | .idle => some (s.setPc t p)
  | _ => none

def lock (t : T) (s : BlockingQueue T V) : Option (BlockingQueue T V) :=
  match s.mutex, (s.pc t).afterLock with
  | none, some p => some { s with mutex := some t, pc := Function.update s.pc t p }
  | _, _ => none

def push (t : T) (s : BlockingQueue T V) : Option (BlockingQueue T V) :=
  match s.pc t with
  | .pushing x =>
      some { s with
        mutex := none
        pc := Function.update s.pc t .notifying
        queue := s.queue ++ [x]
        puts := s.puts ++ [x] }
  | _ => none

def test (t : T) (s : BlockingQueue T V) : Option (BlockingQueue T V) :=
  match s.pc t with
  -- `wait` gives the mutex back until it wakes
  | .testing => some (if s.queue.isEmpty then s.unlock t .asleep else s.setPc t .popping)
  | _ => none

def pop (t : T) (s : BlockingQueue T V) : Option (BlockingQueue T V) :=
  match s.pc t, s.queue with
  | .popping, [] => some { s with failed := true }
  | .popping, x :: rest =>
      some { s with
        mutex := none
        pc := Function.update s.pc t .idle
        queue := rest
        taken := s.taken ++ [x] }
  | _, _ => none

/-- `notEmpty_.notify_one()`. -/
def notifyOne [Fintype T] (t : T) (woken : Option T) (s : BlockingQueue T V) :
    Option (BlockingQueue T V) :=
  match s.pc t, woken with
  | .notifying, none =>
      -- nobody to wake
      if ∀ v, ¬s.pc v = .asleep then some (s.setPc t .idle) else none
  | .notifying, some v =>
      if s.pc v = .asleep then some ((s.setPc t .idle).setPc v .taking) else none
  | _, _ => none

/-- One step. -/
def next [Fintype T] (s : BlockingQueue T V) : BlockingAction T V → Option (BlockingQueue T V)
  | .put t x => s.call t (.putting x)
  | .take t => s.call t .taking
  | .size t => s.call t .sizing
  | .lock t => s.lock t
  | .push t => s.push t
  | .notifyOne t woken => s.notifyOne t woken
  | .test t => s.test t
  | .pop t => s.pop t
  | .read t =>
      match s.pc t with
      | .reading => some (s.unlock t .idle)
      | _ => none
  -- without a notification
  | .wake t => if s.pc t = .asleep then some (s.setPc t .taking) else none

/-- All calls of `put` have returned, and a consumer sleeps although there is an item and no
consumer is awake. -/
def Stranded (s : BlockingQueue T V) : Prop :=
  (∀ t, ¬(s.pc t).InPut) ∧ s.queue ≠ [] ∧ (∃ t, s.pc t = .asleep) ∧
    ∀ t, (s.pc t).activity ≠ .awake

end BlockingQueue

/-- The runs of threads with a `BlockingQueue`. -/
def blockingQueues (T V : Type*) [Fintype T] [DecidableEq T] :
    LTS (BlockingQueue T V) (BlockingAction T V) where
  init s := s = .new
  next := BlockingQueue.next

namespace BlockingQueue

variable {T V : Type*} {s u : BlockingQueue T V} {t : T} {p : BlockingPc V}

/-! ### The lock -/

/-- The lock is with the thread that has locked it, and nobody else empties the queue between the
test and the pop. -/
structure Sound (s : BlockingQueue T V) : Prop where
  owner : ∀ t, s.mutex = some t ↔ (s.pc t).Locked
  popping : ∀ t, s.pc t = .popping → s.queue ≠ []

theorem new_sound : (new : BlockingQueue T V).Sound where
  owner t := by simp [new, BlockingPc.Locked]
  popping t h := by simp [new] at h

/-- Only one thread has the lock. -/
theorem Sound.not_locked {v : T} (hs : s.Sound) (ht : (s.pc t).Locked) (hv : v ≠ t) :
    ¬(s.pc v).Locked := by
  intro hlocked
  have h := (hs.owner t).2 ht
  rw [(hs.owner v).2 hlocked] at h
  exact hv (Option.some.inj h)

section Locks

variable [DecidableEq T]

/-- A thread goes on, and neither the lock nor the queue changes. -/
theorem Sound.moved (hs : s.Sound) (hlocked : (s.pc t).Locked ↔ p.Locked)
    (hpopping : p = .popping → s.queue ≠ []) : (s.setPc t p).Sound := by
  constructor
  · intro v
    show s.mutex = some v ↔ (Function.update s.pc t p v).Locked
    rw [hs.owner v]
    by_cases hv : v = t
    · subst hv
      rw [Function.update_self, hlocked]
    · rw [Function.update_of_ne hv]
  · intro v
    show Function.update s.pc t p v = .popping → s.queue ≠ []
    by_cases hv : v = t
    · subst hv
      rwa [Function.update_self]
    · rw [Function.update_of_ne hv]
      exact hs.popping v

/-- The thread with the lock unlocks it, and may have changed the queue. -/
theorem Sound.unlocked {queue puts taken : List V} (hs : s.Sound) (ht : (s.pc t).Locked)
    (hp : ¬p.Locked) :
    { s with
      mutex := none
      pc := Function.update s.pc t p
      queue := queue
      puts := puts
      taken := taken }.Sound := by
  have hnone : ∀ v, ¬(Function.update s.pc t p v).Locked := by
    intro v
    by_cases hv : v = t
    · subst hv
      rwa [Function.update_self]
    · rw [Function.update_of_ne hv]
      exact hs.not_locked ht hv
  constructor
  · intro v
    show none = some v ↔ (Function.update s.pc t p v).Locked
    simp [hnone v]
  · intro v hv
    have hlocked := hnone v
    rw [show Function.update s.pc t p v = .popping from hv] at hlocked
    exact absurd trivial hlocked

theorem Sound.locked (hs : s.Sound) (hmutex : s.mutex = none) (hp : p.Locked)
    (hpopping : p ≠ .popping) :
    { s with mutex := some t, pc := Function.update s.pc t p }.Sound := by
  have hfree : ∀ v, ¬(s.pc v).Locked := by
    intro v hv
    have h := (hs.owner v).2 hv
    rw [hmutex] at h
    cases h
  constructor
  · intro v
    show some t = some v ↔ (Function.update s.pc t p v).Locked
    by_cases hv : v = t
    · subst hv
      simp [hp]
    · rw [Function.update_of_ne hv]
      simp [hfree v, Ne.symm hv]
  · intro v
    show Function.update s.pc t p v = .popping → s.queue ≠ []
    by_cases hv : v = t
    · subst hv
      rw [Function.update_self]
      exact fun h => absurd h hpopping
    · rw [Function.update_of_ne hv]
      exact hs.popping v

end Locks

/-! ### The invariant -/

variable [Fintype T]

/-- What holds between two steps. -/
structure Inv (s : BlockingQueue T V) : Prop extends s.Sound where
  order : s.taken ++ s.queue = s.puts
  ok : s.failed = false
  covered : Activity.Covered s.queue.length (BlockingPc.activity ∘ s.pc)

theorem new_inv : (new : BlockingQueue T V).Inv where
  toSound := new_sound
  order := rfl
  ok := rfl
  covered := Activity.Covered.init fun _ => rfl

theorem Inv.not_stranded (hs : s.Inv) : ¬s.Stranded := by
  rintro ⟨hput, hqueue, ⟨t, ht⟩, hawake⟩
  exact hs.covered.not_stranded (List.length_pos_iff.2 hqueue)
    (fun v hv => hput v (BlockingPc.inPut hv)) hawake t (congrArg BlockingPc.activity ht)

variable [DecidableEq T]

/-- A thread goes on, and the others need not know. -/
theorem Inv.covered_update (hs : s.Inv) (hp : p.activity = (s.pc t).activity) :
    Activity.Covered s.queue.length (BlockingPc.activity ∘ Function.update s.pc t p) := by
  rw [Function.comp_update, hp, show (s.pc t).activity = (BlockingPc.activity ∘ s.pc) t from rfl,
    Function.update_eq_self]
  exact hs.covered

theorem Inv.call (hs : s.Inv) (h : s.call t p = some u) (hlocked : ¬p.Locked)
    (hp : p.activity = .awake ∨ p.activity = .away) : u.Inv := by
  unfold BlockingQueue.call at h
  split at h
  · rename_i hpc
    cases h
    have ht : (s.pc t).activity = .away := by rw [hpc]; rfl
    have hidle : ¬(s.pc t).Locked := by rw [hpc]; exact id
    refine ⟨hs.moved (iff_of_false hidle hlocked) ?_, hs.order, hs.ok, ?_⟩
    · rintro rfl
      exact absurd trivial hlocked
    · rcases hp with hp | hp
      · show Activity.Covered s.queue.length (BlockingPc.activity ∘ Function.update s.pc t p)
        rw [Function.comp_update, hp]
        exact hs.covered.enter ht
      · exact hs.covered_update (hp.trans ht.symm)
  · cases h

theorem Inv.lock (hs : s.Inv) (h : s.lock t = some u) : u.Inv := by
  unfold BlockingQueue.lock at h
  split at h
  · rename_i p hmutex hp
    cases h
    obtain ⟨hlocked, hpopping, hactivity⟩ :
        p.Locked ∧ p ≠ .popping ∧ p.activity = (s.pc t).activity := by
      cases hpc : s.pc t <;> rw [hpc] at hp <;> cases hp <;>
        simp [BlockingPc.Locked, BlockingPc.activity]
    exact ⟨hs.locked hmutex hlocked hpopping, hs.order, hs.ok, hs.covered_update hactivity⟩
  · cases h

theorem Inv.push (hs : s.Inv) (h : s.push t = some u) : u.Inv := by
  unfold BlockingQueue.push at h
  split at h
  · rename_i x hpc
    cases h
    have ht : (s.pc t).activity = .away := by rw [hpc]; rfl
    refine ⟨hs.unlocked (by rw [hpc]; trivial) id, ?_, hs.ok, ?_⟩
    · show s.taken ++ (s.queue ++ [x]) = s.puts ++ [x]
      rw [← List.append_assoc, hs.order]
    · show Activity.Covered (s.queue ++ [x]).length
        (BlockingPc.activity ∘ Function.update s.pc t .notifying)
      rw [Function.comp_update, List.length_append]
      exact hs.covered.push ht
  · cases h

theorem Inv.test (hs : s.Inv) (h : s.test t = some u) : u.Inv := by
  unfold BlockingQueue.test at h
  split at h
  · rename_i hpc
    split_ifs at h with hempty
    · -- there is nothing to take for the thread that goes to sleep
      cases h
      refine ⟨hs.unlocked (by rw [hpc]; trivial) id, hs.order, hs.ok, ?_⟩
      show Activity.Covered s.queue.length _
      rw [List.isEmpty_iff.1 hempty]
      exact Activity.covered_zero
    · cases h
      exact ⟨hs.moved (by rw [hpc]; exact Iff.rfl) fun _ => by simpa using hempty, hs.order, hs.ok,
        hs.covered_update (by rw [hpc]; rfl)⟩
  · cases h

theorem Inv.pop (hs : s.Inv) (h : s.pop t = some u) : u.Inv := by
  unfold BlockingQueue.pop at h
  split at h
  · exact absurd ‹s.queue = []› (hs.popping t ‹_›)
  · rename_i x rest hpc hqueue
    cases h
    have ht : (s.pc t).activity = .awake := by rw [hpc]; rfl
    have hcovered := hs.covered
    rw [hqueue, List.length_cons] at hcovered
    refine ⟨hs.unlocked (by rw [hpc]; trivial) id, ?_, hs.ok, ?_⟩
    · show (s.taken ++ [x]) ++ rest = s.puts
      rw [← hs.order, hqueue, List.append_assoc, List.singleton_append]
    · show Activity.Covered rest.length (BlockingPc.activity ∘ Function.update s.pc t .idle)
      rw [Function.comp_update]
      exact hcovered.take ht
  · cases h

theorem Inv.notifyOne {woken : Option T} (hs : s.Inv) (h : s.notifyOne t woken = some u) :
    u.Inv := by
  unfold BlockingQueue.notifyOne at h
  split at h
  · rename_i hpc
    split_ifs at h with hnone
    cases h
    refine ⟨hs.moved (by rw [hpc]; exact Iff.rfl) (by simp), hs.order, hs.ok, ?_⟩
    show Activity.Covered s.queue.length (BlockingPc.activity ∘ Function.update s.pc t .idle)
    rw [Function.comp_update]
    exact Activity.Covered.notify_none (fun v hv => hnone v (BlockingPc.eq_asleep hv))
      (congrArg BlockingPc.activity hpc)
  · rename_i v hpc
    split_ifs at h with hv
    cases h
    have hne : v ≠ t := by
      rintro rfl
      rw [hpc] at hv
      cases hv
    have hcovered := hs.covered.notify (congrArg BlockingPc.activity hpc)
      (congrArg BlockingPc.activity hv)
    refine ⟨(hs.moved (p := .idle) (by rw [hpc]; exact Iff.rfl) (by simp)).moved ?_ (by simp),
      hs.order, hs.ok, ?_⟩
    · show (Function.update s.pc t .idle v).Locked ↔ _
      rw [Function.update_of_ne hne, hv]
      exact Iff.rfl
    · show Activity.Covered s.queue.length
        (BlockingPc.activity ∘ Function.update (Function.update s.pc t .idle) v .taking)
      rw [Function.comp_update, Function.comp_update]
      exact hcovered
  · cases h

theorem Inv.step {a : BlockingAction T V} (hs : s.Inv) (h : s.next a = some u) : u.Inv := by
  cases a with
  | put t x => exact hs.call h id (.inr rfl)
  | take t => exact hs.call h id (.inl rfl)
  | size t => exact hs.call h id (.inr rfl)
  | lock t => exact hs.lock h
  | push t => exact hs.push h
  | notifyOne t woken => exact hs.notifyOne h
  | test t => exact hs.test h
  | pop t => exact hs.pop h
  | read t =>
    simp only [next] at h
    split at h
    · rename_i hpc
      cases h
      exact ⟨hs.unlocked (by rw [hpc]; trivial) id, hs.order, hs.ok,
        hs.covered_update (by rw [hpc]; rfl)⟩
    · cases h
  | wake t =>
    simp only [next] at h
    split_ifs at h with hpc
    cases h
    refine ⟨hs.moved (by rw [hpc]; exact Iff.rfl) (by simp), hs.order, hs.ok, ?_⟩
    show Activity.Covered s.queue.length (BlockingPc.activity ∘ Function.update s.pc t .taking)
    rw [Function.comp_update]
    exact hs.covered.wake (congrArg BlockingPc.activity hpc)

end BlockingQueue

/-- **`BlockingQueue`.** In every reachable state the items taken, then those in the queue, are the
items put; no `take` has read an empty queue; and no consumer is left asleep beside an item. -/
theorem blocking_queue_delivers {T V : Type*} [Fintype T] [DecidableEq T] {s : BlockingQueue T V}
    (h : (blockingQueues T V).Reachable s) :
    s.taken ++ s.queue = s.puts ∧ s.failed = false ∧ (∀ t, s.pc t = .popping → s.queue ≠ []) ∧
      ¬s.Stranded := by
  have hs : s.Inv := by
    refine h.invariant (fun s hs => ?_) fun s a u hs hn => hs.step hn
    rw [show s = .new from hs]
    exact BlockingQueue.new_inv
  exact ⟨hs.order, hs.ok, hs.popping, hs.not_stranded⟩

/-- A third consumer takes the item between the notification and the lock of the woken one. -/
theorem blocking_queue_delivers_overtaken : ∃ s : BlockingQueue (Fin 3) ℕ,
    (blockingQueues (Fin 3) ℕ).Reachable s ∧ s.puts = [7] ∧ s.pc 1 = .asleep ∧
      s.taken ++ s.queue = s.puts ∧ ¬s.Stranded := by
  let acts : List (BlockingAction (Fin 3) ℕ) :=
    [.take 1, .lock 1, .test 1, .put 0 7, .lock 0, .push 0, .take 2, .notifyOne 0 (some 1),
      .lock 2, .test 2, .pop 2, .lock 1, .test 1]
  obtain ⟨s, hs, hend⟩ := Option.map_eq_some_iff.1 (by decide +kernel :
    ((blockingQueues (Fin 3) ℕ).run .new acts).map
      (fun s => (s.puts, s.pc 1)) = some ([7], .asleep))
  simp only [Prod.mk.injEq] at hend
  have hreachable := LTS.Reachable.of_run (.init rfl) acts hs
  have hdelivers := blocking_queue_delivers hreachable
  exact ⟨s, hreachable, hend.1, hend.2, hdelivers.1, hdelivers.2.2.2⟩

end Jiangbo
