import LearnForCpp.Lib.Transition

/-!
# The event loop and its pending functors

`reactor/EventLoop.cc`: `loop`, `runInLoop`, `queueInLoop`, `wakeup`, `quit`, `handleRead` and
`doPendingFunctions`, with any number of threads.  A thread is an element of `T`; `threadId` is
the one that runs the loop.

The atomic steps are those that other threads can observe: the section under `mutex_` of
`queueInLoop`, the decision whether to wake the loop, the write to the eventfd, and in `loop` the
test of `quit_`, the return of `epoll_wait`, the read of the eventfd, and in `doPendingFunctions`
the two stores to `callingdoPendingFunctions_`, the swap and each call.  Functors and event
handlers of the loop thread call the loop through the same steps, between the steps of `loop`.

`wakeupNeeded` is the guard of `queueInLoop`.  The comment next to it asks for a wakeup from a
thread other than the loop's, and the code asks for one from the loop thread: `LostWakeup.lean` says
of every run when the loop nevertheless never sleeps over a pending functor.
-/

namespace Jiangbo

variable {T F : Type*}

/-- Where `loop()` stands. -/
inductive LoopPhase (F : Type*)
  /-- Outside `loop()`. -/
  | idle
  /-- At the test `while(!quit_)`. -/
  | test
  /-- About to enter `epoll_wait`, or blocked in it. -/
  | polling
  /-- In the handlers of the active channels; the flag says whether the wakeup channel is among
  those still to be handled. -/
  | handling (woken : Bool)
  /-- In `doPendingFunctions` before the swap. -/
  | swapping
  /-- In `doPendingFunctions` with the functors still to be called. -/
  | running (functions : List F)

namespace LoopPhase

/-- The loop thread runs user code: outside `loop()`, in event handlers, in functors. -/
def userCode : LoopPhase F → Bool
  | idle | handling _ | running _ => true
  | test | polling | swapping => false

/-- Between the two stores to `callingdoPendingFunctions_`. -/
def inPending : LoopPhase F → Bool
  | swapping | running _ => true
  | idle | test | polling | handling _ => false

def isPolling : LoopPhase F → Bool
  | polling => true
  | idle | test | handling _ | swapping | running _ => false

end LoopPhase

/-- Where a call of `queueInLoop` or `quit` stands. -/
inductive CallerPc
  | idle
  /-- The functor is pushed, the decision whether to wake the loop is next. -/
  | pushed
  /-- In the `wakeup()` of `queueInLoop`, before the write. -/
  | waking
  /-- In the `wakeup()` of `quit`, before the write. -/
  | quitting
  deriving DecidableEq

/-- An `EventLoop` and the threads that call it. -/
structure EventLoop (T F : Type*) where
  threadId : T
  quit : Bool
  callingdoPendingFunctions : Bool
  phase : LoopPhase F
  pendingFunctors : List F
  /-- The counter of `wakeupfd_`. -/
  eventfd : ℕ
  pc : T → CallerPc
  /-- Every functor pushed so far, in lock order. -/
  pushed : List F
  /-- Every functor called by `doPendingFunctions` so far. -/
  executed : List F

/-- The steps of `loop()`. -/
inductive LoopStep
  | start
  | test
  /-- `epoll_wait` returns; the flag says whether the wakeup channel is reported. -/
  | pollReturn (woken : Bool)
  | handleRead
  | beginPending
  | swap
  | call
  | finish

/-- A step of the loop or of a calling thread. -/
inductive LoopAction (T F : Type*)
  | queueInLoop (t : T) (f : F)
  | runInLoop (t : T) (f : F)
  | decide (t : T)
  | wakeup (t : T)
  | quit (t : T)
  | loop (step : LoopStep)

namespace EventLoop

/-- The constructor, in thread `t`. -/
def new (t : T) : EventLoop T F where
  threadId := t
  quit := false
  callingdoPendingFunctions := false
  phase := .idle
  pendingFunctors := []
  eventfd := 0
  pc := fun _ => .idle
  pushed := []
  executed := []

/-- A step of `loop()` by the loop thread. -/
def loopNext (s : EventLoop T F) : LoopStep → Option (EventLoop T F)
  | .start =>
      match s.phase with
      | .idle => some { s with phase := .test, quit := false }
      | _ => none
  | .test =>
      match s.phase with
      | .test => some { s with phase := if s.quit then .idle else .polling }
      | _ => none
  | .pollReturn woken =>
      match s.phase with
      | .polling =>
          -- the wakeup channel is reported only if its counter is positive
          if woken = true → 0 < s.eventfd then some { s with phase := .handling woken } else none
      | _ => none
  | .handleRead =>
      match s.phase with
      | .handling true => some { s with phase := .handling false, eventfd := 0 }
      | _ => none
  | .beginPending =>
      match s.phase with
      | .handling false => some { s with phase := .swapping, callingdoPendingFunctions := true }
      | _ => none
  | .swap =>
      match s.phase with
      | .swapping => some { s with phase := .running s.pendingFunctors, pendingFunctors := [] }
      | _ => none
  | .call =>
      match s.phase with
      | .running (f :: functions) =>
          some { s with phase := .running functions, executed := s.executed ++ [f] }
      | _ => none
  | .finish =>
      match s.phase with
      | .running [] => some { s with phase := .test, callingdoPendingFunctions := false }
      | _ => none

section Step

variable [DecidableEq T]

def isInLoopThread (s : EventLoop T F) (t : T) : Bool := t = s.threadId

/-- The guard of `wakeup()` in `queueInLoop`. -/
def wakeupNeeded (inLoopThread callingdoPendingFunctions : Bool) : Bool :=
  inLoopThread || callingdoPendingFunctions

/-- Thread `t` may call the loop: it is in no other call, and if it is the loop thread it is in
user code. -/
def MayCall (s : EventLoop T F) (t : T) : Prop :=
  s.pc t = .idle ∧ (t = s.threadId → s.phase.userCode = true)

instance (s : EventLoop T F) (t : T) : Decidable (s.MayCall t) :=
  inferInstanceAs (Decidable (_ ∧ _))

def setPc (s : EventLoop T F) (t : T) (c : CallerPc) : EventLoop T F :=
  { s with pc := Function.update s.pc t c }

/-- The section of `queueInLoop` under `mutex_`. -/
def push (s : EventLoop T F) (t : T) (f : F) : EventLoop T F :=
  { s.setPc t .pushed with
    pendingFunctors := s.pendingFunctors ++ [f]
    pushed := s.pushed ++ [f] }

/-- The write of `wakeup()`; the counter of an eventfd saturates and the write then fails. -/
def writeEventfd (n : ℕ) : ℕ := if n < 2 ^ 64 - 2 then n + 1 else n

/-- One step. -/
def next (s : EventLoop T F) : LoopAction T F → Option (EventLoop T F)
  | .queueInLoop t f => if s.MayCall t then some (s.push t f) else none
  | .runInLoop t f =>
      -- in the loop thread the functor runs here; what it does are steps of its own
      if s.MayCall t then some (if s.isInLoopThread t then s else s.push t f) else none
  | .decide t =>
      if s.pc t = .pushed then
        some (s.setPc t
          (if wakeupNeeded (s.isInLoopThread t) s.callingdoPendingFunctions then .waking
          else .idle))
      else none
  | .wakeup t =>
      if s.pc t = .waking ∨ s.pc t = .quitting then
        some { s.setPc t .idle with eventfd := writeEventfd s.eventfd }
      else none
  | .quit t =>
      if s.MayCall t then
        some { s.setPc t (if s.isInLoopThread t then .idle else .quitting) with quit := true }
      else none
  | .loop step => if s.pc s.threadId = .idle then s.loopNext step else none

end Step

end EventLoop

/-- The runs of an event loop owned by thread `t`. -/
def eventLoops [DecidableEq T] (t : T) : LTS (EventLoop T F) (LoopAction T F) where
  init s := s = .new t
  next := EventLoop.next

namespace EventLoop

/-! ### What a step of the loop thread can do -/

/-- Every step of `loop()`, with its guard. -/
theorem loopNext_cases {s s' : EventLoop T F} {step : LoopStep} (h : s.loopNext step = some s') :
    (step = .start ∧ s.phase = .idle ∧ s' = { s with phase := .test, quit := false }) ∨
    (step = .test ∧ s.phase = .test ∧
      s' = { s with phase := if s.quit then .idle else .polling }) ∨
    (∃ woken, step = .pollReturn woken ∧ s.phase = .polling ∧ (woken = true → 0 < s.eventfd) ∧
      s' = { s with phase := .handling woken }) ∨
    (step = .handleRead ∧ s.phase = .handling true ∧
      s' = { s with phase := .handling false, eventfd := 0 }) ∨
    (step = .beginPending ∧ s.phase = .handling false ∧
      s' = { s with phase := .swapping, callingdoPendingFunctions := true }) ∨
    (step = .swap ∧ s.phase = .swapping ∧
      s' = { s with phase := .running s.pendingFunctors, pendingFunctors := [] }) ∨
    (∃ f functions, step = .call ∧ s.phase = .running (f :: functions) ∧
      s' = { s with phase := .running functions, executed := s.executed ++ [f] }) ∨
    (step = .finish ∧ s.phase = .running [] ∧
      s' = { s with phase := .test, callingdoPendingFunctions := false }) := by
  cases step with
  | pollReturn woken =>
    simp only [loopNext] at h
    split at h
    · split_ifs at h with hw
      cases h
      simp_all
    · cases h
  | _ => simp only [loopNext] at h; split at h <;> simp_all

/-- The flag follows the phase, and the loop thread is in no call of its own outside user code. -/
structure Inv (s : EventLoop T F) : Prop where
  calling_eq : s.callingdoPendingFunctions = s.phase.inPending
  loop_idle : s.phase.userCode = false → s.pc s.threadId = .idle

theorem new_inv (t : T) : (new t : EventLoop T F).Inv := ⟨rfl, fun _ => rfl⟩

theorem isPolling_userCode {p : LoopPhase F} (h : p.isPolling = true) : p.userCode = false := by
  cases p <;> simp_all [LoopPhase.isPolling, LoopPhase.userCode]

theorem isPolling_inPending {p : LoopPhase F} (h : p.isPolling = true) : p.inPending = false := by
  cases p <;> simp_all [LoopPhase.isPolling, LoopPhase.inPending]

theorem Inv.loopNext {s s' : EventLoop T F} {step : LoopStep} (hs : s.Inv)
    (hidle : s.pc s.threadId = .idle) (h : s.loopNext step = some s') : s'.Inv := by
  have hc := hs.calling_eq
  rcases loopNext_cases h with ⟨-, hp, rfl⟩ | ⟨-, hp, rfl⟩ | ⟨_, -, hp, -, rfl⟩ | ⟨-, hp, rfl⟩ |
    ⟨-, hp, rfl⟩ | ⟨-, hp, rfl⟩ | ⟨_, _, -, hp, rfl⟩ | ⟨-, hp, rfl⟩ <;> rw [hp] at hc
  case inr.inl => refine ⟨?_, fun _ => hidle⟩; rw [hc]; dsimp only; split_ifs <;> rfl
  all_goals exact ⟨by first | exact hc | rfl, fun _ => hidle⟩

/-- A thread inside a call is not the loop thread outside user code. -/
theorem Inv.userCode_of_busy {s : EventLoop T F} (hs : s.Inv) {t : T} (h : s.pc t ≠ .idle) :
    t = s.threadId → s.phase.userCode = true := by
  rintro rfl
  by_contra hu
  exact h (hs.loop_idle (by simpa using hu))

variable [DecidableEq T]

/-- A step of a thread leaves the phase alone, and the loop thread takes it in user code. -/
theorem Inv.caller {s s' : EventLoop T F} (hs : s.Inv) {t : T} {c : CallerPc}
    (hcall : t = s.threadId → s.phase.userCode = true) (hid : s'.threadId = s.threadId)
    (hphase : s'.phase = s.phase)
    (hcalling : s'.callingdoPendingFunctions = s.callingdoPendingFunctions)
    (hpc : s'.pc = Function.update s.pc t c) : s'.Inv := by
  refine ⟨by rw [hcalling, hphase]; exact hs.calling_eq, fun h => ?_⟩
  rw [hphase] at h
  have hne : s.threadId ≠ t := fun he => by rw [hcall he.symm] at h; cases h
  rw [hid, hpc, Function.update_of_ne hne]
  exact hs.loop_idle h

theorem Inv.next {s s' : EventLoop T F} {a : LoopAction T F} (hs : s.Inv)
    (h : s.next a = some s') : s'.Inv := by
  cases a with
  | queueInLoop t f =>
    simp only [EventLoop.next] at h
    split_ifs at h with hm
    cases h
    exact hs.caller hm.2 rfl rfl rfl rfl
  | runInLoop t f =>
    simp only [EventLoop.next] at h
    split_ifs at h with hm hl <;> cases h
    · exact hs
    · exact hs.caller hm.2 rfl rfl rfl rfl
  | decide t =>
    simp only [EventLoop.next] at h
    split_ifs at h with hp <;> cases h <;>
      exact hs.caller (hs.userCode_of_busy (by rw [hp]; decide)) rfl rfl rfl rfl
  | wakeup t =>
    simp only [EventLoop.next] at h
    split_ifs at h with hp
    cases h
    exact hs.caller (hs.userCode_of_busy (by rcases hp with hp | hp <;> simp [hp])) rfl rfl rfl rfl
  | quit t =>
    simp only [EventLoop.next] at h
    split_ifs at h with hm <;> cases h <;> exact hs.caller hm.2 rfl rfl rfl rfl
  | loop step =>
    simp only [EventLoop.next] at h
    split_ifs at h with hi
    exact hs.loopNext hi h

/-! ### The order of the functors -/

/-- The functors of the current batch that are still to be called. -/
def rest (s : EventLoop T F) : List F :=
  match s.phase with
  | .running functions => functions
  | _ => []

omit [DecidableEq T] in
theorem loopNext_order {s s' : EventLoop T F} {step : LoopStep}
    (hs : s.executed ++ s.rest ++ s.pendingFunctors = s.pushed) (h : s.loopNext step = some s') :
    s'.executed ++ s'.rest ++ s'.pendingFunctors = s'.pushed := by
  rcases loopNext_cases h with ⟨-, hp, rfl⟩ | ⟨-, hp, rfl⟩ | ⟨_, -, hp, -, rfl⟩ | ⟨-, hp, rfl⟩ |
    ⟨-, hp, rfl⟩ | ⟨-, hp, rfl⟩ | ⟨_, _, -, hp, rfl⟩ | ⟨-, hp, rfl⟩ <;>
    simp only [rest, hp] at hs ⊢
  case inr.inl => split_ifs <;> exact hs
  all_goals simpa using hs

/-- What was called, what is left of the batch and what is pending are the pushed functors, in
lock order. -/
theorem order {t : T} {s : EventLoop T F} (h : (eventLoops t).Reachable s) :
    s.executed ++ s.rest ++ s.pendingFunctors = s.pushed := by
  refine h.invariant (I := fun s => s.executed ++ s.rest ++ s.pendingFunctors = s.pushed)
    (fun s hs => by rw [hs]; rfl) fun s a s' hs hn => ?_
  have hpush : ∀ t f, (s.push t f).executed ++ (s.push t f).rest ++
      (s.push t f).pendingFunctors = (s.push t f).pushed := fun t f => by
    change s.executed ++ s.rest ++ (s.pendingFunctors ++ [f]) = s.pushed ++ [f]
    rw [← List.append_assoc, hs]
  cases a with
  | queueInLoop t f =>
    simp only [eventLoops, EventLoop.next] at hn
    split_ifs at hn
    cases hn
    exact hpush t f
  | runInLoop t f =>
    simp only [eventLoops, EventLoop.next] at hn
    split_ifs at hn <;> cases hn
    · exact hs
    · exact hpush t f
  | loop step =>
    simp only [eventLoops, EventLoop.next] at hn
    split_ifs at hn
    exact loopNext_order hs hn
  | _ =>
    simp only [eventLoops, EventLoop.next] at hn
    split_ifs at hn <;> cases hn <;> exact hs

/-! ### What the loop thread can do alone -/

section Alone

variable {t : T} {s u : EventLoop T F}

/-- The steps with which thread `t` runs its loop: no calls of its own, and no new start. -/
def Inner (t : T) : LoopAction T F → Prop
  | .decide t' | .wakeup t' => t' = t
  | .loop .start => False
  | .loop _ => True
  | _ => False

/-- What the loop thread leaves alone while it goes on. -/
structure GoesOn (t : T) (s u : EventLoop T F) : Prop where
  leads : (eventLoops t).Leads (Inner s.threadId) s u
  threadId : u.threadId = s.threadId
  quit : u.quit = s.quit
  pc : u.pc u.threadId = .idle

/-- The loop thread ends the call it is in. -/
theorem exists_call_end (s : EventLoop T F) (t : T) : ∃ u, GoesOn t s u ∧ u.phase = s.phase ∧
    u.executed = s.executed := by
  have hwake : ∀ v : EventLoop T F, v.threadId = s.threadId →
      v.pc v.threadId = .waking ∨ v.pc v.threadId = .quitting →
      (eventLoops t).Leads (Inner s.threadId) v
        { v.setPc v.threadId .idle with eventfd := writeEventfd v.eventfd } := by
    intro v hv hpc
    refine .single (a := .wakeup v.threadId) hv ?_
    simp [eventLoops, EventLoop.next, hpc]
  cases hpc : s.pc s.threadId with
  | idle => exact ⟨s, ⟨.refl s, rfl, rfl, hpc⟩, rfl, rfl⟩
  | waking => exact ⟨_, ⟨hwake s rfl (.inl hpc), rfl, rfl, by simp [setPc]⟩, rfl, rfl⟩
  | quitting => exact ⟨_, ⟨hwake s rfl (.inr hpc), rfl, rfl, by simp [setPc]⟩, rfl, rfl⟩
  | pushed =>
    have hdecide : (eventLoops t).Leads (Inner s.threadId) s (s.setPc s.threadId .waking) := by
      refine .single (a := .decide s.threadId) rfl ?_
      simp [eventLoops, EventLoop.next, hpc, isInLoopThread, wakeupNeeded]
    have hrest := hwake (s.setPc s.threadId .waking) rfl (.inl (by simp [setPc]))
    exact ⟨_, ⟨hdecide.trans hrest, rfl, rfl, by simp [setPc]⟩, rfl, rfl⟩

/-- One step of the loop. -/
theorem leads_loop (step : LoopStep) (hpc : s.pc s.threadId = .idle) (hstep : step ≠ .start)
    (h : s.loopNext step = some u) : (eventLoops t).Leads (Inner s.threadId) s u := by
  refine .single (a := .loop step) ?_ ?_
  · cases step with
    | start => exact absurd rfl hstep
    | _ => trivial
  · simp [eventLoops, EventLoop.next, hpc, h]

/-- The rest of a batch. -/
theorem exists_batch_end (functions : List F) (hphase : s.phase = .running functions)
    (hpc : s.pc s.threadId = .idle) : ∃ u, GoesOn t s u ∧ u.phase = .test ∧
      u.executed = s.executed ++ functions ∧ u.pendingFunctors = s.pendingFunctors ∧
        u.eventfd = s.eventfd := by
  induction functions generalizing s with
  | nil =>
    refine ⟨{ s with phase := .test, callingdoPendingFunctions := false },
      ⟨leads_loop .finish hpc ?_ ?_, rfl, rfl, hpc⟩, rfl, by simp, rfl, rfl⟩
    · simp
    · simp [EventLoop.loopNext, hphase]
  | cons f functions ih =>
    have hcall : (eventLoops t).Leads (Inner s.threadId) s
        { s with phase := .running functions, executed := s.executed ++ [f] } := by
      refine leads_loop .call hpc (by simp) ?_
      simp [EventLoop.loopNext, hphase]
    obtain ⟨u, hu, h1, h2, h3⟩ :=
      ih (s := { s with phase := .running functions, executed := s.executed ++ [f] }) rfl hpc
    exact ⟨u, ⟨hcall.trans hu.leads, hu.threadId, hu.quit, hu.pc⟩, h1, by simpa using h2, h3⟩

end Alone

/-! ### One call of `doPendingFunctions` -/

/-- The call of a functor. -/
def isCall : LoopAction T F → Bool
  | .loop .call => true
  | _ => false

/-- In `v` the call of `doPendingFunctions` that swapped in `s` has called `n` functors. -/
structure Batch (s v : EventLoop T F) (n : ℕ) : Prop where
  threadId : v.threadId = s.threadId
  phase : v.phase = .running v.rest
  executed : v.executed ++ v.rest = s.executed ++ s.pendingFunctors
  count : n + v.rest.length = s.pendingFunctors.length

omit [DecidableEq T] in
/-- In the batch the loop thread calls the next functor or, after the last one, returns. -/
theorem Batch.loopNext {s v w : EventLoop T F} {n : ℕ} {step : LoopStep} (hv : s.Batch v n)
    (h : v.loopNext step = some w) :
    step = .call ∧ s.Batch w (n + 1) ∨ step = .finish ∧ v.rest = [] := by
  have hphase := hv.phase
  rcases loopNext_cases h with ⟨-, hp, -⟩ | ⟨-, hp, -⟩ | ⟨_, -, hp, -⟩ | ⟨-, hp, -⟩ | ⟨-, hp, -⟩ |
    ⟨-, hp, -⟩ | ⟨f, functions, rfl, hp, rfl⟩ | ⟨rfl, hp, -⟩
  case inr.inr.inr.inr.inr.inr.inl =>
    have hrest : v.rest = f :: functions := by rw [rest, hp]
    have hcount := hv.count
    have hexecuted := hv.executed
    rw [hrest] at hcount hexecuted
    refine .inl ⟨rfl, hv.threadId, rfl, ?_, ?_⟩
    · simpa [rest] using hexecuted
    · simp only [rest, List.length_cons] at hcount ⊢
      omega
  case inr.inr.inr.inr.inr.inr.inr => exact .inr ⟨rfl, by rw [rest, hp]⟩
  all_goals
    rw [hp] at hphase
    cases hphase

omit [DecidableEq T] in
/-- A state that looks the same to the loop. -/
theorem Batch.congr {s v w : EventLoop T F} {n : ℕ} (hv : s.Batch v n)
    (hthread : w.threadId = v.threadId) (hphase : w.phase = v.phase)
    (hexecuted : w.executed = v.executed) : s.Batch w n := by
  have hrest : w.rest = v.rest := by rw [rest, hphase, rest]
  refine ⟨hthread.trans hv.threadId, ?_, ?_, ?_⟩
  · rw [hphase, hrest]
    exact hv.phase
  · rw [hexecuted, hrest]
    exact hv.executed
  · rw [hrest]
    exact hv.count

/-- A step of any thread in the batch, other than its end. -/
theorem Batch.next {s v w : EventLoop T F} {n : ℕ} {a : LoopAction T F} (hv : s.Batch v n)
    (h : v.next a = some w) (ha : a ≠ .loop .finish) :
    s.Batch w (n + if isCall a then 1 else 0) := by
  cases a with
  | loop step =>
    simp only [EventLoop.next] at h
    split_ifs at h
    rcases hv.loopNext h with ⟨rfl, hw⟩ | ⟨rfl, -⟩
    · exact hw
    · exact absurd rfl ha
  | runInLoop t f =>
    simp only [EventLoop.next] at h
    split_ifs at h <;> cases h
    · exact hv
    · exact hv.congr rfl rfl rfl
  | _ =>
    simp only [EventLoop.next] at h
    split_ifs at h <;> cases h <;> exact hv.congr rfl rfl rfl

/-- A run in the batch. -/
theorem Batch.steps {s v w : EventLoop T F} {t : T} {n : ℕ}
    {run : List (Transition (EventLoop T F) (LoopAction T F))}
    (h : (eventLoops t).Steps v run w) (hv : s.Batch v n)
    (hrun : ∀ e ∈ run, e.action ≠ .loop .finish) :
    s.Batch w (n + run.countP fun e => isCall e.action) := by
  induction h generalizing n with
  | nil => exact hv
  | @cons v _ _ a run hn _ ih =>
    obtain ⟨ha, hrun⟩ := List.forall_mem_cons.1 hrun
    have hw := ih (hv.next hn ha) hrun
    rwa [List.countP_cons, Nat.add_comm (run.countP _), ← Nat.add_assoc]

/-- From anywhere in the batch the loop thread alone calls the rest of it and returns. -/
theorem Batch.exists_finish {s v : EventLoop T F} {n : ℕ} (t : T) (hv : s.Batch v n) :
    ∃ w, (eventLoops t).Leads (Inner s.threadId) v w ∧ w.phase = .test ∧
      w.executed = s.executed ++ s.pendingFunctors := by
  obtain ⟨u, hu, hphase, hexecuted⟩ := exists_call_end v t
  obtain ⟨w, hw, htest, hdone, -, -⟩ :=
    exists_batch_end (t := t) v.rest (hphase.trans hv.phase) hu.pc
  refine ⟨w, ?_, htest, ?_⟩
  · have hleads := hw.leads
    rw [hu.threadId] at hleads
    rw [← hv.threadId]
    exact hu.leads.trans hleads
  · rw [hdone, hexecuted, hv.executed]

/-- The swap begins a batch. -/
theorem batch_of_swap {s u : EventLoop T F} (h : s.next (.loop .swap) = some u) :
    s.phase = .swapping ∧ s.Batch u 0 := by
  simp only [EventLoop.next] at h
  split_ifs at h
  rcases loopNext_cases h with ⟨h, -⟩ | ⟨h, -⟩ | ⟨_, h, -⟩ | ⟨h, -⟩ | ⟨h, -⟩ | ⟨-, hp, rfl⟩ |
    ⟨_, _, h, -⟩ | ⟨h, -⟩
  case inr.inr.inr.inr.inr.inl => exact ⟨hp, rfl, rfl, rfl, Nat.zero_add _⟩
  all_goals cases h

end EventLoop

/-- **Functors run once and in order.** In every reachable state what `doPendingFunctions` has
called, the rest of its batch and `pendingFunctors_` are the pushed functors in lock order.  A call
of `doPendingFunctions` calls what was pushed before its swap and nothing else: at most so many
functors whatever is pushed meanwhile, and exactly these when it returns; and from wherever it
stands the loop thread alone can bring it to its return. -/
theorem functors_run_in_order [DecidableEq T] {t : T} {s : EventLoop T F}
    (h : (eventLoops t).Reachable s) :
    s.executed ++ s.rest ++ s.pendingFunctors = s.pushed ∧
      ∀ u, s.next (.loop .swap) = some u → ∀ run v, (eventLoops t).Steps u run v →
        (∀ e ∈ run, e.action ≠ .loop .finish) →
          v.executed ++ v.rest = s.pushed ∧
          (run.countP fun e => EventLoop.isCall e.action) + v.rest.length =
            s.pendingFunctors.length ∧
          (∀ w, v.next (.loop .finish) = some w → w.executed = s.pushed) ∧
          ∃ w, (eventLoops t).Leads (EventLoop.Inner s.threadId) v w ∧ w.phase = .test ∧
            w.executed = s.pushed := by
  have horder := EventLoop.order h
  refine ⟨horder, fun u hu run v hrun hfinish => ?_⟩
  obtain ⟨hphase, hbatch⟩ := EventLoop.batch_of_swap hu
  have hpushed : s.executed ++ s.pendingFunctors = s.pushed := by
    rw [← horder, EventLoop.rest, hphase, List.append_nil]
  have hv := hbatch.steps hrun hfinish
  rw [← hpushed]
  refine ⟨hv.executed, ?_, fun w hw => ?_, hv.exists_finish t⟩
  · rw [← hv.count, Nat.zero_add]
  · simp only [EventLoop.next] at hw
    split_ifs at hw
    rcases hv.loopNext hw with ⟨hstep, -⟩ | ⟨-, hrest⟩
    · cases hstep
    · have hexecuted := hv.executed
      rw [hrest, List.append_nil] at hexecuted
      rw [EventLoop.loopNext, hv.phase, hrest] at hw
      rw [← Option.some.inj hw]
      exact hexecuted

/-- Another thread queues functor 7, and the loop goes up to the swap. -/
def oneFunctor : List (LoopAction Bool ℕ) :=
  [.loop .start, .loop .test, .queueInLoop true 7, .decide true, .loop (.pollReturn false),
    .loop .beginPending]

/-- The functor of that run queues itself again: it was called once and waits for the next batch. -/
theorem functors_run_in_order_requeue : ∃ (s u v : EventLoop Bool ℕ) (run : List _),
    (eventLoops false).run (.new false) oneFunctor = some s ∧ s.next (.loop .swap) = some u ∧
      (eventLoops false).Steps u run v ∧
      run.map Transition.action = [.loop .call, .queueInLoop false 7, .decide false] ∧
      v.executed ++ v.rest = [7] ∧ v.pendingFunctors = [7] := by
  obtain ⟨s, hs⟩ := Option.isSome_iff_exists.1 (by decide +kernel :
    ((eventLoops false).run (.new false) oneFunctor).isSome = true)
  obtain ⟨u, hu⟩ := Option.isSome_iff_exists.1 (by decide +kernel :
    (((eventLoops false).run (.new false) oneFunctor).bind fun s =>
      s.next (.loop .swap)).isSome = true)
  have hv : ((((eventLoops false).run (.new false) oneFunctor).bind fun s =>
      s.next (.loop .swap)).bind fun u => (eventLoops false).run u
        [.loop .call, .queueInLoop false 7, .decide false]).map
          (fun v => v.pendingFunctors) = some [7] := by decide +kernel
  have hpushed : ((eventLoops false).run (.new false) oneFunctor).map (fun s => s.pushed) =
      some [7] := by decide +kernel
  rw [hu, Option.bind_some] at hv
  rw [hs] at hu hpushed
  obtain ⟨v, hv, hpending⟩ := Option.map_eq_some_iff.1 hv
  obtain ⟨run, hrun, hmap⟩ := LTS.exists_steps_of_run hv
  have hfinish : ∀ e ∈ run, e.action ≠ .loop .finish := by
    intro e he hfin
    have hmem := List.mem_map_of_mem (f := Transition.action) he
    rw [hmap, hfin] at hmem
    simp at hmem
  have hbatch := ((functors_run_in_order (.of_run (.init rfl) _ hs)).2 u hu run v hrun hfinish).1
  rw [show s.pushed = [7] from Option.some.inj hpushed] at hbatch
  exact ⟨s, u, v, run, hs, hu, hrun, hmap, hbatch, hpending⟩

end Jiangbo
