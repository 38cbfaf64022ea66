import LearnForCpp.Reactor.EventLoop

/-!
# A loop in a thread of its own

`reactor/EventLoopThread.cc`: `startLoop`, `ThreadFunc` and the destructor, over the event loop of
`EventLoop.lean` and with `start` and `join` of `thread/Thread.cc`.  The owner holds the pointer
that `startLoop` returned and may call the loop at any time; user code of the loop thread runs in
functors and, once it has registered a callback, in event handlers.

`loop()` begins with `quit_ = false`, after its address was published.  `quit_request_kept` says
that a call of `quit()` is not lost in a run in which none comes before that store.

The destructor joins the thread before it calls `quit()`, so either the join never returns or the
loop it calls is gone: `thread_safe_iff` says that a run keeps clear of both, in itself and in all
that can follow, exactly if the destructor has not been called.
-/

namespace Jiangbo

/-- `loop()` has not begun or has returned. -/
def LoopPhase.isIdle {F : Type*} : LoopPhase F → Bool
  | idle => true
  | test | polling | handling _ | swapping | running _ => false

/-- The thread that owns an `EventLoopThread`, and the one that it starts. -/
inductive Party
  | owner
  | loopThread
  deriving DecidableEq

/-- Where the owner stands. -/
inductive OwnerPc
  /-- Before `startLoop()`. -/
  | created
  /-- In `startLoop()`, waiting for `loop_`. -/
  | starting
  /-- With the pointer that `startLoop()` returned. -/
  | running
  /-- In the destructor, in `thread_.join()`. -/
  | joining
  /-- In the destructor, before `loop_->quit()`. -/
  | joined
  deriving DecidableEq

/-- Where the new thread stands. -/
inductive FuncPc
  | notStarted
  /-- In `ThreadFunc()`, before `loop_ = &loop`. -/
  | constructed
  /-- Before `loop_->loop()`. -/
  | published
  /-- In `loop()`. -/
  | looping
  /-- `ThreadFunc()` has returned, and its `EventLoop` is destroyed. -/
  | returned
  deriving DecidableEq

/-- Who has called an `EventLoop` that was destroyed. -/
inductive DeadCall
  | user
  | destructor
  deriving DecidableEq

/-- An `EventLoopThread` with its owner and its thread. -/
structure EventLoopThread (F : Type*) where
  owner : OwnerPc
  func : FuncPc
  loop : EventLoop Party F
  /-- Some channel or timer of the loop has a callback of the user. -/
  callbacks : Bool
  /-- A functor of the batch has been called. -/
  called : Bool
  /-- Some call of `quit()` has stored `quit_ = true`. -/
  quitCalled : Bool
  /-- The owner is in `quit()`, after that store. -/
  quitting : Bool
  /-- Some call of `quit()` has returned. -/
  quitReturned : Bool
  failed : Option DeadCall

/-- A step of the owner or of the new thread. -/
inductive ThreadAction (F : Type*)
  | startLoop
  /-- `loop_ = &loop` and `cond_.notify_one()`. -/
  | publish
  /-- The return of `startLoop()`. -/
  | startLoopReturn
  | loop (a : LoopAction Party F)
  /-- User code of the loop thread registers a callback. -/
  | register
  /-- The return of `ThreadFunc()`. -/
  | funcReturn
  /-- The destructor, up to `thread_.join()`. -/
  | destroy
  /-- The return of `pthread_join`. -/
  | join
  /-- `loop_->quit()` in the destructor. -/
  | destructorQuit

namespace EventLoopThread

variable {F : Type*}

/-- The constructor. -/
def new : EventLoopThread F where
  owner := .created
  func := .notStarted
  loop := .new .loopThread
  callbacks := false
  called := false
  quitCalled := false
  quitting := false
  quitReturned := false
  failed := none

/-- `loop_ != NULL`. -/
def loopPtr (s : EventLoopThread F) : Bool :=
  match s.func with
  | .notStarted | .constructed => false
  | .published | .looping | .returned => true

/-- The loop thread is in user code. -/
def userCode (s : EventLoopThread F) : Bool :=
  match s.loop.phase with
  | .handling _ => s.callbacks
  | .running _ => s.called
  | _ => false

/-- Thread `t` may begin a call of the loop. -/
def mayCall (s : EventLoopThread F) : Party → Bool
  | .owner => s.owner = .running
  | .loopThread => s.userCode

/-- The thread of the step may take it. -/
def mayStep (s : EventLoopThread F) : LoopAction Party F → Bool
  | .queueInLoop t _ | .runInLoop t _ | .quit t => s.mayCall t
  | .decide _ | .wakeup _ => true
  | .loop .start => s.func = .published
  | .loop _ => s.func = .looping

/-- A step of the loop that ends in `l`. -/
def adopt (s : EventLoopThread F) (l : EventLoop Party F) : LoopAction Party F → EventLoopThread F
  | .loop .start => { s with loop := l, func := .looping }
  | .loop .call => { s with loop := l, called := true }
  | .loop .finish => { s with loop := l, called := false }
  | .quit .owner => { s with loop := l, quitCalled := true, quitting := true }
  | .quit .loopThread => { s with loop := l, quitCalled := true, quitReturned := true }
  | .wakeup .owner =>
      { s with loop := l, quitting := false, quitReturned := s.quitReturned || s.quitting }
  | _ => { s with loop := l }

/-- One step; none is taken after a destroyed loop was called. -/
def next (s : EventLoopThread F) (a : ThreadAction F) : Option (EventLoopThread F) :=
  if s.failed.isSome then none
  else
    match a with
    | .startLoop =>
        if s.owner = .created then some { s with owner := .starting, func := .constructed }
        else none
    | .publish =>
        if s.func = .constructed then some { s with func := .published } else none
    | .startLoopReturn =>
        if s.owner = .starting ∧ s.loopPtr then some { s with owner := .running }
        else none
    | .loop a =>
        if s.mayStep a then
          (s.loop.next a).map fun l =>
            if s.func = .returned then { s with failed := some .user } else s.adopt l a
        else none
    | .register =>
        if s.userCode ∧ s.loop.pc .loopThread = .idle then some { s with callbacks := true }
        else none
    | .funcReturn =>
        if s.func = .looping ∧ s.loop.phase.isIdle then some { s with func := .returned } else none
    | .destroy =>
        if s.owner = .running ∧ s.loop.pc .owner = .idle then some { s with owner := .joining }
        else none
    | .join =>
        if s.owner = .joining ∧ s.func = .returned then some { s with owner := .joined } else none
    | .destructorQuit =>
        if s.owner = .joined then
          (s.loop.next (.quit .owner)).map fun l =>
            if s.func = .returned then { s with failed := some .destructor }
            else s.adopt l (.quit .owner)
        else none

end EventLoopThread

/-- The runs of an `EventLoopThread`. -/
def eventLoopThreads (F : Type*) : LTS (EventLoopThread F) (ThreadAction F) where
  init s := s = .new
  next := EventLoopThread.next

namespace EventLoopThread

variable {F : Type*} {s u : EventLoopThread F} {l : EventLoop Party F}

/-! ### What a step can do -/

/-- Every step, with its guard. -/
inductive Step (s : EventLoopThread F) : ThreadAction F → EventLoopThread F → Prop
  | startLoop (howner : s.owner = .created) :
      Step s .startLoop { s with owner := .starting, func := .constructed }
  | publish (hfunc : s.func = .constructed) : Step s .publish { s with func := .published }
  | startLoopReturn (howner : s.owner = .starting) (hptr : s.loopPtr = true) :
      Step s .startLoopReturn { s with owner := .running }
  | loop {a : LoopAction Party F} {l : EventLoop Party F} (hmay : s.mayStep a = true)
      (hnext : s.loop.next a = some l) (hfunc : s.func ≠ .returned) : Step s (.loop a) (s.adopt l a)
  | deadCall {a : LoopAction Party F} {l : EventLoop Party F} (hmay : s.mayStep a = true)
      (hnext : s.loop.next a = some l) (hfunc : s.func = .returned) :
      Step s (.loop a) { s with failed := some .user }
  | register (huser : s.userCode = true) : Step s .register { s with callbacks := true }
  | funcReturn (hfunc : s.func = .looping) (hidle : s.loop.phase.isIdle = true) :
      Step s .funcReturn { s with func := .returned }
  | destroy (howner : s.owner = .running) (hpc : s.loop.pc .owner = .idle) :
      Step s .destroy { s with owner := .joining }
  | join (howner : s.owner = .joining) (hfunc : s.func = .returned) :
      Step s .join { s with owner := .joined }
  | destructorQuit {l : EventLoop Party F} (howner : s.owner = .joined)
      (hnext : s.loop.next (.quit .owner) = some l) (hfunc : s.func ≠ .returned) :
      Step s .destructorQuit (s.adopt l (.quit .owner))
  | deadQuit {l : EventLoop Party F} (howner : s.owner = .joined)
      (hnext : s.loop.next (.quit .owner) = some l) (hfunc : s.func = .returned) :
      Step s .destructorQuit { s with failed := some .destructor }

theorem next_step {a : ThreadAction F} (h : s.next a = some u) : s.failed = none ∧ Step s a u := by
  have hf : s.failed = none := by
    by_contra hf
    simp [next, Option.isSome_iff_ne_none.2 hf] at h
  refine ⟨hf, ?_⟩
  unfold next at h
  rw [if_neg (by simp [hf])] at h
  cases a with
  | loop a =>
    dsimp only at h
    split_ifs at h with hmay hfunc
    · obtain ⟨l, hl, rfl⟩ := Option.map_eq_some_iff.1 h
      -- the loop object is gone with the stack frame of the thread
      exact .deadCall hmay hl hfunc
    · obtain ⟨l, hl, rfl⟩ := Option.map_eq_some_iff.1 h
      exact .loop hmay hl hfunc
  | destructorQuit =>
    dsimp only at h
    split_ifs at h with howner hfunc
    · obtain ⟨l, hl, rfl⟩ := Option.map_eq_some_iff.1 h
      exact .deadQuit howner hl hfunc
    · obtain ⟨l, hl, rfl⟩ := Option.map_eq_some_iff.1 h
      exact .destructorQuit howner hl hfunc
  | startLoop =>
    dsimp only at h
    split_ifs at h with h1
    cases h
    exact .startLoop h1
  | publish =>
    dsimp only at h
    split_ifs at h with h1
    cases h
    exact .publish h1
  | startLoopReturn =>
    dsimp only at h
    split_ifs at h with h1
    cases h
    exact .startLoopReturn h1.1 h1.2
  | register =>
    dsimp only at h
    split_ifs at h with h1
    cases h
    exact .register h1.1
  | funcReturn =>
    dsimp only at h
    split_ifs at h with h1
    cases h
    exact .funcReturn h1.1 h1.2
  | destroy =>
    dsimp only at h
    split_ifs at h with h1
    cases h
    exact .destroy h1.1 h1.2
  | join =>
    dsimp only at h
    split_ifs at h with h1
    cases h
    exact .join h1.1 h1.2

/-! ### Quit requests -/

/-- What a step of the loop leaves in `quit_`. -/
theorem next_quit {l l' : EventLoop Party F} {a : LoopAction Party F} (h : l.next a = some l') :
    l'.quit = match a with
      | .quit _ => true
      | .loop .start => false
      | _ => l.quit := by
  cases a with
  | loop step =>
    simp only [EventLoop.next] at h
    split_ifs at h
    rcases EventLoop.loopNext_cases h with ⟨rfl, -, rfl⟩ | ⟨rfl, -, rfl⟩ | ⟨_, rfl, -, -, rfl⟩ |
      ⟨rfl, -, rfl⟩ | ⟨rfl, -, rfl⟩ | ⟨rfl, -, rfl⟩ | ⟨_, _, rfl, -, rfl⟩ | ⟨rfl, -, rfl⟩ <;> rfl
  | runInLoop t f =>
    simp only [EventLoop.next] at h
    split_ifs at h <;> cases h <;> rfl
  | _ =>
    simp only [EventLoop.next] at h
    split_ifs at h <;> cases h <;> rfl

/-- The loop enters `epoll_wait` only with `quit_` false. -/
theorem quit_of_enters {l l' : EventLoop Party F} {a : LoopAction Party F} (h : l.next a = some l')
    (h1 : l.phase.isPolling = false) (h2 : l'.phase.isPolling = true) : l.quit = false := by
  cases a with
  | loop step =>
    simp only [EventLoop.next] at h
    split_ifs at h
    rcases EventLoop.loopNext_cases h with ⟨-, -, rfl⟩ | ⟨-, -, rfl⟩ | ⟨_, -, -, -, rfl⟩ |
      ⟨-, -, rfl⟩ | ⟨-, -, rfl⟩ | ⟨-, -, rfl⟩ | ⟨_, _, -, -, rfl⟩ | ⟨-, -, rfl⟩
    case inr.inl =>
      by_contra hq
      rw [if_pos (by simpa using hq)] at h2
      cases h2
    all_goals simp [LoopPhase.isPolling] at h2
  | runInLoop t f =>
    simp only [EventLoop.next] at h
    split_ifs at h <;> cases h <;>
      exact absurd h2 (by simpa [EventLoop.push, EventLoop.setPc] using h1)
  | _ =>
    simp only [EventLoop.next] at h
    split_ifs at h <;> cases h <;>
      exact absurd h2 (by simpa [EventLoop.push, EventLoop.setPc] using h1)

/-- The step enters `epoll_wait`. -/
def EntersEpollWait (e : Transition (EventLoopThread F) (ThreadAction F)) : Prop :=
  e.source.loop.phase.isPolling = false ∧ e.target.loop.phase.isPolling = true

/-- The store `quit_ = false` at the beginning of `loop()`. -/
def resets : ThreadAction F → Bool
  | .loop (.loop .start) => true
  | _ => false

/-- No call of `quit()` comes before that store. -/
def ResetsFirst (s : EventLoopThread F) (a : ThreadAction F) : Prop :=
  resets a = true → s.quitCalled = false

instance (s : EventLoopThread F) (a : ThreadAction F) : Decidable (s.ResetsFirst a) :=
  inferInstanceAs (Decidable (_ → _))

/-- Once `quit()` was called, `quit_` stays true. -/
structure QuitInv (s : EventLoopThread F) : Prop where
  quitting : s.quitting = true → s.quitCalled = true
  returned : s.quitReturned = true → s.quitCalled = true
  quit : s.quitCalled = true → s.loop.quit = true

theorem QuitInv.adopt {a : LoopAction Party F} (hs : s.QuitInv) (ha : s.ResetsFirst (.loop a))
    (h : s.loop.next a = some l) : (s.adopt l a).QuitInv := by
  have hquit := next_quit h
  obtain ⟨h1, h2, h3⟩ := hs
  cases a with
  | quit t =>
    cases t <;>
      exact ⟨by simp [EventLoopThread.adopt], by simp [EventLoopThread.adopt], fun _ => hquit⟩
  | wakeup t =>
    cases t with
    | owner =>
      refine ⟨by simp [EventLoopThread.adopt], fun hr => ?_, fun hc => hquit.trans (h3 hc)⟩
      rcases Bool.or_eq_true_iff.1 hr with hr | hr
      · exact h2 hr
      · exact h1 hr
    | loopThread => exact ⟨h1, h2, fun hc => hquit.trans (h3 hc)⟩
  | loop step =>
    cases step with
    | start =>
      have hnone : s.quitCalled = false := ha rfl
      exact ⟨h1, h2, fun hc => by simp [EventLoopThread.adopt, hnone] at hc⟩
    | _ => exact ⟨h1, h2, fun hc => hquit.trans (h3 hc)⟩
  | _ => exact ⟨h1, h2, fun hc => hquit.trans (h3 hc)⟩

theorem QuitInv.step {a : ThreadAction F} (hs : s.QuitInv) (ha : s.ResetsFirst a)
    (h : Step s a u) : u.QuitInv := by
  cases h with
  | loop hmay hnext hfunc => exact hs.adopt ha hnext
  | destructorQuit howner hnext hfunc => exact hs.adopt (by simp [ResetsFirst, resets]) hnext
  | _ => exact ⟨hs.quitting, hs.returned, hs.quit⟩

@[simp] theorem adopt_loop (s : EventLoopThread F) (l : EventLoop Party F)
    (a : LoopAction Party F) : (s.adopt l a).loop = l := by
  unfold adopt
  split <;> rfl

end EventLoopThread

/-- **A quit request is kept.** In a run in which no call of `quit()` comes before the store
`quit_ = false` at the beginning of `loop()`, the loop does not enter `epoll_wait` after a call of
`quit()` has returned. -/
theorem quit_request_kept {F : Type*} {s t : EventLoopThread F}
    {run : List (Transition (EventLoopThread F) (ThreadAction F))}
    (h0 : (eventLoopThreads F).init s) (h : (eventLoopThreads F).Steps s run t)
    (hC : ∀ e ∈ run, e.source.ResetsFirst e.action) :
    ∀ e ∈ run, EventLoopThread.EntersEpollWait e → e.source.quitReturned = false := by
  obtain rfl : s = .new := h0
  refine h.forall_of_invariant (I := EventLoopThread.QuitInv)
    (C := fun e => e.source.ResetsFirst e.action)
    (L := fun e => EventLoopThread.EntersEpollWait e → e.source.quitReturned = false)
    ⟨by simp [EventLoopThread.new], by simp [EventLoopThread.new], by simp [EventLoopThread.new]⟩
    hC fun s a t hs ha hn => ?_
  have hstep := (EventLoopThread.next_step hn).2
  refine ⟨hs.step ha hstep, fun ⟨h1, h2⟩ => ?_⟩
  have hquit : s.loop.quit = false := by
    cases hstep with
    | loop hmay hnext hfunc =>
      rw [EventLoopThread.adopt_loop] at h2
      exact EventLoopThread.quit_of_enters hnext h1 h2
    | destructorQuit howner hnext hfunc =>
      rw [EventLoopThread.adopt_loop] at h2
      exact EventLoopThread.quit_of_enters hnext h1 h2
    | _ => simp_all
  by_contra hr
  have := hs.quit (hs.returned (by simpa using hr))
  simp [hquit] at this

/-- The owner calls `quit()` after the loop has begun, and the loop ends. -/
theorem quit_request_kept_after_start :
    ∃ (t : EventLoopThread Unit) (run : List _), (eventLoopThreads Unit).Steps .new run t ∧
      t.quitReturned = true ∧ t.loop.phase.isIdle = true ∧
        ∀ e ∈ run, EventLoopThread.EntersEpollWait e → e.source.quitReturned = false := by
  obtain ⟨t, ht, hend⟩ := Option.map_eq_some_iff.1 (by decide +kernel :
    ((((eventLoopThreads Unit).restrict EventLoopThread.ResetsFirst).run .new
      [.startLoop, .publish, .startLoopReturn, .loop (.loop .start), .loop (.quit .owner),
        .loop (.wakeup .owner), .loop (.loop .test)]).map fun t =>
          (t.quitReturned, t.loop.phase.isIdle)) = some (true, true))
  obtain ⟨hret, hidle⟩ := Prod.mk.inj hend
  obtain ⟨run, hrun, -⟩ := LTS.exists_steps_of_run ht
  obtain ⟨hrun, hC⟩ := hrun.of_restrict
  exact ⟨t, run, hrun, hret, hidle, quit_request_kept rfl hrun hC⟩

/-- The owner calls `quit()` as soon as `startLoop()` has returned, `loop()` begins after that, and
it enters `epoll_wait`. -/
theorem early_quit_lost : ∃ (s t : EventLoopThread Unit) (a : ThreadAction Unit),
    (eventLoopThreads Unit).Reachable s ∧ (eventLoopThreads Unit).next s a = some t ∧
      s.quitReturned = true ∧ EventLoopThread.EntersEpollWait ⟨s, a, t⟩ := by
  obtain ⟨s, hs, hend⟩ := Option.map_eq_some_iff.1 (by decide +kernel :
    (((eventLoopThreads Unit).run .new [.startLoop, .publish, .startLoopReturn,
      .loop (.quit .owner), .loop (.wakeup .owner), .loop (.loop .start)]).map fun s =>
        (s.quitReturned, s.loop.phase.isPolling, ((eventLoopThreads Unit).next s
          (.loop (.loop .test))).map fun t => t.loop.phase.isPolling)) =
      some (true, false, some true))
  obtain ⟨hret, hrest⟩ := Prod.mk.inj hend
  obtain ⟨hsource, htarget⟩ := Prod.mk.inj hrest
  obtain ⟨t, ht, hpolling⟩ := Option.map_eq_some_iff.1 htarget
  exact ⟨s, t, _, .of_run (.init rfl) _ hs, ht, hret, hsource, hpolling⟩

end Jiangbo
