import LearnForCpp.Reactor.EventLoopThread

/-!
# Destroying an `EventLoopThread`

The destructor of `reactor/EventLoopThread.cc` calls `thread_.join()` and then `loop_->quit()`.
`Deadlocked` is the state in which the join waits for a loop that nobody will ask to quit;
`Stuck` says the same of the whole iteration of the loop and is kept by every step.

Whatever the loop is doing when the destructor begins, its thread alone can bring it either there
or to the end of `ThreadFunc`, after which the destructor calls a loop that was destroyed:
`leads_unsafe`, on which `thread_safe_iff` rests.
-/

namespace Jiangbo

namespace EventLoop

/-! ### The loop thread goes on to its next test -/

variable {T F : Type*} [DecidableEq T] {t : T} {s u v : EventLoop T F}

theorem GoesOn.trans (h : GoesOn t s u) (h' : GoesOn t u v) : GoesOn t s v := by
  refine ⟨h.leads.trans ?_, h'.threadId.trans h.threadId, h'.quit.trans h.quit, h'.pc⟩
  rw [← h.threadId]
  exact h'.leads

theorem GoesOn.of_loopNext (step : LoopStep) (hpc : s.pc s.threadId = .idle)
    (hstep : step ≠ .start) (h : s.loopNext step = some u) (hthread : u.threadId = s.threadId)
    (hquit : u.quit = s.quit) (hpcs : u.pc = s.pc) : GoesOn t s u :=
  ⟨leads_loop step hpc hstep h, hthread, hquit, by rw [hpcs, hthread]; exact hpc⟩

/-- From the swap to the next test. -/
theorem exists_swap_end (hphase : s.phase = .swapping) (hpc : s.pc s.threadId = .idle) :
    ∃ u, GoesOn t s u ∧ u.phase = .test ∧ u.pendingFunctors = [] ∧ u.eventfd = s.eventfd := by
  have hswap : GoesOn t s
      { s with phase := .running s.pendingFunctors, pendingFunctors := [] } := by
    refine .of_loopNext .swap hpc (by simp) ?_ rfl rfl rfl
    simp [EventLoop.loopNext, hphase]
  obtain ⟨u, hu, h1, -, h2, h3⟩ := exists_batch_end (t := t)
    (s := { s with phase := .running s.pendingFunctors, pendingFunctors := [] })
    s.pendingFunctors rfl hpc
  exact ⟨u, hswap.trans hu, h1, h2, h3⟩

/-- From the handlers to the next test. -/
theorem exists_handling_end {woken : Bool} (hphase : s.phase = .handling woken)
    (hpc : s.pc s.threadId = .idle) : ∃ u, GoesOn t s u ∧ u.phase = .test ∧
      u.pendingFunctors = [] ∧ u.eventfd = if woken then 0 else s.eventfd := by
  have hpending : ∀ v : EventLoop T F, v.phase = .handling false → v.pc v.threadId = .idle →
      ∃ u, GoesOn t v u ∧ u.phase = .test ∧ u.pendingFunctors = [] ∧ u.eventfd = v.eventfd := by
    intro v hv hpc
    have hbegin : GoesOn t v { v with phase := .swapping, callingdoPendingFunctions := true } := by
      refine .of_loopNext .beginPending hpc (by simp) ?_ rfl rfl rfl
      simp [EventLoop.loopNext, hv]
    obtain ⟨u, hu, h⟩ := exists_swap_end (t := t)
      (s := { v with phase := .swapping, callingdoPendingFunctions := true }) rfl hpc
    exact ⟨u, hbegin.trans hu, h⟩
  cases woken with
  | false => exact hpending s hphase hpc
  | true =>
    have hread : GoesOn t s { s with phase := .handling false, eventfd := 0 } := by
      refine .of_loopNext .handleRead hpc (by simp) ?_ rfl rfl rfl
      simp [EventLoop.loopNext, hphase]
    obtain ⟨u, hu, h⟩ := hpending { s with phase := .handling false, eventfd := 0 } rfl hpc
    exact ⟨u, hread.trans hu, h⟩

/-- From `epoll_wait` to the next test. -/
theorem exists_polling_end (hphase : s.phase = .polling) (hpc : s.pc s.threadId = .idle) :
    ∃ u, GoesOn t s u ∧ u.phase = .test ∧ u.pendingFunctors = [] ∧ u.eventfd = 0 := by
  have hreturn : GoesOn t s { s with phase := .handling (decide (0 < s.eventfd)) } := by
    refine .of_loopNext (.pollReturn (decide (0 < s.eventfd))) hpc (by simp) ?_ rfl rfl rfl
    simp [EventLoop.loopNext, hphase]
  obtain ⟨u, hu, h1, h2, h3⟩ := exists_handling_end (t := t)
    (s := { s with phase := .handling (decide (0 < s.eventfd)) }) rfl hpc
  refine ⟨u, hreturn.trans hu, h1, h2, h3.trans ?_⟩
  split_ifs with hpos
  · rfl
  · simpa using hpos

/-- From anywhere in `loop()` to the next test. -/
theorem exists_test (hs : s.Inv) (hphase : s.phase ≠ .idle) :
    ∃ u, GoesOn t s u ∧ u.phase = .test := by
  have hidle := hs.loop_idle
  cases hp : s.phase with
  | idle => exact absurd hp hphase
  | test =>
    rw [hp] at hidle
    exact ⟨s, ⟨.refl s, rfl, rfl, hidle rfl⟩, hp⟩
  | polling =>
    rw [hp] at hidle
    obtain ⟨u, hu, h, -⟩ := exists_polling_end (t := t) hp (hidle rfl)
    exact ⟨u, hu, h⟩
  | swapping =>
    rw [hp] at hidle
    obtain ⟨u, hu, h, -⟩ := exists_swap_end (t := t) hp (hidle rfl)
    exact ⟨u, hu, h⟩
  | handling woken =>
    obtain ⟨u, hu, hphase, -⟩ := exists_call_end s t
    obtain ⟨v, hv, h, -⟩ := exists_handling_end (t := t) (hphase.trans hp) hu.pc
    exact ⟨v, hu.trans hv, h⟩
  | running functions =>
    obtain ⟨u, hu, hphase, -⟩ := exists_call_end s t
    obtain ⟨v, hv, h, -⟩ := exists_batch_end (t := t) functions (hphase.trans hp) hu.pc
    exact ⟨v, hu.trans hv, h⟩

end EventLoop

namespace EventLoopThread

variable {F : Type*} {s u : EventLoopThread F} {l : EventLoop Party F} {a : ThreadAction F}

/-! ### The invariant -/

/-- Where the owner and the two threads can stand together. -/
structure Sound (s : EventLoopThread F) : Prop where
  threadId : s.loop.threadId = .loopThread
  inv : s.loop.Inv
  owner_idle : s.owner ≠ .running → s.loop.pc .owner = .idle
  loop_idle : s.loop.phase = .idle → s.loop.pc .loopThread = .idle
  func_idle : s.func ≠ .looping → s.loop.phase = .idle
  called : s.called = true → ∃ functions, s.loop.phase = .running functions
  created : s.owner = .created → s.func = .notStarted
  loopPtr : s.owner ≠ .created → s.owner ≠ .starting → s.loopPtr = true
  joined : s.owner = .joined → s.func = .returned
  failed : s.failed = some .user → s.owner = .running

/-- A step of the loop, or of a call: who takes it, and what it leaves. -/
theorem next_call {b : LoopAction Party F} (hmay : s.mayStep b = true)
    (h : s.loop.next b = some l) :
    (∃ step, b = .loop step ∧ s.loop.pc s.loop.threadId = .idle ∧ s.loop.loopNext step = some l) ∨
      l.threadId = s.loop.threadId ∧ l.phase = s.loop.phase ∧ ∃ t,
        (∀ t', t' ≠ t → l.pc t' = s.loop.pc t') ∧ (s.mayCall t = true ∨ s.loop.pc t ≠ .idle) ∧
          (s.adopt l b).func = s.func ∧ (s.adopt l b).called = s.called := by
  cases b with
  | loop step =>
    simp only [EventLoop.next] at h
    split_ifs at h with hpc
    exact .inl ⟨step, rfl, hpc, h⟩
  | queueInLoop t f =>
    simp only [EventLoop.next] at h
    split_ifs at h
    cases h
    refine .inr ⟨rfl, rfl, t, fun t' ht => ?_, .inl hmay, rfl, rfl⟩
    simp [EventLoop.push, EventLoop.setPc, ht]
  | runInLoop t f =>
    simp only [EventLoop.next] at h
    split_ifs at h <;> cases h
    · exact .inr ⟨rfl, rfl, t, fun _ _ => rfl, .inl hmay, rfl, rfl⟩
    · refine .inr ⟨rfl, rfl, t, fun t' ht => ?_, .inl hmay, rfl, rfl⟩
      simp [EventLoop.push, EventLoop.setPc, ht]
  | decide t =>
    simp only [EventLoop.next] at h
    split_ifs at h with hpc <;> cases h <;>
      exact .inr ⟨rfl, rfl, t, fun t' ht => by simp [EventLoop.setPc, ht], .inr (by simp [hpc]),
        rfl, rfl⟩
  | wakeup t =>
    simp only [EventLoop.next] at h
    split_ifs at h with hpc
    cases h
    have hbusy : s.loop.pc t ≠ .idle := by rcases hpc with hpc | hpc <;> simp [hpc]
    refine .inr ⟨rfl, rfl, t, fun t' ht => by simp [EventLoop.setPc, ht], .inr hbusy, ?_⟩
    cases t <;> exact ⟨rfl, rfl⟩
  | quit t =>
    simp only [EventLoop.next] at h
    split_ifs at h <;> cases h <;>
      refine .inr ⟨rfl, rfl, t, fun t' ht => by simp [EventLoop.setPc, ht], .inl hmay, ?_⟩ <;>
      cases t <;> exact ⟨rfl, rfl⟩

@[simp] theorem adopt_owner (s : EventLoopThread F) (l : EventLoop Party F)
    (b : LoopAction Party F) : (s.adopt l b).owner = s.owner := by
  unfold adopt
  split <;> rfl

@[simp] theorem adopt_failed (s : EventLoopThread F) (l : EventLoop Party F)
    (b : LoopAction Party F) : (s.adopt l b).failed = s.failed := by
  unfold adopt
  split <;> rfl

@[simp] theorem adopt_callbacks (s : EventLoopThread F) (l : EventLoop Party F)
    (b : LoopAction Party F) : (s.adopt l b).callbacks = s.callbacks := by
  unfold adopt
  split <;> rfl

theorem userCode_of_idle (h : s.loop.phase = .idle) : s.userCode = false := by
  rw [userCode, h]

/-- A thread that takes a step of a call is in user code, or was in the call. -/
theorem Sound.may {t : Party} (hs : s.Sound) (h : s.mayCall t = true ∨ s.loop.pc t ≠ .idle) :
    (t = .owner → s.owner = .running) ∧ (t = .loopThread → s.loop.phase ≠ .idle) := by
  constructor
  · rintro rfl
    by_contra howner
    rcases h with h | h
    · exact howner (by simpa [mayCall] using h)
    · exact h (hs.owner_idle howner)
  · rintro rfl hidle
    rcases h with h | h
    · rw [mayCall, userCode_of_idle hidle] at h
      cases h
    · exact h (hs.loop_idle hidle)

theorem Sound.adopt_call {b : LoopAction Party F} {t : Party} (hs : s.Sound) (hinv : l.Inv)
    (hthread : l.threadId = s.loop.threadId) (hphase : l.phase = s.loop.phase)
    (hpc : ∀ t', t' ≠ t → l.pc t' = s.loop.pc t')
    (hmay : s.mayCall t = true ∨ s.loop.pc t ≠ .idle) (hfunc : (s.adopt l b).func = s.func)
    (hcalled : (s.adopt l b).called = s.called) : (s.adopt l b).Sound := by
  obtain ⟨h1, h2⟩ := hs.may hmay
  refine
    { threadId := ?threadId, inv := ?inv, owner_idle := fun h => ?owner_idle,
      loop_idle := fun h => ?loop_idle, func_idle := fun h => ?func_idle,
      called := fun h => ?called, created := fun h => ?created, loopPtr := fun h h' => ?loopPtr,
      joined := fun h => ?joined, failed := fun h => ?failed }
  case threadId =>
    rw [adopt_loop, hthread, hs.threadId]
  case inv =>
    rw [adopt_loop]
    exact hinv
  case owner_idle =>
    rw [adopt_owner] at h
    rw [adopt_loop, hpc .owner fun ht => h (h1 ht.symm)]
    exact hs.owner_idle h
  case loop_idle =>
    rw [adopt_loop, hphase] at h
    rw [adopt_loop, hpc .loopThread fun ht => h2 ht.symm h]
    exact hs.loop_idle h
  case func_idle =>
    rw [adopt_loop, hphase]
    exact hs.func_idle (hfunc ▸ h)
  case called =>
    rw [adopt_loop, hphase]
    exact hs.called (hcalled ▸ h)
  case created =>
    rw [hfunc]
    rw [adopt_owner] at h
    exact hs.created h
  case loopPtr =>
    have hptr : (s.adopt l b).loopPtr = s.loopPtr := by
      simp only [EventLoopThread.loopPtr, hfunc]
    rw [adopt_owner] at h h'
    rw [hptr]
    exact hs.loopPtr h h'
  case joined =>
    rw [hfunc]
    rw [adopt_owner] at h
    exact hs.joined h
  case failed =>
    rw [adopt_failed] at h
    rw [adopt_owner]
    exact hs.failed h

theorem Sound.adopt_step {step : LoopStep} (hs : s.Sound) (hinv : l.Inv)
    (hmay : s.mayStep (.loop step) = true) (hpc : s.loop.pc s.loop.threadId = .idle)
    (h : s.loop.loopNext step = some l) : (s.adopt l (.loop step)).Sound := by
  obtain ⟨threadId, _, owner_idle, loop_idle, func_idle, called, created, loopPtr, joined,
    failed⟩ := hs
  rw [threadId] at hpc
  rcases EventLoop.loopNext_cases h with ⟨rfl, hp, rfl⟩ | ⟨rfl, hp, rfl⟩ | ⟨_, rfl, hp, -, rfl⟩ |
    ⟨rfl, hp, rfl⟩ | ⟨rfl, hp, rfl⟩ | ⟨rfl, hp, rfl⟩ | ⟨_, _, rfl, hp, rfl⟩ | ⟨rfl, hp, rfl⟩ <;>
    refine ⟨threadId, hinv, owner_idle, fun _ => hpc, ?_, ?_, ?_, ?_, ?_, failed⟩ <;>
    simp_all [EventLoopThread.adopt, mayStep, EventLoopThread.loopPtr]

/-- Nobody calls a loop that is gone before the destructor does, but the owner. -/
theorem Sound.deadCall {b : LoopAction Party F} (hs : s.Sound) (hmay : s.mayStep b = true)
    (h : s.loop.next b = some l) (hfunc : s.func = .returned) : s.owner = .running := by
  have hidle : s.loop.phase = .idle := hs.func_idle (by simp [hfunc])
  rcases next_call hmay h with ⟨step, rfl, -, -⟩ | ⟨-, -, t, -, hcall, -, -⟩
  · cases step <;> simp [mayStep, hfunc] at hmay
  · cases t with
    | owner => exact (hs.may hcall).1 rfl
    | loopThread => exact absurd hidle ((hs.may hcall).2 rfl)

theorem Sound.step (hs : s.Sound) (hf : s.failed = none) (h : Step s a u) : u.Sound := by
  have hs' := hs
  obtain ⟨threadId, inv, owner_idle, loop_idle, func_idle, called, created, loopPtr, joined,
    failed⟩ := hs'
  cases h with
  | loop hmay hnext hfunc =>
    rcases next_call hmay hnext with ⟨step, rfl, hpc, hstep⟩ | ⟨h1, h2, t, h3, h4, h5, h6⟩
    · exact hs.adopt_step (hs.inv.next hnext) hmay hpc hstep
    · exact hs.adopt_call (hs.inv.next hnext) h1 h2 h3 h4 h5 h6
  | deadCall hmay hnext hfunc =>
    exact ⟨threadId, inv, owner_idle, loop_idle, func_idle, called, created, loopPtr, joined,
      fun _ => hs.deadCall hmay hnext hfunc⟩
  | startLoop howner =>
    refine ⟨threadId, inv, fun _ => owner_idle (by simp [howner]), loop_idle,
      fun _ => func_idle (by simp [created howner]), called, ?_, ?_, ?_, ?_⟩ <;> simp [hf]
  | publish hfunc =>
    refine ⟨threadId, inv, owner_idle, loop_idle, fun _ => func_idle (by simp [hfunc]), called,
      fun h => ?_, fun _ _ => rfl, fun h => ?_, failed⟩
    · simp [hfunc] at created
      exact absurd h created
    · have := joined h
      simp [hfunc] at this
  | startLoopReturn howner hptr =>
    refine ⟨threadId, inv, ?_, loop_idle, func_idle, called, ?_, fun _ _ => hptr, ?_, ?_⟩ <;> simp
  | register huser => exact ⟨threadId, inv, owner_idle, loop_idle, func_idle, called, created,
      loopPtr, joined, failed⟩
  | funcReturn hfunc hidle =>
    have hphase : s.loop.phase = .idle := by
      cases hp : s.loop.phase <;> simp [hp, LoopPhase.isIdle] at hidle
      rfl
    refine ⟨threadId, inv, owner_idle, loop_idle, fun _ => hphase, called, fun h => ?_,
      fun _ _ => rfl, fun _ => rfl, failed⟩
    have := created h
    simp [hfunc] at this
  | destroy howner hpc =>
    refine ⟨threadId, inv, fun _ => hpc, loop_idle, func_idle, called, ?_, fun _ _ => ?_, ?_, ?_⟩
    · simp
    · exact loopPtr (by simp [howner]) (by simp [howner])
    · simp
    · simp [hf]
  | join howner hfunc =>
    refine ⟨threadId, inv, fun _ => owner_idle (by simp [howner]), loop_idle, func_idle, called,
      ?_, fun _ _ => ?_, fun _ => hfunc, ?_⟩
    · simp
    · exact loopPtr (by simp [howner]) (by simp [howner])
    · simp [hf]
  | destructorQuit howner hnext hfunc => exact absurd (joined howner) hfunc
  | deadQuit howner hnext hfunc =>
    exact ⟨threadId, inv, owner_idle, loop_idle, func_idle, called, created, loopPtr, joined,
      by simp⟩

theorem sound_of_reachable (h : (eventLoopThreads F).Reachable s) : s.Sound := by
  refine h.invariant ?_ fun s a t hs hn => ?_
  · rintro s rfl
    refine ⟨rfl, EventLoop.new_inv _, fun _ => rfl, fun _ => rfl, fun _ => rfl, ?_, fun _ => rfl,
      ?_, ?_, ?_⟩ <;> simp [new]
  · obtain ⟨hf, hstep⟩ := next_step hn
    exact hs.step hf hstep

/-! ### Deadlock -/

/-- The destructor waits in `join` for a loop that is blocked in `epoll_wait` with `quit_` false,
and no functor or callback is left that might call `quit()`. -/
structure Deadlocked (s : EventLoopThread F) : Prop where
  owner : s.owner = .joining
  polling : s.loop.phase = .polling
  quit : s.loop.quit = false
  pendingFunctors : s.loop.pendingFunctors = []
  eventfd : s.loop.eventfd = 0
  callbacks : s.callbacks = false

/-- The same between two such states. -/
structure Stuck (s : EventLoopThread F) : Prop where
  owner : s.owner = .joining
  pc : s.loop.pc .owner = .idle ∧ s.loop.pc .loopThread = .idle
  phase : s.loop.phase ≠ .idle
  func : s.func = .looping
  quit : s.loop.quit = false
  pendingFunctors : s.loop.pendingFunctors = []
  rest : ∀ functions, s.loop.phase = .running functions → functions = []
  callbacks : s.callbacks = false
  called : s.called = false

theorem Stuck.userCode (hs : s.Stuck) : s.userCode = false := by
  unfold EventLoopThread.userCode
  split
  · exact hs.callbacks
  · exact hs.called
  · rfl

theorem Deadlocked.stuck (h : s.Deadlocked) (hs : s.Sound) : s.Stuck := by
  have hpolling := h.polling
  have hpc := hs.inv.loop_idle (by rw [hpolling]; rfl)
  rw [hs.threadId] at hpc
  refine ⟨h.owner, ⟨hs.owner_idle (by simp [h.owner]), hpc⟩, by simp [hpolling], ?_, h.quit,
    h.pendingFunctors, by simp [hpolling], h.callbacks, ?_⟩
  · by_contra hfunc
    rw [hs.func_idle hfunc] at hpolling
    cases hpolling
  · by_contra hcalled
    obtain ⟨functions, hrunning⟩ := hs.called (by simpa using hcalled)
    rw [hrunning] at hpolling
    cases hpolling

theorem Stuck.step (hs : s.Stuck) (h : Step s a u) : u.Stuck := by
  obtain ⟨owner, ⟨hpc, hpc'⟩, phase, func, quit, pending, rest, callbacks, called⟩ := hs
  cases h with
  | loop hmay hnext hfunc =>
    rcases next_call hmay hnext with ⟨step, rfl, -, hstep⟩ | ⟨-, -, t, -, hcall, -, -⟩
    · rcases EventLoop.loopNext_cases hstep with ⟨rfl, hp, rfl⟩ | ⟨rfl, hp, rfl⟩ |
        ⟨_, rfl, hp, -, rfl⟩ | ⟨rfl, hp, rfl⟩ | ⟨rfl, hp, rfl⟩ | ⟨rfl, hp, rfl⟩ |
        ⟨_, _, rfl, hp, rfl⟩ | ⟨rfl, hp, rfl⟩
      case inl => exact absurd hp phase
      case inr.inr.inr.inr.inr.inr.inl => exact absurd (rest _ hp) (by simp)
      all_goals
        refine ⟨owner, ⟨hpc, hpc'⟩, ?_, func, quit, ?_, ?_, callbacks, ?_⟩ <;>
          simp_all [EventLoopThread.adopt]
    · exfalso
      rcases hcall with hcall | hcall
      · cases t with
        | owner => simp [mayCall, owner] at hcall
        | loopThread =>
          rw [mayCall, Stuck.userCode ⟨owner, ⟨hpc, hpc'⟩, phase, func, quit, pending, rest,
            callbacks, called⟩] at hcall
          cases hcall
      · cases t with
        | owner => exact hcall hpc
        | loopThread => exact hcall hpc'
  | register huser =>
    rw [Stuck.userCode ⟨owner, ⟨hpc, hpc'⟩, phase, func, quit, pending, rest, callbacks,
      called⟩] at huser
    cases huser
  | funcReturn hfunc hidle =>
    cases hp : s.loop.phase <;> simp [hp, LoopPhase.isIdle] at hidle
    exact absurd hp phase
  | _ => simp_all

/-- A deadlock is for ever. -/
theorem Deadlocked.forever {run : List (Transition (EventLoopThread F) (ThreadAction F))}
    (h : s.Deadlocked) (hs : s.Sound) (hrun : (eventLoopThreads F).Steps s run u) :
    u.owner = .joining ∧ u.loop.quit = false := by
  have hu := hrun.invariant (I := Stuck) (C := fun _ => True) (h.stuck hs) (by simp)
    fun s a t hs _ hn => hs.step (next_step hn).2
  exact ⟨hu.owner, hu.quit⟩

/-! ### What follows a destructor -/

/-- No step is the call of the destructor. -/
def NoDestroy : ThreadAction F → Prop
  | .destroy => False
  | _ => True

/-- Neither a deadlock nor a call of `quit()` on a loop that is gone. -/
def Safe (s : EventLoopThread F) : Prop := ¬s.Deadlocked ∧ s.failed ≠ some .destructor

/-- The steps of the loop thread alone, as steps of the whole. -/
theorem exists_leads {t : Party} (hs : s.Sound) (hfailed : s.failed = none)
    (hfunc : s.func = .looping) (h : EventLoop.GoesOn t s.loop l) :
    ∃ u, (eventLoopThreads F).Leads NoDestroy s u ∧ u.loop = l ∧ u.owner = s.owner ∧
      u.func = .looping ∧ u.callbacks = s.callbacks ∧ u.failed = none := by
  have hleads := h.leads
  rw [hs.threadId] at hleads
  clear h
  induction hleads with
  | refl => exact ⟨s, .refl s, rfl, rfl, hfunc, rfl, hfailed⟩
  | @tail l l' _ hstep ih =>
    obtain ⟨b, hb, hn⟩ := hstep
    obtain ⟨u, hleads, rfl, howner, hlooping, hcallbacks, hf⟩ := ih
    have hmay : u.mayStep b = true ∧ (u.adopt l' b).func = u.func := by
      cases b with
      | loop step => cases step <;> simp_all [EventLoop.Inner, mayStep, adopt]
      | wakeup t => cases t <;> simp_all [EventLoop.Inner, mayStep, adopt]
      | decide t => simp [mayStep, adopt]
      | _ => exact hb.elim
    have hnext : (eventLoopThreads F).next u (.loop b) = some (u.adopt l' b) := by
      change u.loop.next b = some l' at hn
      simp [eventLoopThreads, next, hf, hmay.1, hn, hlooping]
    refine ⟨u.adopt l' b, hleads.trans (.single (a := .loop b) trivial hnext), ?_⟩
    simp [howner, hmay.2, hlooping, hcallbacks, hf]

theorem leads_step {a : ThreadAction F} (ha : NoDestroy a) (h : s.next a = some u) :
    (eventLoopThreads F).Leads NoDestroy s u := .single ha h

/-- When `ThreadFunc` has returned, the destructor goes on to call the loop that is gone. -/
theorem leads_unsafe_of_returned (hs : s.Sound) (hfailed : s.failed = none)
    (howner : s.owner = .joining ∨ s.owner = .joined) (hfunc : s.func = .returned) :
    ∃ u, (eventLoopThreads F).Leads NoDestroy s u ∧ ¬u.Safe := by
  have hpc : s.loop.pc .owner = .idle := by
    refine hs.owner_idle ?_
    rcases howner with h | h <;> simp [h]
  have hquit : ∃ l, s.loop.next (.quit .owner) = some l := by
    have hthread := hs.threadId
    simp [EventLoop.next, EventLoop.MayCall, hpc, hthread]
  obtain ⟨l, hl⟩ := hquit
  have hdead : ∀ v : EventLoopThread F, v.owner = .joined → v.failed = none →
      v.func = .returned → v.loop = s.loop →
        ∃ u, (eventLoopThreads F).Leads NoDestroy v u ∧ ¬u.Safe := by
    intro v h1 h2 h3 h4
    refine ⟨{ v with failed := some .destructor }, leads_step (a := .destructorQuit) trivial ?_,
      fun hsafe => hsafe.2 rfl⟩
    simp [next, h1, h2, h3, h4, hl]
  rcases howner with howner | howner
  · obtain ⟨u, hu, hunsafe⟩ := hdead { s with owner := .joined } rfl hfailed hfunc rfl
    refine ⟨u, .trans (leads_step (a := .join) trivial ?_) hu, hunsafe⟩
    simp [next, hfailed, howner, hfunc]
  · exact hdead s howner hfailed hfunc rfl

theorem Sound.leads (hs : s.Sound) (h : (eventLoopThreads F).Leads NoDestroy s u) : u.Sound := by
  obtain ⟨run, hrun, -⟩ := h.exists_steps
  refine hrun.invariant (I := Sound) (C := fun _ => True) hs (by simp) fun s a t hs _ hn => ?_
  obtain ⟨hf, hstep⟩ := next_step hn
  exact hs.step hf hstep

/-- From the test of `quit_` on, when it is true. -/
theorem leads_unsafe_of_quit (hs : s.Sound) (hfailed : s.failed = none)
    (howner : s.owner = .joining) (hfunc : s.func = .looping) (hphase : s.loop.phase = .test)
    (hquit : s.loop.quit = true) : ∃ u, (eventLoopThreads F).Leads NoDestroy s u ∧ ¬u.Safe := by
  have hpc := hs.inv.loop_idle (by rw [hphase]; rfl)
  have htest : (eventLoopThreads F).Leads NoDestroy s
      { s with loop := { s.loop with phase := .idle } } := by
    refine leads_step (a := .loop (.loop .test)) trivial ?_
    simp [next, hfailed, mayStep, hfunc, EventLoop.next, hpc, EventLoop.loopNext, hphase, hquit,
      adopt]
  have hreturn : (eventLoopThreads F).Leads NoDestroy
      { s with loop := { s.loop with phase := .idle } }
      { s with loop := { s.loop with phase := .idle }, func := .returned } := by
    refine leads_step (a := .funcReturn) trivial ?_
    simp [next, hfailed, hfunc, LoopPhase.isIdle]
  have hleads := htest.trans hreturn
  obtain ⟨u, hu, hunsafe⟩ := leads_unsafe_of_returned (hs.leads hleads) hfailed (.inl howner) rfl
  exact ⟨u, hleads.trans hu, hunsafe⟩

/-- From the test of `quit_` on: a callback may call `quit()`, and without one the loop goes round
once and is blocked. -/
theorem leads_unsafe_of_test (hs : s.Sound) (hfailed : s.failed = none)
    (howner : s.owner = .joining) (hfunc : s.func = .looping) (hphase : s.loop.phase = .test) :
    ∃ u, (eventLoopThreads F).Leads NoDestroy s u ∧ ¬u.Safe := by
  have htest : ∀ v : EventLoopThread F, v.Sound → v.failed = none → v.func = .looping →
      v.loop.phase = .test → v.loop.quit = false → (eventLoopThreads F).Leads NoDestroy v
        { v with loop := { v.loop with phase := .polling } } := by
    intro v hv hf h1 h2 h3
    have hpc := hv.inv.loop_idle (by rw [h2]; rfl)
    refine leads_step (a := .loop (.loop .test)) trivial ?_
    simp [next, hf, mayStep, h1, EventLoop.next, hpc, EventLoop.loopNext, h2, h3, adopt]
  cases hquit : s.loop.quit with
  | true => exact leads_unsafe_of_quit hs hfailed howner hfunc hphase hquit
  | false =>
    have hpolling := htest s hs hfailed hfunc hphase hquit
    have hs' := hs.leads hpolling
    have hpc : s.loop.pc s.loop.threadId = .idle := hs.inv.loop_idle (by rw [hphase]; rfl)
    cases hcallbacks : s.callbacks with
    | false =>
      obtain ⟨l, hl, h1, h2, h3⟩ := EventLoop.exists_polling_end (t := Party.loopThread)
        (s := { s.loop with phase := .polling }) rfl hpc
      obtain ⟨u, hu, rfl, h4, h5, h6, h7⟩ := exists_leads hs' hfailed hfunc hl
      have hblocked := htest u (hs'.leads hu) h7 h5 h1 (hl.quit.trans hquit)
      refine ⟨_, hpolling.trans (hu.trans hblocked), fun hsafe => hsafe.1 ?_⟩
      exact ⟨h4.trans howner, rfl, hl.quit.trans hquit, h2, h3, h6.trans hcallbacks⟩
    | true =>
      have hreturn : (eventLoopThreads F).Leads NoDestroy
          { s with loop := { s.loop with phase := .polling } }
          { s with loop := { s.loop with phase := .handling false } } := by
        refine leads_step (a := .loop (.loop (.pollReturn false))) trivial ?_
        simp [next, hfailed, mayStep, hfunc, EventLoop.next, hpc, EventLoop.loopNext, adopt]
      -- a handler calls `quit()`
      obtain ⟨l, hl, hquit', hhandling, hpc'⟩ : ∃ l, EventLoop.next
          { s.loop with phase := .handling false } (.quit .loopThread) = some l ∧
            l.quit = true ∧ l.phase = .handling false ∧ l.pc l.threadId = .idle := by
        have hpc' : s.loop.pc .loopThread = .idle := hs.threadId ▸ hpc
        simp [EventLoop.next, EventLoop.MayCall, EventLoop.isInLoopThread, EventLoop.setPc,
          LoopPhase.userCode, hpc', hs.threadId]
      have hcall : (eventLoopThreads F).Leads NoDestroy
          { s with loop := { s.loop with phase := .handling false } }
          (adopt { s with loop := { s.loop with phase := .handling false } } l
            (.quit .loopThread)) := by
        refine leads_step (a := .loop (.quit .loopThread)) trivial ?_
        simp [next, hfailed, mayStep, mayCall, userCode, hcallbacks, hfunc, hl]
      have hleads := hpolling.trans (hreturn.trans hcall)
      have hs'' := hs.leads hleads
      obtain ⟨l', hl', h1, -⟩ :=
        EventLoop.exists_handling_end (t := Party.loopThread) hhandling hpc'
      obtain ⟨u, hu, rfl, h4, h5, h6, h7⟩ := exists_leads hs'' (by simp [hfailed])
        (by simp [adopt, hfunc]) (by rw [adopt_loop]; exact hl')
      obtain ⟨w, hw, hunsafe⟩ := leads_unsafe_of_quit (hs''.leads hu) h7
        (h4.trans (by simp [howner])) h5 h1 (hl'.quit.trans hquit')
      exact ⟨w, hleads.trans (hu.trans hw), hunsafe⟩

/-- **Nothing good follows the destructor.** Once it has been called, the threads can go on to a
deadlock or to a call of a loop that is gone. -/
theorem leads_unsafe (hs : s.Sound) (howner : s.owner = .joining ∨ s.owner = .joined) :
    ∃ u, (eventLoopThreads F).Leads NoDestroy s u ∧ ¬u.Safe := by
  by_cases hfailed : s.failed = none
  · by_cases hfunc : s.func = .returned
    · exact leads_unsafe_of_returned hs hfailed howner hfunc
    · have howner : s.owner = .joining :=
        howner.resolve_right fun h => hfunc (hs.joined h)
      have hptr := hs.loopPtr (by simp [howner]) (by simp [howner])
      cases hf : s.func with
      | notStarted => simp [EventLoopThread.loopPtr, hf] at hptr
      | constructed => simp [EventLoopThread.loopPtr, hf] at hptr
      | returned => exact absurd hf hfunc
      | published =>
        have hidle : s.loop.phase = .idle := hs.func_idle (by simp [hf])
        have hpc : s.loop.pc s.loop.threadId = .idle := hs.threadId ▸ hs.loop_idle hidle
        have hstart : (eventLoopThreads F).Leads NoDestroy s
            { s with loop := { s.loop with phase := .test, quit := false }, func := .looping } := by
          refine leads_step (a := .loop (.loop .start)) trivial ?_
          simp [next, hfailed, mayStep, hf, EventLoop.next, hpc, EventLoop.loopNext, hidle, adopt]
        obtain ⟨u, hu, hunsafe⟩ :=
          leads_unsafe_of_test (hs.leads hstart) hfailed howner rfl rfl
        exact ⟨u, hstart.trans hu, hunsafe⟩
      | looping =>
        by_cases hidle : s.loop.phase = .idle
        · have hreturn : (eventLoopThreads F).Leads NoDestroy s { s with func := .returned } := by
            refine leads_step (a := .funcReturn) trivial ?_
            simp [next, hfailed, hf, hidle, LoopPhase.isIdle]
          obtain ⟨u, hu, hunsafe⟩ :=
            leads_unsafe_of_returned (hs.leads hreturn) hfailed (.inl howner) rfl
          exact ⟨u, hreturn.trans hu, hunsafe⟩
        · obtain ⟨l, hl, htest⟩ := EventLoop.exists_test (t := Party.loopThread) hs.inv hidle
          obtain ⟨u, hu, rfl, h4, h5, h6, h7⟩ := exists_leads hs hfailed hf hl
          obtain ⟨w, hw, hunsafe⟩ :=
            leads_unsafe_of_test (hs.leads hu) h7 (h4.trans howner) h5 htest
          exact ⟨w, hu.trans hw, hunsafe⟩
  · cases hdead : s.failed with
    | none => exact absurd hdead hfailed
    | some d =>
      cases d with
      | user =>
        have hrunning := hs.failed hdead
        rcases howner with h | h <;> simp [hrunning] at h
      | destructor => exact ⟨s, .refl s, fun hsafe => hsafe.2 hdead⟩

/-! ### Runs with and without a destructor -/

/-- The destructor has been called. -/
def Destroying (s : EventLoopThread F) : Prop := s.owner = .joining ∨ s.owner = .joined

theorem Destroying.step (hs : s.Destroying) (h : Step s a u) : u.Destroying := by
  unfold Destroying at hs ⊢
  cases h <;> simp_all

/-- The destructor has not been called. -/
structure Alive (s : EventLoopThread F) : Prop where
  owner : ¬s.Destroying
  failed : s.failed ≠ some .destructor

theorem Alive.step (hs : s.Alive) (ha : NoDestroy a) (h : Step s a u) : u.Alive := by
  obtain ⟨h1, h2⟩ := hs
  unfold Destroying at h1
  cases h with
  | destroy howner hpc => exact ha.elim
  | join howner hfunc => exact absurd (.inl howner) h1
  | deadQuit howner hnext hfunc => exact absurd (.inr howner) h1
  | _ =>
    constructor
    · simp_all [Destroying]
    · simp_all

theorem Alive.safe (hs : s.Alive) : s.Safe :=
  ⟨fun h => hs.owner (.inl h.owner), hs.failed⟩

/-- A run with a call of the destructor. -/
theorem destroying_of_destroy {run : List (Transition (EventLoopThread F) (ThreadAction F))}
    (h : (eventLoopThreads F).Steps s run u) (hrun : ∃ e ∈ run, ¬NoDestroy e.action) :
    u.Destroying := by
  induction h with
  | nil => simp at hrun
  | @cons s t u a run hn hrest ih =>
    by_cases ha : NoDestroy a
    · refine ih ?_
      obtain ⟨e, he, hd⟩ := hrun
      rcases List.mem_cons.1 he with rfl | he
      · exact absurd ha hd
      · exact ⟨e, he, hd⟩
    · have hstep := (next_step hn).2
      have ht : t.Destroying := by
        cases hstep with
        | destroy howner hpc => exact .inl rfl
        | _ => exact absurd trivial ha
      exact hrest.invariant (I := Destroying) (C := fun _ => True) ht (by simp)
        fun s a t hs _ hn => hs.step (next_step hn).2

end EventLoopThread

/-- **When an `EventLoopThread` is safe.** No state of a run, and none that can follow as long as
the destructor is not called, is a deadlock or comes after a call of `quit()` on a loop that is
gone, exactly if the run does not call the destructor. -/
theorem thread_safe_iff {F : Type*} {s t : EventLoopThread F}
    {run : List (Transition (EventLoopThread F) (ThreadAction F))}
    (h0 : (eventLoopThreads F).init s) (h : (eventLoopThreads F).Steps s run t) :
    ((∀ e ∈ run, e.target.Safe) ∧ ∀ run' u, (eventLoopThreads F).Steps t run' u →
      (∀ e ∈ run', EventLoopThread.NoDestroy e.action) → u.Safe) ↔
        ∀ e ∈ run, EventLoopThread.NoDestroy e.action := by
  have hinit : s.Alive := by
    obtain rfl : s = .new := h0
    exact ⟨by simp [EventLoopThread.Destroying, EventLoopThread.new],
      by simp [EventLoopThread.new]⟩
  constructor
  · rintro ⟨-, hsafe⟩
    by_contra hdestroy
    push Not at hdestroy
    have hreach := h.reachable (.init h0)
    have ht := EventLoopThread.destroying_of_destroy h hdestroy
    obtain ⟨u, hleads, hunsafe⟩ :=
      EventLoopThread.leads_unsafe (EventLoopThread.sound_of_reachable hreach) ht
    obtain ⟨run', hrun', hno⟩ := hleads.exists_steps
    exact hunsafe (hsafe run' u hrun' hno)
  · intro hrun
    have hstep : ∀ (v : EventLoopThread F) (a : ThreadAction F) (w : EventLoopThread F), v.Alive →
        EventLoopThread.NoDestroy a → (eventLoopThreads F).next v a = some w → w.Alive :=
      fun v a w hv ha hn => hv.step ha (EventLoopThread.next_step hn).2
    have ht : t.Alive := h.invariant (C := fun e => EventLoopThread.NoDestroy e.action) hinit hrun
      fun v a w hv ha hn => hstep v a w hv ha hn
    refine ⟨h.forall_of_invariant (C := fun e => EventLoopThread.NoDestroy e.action) hinit hrun
      fun v a w hv ha hn => ⟨hstep v a w hv ha hn, (hstep v a w hv ha hn).safe⟩,
      fun run' u hrun' hno => ?_⟩
    have hu : u.Alive := hrun'.invariant (C := fun e => EventLoopThread.NoDestroy e.action) ht hno
      fun v a w hv ha hn => hstep v a w hv ha hn
    exact hu.safe

/-- An `EventLoopThread` that is started and left running is safe. -/
theorem thread_safe_while_running : ∃ (t : EventLoopThread Unit) (run : List _),
    (eventLoopThreads Unit).Steps .new run t ∧ t.loop.phase.isPolling = true ∧
      ∀ e ∈ run, e.target.Safe := by
  obtain ⟨t, ht, hend⟩ := Option.map_eq_some_iff.1 (by decide +kernel :
    (((eventLoopThreads Unit).run .new [.startLoop, .publish, .startLoopReturn,
      .loop (.loop .start), .loop (.loop .test)]).map fun t => t.loop.phase.isPolling) =
        some true)
  obtain ⟨run, hrun, hstays⟩ := LTS.exists_steps_forall (P := EventLoopThread.NoDestroy) ht (by
    simp only [List.forall_mem_cons, List.not_mem_nil, false_implies, implies_true, and_true]
    exact ⟨trivial, trivial, trivial, trivial, trivial⟩)
  exact ⟨t, run, hrun, hend, ((thread_safe_iff rfl hrun).2 hstays).1⟩

/-- Without a call of `quit()` the destructor waits for ever; after one it calls `quit()` on a loop
that is gone. -/
theorem destructor_hangs_or_misuses :
    (∃ s : EventLoopThread Unit, (eventLoopThreads Unit).Reachable s ∧ s.Deadlocked ∧
      ∀ run t, (eventLoopThreads Unit).Steps s run t → t.owner = .joining) ∧
    ∃ s : EventLoopThread Unit, (eventLoopThreads Unit).Reachable s ∧ s.quitReturned = true ∧
      s.failed = some .destructor := by
  constructor
  · obtain ⟨s, hs⟩ := Option.isSome_iff_exists.1 (by decide +kernel :
      ((eventLoopThreads Unit).run .new [.startLoop, .publish, .startLoopReturn,
        .loop (.loop .start), .loop (.loop .test), .destroy]).isSome = true)
    have hend : (((eventLoopThreads Unit).run .new [.startLoop, .publish, .startLoopReturn,
        .loop (.loop .start), .loop (.loop .test), .destroy]).map fun s =>
          (s.owner, s.loop.phase.isPolling, s.loop.quit, s.loop.pendingFunctors.isEmpty,
            s.loop.eventfd, s.callbacks)) = some (.joining, true, false, true, 0, false) := by
      decide +kernel
    rw [hs] at hend
    simp only [Option.map_some, Option.some.injEq, Prod.mk.injEq] at hend
    obtain ⟨h1, h2, h3, h4, h5, h6⟩ := hend
    have hreach : (eventLoopThreads Unit).Reachable s := .of_run (.init rfl) _ hs
    have hphase : s.loop.phase = .polling := by
      cases hp : s.loop.phase <;> simp [hp, LoopPhase.isPolling] at h2
      rfl
    have hdead : s.Deadlocked := ⟨h1, hphase, h3, List.isEmpty_iff.1 h4, h5, h6⟩
    exact ⟨s, hreach, hdead, fun run t hrun =>
      (hdead.forever (EventLoopThread.sound_of_reachable hreach) hrun).1⟩
  · obtain ⟨s, hs, hend⟩ := Option.map_eq_some_iff.1 (by decide +kernel :
      (((eventLoopThreads Unit).run .new [.startLoop, .publish, .startLoopReturn,
        .loop (.loop .start), .loop (.quit .owner), .loop (.wakeup .owner), .loop (.loop .test),
        .funcReturn, .destroy, .join, .destructorQuit]).map fun s =>
          (s.quitReturned, s.failed)) = some (true, some .destructor))
    obtain ⟨h1, h2⟩ := Prod.mk.inj hend
    exact ⟨s, .of_run (.init rfl) _ hs, h1, h2⟩

end Jiangbo
