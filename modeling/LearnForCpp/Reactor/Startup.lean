import LearnForCpp.Reactor.Epoller
import LearnForCpp.Logging.LogStatement

/-!
# Start-up

The system calls of `EventLoop::EventLoop`, of `TcpServer::TcpServer` and of `TcpServer::start`, in
their order: `eventfd`, `epoll_create`, `timerfd_create` and `epoll_ctl` for the base loop, `socket`
and `bind` for the acceptor, the loops of the pool's threads, and `listen`.

Every step is one statement, and its action has what the system call of the statement returns and
what a log statement would get from the system.  `setsockopt`, whose result is not looked at, is
left out.  A failed `eventfd` and a second loop in a thread abort the process.  The other failures
end in `LOG_SYSFATAL`, which does not, or, for `timerfd_create`, in a comparison of the function's
address.
-/

namespace Jiangbo

/-- The channels of the start-up. -/
inductive StartupChannel
  | timer
  | wakeup
  | accept
  deriving DecidableEq

/-- The statement that a start-up executes next. -/
inductive StartupPc
  /-- `eventfd_create`. -/
  | eventfdCreate
  /-- `Epoller::Epoller`. -/
  | epoller
  /-- `createtimerfd`. -/
  | createtimerfd
  /-- `LOG_TRACE` in `Epoller::updateChannelMap`, for the `enableReading` of a channel. -/
  | updateChannelMap (channel : StartupChannel)
  /-- `Epoller::epollAdd`. -/
  | epollAdd (channel : StartupChannel)
  /-- `LOG_TRACE` in the body of `EventLoop::EventLoop`. -/
  | created
  /-- The test of `t_thisThreadEventLoop`. -/
  | thisThread
  /-- `EventLoop::EventLoop` returns. -/
  | ready
  /-- `socketops::createNonblockingOrDie`. -/
  | createNonblockingOrDie
  /-- `socketops::bindOrDie`. -/
  | bindOrDie
  /-- `EventLoopThreadPool::start`. -/
  | poolStart
  /-- `Acceptor::listen` behind `enableReading`: `listenning_` and `socketops::listenOrDie`. -/
  | listenOrDie
  /-- `Acceptor::listen` has returned. -/
  | done
  deriving DecidableEq

/-- An `EventLoop`; a descriptor is there when it has been created. -/
structure LoopFds where
  wakeupfd : Option Int32
  epfd : Option Int32
  timerfd : Option Int32
  epoller : Epoller StartupChannel

/-- A thread with its loop. -/
structure LoopThread where
  log : LogThread
  loop : LoopFds
  /-- `t_thisThreadEventLoop` is not null. -/
  thisThreadEventLoop : Bool

structure Startup where
  pc : StartupPc
  main : LoopThread
  /-- The thread of the pool whose loop is being built; `main` waits for it in `startLoop`. -/
  worker : Option LoopThread
  /-- The threads of the pool whose loops are ready. -/
  pool : List LoopThread
  /-- How many threads the pool has still to start. -/
  numThreads : ℕ
  /-- `g_logLevel`. -/
  logLevel : LogLevel
  /-- The address of the function `timerfd_create`. -/
  timerfdCreate : UInt64
  /-- `acceptSocket_.fd()`. -/
  acceptfd : Option Int32
  /-- What `bind` returned. -/
  bound : Option Int32
  /-- What `listen` returned. -/
  listened : Option Int32
  /-- `listenning_`. -/
  listenning : Bool
  aborted : Bool

inductive StartupAction
  /-- The next statement, with the result of its system call and the address `this`. -/
  | step (ret : Int32) (this : UInt64) (site : LogSite)
  /-- The pool starts a thread. -/
  | spawn (tid : Int32) (pos : 0 < tid.toInt)

namespace LoopFds

/-- A loop before its constructor. -/
def new : LoopFds := ⟨none, none, none, ⟨fun _ => none, fun _ => none⟩⟩

/-- The constructor is past its system calls. -/
structure Built (l : LoopFds) : Prop where
  wakeupfd : l.wakeupfd.isSome
  epfd : l.epfd.isSome
  timerfd : l.timerfd.isSome

end LoopFds

/-- A thread that has not logged and has no loop. -/
def LoopThread.new (tid : Int32) : LoopThread := ⟨.new tid, .new, false⟩

namespace Startup

/-- A process before its first `EventLoop`; `other` says whether the thread has a loop already. -/
def new (tid : Int32) (other : Bool) (numThreads : ℕ) (logLevel : LogLevel)
    (timerfdCreate : UInt64) : Startup where
  pc := .eventfdCreate
  main := { LoopThread.new tid with thisThreadEventLoop := other }
  worker := none
  pool := []
  numThreads := numThreads
  logLevel := logLevel
  timerfdCreate := timerfdCreate
  acceptfd := none
  bound := none
  listened := none
  listenning := false
  aborted := false

/-- The thread that is running. -/
def current (s : Startup) : LoopThread := s.worker.getD s.main

def modify (f : LoopThread → LoopThread) (s : Startup) : Startup :=
  match s.worker with
  | none => { s with main := f s.main }
  | some worker => { s with worker := some (f worker) }

def setLoop (f : LoopFds → LoopFds) : Startup → Startup :=
  modify fun th => { th with loop := f th.loop }

def goto (p : StartupPc) (s : Startup) : Startup := { s with pc := p }

def abort (s : Startup) : Startup := { s with aborted := true }

/-- A log statement of the running thread. -/
def log (m : LogMacro) (items : List Item) (site : LogSite) (s : Startup) : Startup :=
  if m.enabled s.logLevel then
    match s.current.log.log m items site with
    | none => s.abort
    | some log => s.modify fun th => { th with log := log }
  else s

/-- The descriptor of a channel. -/
def channelFd (s : Startup) : StartupChannel → Option Int32
  | .timer => s.current.loop.timerfd
  | .wakeup => s.current.loop.wakeupfd
  | .accept => s.acceptfd

/-- The channel in `enableReading`, before it is registered. -/
def channel (fd : Int32) : Channel :=
  { Channel.new fd.toInt false with events := Channel.kNoneEvent ||| Channel.kReadEvent }

/-- The statement behind the registration of a channel. -/
def afterEpollAdd : StartupChannel → StartupPc
  | .timer => .created
  | .wakeup => .ready
  | .accept => .listenOrDie

/-- `Epoller::epollAdd`. -/
def epollAdd (c : StartupChannel) (fd ret : Int32) (site : LogSite) (s : Startup) : Startup :=
  match (Registration.mk s.current.loop.epoller (channel fd)).updateChannelMap c (ret = 0) with
  | .fault _ _ => s.abort
  | .ok r =>
      let s := (s.setLoop fun l => { l with epoller := r.epoller }).goto (afterEpollAdd c)
      if ret = 0 then s
      else s.log .syserr [.cstr (ascii "epoll_ctl op = EPOLL_CTL_ADD"), .int fd] site

/-- The next statement. -/
def advance (ret : Int32) (this : UInt64) (site : LogSite) (s : Startup) : Option Startup :=
  match s.pc with
  | .eventfdCreate =>
      some (if ret < 0 then s.abort
        else (s.setLoop fun l => { l with wakeupfd := some ret }).goto .epoller)
  | .epoller =>
      let s := (s.setLoop fun l => { l with epfd := some ret }).goto .createtimerfd
      some (if ret < 0 then s.log .sysfatal [.cstr (ascii "EPoller::EPoller")] site else s)
  | .createtimerfd =>
      let s := (s.setLoop fun l => { l with timerfd := some ret }).goto (.updateChannelMap .timer)
      -- the comparison is with the function, not with its result
      some (if s.timerfdCreate < 0 then
        s.log .sysfatal [.cstr (ascii "Failed in timerfd_create")] site else s)
  | .updateChannelMap c =>
      (s.channelFd c).map fun fd =>
        (s.goto (.epollAdd c)).log (.trace (ascii "updateChannelMap"))
          [.cstr (ascii "fd = "), .int fd, .cstr (ascii " events = "),
            .unsignedInt ⟨(channel fd).events⟩] site
  | .epollAdd c => (s.channelFd c).map fun fd => s.epollAdd c fd ret site
  | .created =>
      some ((s.goto .thisThread).log (.trace (ascii "EventLoop"))
        [.cstr (ascii "EventLoop created "), .pointer this, .cstr (ascii " in thread "),
          .int s.current.log.tid] site)
  | .thisThread =>
      some (if s.current.thisThreadEventLoop then
        (s.goto (.updateChannelMap .wakeup)).log .fatal [.cstr (ascii "Another EventLoop "),
          .pointer this, .cstr (ascii " exists in this thread "), .int s.current.log.tid] site
      else (s.modify fun th => { th with thisThreadEventLoop := true }).goto
        (.updateChannelMap .wakeup))
  | .ready =>
      match s.worker with
      | none => some (s.goto .createNonblockingOrDie)
      | some worker =>
          some { s with worker := none, pool := worker :: s.pool, pc := .poolStart }
  | .createNonblockingOrDie =>
      let s := { s with acceptfd := some ret, pc := .bindOrDie }
      some (if ret < 0 then
        s.log .sysfatal [.cstr (ascii "sockets::createNonblockingOrDie")] site else s)
  | .bindOrDie =>
      let s := { s with bound := some ret, pc := .poolStart }
      some (if ret < 0 then s.log .sysfatal [.cstr (ascii "sockets::bindOrDie")] site else s)
  | .poolStart =>
      if s.numThreads = 0 then some (s.goto (.updateChannelMap .accept)) else none
  | .listenOrDie =>
      let s := { s with listenning := true, listened := some ret, pc := .done }
      some (if ret < 0 then s.log .sysfatal [.cstr (ascii "sockets::listenOrDie")] site else s)
  | .done => none

/-- The pool starts a thread, which builds its loop. -/
def spawn (tid : Int32) (s : Startup) : Option Startup :=
  match s.pc, s.numThreads with
  | .poolStart, n + 1 =>
      some { s with numThreads := n, worker := some (.new tid), pc := .eventfdCreate }
  | _, _ => none

/-- One step. -/
def next (s : Startup) (a : StartupAction) : Option Startup :=
  if s.aborted then none
  else
    match a with
    | .step ret this site => s.advance ret this site
    | .spawn tid _ => s.spawn tid

end Startup

/-- The start-ups of a process. -/
def startups : LTS Startup StartupAction where
  init s := ∃ tid other numThreads logLevel timerfdCreate, 0 < tid.toInt ∧
    s = .new tid other numThreads logLevel timerfdCreate
  next := Startup.next

/-! ### What has been created -/

namespace StartupPc

/-- What the loop of the running thread has before the statement. -/
def Has (l : LoopFds) : StartupPc → Prop
  | .eventfdCreate => True
  | .epoller => l.wakeupfd.isSome
  | .createtimerfd => l.wakeupfd.isSome ∧ l.epfd.isSome
  | _ => l.Built

/-- The statement comes after `createNonblockingOrDie`. -/
def HasSocket : StartupPc → Prop
  | .bindOrDie | .poolStart | .updateChannelMap .accept | .epollAdd .accept | .listenOrDie
  | .done => True
  | _ => False

end StartupPc

namespace Startup

variable {s t : Startup} {f : LoopThread → LoopThread} {p : StartupPc} {ret : Int32} {this : UInt64}
  {site : LogSite} {c : StartupChannel}

theorem current_of_none (h : s.worker = none) : s.current = s.main := by
  rw [current, h, Option.getD_none]

theorem current_of_some {worker : LoopThread} (h : s.worker = some worker) :
    s.current = worker := by
  rw [current, h, Option.getD_some]

theorem modify_of_none (h : s.worker = none) : s.modify f = { s with main := f s.main } := by
  simp only [modify, h]

theorem modify_of_some {worker : LoopThread} (h : s.worker = some worker) :
    s.modify f = { s with worker := some (f worker) } := by
  simp only [modify, h]

theorem modify_current (f : LoopThread → LoopThread) (s : Startup) :
    (s.modify f).current = f s.current := by
  cases hw : s.worker with
  | none =>
    rw [modify_of_none hw, current_of_none hw]
    exact current_of_none hw
  | some worker =>
    rw [modify_of_some hw, current_of_some hw]
    exact current_of_some rfl

theorem modify_aborted (f : LoopThread → LoopThread) (s : Startup) :
    (s.modify f).aborted = s.aborted := by
  unfold modify
  split <;> rfl

theorem modify_pc (f : LoopThread → LoopThread) (s : Startup) : (s.modify f).pc = s.pc := by
  unfold modify
  split <;> rfl

/-- A log statement changes the variables of its thread, or aborts the process. -/
theorem log_cases (m : LogMacro) (items : List Item) (site : LogSite) (s : Startup) :
    s.log m items site = s ∨ s.log m items site = s.abort ∨
      ∃ log, s.log m items site = s.modify fun th => { th with log := log } := by
  unfold log
  split_ifs
  · split
    · exact .inr (.inl rfl)
    · exact .inr (.inr ⟨_, rfl⟩)
  · exact .inl rfl

/-- Every descriptor that should be there is there. -/
structure Created (s : Startup) : Prop where
  running : s.pc.Has s.current.loop
  main : s.worker ≠ none → s.main.loop.Built
  pool : ∀ th ∈ s.pool, th.loop.Built
  acceptfd : s.pc.HasSocket ∨ s.worker ≠ none → s.acceptfd.isSome

theorem Created.goto (hs : s.Created) (hp : p.Has s.current.loop)
    (hsocket : p.HasSocket → s.pc.HasSocket) : (s.goto p).Created :=
  ⟨hp, hs.main, hs.pool, fun h => hs.acceptfd (h.imp_left hsocket)⟩

theorem Created.abort (hs : s.Created) : s.abort.Created :=
  ⟨hs.running, hs.main, hs.pool, hs.acceptfd⟩

theorem Created.modify (hs : s.Created) (hf : s.pc.Has (f s.current).loop) :
    (s.modify f).Created := by
  have hrunning : (s.modify f).pc.Has (s.modify f).current.loop := by
    rw [modify_current, modify_pc]
    exact hf
  cases hw : s.worker with
  | none =>
    rw [modify_of_none hw] at hrunning ⊢
    exact ⟨hrunning, fun h => absurd hw h, hs.pool, hs.acceptfd⟩
  | some worker =>
    rw [modify_of_some hw] at hrunning ⊢
    have hne : s.worker ≠ none := by simp [hw]
    exact ⟨hrunning, fun _ => hs.main hne, hs.pool, fun _ => hs.acceptfd (.inr hne)⟩

theorem Created.log (hs : s.Created) (m : LogMacro) (items : List Item) (site : LogSite) :
    (s.log m items site).Created := by
  rcases log_cases m items site s with h | h | ⟨log, h⟩
  · rw [h]
    exact hs
  · rw [h]
    exact hs.abort
  · rw [h]
    exact hs.modify hs.running

theorem Created.ite_log (hs : s.Created) {P : Prop} [Decidable P] {m : LogMacro}
    {items : List Item} : (if P then s.log m items site else s).Created := by
  split_ifs
  · exact hs.log m items site
  · exact hs

/-- A new value of a descriptor, and the next statement. -/
theorem Created.setLoop {g : LoopFds → LoopFds} (hs : s.Created)
    (hg : s.pc.Has (g s.current.loop)) (hp : p.Has (g s.current.loop))
    (hsocket : p.HasSocket → s.pc.HasSocket) : ((s.setLoop g).goto p).Created := by
  have hcurrent : (s.setLoop g).current.loop = g s.current.loop := by
    rw [Startup.setLoop, modify_current]
  have hpc : (s.setLoop g).pc = s.pc := modify_pc _ s
  exact (hs.modify hg).goto (hcurrent ▸ hp) (hpc ▸ hsocket)

theorem Created.advance (hs : s.Created) (hn : s.advance ret this site = some t) : t.Created := by
  have hrunning := hs.running
  unfold Startup.advance at hn
  cases hpc : s.pc with
  | eventfdCreate =>
    rw [hpc] at hn hrunning
    obtain rfl := Option.some.inj hn
    split_ifs
    · exact hs.abort
    -- the descriptor is stored; an error has been taken by the branch above
    · exact hs.setLoop (by rw [hpc]; trivial) rfl nofun
  | epoller =>
    rw [hpc] at hn hrunning
    obtain rfl := Option.some.inj hn
    -- a negative descriptor is stored as well, and then logged
    have hloop : ((s.setLoop fun l => { l with epfd := some ret }).goto .createtimerfd).Created :=
      hs.setLoop (by rw [hpc]; exact hrunning) ⟨hrunning, rfl⟩ nofun
    exact hloop.ite_log
  | createtimerfd =>
    rw [hpc] at hn hrunning
    obtain rfl := Option.some.inj hn
    have hloop : ((s.setLoop fun l => { l with timerfd := some ret }).goto
        (.updateChannelMap .timer)).Created :=
      hs.setLoop (by rw [hpc]; exact hrunning) ⟨hrunning.1, hrunning.2, rfl⟩ nofun
    exact hloop.ite_log
  | updateChannelMap c =>
    rw [hpc] at hn hrunning
    obtain ⟨fd, -, rfl⟩ := Option.map_eq_some_iff.1 hn
    refine (hs.goto (p := .epollAdd c) hrunning fun h => ?_).log _ _ _
    rw [hpc]
    cases c <;> exact h
  | epollAdd c =>
    rw [hpc] at hn hrunning
    obtain ⟨fd, -, rfl⟩ := Option.map_eq_some_iff.1 hn
    unfold epollAdd
    split
    · exact hs.abort
    · rename_i r hr
      -- the records of the epoller change, the descriptors of the loop do not
      have hbuilt : { s.current.loop with epoller := r.epoller }.Built :=
        ⟨hrunning.wakeupfd, hrunning.epfd, hrunning.timerfd⟩
      have hloop : ((s.setLoop fun l => { l with epoller := r.epoller }).goto
          (afterEpollAdd c)).Created := by
        refine hs.setLoop (by rw [hpc]; exact hbuilt) ?_ fun h => ?_
        · cases c <;> exact hbuilt
        · rw [hpc]
          cases c <;> exact h
      dsimp only
      split_ifs
      · exact hloop
      · exact hloop.log _ _ _
  | created =>
    rw [hpc] at hn hrunning
    obtain rfl := Option.some.inj hn
    exact (hs.goto (p := .thisThread) hrunning nofun).log _ _ _
  | thisThread =>
    rw [hpc] at hn hrunning
    obtain rfl := Option.some.inj hn
    split_ifs
    · exact (hs.goto (p := .updateChannelMap .wakeup) hrunning nofun).log _ _ _
    · refine (hs.modify (by rw [hpc]; exact hrunning)).goto ?_ nofun
      rw [modify_current]
      exact hrunning
  | ready =>
    rw [hpc] at hn hrunning
    dsimp only at hn
    cases hw : s.worker with
    | none =>
      rw [hw] at hn
      obtain rfl := Option.some.inj hn
      exact hs.goto hrunning nofun
    | some worker =>
      rw [hw] at hn
      obtain rfl := Option.some.inj hn
      have hne : s.worker ≠ none := by simp [hw]
      rw [current_of_some hw] at hrunning
      -- the loop of the worker joins those of the pool
      exact ⟨hs.main hne, fun h => absurd rfl h, List.forall_mem_cons.2 ⟨hrunning, hs.pool⟩,
        fun _ => hs.acceptfd (.inr hne)⟩
  | createNonblockingOrDie =>
    rw [hpc] at hn hrunning
    obtain rfl := Option.some.inj hn
    have hsocket : { s with acceptfd := some ret, pc := .bindOrDie }.Created :=
      ⟨hrunning, hs.main, hs.pool, fun _ => rfl⟩
    exact hsocket.ite_log
  | bindOrDie =>
    rw [hpc] at hn hrunning
    obtain rfl := Option.some.inj hn
    have hbound : { s with bound := some ret, pc := .poolStart }.Created :=
      ⟨hrunning, hs.main, hs.pool, fun _ => hs.acceptfd (.inl (by rw [hpc]; trivial))⟩
    exact hbound.ite_log
  | poolStart =>
    rw [hpc] at hn hrunning
    dsimp only at hn
    split_ifs at hn
    obtain rfl := Option.some.inj hn
    exact hs.goto hrunning fun _ => by rw [hpc]; trivial
  | listenOrDie =>
    rw [hpc] at hn hrunning
    obtain rfl := Option.some.inj hn
    have hlistening : { s with listenning := true, listened := some ret, pc := .done }.Created :=
      ⟨hrunning, hs.main, hs.pool, fun _ => hs.acceptfd (.inl (by rw [hpc]; trivial))⟩
    exact hlistening.ite_log
  | done =>
    rw [hpc] at hn
    cases hn

theorem Created.spawn {tid : Int32} (hs : s.Created) (hn : s.spawn tid = some t) : t.Created := by
  unfold Startup.spawn at hn
  split at hn
  · rename_i hpc _
    obtain rfl := Option.some.inj hn
    refine ⟨trivial, fun _ => ?_, hs.pool, fun _ => hs.acceptfd (.inl (by rw [hpc]; trivial))⟩
    have hrunning := hs.running
    rw [hpc] at hrunning
    cases hw : s.worker with
    | none => exact current_of_none hw ▸ hrunning
    | some worker => exact hs.main (by simp [hw])
  · cases hn

theorem Created.step {a : StartupAction} (hs : s.Created) (hn : s.next a = some t) :
    t.Created := by
  unfold next at hn
  split_ifs at hn
  cases a with
  | step ret this site => exact hs.advance hn
  | spawn tid pos => exact hs.spawn hn

theorem new_created {tid : Int32} {other : Bool} {numThreads : ℕ} {logLevel : LogLevel}
    {timerfdCreate : UInt64} : (new tid other numThreads logLevel timerfdCreate).Created :=
  ⟨trivial, fun h => absurd rfl h, fun _ hth => absurd hth List.not_mem_nil, nofun⟩

/-- The descriptor of a channel that is registered is there. -/
theorem Created.channelFd (hs : s.Created)
    (hpc : s.pc = .updateChannelMap c ∨ s.pc = .epollAdd c) : ∃ fd, s.channelFd c = some fd := by
  have hbuilt : s.current.loop.Built := by
    have hrunning := hs.running
    rcases hpc with hpc | hpc <;> rw [hpc] at hrunning <;> exact hrunning
  cases c with
  | timer => exact Option.isSome_iff_exists.1 hbuilt.timerfd
  | wakeup => exact Option.isSome_iff_exists.1 hbuilt.wakeupfd
  | accept =>
    refine Option.isSome_iff_exists.1 (hs.acceptfd (.inl ?_))
    rcases hpc with hpc | hpc <;> rw [hpc] <;> trivial

/-- A statement can always be executed; the pool goes on by a thread while there is one to start. -/
theorem Created.isSome_advance (hs : s.Created) (hdone : s.pc ≠ .done)
    (hpool : s.pc = .poolStart → s.numThreads = 0) (ret : Int32) (this : UInt64)
    (site : LogSite) : (s.advance ret this site).isSome := by
  unfold Startup.advance
  cases hpc : s.pc with
  | updateChannelMap c =>
    obtain ⟨fd, hfd⟩ := hs.channelFd (c := c) (.inl hpc)
    simp only [hfd, Option.map_some, Option.isSome_some]
  | epollAdd c =>
    obtain ⟨fd, hfd⟩ := hs.channelFd (c := c) (.inr hpc)
    simp only [hfd, Option.map_some, Option.isSome_some]
  | ready => cases hw : s.worker <;> rfl
  | poolStart =>
    dsimp only
    rw [if_pos (hpool hpc)]
    rfl
  | done => exact absurd hpc hdone
  | eventfdCreate => rfl
  | epoller => rfl
  | createtimerfd => rfl
  | created => rfl
  | thisThread => rfl
  | createNonblockingOrDie => rfl
  | bindOrDie => rfl
  | listenOrDie => rfl

end Startup

theorem startup_created {s : Startup} (h : startups.Reachable s) : s.Created := by
  refine h.invariant (fun s h0 => ?_) fun s a t hs hn => hs.step hn
  obtain ⟨tid, other, numThreads, logLevel, timerfdCreate, -, rfl⟩ := h0
  exact Startup.new_created

/-- A start-up that has neither aborted nor ended goes on, whatever its next call returns. -/
theorem startup_progress {s : Startup} (h : startups.Reachable s) (hok : s.aborted = false)
    (hdone : s.pc ≠ .done) : (∀ ret this site, (s.next (.step ret this site)).isSome) ∨
      ∀ tid pos, (s.next (.spawn tid pos)).isSome := by
  by_cases hpool : s.pc = .poolStart → s.numThreads = 0
  · refine .inl fun ret this site => ?_
    rw [Startup.next, if_neg (by simp [hok])]
    exact (startup_created h).isSome_advance hdone hpool ret this site
  · refine .inr fun tid pos => ?_
    obtain ⟨hpc, hnum⟩ := Classical.not_imp.1 hpool
    obtain ⟨k, hk⟩ := Nat.exists_eq_succ_of_ne_zero hnum
    rw [Startup.next, if_neg (by simp [hok])]
    simp only [Startup.spawn, hpc, hk, Option.isSome_some]

end Jiangbo
