import LearnForCpp.Reactor.Channel

/-!
# The connector

`reactor/Connector.cc`: one attempt after another to connect a socket, with a channel for the
attempt that is in progress and a retry timer after one that failed.

A member function is a statement on a `ConnectorCtx`: the connector, its sockets, the functors it
has queued, the retry timers it has set, and the sockets it has passed to
`newConnectionCallBack_`.  The callback is the last thing that its caller does.  A socket is known
by its number, counted from zero; it is also its descriptor.

The environment is in the arguments: `Dial` is how `socket` and `connect` end, `now` the clock
reading of `runAfter`, `err` the `SO_ERROR` and `selfConnect` the test for a self-connect.
`epoll_ctl` succeeds.
-/

namespace Jiangbo

/-- What `errno` says after `connect`; `ok` is a return of zero. -/
inductive Errno
  | ok
  | EINPROGRESS
  | EINTR
  | EISCONN
  | EAGAIN
  | EADDRINUSE
  | EADDRNOTAVAIL
  | ECONNREFUSED
  | ENETUNREACH
  | EACCES
  | EPERM
  | EAFNOSUPPORT
  | EALREADY
  | EBADF
  | EFAULT
  | ENOTSOCK
  | other
  deriving DecidableEq

/-- What the `switch` in `Connector::connect` does. -/
inductive DialClass
  | connecting
  | retry
  | close
  deriving DecidableEq

/-- The `switch` in `Connector::connect`. -/
def Errno.dialClass : Errno → DialClass
  | ok | EINPROGRESS | EINTR | EISCONN => .connecting
  | EAGAIN | EADDRINUSE | EADDRNOTAVAIL | ECONNREFUSED | ENETUNREACH => .retry
  | EACCES | EPERM | EAFNOSUPPORT | EALREADY | EBADF | EFAULT | ENOTSOCK => .close
  | other => .close

/-- How `socket` and `connect` end: `createNonblockingOrDie` returns `-1` when `socket` fails, and
`connect` then reports `EBADF`. -/
inductive Dial
  | noSocket
  | connect (errno : Errno)
  deriving DecidableEq

def Dial.errno : Dial → Errno
  | noSocket => .EBADF
  | connect errno => errno

/-- `Connector::States`. -/
inductive ConnectorState
  | kDisconnected
  | kConnecting
  | kConnected
  deriving DecidableEq

/-- `Connector`. -/
structure Connector where
  connect : Bool
  state : ConnectorState
  channel : Option Channel
  retryDelayMs : ℕ
  deriving DecidableEq

namespace Connector

def kMaxRetryDelayMs : ℕ := 30 * 1000

def kInitRetryDalayMs : ℕ := 500

/-- The constructor. -/
def new : Connector := ⟨false, .kDisconnected, none, kInitRetryDalayMs⟩

/-- An attempt is in progress: its channel is registered. -/
def attempting (c : Connector) : Bool := c.channel.any (·.registeredInEpoller)

/-- An attempt has ended, and its channel is still there. -/
def closing (c : Connector) : Bool := c.channel.any (!·.registeredInEpoller)

/-- The socket of the attempt that is in progress. -/
def held (c : Connector) : List ℤ :=
  (c.channel.toList.filter (·.registeredInEpoller)).map Channel.fd

end Connector

/-- A functor of the connector in `pendingFunctors_`, or one of the client that owns it. -/
inductive ConnectorTask
  | resetChannel
  | startInLoop
  | connectDestoryed (conn : ℤ)
  deriving DecidableEq

/-- What has become of the sockets of a connector. -/
structure Sockets where
  /-- The sockets created so far. -/
  created : ℕ
  /-- The calls of `close`. -/
  closed : List ℤ
  /-- The calls of `newConnectionCallBack_`. -/
  handed : List ℤ
  deriving DecidableEq

/-- A connector in its loop. -/
structure ConnectorCtx where
  connector : Connector
  sockets : Sockets
  pendingFunctors : List ConnectorTask
  /-- The expirations of the timers of `startInLoop`. -/
  timers : List ℤ
  deriving DecidableEq

namespace ConnectorCtx

def setState (state : ConnectorState) (x : ConnectorCtx) : ConnectorCtx :=
  { x with connector.state := state }

def closefd (sockfd : ℤ) (x : ConnectorCtx) : ConnectorCtx :=
  { x with sockets.closed := x.sockets.closed ++ [sockfd] }

def queueInLoop (task : ConnectorTask) (x : ConnectorCtx) : ConnectorCtx :=
  { x with pendingFunctors := x.pendingFunctors ++ [task] }

/-- `runAfter(retryDelayMs_ / 1000.0, startInLoop)`, in microseconds. -/
def runAfter (now : ℤ) (x : ConnectorCtx) : ConnectorCtx :=
  { x with timers := x.timers ++ [now + x.connector.retryDelayMs * 1000] }

/-- `createNonblockingOrDie`: the new descriptor is the number of sockets before. -/
def createNonblockingOrDie (d : Dial) (x : ConnectorCtx) : ℤ × ConnectorCtx :=
  match d with
  | .noSocket => (-1, x)
  | .connect _ => (x.sockets.created, { x with sockets.created := x.sockets.created + 1 })

def retry (sockfd : ℤ) (now : ℤ) (x : ConnectorCtx) : ConnectorCtx :=
  let x := (x.closefd sockfd).setState .kDisconnected
  if x.connector.connect then
    -- the timer has the old delay, the next one twice as much
    let delay := min (x.connector.retryDelayMs * 2) Connector.kMaxRetryDelayMs
    { x.runAfter now with connector.retryDelayMs := delay }
  else x

def connecting (sockfd : ℤ) (x : ConnectorCtx) : Result ConnectorCtx :=
  let x := x.setState .kConnecting
  (Outcome.check x.connector.channel.isNone (.assertion .connectingChannel) x).bind fun x =>
    .ok { x with connector.channel := some ((Channel.new sockfd true).enableWriting true) }

def connect (d : Dial) (now : ℤ) (x : ConnectorCtx) : Result ConnectorCtx :=
  let (sockfd, x) := x.createNonblockingOrDie d
  match d.errno.dialClass with
  | .connecting => x.connecting sockfd
  | .retry => .ok (x.retry sockfd now)
  | .close => .ok (x.closefd sockfd)

def startInLoop (d : Dial) (now : ℤ) (x : ConnectorCtx) : Result ConnectorCtx :=
  (Outcome.check (x.connector.state = .kDisconnected) (.assertion .startInLoopState) x).bind
    fun x => if x.connector.connect then x.connect d now else .ok x

/-- `start()`, in the loop thread or in another one. -/
def start (inLoop : Bool) (d : Dial) (now : ℤ) (x : ConnectorCtx) : Result ConnectorCtx :=
  let x := { x with connector.connect := true }
  if inLoop then x.startInLoop d now else .ok (x.queueInLoop .startInLoop)

/-- The assignments of `restart()`. -/
def reinit (x : ConnectorCtx) : ConnectorCtx :=
  { x with connector := { x.connector with
      state := .kDisconnected
      retryDelayMs := Connector.kInitRetryDalayMs
      connect := true } }

def restart (d : Dial) (now : ℤ) (x : ConnectorCtx) : Result ConnectorCtx :=
  x.reinit.startInLoop d now

def stop (x : ConnectorCtx) : ConnectorCtx := { x with connector.connect := false }

/-- `removeAndResetChannel`, and the descriptor that it returns. -/
def removeAndResetChannel (x : ConnectorCtx) (k : ℤ → ConnectorCtx → Result ConnectorCtx) :
    Result ConnectorCtx :=
  match x.connector.channel with
  | none => .fault (.assertion .scopedPtr) x
  | some channel =>
      (((channel.disableAll true).remove true).zoom
        fun channel => { x with connector.channel := some channel }).bind fun x =>
          k channel.fd (x.queueInLoop .resetChannel)

def resetChannel (x : ConnectorCtx) : ConnectorCtx := { x with connector.channel := none }

def handleWrite (err : ℤ) (selfConnect : Bool) (now : ℤ) (x : ConnectorCtx) :
    Result ConnectorCtx :=
  if x.connector.state = .kConnecting then
    x.removeAndResetChannel fun sockfd x =>
      -- `SO_ERROR`, then a socket that is connected to itself
      if err ≠ 0 then .ok (x.retry sockfd now)
      else if selfConnect then .ok (x.retry sockfd now)
      else
        let x := x.setState .kConnected
        if x.connector.connect then
          .ok { x with sockets.handed := x.sockets.handed ++ [sockfd] }
        -- `stop()` was called in the meantime
        else .ok (x.closefd sockfd)
  else Outcome.check (x.connector.state = .kDisconnected) (.assertion .handleWriteState) x

def handleError (now : ℤ) (x : ConnectorCtx) : Result ConnectorCtx :=
  (Outcome.check (x.connector.state = .kConnecting) (.assertion .handleErrorState) x).bind fun x =>
    x.removeAndResetChannel fun sockfd x => .ok (x.retry sockfd now)

/-- A callback of `channel_`; the connector sets two of them. -/
def handler (err : ℤ) (selfConnect : Bool) (now : ℤ) (x : ConnectorCtx) :
    Handler → Result ConnectorCtx
  | .close => .ok x
  | .error => x.handleError now
  | .read => .ok x
  | .write => x.handleWrite err selfConnect now

/-- `channel_->handleEvent()`: its callbacks, one after another. -/
def handleEvent (err : ℤ) (selfConnect : Bool) (now : ℤ) (x : ConnectorCtx)
    (revents : EventMask) : Result ConnectorCtx :=
  (Channel.handleEvent revents).foldl
    (fun o h => o.bind fun x => x.handler err selfConnect now h) (.ok x)

/-! ### What the functions do -/

variable {x : ConnectorCtx} {d : Dial} {now : ℤ}

/-- A new channel that is enabled for writing. -/
theorem enableWriting_new (sockfd : ℤ) :
    ((Channel.new sockfd true).enableWriting true) = ⟨sockfd, true, true, Channel.kWriteEvent⟩ := by
  simp only [Channel.enableWriting, Channel.update, Channel.new, Bool.false_eq_true, if_false]
  rw [if_pos (by decide)]
  rfl

/-- Without a channel, an attempt that goes on gets one. -/
theorem connecting_eq (hchannel : x.connector.channel = none) (sockfd : ℤ) :
    x.connecting sockfd = .ok { x with connector := { x.connector with
      state := .kConnecting
      channel := some ⟨sockfd, true, true, Channel.kWriteEvent⟩ } } := by
  rw [connecting, Outcome.check_pos (by simp [setState, hchannel]), Outcome.bind_ok,
    enableWriting_new]
  rfl

/-- With a channel, it fails. -/
theorem connecting_fault (hchannel : x.connector.channel ≠ none) (sockfd : ℤ) :
    ∃ y, x.connecting sockfd = .fault (.assertion .connectingChannel) y := by
  have hsome : x.connector.channel.isNone = false := by
    rw [Option.isNone_eq_false_iff, Option.isSome_iff_ne_none]
    exact hchannel
  rw [connecting, Outcome.check_neg (by simpa [setState] using hsome)]
  exact ⟨_, rfl⟩

/-- The end of an attempt: its channel is removed. -/
def ended (channel : Channel) (x : ConnectorCtx) : ConnectorCtx :=
  { x with
    connector.channel := some { channel with
      events := Channel.kNoneEvent
      registeredInEpoller := false }
    pendingFunctors := x.pendingFunctors ++ [.resetChannel] }

/-- The channel of an attempt in progress can be removed. -/
theorem removeAndResetChannel_eq {channel : Channel} (hchannel : x.connector.channel = some channel)
    (hreg : channel.registeredInEpoller = true) (k : ℤ → ConnectorCtx → Result ConnectorCtx) :
    x.removeAndResetChannel k = k channel.fd (x.ended channel) := by
  have hdisable : channel.disableAll true = { channel with events := Channel.kNoneEvent } := by
    rw [Channel.disableAll, Channel.update, if_pos hreg]
  rw [removeAndResetChannel, hchannel]
  dsimp only
  rw [hdisable,
    Channel.remove_eq true (c := { channel with events := Channel.kNoneEvent }) rfl hreg,
    if_pos rfl, Outcome.zoom_ok, Outcome.bind_ok]
  rfl

/-- `startInLoop` in the wrong state. -/
theorem startInLoop_fault (hstate : x.connector.state ≠ .kDisconnected) :
    x.startInLoop d now = .fault (.assertion .startInLoopState) x := by
  rw [startInLoop, Outcome.check_neg (by simpa using hstate), Outcome.bind_fault]

theorem startInLoop_eq (hstate : x.connector.state = .kDisconnected) :
    x.startInLoop d now = if x.connector.connect then x.connect d now else .ok x := by
  rw [startInLoop, Outcome.check_pos (by simpa using hstate), Outcome.bind_ok]

/-- What is left of a socket that failed. -/
theorem retry_eq {n : ℤ} (sockfd : ℤ) : ∃ delay,
    x.retry sockfd n = { x with
      connector := { x.connector with state := .kDisconnected, retryDelayMs := delay }
      sockets.closed := x.sockets.closed ++ [sockfd]
      timers := x.timers ++
        if x.connector.connect then [n + x.connector.retryDelayMs * 1000] else [] } := by
  cases hconnect : x.connector.connect with
  | true =>
    refine ⟨min (x.connector.retryDelayMs * 2) Connector.kMaxRetryDelayMs, ?_⟩
    simp [retry, closefd, setState, runAfter, hconnect]
  | false => exact ⟨x.connector.retryDelayMs, by simp [retry, closefd, setState, hconnect]⟩

/-- A start queues no functors, and returns with the channel that was there. -/
theorem startInLoop_keeps {y : ConnectorCtx} (h : x.startInLoop d now = .ok y) :
    y.pendingFunctors = x.pendingFunctors ∧
      (x.connector.channel ≠ none → y.connector.channel = x.connector.channel) := by
  by_cases hstate : x.connector.state = .kDisconnected
  · rw [startInLoop_eq hstate] at h
    split_ifs at h
    · have hdial : (x.createNonblockingOrDie d).2.pendingFunctors = x.pendingFunctors ∧
          (x.createNonblockingOrDie d).2.connector = x.connector := by
        cases d <;> exact ⟨rfl, rfl⟩
      unfold ConnectorCtx.connect at h
      cases hclass : d.errno.dialClass with
      | connecting =>
        simp only [hclass] at h
        by_cases hchannel : (x.createNonblockingOrDie d).2.connector.channel = none
        · rw [connecting_eq hchannel] at h
          cases h
          rw [hdial.2] at hchannel
          exact ⟨hdial.1, fun hne => absurd hchannel hne⟩
        · obtain ⟨y, hy⟩ := connecting_fault hchannel (x.createNonblockingOrDie d).1
          rw [hy] at h
          cases h
      | retry =>
        simp only [hclass] at h
        obtain ⟨delay, hretry⟩ := retry_eq (x := (x.createNonblockingOrDie d).2) (n := now)
          (x.createNonblockingOrDie d).1
        rw [hretry] at h
        cases h
        refine ⟨hdial.1, fun _ => ?_⟩
        show (x.createNonblockingOrDie d).2.connector.channel = _
        rw [hdial.2]
      | close =>
        simp only [hclass] at h
        cases h
        refine ⟨hdial.1, fun _ => ?_⟩
        show (x.createNonblockingOrDie d).2.connector.channel = _
        rw [hdial.2]
    · cases h
      exact ⟨rfl, fun _ => rfl⟩
  · rw [startInLoop_fault hstate] at h
    cases h

/-- `channel_->handleEvent()`: the error callback, then the write callback. -/
theorem handleEvent_eq (err : ℤ) (selfConnect : Bool) (revents : EventMask) :
    x.handleEvent err selfConnect now revents =
      (if Bitmask.test revents EPOLLERR then x.handleError now else .ok x).bind fun x =>
        if Bitmask.test revents EPOLLOUT then x.handleWrite err selfConnect now else .ok x := by
  have hstep : ∀ (h : Handler) (b : Bool) (o : Result ConnectorCtx),
      (if b then [h] else []).foldl (fun o h => o.bind fun x => x.handler err selfConnect now h) o =
        if b then o.bind fun x => x.handler err selfConnect now h else o := by
    intro h b o
    cases b <;> rfl
  have hskip : ∀ (b : Bool) (o : Result ConnectorCtx),
      (if b then o.bind fun x => .ok x else o) = o := by
    intro b o
    cases b <;> cases o <;> rfl
  unfold handleEvent Channel.handleEvent
  rw [List.foldl_append, List.foldl_append, List.foldl_append, hstep, hstep, hstep, hstep]
  simp only [handler, ite_self, Outcome.bind_ok, hskip]
  by_cases h : Bitmask.test revents EPOLLOUT = true
  · simp only [h, if_true]
  · simp only [h, if_false, Bool.false_eq_true]
    exact (hskip true _).symm

/-- What the events of an attempt say of it: whether it ends, and then whether it is connected. -/
def outcome (err : ℤ) (selfConnect : Bool) (revents : EventMask) : Option Bool :=
  if Bitmask.test revents EPOLLERR then some false
  else if Bitmask.test revents EPOLLOUT then some (decide (err = 0) && !selfConnect)
  else none

/-- **The events of an attempt.** The attempt goes on, or it ends: with a `retry`, or connected, and
then the socket is handed over, or closed when the connector was stopped. -/
theorem handleEvent_outcome {n : ℤ} {channel : Channel}
    (hchannel : x.connector.channel = some channel)
    (hreg : channel.registeredInEpoller = true) (hstate : x.connector.state = .kConnecting)
    (err : ℤ) (selfConnect : Bool) (revents : EventMask) :
    outcome err selfConnect revents = none ∧ x.handleEvent err selfConnect n revents = .ok x ∨
    outcome err selfConnect revents = some false ∧
      x.handleEvent err selfConnect n revents = .ok ((x.ended channel).retry channel.fd n) ∨
    outcome err selfConnect revents = some true ∧ x.connector.connect = true ∧
      x.handleEvent err selfConnect n revents =
        .ok { (x.ended channel).setState .kConnected with
          sockets.handed := x.sockets.handed ++ [channel.fd] } ∨
    outcome err selfConnect revents = some true ∧ x.connector.connect = false ∧
      x.handleEvent err selfConnect n revents =
        .ok (((x.ended channel).setState .kConnected).closefd channel.fd) := by
  have herror : x.handleError n = .ok ((x.ended channel).retry channel.fd n) := by
    rw [handleError, Outcome.check_pos (by simpa using hstate), Outcome.bind_ok,
      removeAndResetChannel_eq hchannel hreg]
  rw [handleEvent_eq, outcome]
  by_cases h1 : Bitmask.test revents EPOLLERR = true
  · -- after the error the write callback finds the state `kDisconnected`
    rw [if_pos h1, if_pos h1, herror, Outcome.bind_ok]
    refine .inr (.inl ⟨rfl, ?_⟩)
    split_ifs
    · obtain ⟨delay, hretry⟩ := retry_eq (x := x.ended channel) (n := n) channel.fd
      rw [hretry, handleWrite, if_neg (by simp), Outcome.check_pos (by simp)]
    · rfl
  · rw [if_neg h1, if_neg h1, Outcome.bind_ok]
    split_ifs
    · rw [handleWrite, if_pos hstate, removeAndResetChannel_eq hchannel hreg]
      by_cases herr : err = 0
      · rw [if_neg (by simpa using herr), decide_eq_true herr, Bool.true_and]
        cases selfConnect with
        | true =>
          rw [if_pos rfl]
          exact .inr (.inl ⟨rfl, rfl⟩)
        | false =>
          rw [if_neg Bool.false_ne_true]
          cases hconnect : x.connector.connect with
          | true => exact .inr (.inr (.inl ⟨rfl, rfl, by simp [setState, hconnect, ended]⟩))
          | false => exact .inr (.inr (.inr ⟨rfl, rfl, by simp [setState, hconnect, ended]⟩))
      · rw [if_pos herr, decide_eq_false herr, Bool.false_and]
        exact .inr (.inl ⟨rfl, rfl⟩)
    · exact .inl ⟨rfl, rfl⟩

theorem handleEvent_cases {n : ℤ} {channel : Channel}
    (hchannel : x.connector.channel = some channel)
    (hreg : channel.registeredInEpoller = true) (hstate : x.connector.state = .kConnecting)
    (err : ℤ) (selfConnect : Bool) (revents : EventMask) :
    x.handleEvent err selfConnect n revents = .ok x ∨
    x.handleEvent err selfConnect n revents = .ok ((x.ended channel).retry channel.fd n) ∨
    x.connector.connect = true ∧ x.handleEvent err selfConnect n revents =
      .ok { (x.ended channel).setState .kConnected with
        sockets.handed := x.sockets.handed ++ [channel.fd] } ∨
    x.connector.connect = false ∧ x.handleEvent err selfConnect n revents =
      .ok (((x.ended channel).setState .kConnected).closefd channel.fd) :=
  (handleEvent_outcome hchannel hreg hstate err selfConnect revents).imp And.right
    (Or.imp And.right (Or.imp And.right And.right))

end ConnectorCtx

end Jiangbo
