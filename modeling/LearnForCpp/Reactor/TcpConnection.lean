import LearnForCpp.Reactor.Buffer
import LearnForCpp.Reactor.Channel

/-!
# TCP connections

`reactor/TcpConnection.cc`.  A member function is a statement on a `ConnCtx`: the connection, the
functors it has handed to `loop_->queueInLoop` and the callbacks it has invoked.  The callbacks
are the last thing their member function does, except in `connectDestoryed`, which is in two parts
around the callback; what a callback does is up to the system the connection runs in.

The environment is in the arguments: `tid` is the calling thread, `n` the result of `::write`,
`received` what `readv` stored, and `ret` whether `epoll_ctl` succeeded.  The kernel's side of the
socket is in `Socket`: the bytes it accepted and the calls of `shutdown(SHUT_WR)`.
-/

namespace Jiangbo

/-- `pid_t` of a thread. -/
abbrev Tid := ℕ

/-- An `EventLoop *`: the part of the loop that a connection looks at. -/
structure LoopPtr where
  threadId : Tid
  deriving DecidableEq

def LoopPtr.isInLoopThread (l : LoopPtr) (tid : Tid) : Bool := l.threadId = tid

/-- `std::string`: its bytes, never more than `max_size()`. -/
abbrev StdString := CharVector

/-- A message of one byte. -/
def CharVector.bell : StdString := ⟨[7], by decide⟩

/-- `InetAddress`: the address and the port of its `sockaddr_in`. -/
structure InetAddress where
  sinAddr : BitVec 32
  sinPort : BitVec 16
  deriving DecidableEq

/-- `Socket`, with what the kernel has done for it. -/
structure Socket where
  sockfd : ℤ
  /-- The bytes that the kernel accepted from `::write`. -/
  sent : Bytes
  /-- The calls of `shutdown(SHUT_WR)`. -/
  shutdowns : ℕ
  deriving DecidableEq

namespace Socket

/-- `::write(fd, data, data.size())` with result `n`. -/
def write (data : Bytes) (n : ℤ) (s : Socket) : Socket :=
  { s with sent := s.sent ++ data.take n.toNat }

def shutdownWrite (s : Socket) : Socket := { s with shutdowns := s.shutdowns + 1 }

end Socket

/-- `TcpConnection::stateE`. -/
inductive StateE
  | kConnecting
  | kConnected
  | kDisconnecting
  | kDisConnected
  deriving DecidableEq

/-- `TcpConnection`. -/
structure TcpConnection where
  loop : LoopPtr
  state : StateE
  name : String
  socket : Socket
  channel : Channel
  localAddr : InetAddress
  peerAddr : InetAddress
  /-- Whether `writeCompleteCallback_` is set. -/
  writeCompleteCallback : Bool
  inputBuffer : Buffer
  outputBuffer : Buffer
  deriving DecidableEq

/-- What a connection hands to `queueInLoop`. -/
inductive Functor
  | sendInLoop (message : StdString)
  | shutdownInLoop
  | writeComplete
  | connectDestoryed
  deriving DecidableEq

/-- The user's and the owner's callbacks. -/
inductive Callback
  | connection
  | message
  | close
  deriving DecidableEq

/-- A connection in a call: the functors it queues and the callbacks it invokes. -/
structure ConnCtx where
  conn : TcpConnection
  queued : List Functor
  calls : List Callback
  deriving DecidableEq

namespace TcpConnection

/-- The constructor.  `peerAddr_` is initialised from itself: it keeps what its storage held
before, `storage`, whatever `peerAddr` is. -/
def new (loop : LoopPtr) (name : String) (sockfd : ℤ) (localAddr _peerAddr storage : InetAddress) :
    TcpConnection where
  loop := loop
  state := .kConnecting
  name := name
  socket := ⟨sockfd, [], 0⟩
  channel := .new sockfd false
  localAddr := localAddr
  peerAddr := storage
  writeCompleteCallback := false
  inputBuffer := .new
  outputBuffer := .new

def connected (c : TcpConnection) : Bool := c.state = .kConnected

/-- A call begins with nothing queued and no callback invoked. -/
def enter (c : TcpConnection) : ConnCtx := ⟨c, [], []⟩

end TcpConnection

namespace ConnCtx

def queueInLoop (f : Functor) (x : ConnCtx) : ConnCtx := { x with queued := x.queued ++ [f] }

def call (cb : Callback) (x : ConnCtx) : ConnCtx := { x with calls := x.calls ++ [cb] }

def setState (s : StateE) (x : ConnCtx) : ConnCtx := { x with conn.state := s }

/-- `::write(channel_->fd(), data, data.size())` with result `n`. -/
def write (data : Bytes) (n : ℤ) (x : ConnCtx) : ConnCtx :=
  { x with conn.socket := x.conn.socket.write data n }

def setOutputBuffer (x : ConnCtx) (b : Buffer) : ConnCtx := { x with conn.outputBuffer := b }
def setInputBuffer (x : ConnCtx) (b : Buffer) : ConnCtx := { x with conn.inputBuffer := b }
def setChannel (x : ConnCtx) (c : Channel) : ConnCtx := { x with conn.channel := c }

/-- `loop_->assertInLoopThread()`. -/
def assertInLoopThread (tid : Tid) (x : ConnCtx) : Result ConnCtx :=
  Outcome.check (x.conn.loop.isInLoopThread tid) .notInLoopThread x

/-- `loop_->queueInLoop(boost::bind(writeCompleteCallback_, shared_from_this()))`, if it is set. -/
def queueWriteComplete (x : ConnCtx) : ConnCtx :=
  if x.conn.writeCompleteCallback then x.queueInLoop .writeComplete else x

/-- The direct write of `sendInLoop`. -/
def writeDirect (message : StdString) (n : ℤ) (x : ConnCtx) : ConnCtx :=
  let x := x.write message.bytes n
  if 0 ≤ n ∧ ¬ n.toNat < message.size then x.queueWriteComplete else x

def sendInLoop (tid : Tid) (message : StdString) (n : ℤ) (ret : Bool) (x : ConnCtx) :
    Result ConnCtx :=
  (x.assertInLoopThread tid).bind fun x =>
    let direct := !x.conn.channel.isWriting && x.conn.outputBuffer.readableBytes != 0
    let nwrote : ℤ := if direct ∧ 0 ≤ n then n else 0
    let x := if direct then x.writeDirect message n else x
    (Outcome.check (0 ≤ nwrote) (.assertion .nwrote) x).bind fun x =>
      if nwrote.toNat < message.size then
        ((x.conn.outputBuffer.append (message.bytes.drop nwrote.toNat)).zoom
          x.setOutputBuffer).bind fun x =>
            .ok (if x.conn.channel.isWriting then x
              else x.setChannel (x.conn.channel.enableWriting ret))
      else .ok x

/-- `send` after its test of `state_`. -/
def sendConnected (tid : Tid) (message : StdString) (n : ℤ) (ret : Bool) (x : ConnCtx) :
    Result ConnCtx :=
  if x.conn.loop.isInLoopThread tid then x.sendInLoop tid message n ret
  else .ok (x.queueInLoop (.sendInLoop message))

def send (tid : Tid) (message : StdString) (n : ℤ) (ret : Bool) (x : ConnCtx) : Result ConnCtx :=
  if x.conn.state = .kConnected then x.sendConnected tid message n ret else .ok x

def shutdownInLoop (tid : Tid) (x : ConnCtx) : Result ConnCtx :=
  (x.assertInLoopThread tid).bind fun x =>
    if !x.conn.channel.isWriting then .ok { x with conn.socket := x.conn.socket.shutdownWrite }
    else .ok x

/-- `shutdown` after `setState`: `loop_->runInLoop(boost::bind(&shutdownInLoop, this))`. -/
def runShutdownInLoop (tid : Tid) (x : ConnCtx) : Result ConnCtx :=
  if x.conn.loop.isInLoopThread tid then x.shutdownInLoop tid
  else .ok (x.queueInLoop .shutdownInLoop)

def shutdown (tid : Tid) (x : ConnCtx) : Result ConnCtx :=
  if x.conn.state = .kConnected then (x.setState .kDisconnecting).runShutdownInLoop tid else .ok x

def connectEstablished (tid : Tid) (ret : Bool) (x : ConnCtx) : Result ConnCtx :=
  (x.assertInLoopThread tid).bind fun x =>
    (Outcome.check (x.conn.state = .kConnecting) (.assertion .connectEstablishedState) x).bind
      fun x =>
        let x := x.setChannel (x.conn.channel.enableReading ret)
        .ok ((x.setState .kConnected).call .connection)

def handleClose (tid : Tid) (ret : Bool) (x : ConnCtx) : Result ConnCtx :=
  (x.assertInLoopThread tid).bind fun x =>
    (Outcome.check (x.conn.state = .kConnected ∨ x.conn.state = .kDisconnecting)
      (.assertion .handleCloseState) x).bind fun x =>
        .ok ((x.setChannel (x.conn.channel.disableAll ret)).call .close)

/-- `handleError` only writes log records. -/
def handleError (x : ConnCtx) : Result ConnCtx := .ok x

def handleRead (tid : Tid) (received : Option Bytes) (ret : Bool) (x : ConnCtx) : Result ConnCtx :=
  ((x.conn.inputBuffer.readFd received).zoom x.setInputBuffer).bind fun x =>
    match received with
    | some (_ :: _) => .ok (x.call .message)
    | some [] => x.handleClose tid ret
    | none => x.handleError

def handleWrite (tid : Tid) (n : ℤ) (ret : Bool) (x : ConnCtx) : Result ConnCtx :=
  (x.assertInLoopThread tid).bind fun x =>
    if x.conn.channel.isWriting then
      let x := x.write x.conn.outputBuffer.content n
      if 0 < n then
        ((x.conn.outputBuffer.retrieve n.toNat).zoom x.setOutputBuffer).bind fun x =>
          if x.conn.outputBuffer.readableBytes = 0 then
            let x := (x.setChannel (x.conn.channel.disableWriting ret)).queueWriteComplete
            if x.conn.state = .kDisconnecting then x.shutdownInLoop tid else .ok x
          else .ok x
      else .ok x
    else .ok x

/-- `connectDestoryed` up to the call of `connectionCallback_`. -/
def connectDestoryed (tid : Tid) (ret : Bool) (x : ConnCtx) : Result ConnCtx :=
  (x.assertInLoopThread tid).bind fun x =>
    (Outcome.check (x.conn.state = .kConnected ∨ x.conn.state = .kDisconnecting)
      (.assertion .connectDestoryedState) x).bind fun x =>
        let x := x.setState .kDisConnected
        .ok ((x.setChannel (x.conn.channel.disableAll ret)).call .connection)

/-- `connectDestoryed` after that call: `loop_->removeChannel(get_pointer(channel_))`. -/
def removeChannel (ret : Bool) (x : ConnCtx) : Result ConnCtx :=
  (x.conn.channel.remove ret).zoom x.setChannel

/-! ### What a member function can do -/

variable {x y : ConnCtx} {tid : Tid} {message : StdString} {n : ℤ} {ret : Bool}

theorem assertInLoopThread_ok (h : x.conn.loop.isInLoopThread tid = true) :
    x.assertInLoopThread tid = .ok x := Outcome.check_pos h _ _

@[simp] theorem queueWriteComplete_conn (x : ConnCtx) : x.queueWriteComplete.conn = x.conn := by
  unfold queueWriteComplete; split_ifs <;> rfl

theorem queueWriteComplete_queued (x : ConnCtx) : x.queueWriteComplete.queued =
    if x.conn.writeCompleteCallback = true then x.queued ++ [.writeComplete] else x.queued := by
  unfold queueWriteComplete; split_ifs <;> rfl

@[simp] theorem queueWriteComplete_calls (x : ConnCtx) : x.queueWriteComplete.calls = x.calls := by
  unfold queueWriteComplete; split_ifs <;> rfl

/-- The fields that no member function run by the loop changes. -/
structure SameConnection (c d : TcpConnection) : Prop where
  loop : d.loop = c.loop
  name : d.name = c.name
  localAddr : d.localAddr = c.localAddr
  peerAddr : d.peerAddr = c.peerAddr
  writeCompleteCallback : d.writeCompleteCallback = c.writeCompleteCallback

theorem SameConnection.refl (c : TcpConnection) : SameConnection c c := ⟨rfl, rfl, rfl, rfl, rfl⟩

theorem SameConnection.trans {c d e : TcpConnection} (h1 : SameConnection c d)
    (h2 : SameConnection d e) : SameConnection c e :=
  ⟨h2.loop.trans h1.loop, h2.name.trans h1.name, h2.localAddr.trans h1.localAddr,
    h2.peerAddr.trans h1.peerAddr, h2.writeCompleteCallback.trans h1.writeCompleteCallback⟩

/-- What `sendInLoop` leaves alone, and all it can do to the channel and to the socket. -/
structure SendStep (message : StdString) (ret : Bool) (x y : ConnCtx) : Prop where
  same : SameConnection x.conn y.conn
  state : y.conn.state = x.conn.state
  inputBuffer : y.conn.inputBuffer = x.conn.inputBuffer
  calls : y.calls = x.calls
  shutdowns : y.conn.socket.shutdowns = x.conn.socket.shutdowns
  channel : y.conn.channel = x.conn.channel ∨
    message.bytes ≠ [] ∧ y.conn.channel = x.conn.channel.enableWriting ret
  sent : ∃ p, p <+: message.bytes ∧ y.conn.socket.sent = x.conn.socket.sent ++ p
  queued : ∀ f ∈ y.queued, f ∈ x.queued ∨ f = .writeComplete

/-- A direct write touches the socket only. -/
theorem writeDirect_conn (x : ConnCtx) (message : StdString) (n : ℤ) :
    (x.writeDirect message n).conn =
      { x.conn with socket := x.conn.socket.write message.bytes n } := by
  unfold writeDirect
  dsimp only
  split_ifs
  · rw [queueWriteComplete_conn]; rfl
  · rfl

theorem SendStep.refl (message : StdString) (ret : Bool) (x : ConnCtx) :
    SendStep message ret x x :=
  ⟨.refl _, rfl, rfl, rfl, rfl, .inl rfl, ⟨[], List.nil_prefix, (List.append_nil _).symm⟩,
    fun _ => .inl⟩

theorem writeDirect_step (x : ConnCtx) (message : StdString) (n : ℤ) :
    SendStep message ret x (x.writeDirect message n) := by
  have hs : SendStep message ret x (x.write message.bytes n) :=
    ⟨⟨rfl, rfl, rfl, rfl, rfl⟩, rfl, rfl, rfl, rfl, .inl rfl, ⟨_, List.take_prefix _ _, rfl⟩,
      fun _ => .inl⟩
  unfold writeDirect
  dsimp only
  split_ifs with h
  · refine ⟨by simpa using hs.same, by simpa using hs.state, by simpa using hs.inputBuffer,
      by simpa using hs.calls, by simpa using hs.shutdowns, by simpa using hs.channel,
      by simpa using hs.sent, fun f hf => ?_⟩
    unfold queueWriteComplete at hf
    split_ifs at hf
    · rcases List.mem_append.1 hf with hf | hf
      · exact .inl hf
      · exact .inr (List.mem_singleton.1 hf)
    · exact .inl hf
  · exact hs

/-- The two halves of `sendInLoop`: the direct write, and the rest of the message. -/
theorem sendInLoop_eq (h : x.conn.loop.isInLoopThread tid = true) :
    x.sendInLoop tid message n ret =
      (let direct := !x.conn.channel.isWriting && x.conn.outputBuffer.readableBytes != 0
       let nwrote : ℤ := if direct ∧ 0 ≤ n then n else 0
       let x := if direct then x.writeDirect message n else x
       if nwrote.toNat < message.size then
         ((x.conn.outputBuffer.append (message.bytes.drop nwrote.toNat)).zoom
           x.setOutputBuffer).bind fun x =>
             .ok (if x.conn.channel.isWriting then x
               else x.setChannel (x.conn.channel.enableWriting ret))
       else .ok x) := by
  rw [sendInLoop, assertInLoopThread_ok h, Outcome.bind_ok]
  dsimp only
  rw [Outcome.check_pos (by simp only [decide_eq_true_eq]; split_ifs with h; exacts [h.2, le_rfl]),
    Outcome.bind_ok]

theorem sendInLoop_inLoopThread (h : x.sendInLoop tid message n ret = .ok y) :
    x.conn.loop.isInLoopThread tid = true := by
  rw [sendInLoop, Outcome.bind_eq_ok] at h
  obtain ⟨_, h, -⟩ := h
  exact (Outcome.check_eq_ok.1 h).1

theorem sendInLoop_step (h : x.sendInLoop tid message n ret = .ok y) :
    SendStep message ret x y := by
  rw [sendInLoop_eq (sendInLoop_inLoopThread h)] at h
  dsimp only at h
  generalize (!x.conn.channel.isWriting && x.conn.outputBuffer.readableBytes != 0) = direct at h
  have h1 : SendStep message ret x (if direct = true then x.writeDirect message n else x) := by
    split_ifs
    · exact writeDirect_step x message n
    · exact .refl message ret x
  have hch : (if direct = true then x.writeDirect message n else x).conn.channel =
      x.conn.channel := by
    split_ifs
    · rw [writeDirect_conn]
    · rfl
  generalize (if direct = true then x.writeDirect message n else x) = z at h h1 hch
  generalize (if direct = true ∧ 0 ≤ n then n else 0).toNat = nwrote at h
  split_ifs at h with hlt
  · simp only [Outcome.bind_eq_ok, Outcome.zoom_eq_ok] at h
    obtain ⟨w, ⟨b, -, rfl⟩, h⟩ := h
    have hne : message.bytes ≠ [] := by
      intro he
      simp [CharVector.size, he] at hlt
    have hsame : SameConnection x.conn (z.setOutputBuffer b).conn :=
      ⟨h1.same.loop, h1.same.name, h1.same.localAddr, h1.same.peerAddr,
        h1.same.writeCompleteCallback⟩
    split_ifs at h <;> cases h
    · exact ⟨hsame, h1.state, h1.inputBuffer, h1.calls, h1.shutdowns, .inl hch, h1.sent,
        h1.queued⟩
    · refine ⟨⟨hsame.loop, hsame.name, hsame.localAddr, hsame.peerAddr,
        hsame.writeCompleteCallback⟩, h1.state, h1.inputBuffer, h1.calls, h1.shutdowns,
        .inr ⟨hne, ?_⟩, h1.sent, h1.queued⟩
      rw [← hch]; rfl
  · cases h
    exact h1

/-! ### The results of the member functions -/

theorem assertInLoopThread_eq_ok : x.assertInLoopThread tid = .ok y ↔
    x.conn.loop.isInLoopThread tid = true ∧ x = y := Outcome.check_eq_ok

theorem handleClose_eq_ok (h : x.handleClose tid ret = .ok y) :
    (x.conn.state = .kConnected ∨ x.conn.state = .kDisconnecting) ∧
      y = (x.setChannel (x.conn.channel.disableAll ret)).call .close := by
  simp only [handleClose, Outcome.bind_eq_ok, assertInLoopThread_eq_ok, Outcome.check_eq_ok] at h
  obtain ⟨_, ⟨-, rfl⟩, _, ⟨hstate, rfl⟩, h⟩ := h
  exact ⟨of_decide_eq_true hstate, (Outcome.ok.inj h).symm⟩

theorem connectDestoryed_eq_ok (h : x.connectDestoryed tid ret = .ok y) :
    (x.conn.state = .kConnected ∨ x.conn.state = .kDisconnecting) ∧
      y = ((x.setState .kDisConnected).setChannel (x.conn.channel.disableAll ret)).call
        .connection := by
  simp only [connectDestoryed, Outcome.bind_eq_ok, assertInLoopThread_eq_ok,
    Outcome.check_eq_ok] at h
  obtain ⟨_, ⟨-, rfl⟩, _, ⟨hstate, rfl⟩, h⟩ := h
  exact ⟨of_decide_eq_true hstate, (Outcome.ok.inj h).symm⟩

/-- The three ends of `handleRead`. -/
theorem handleRead_eq_ok {received : Option Bytes} (h : x.handleRead tid received ret = .ok y) :
    ∃ b, (received = none ∧ y = x.setInputBuffer b) ∨
      (received = some [] ∧ (x.setInputBuffer b).handleClose tid ret = .ok y) ∨
      (∃ c data, received = some (c :: data) ∧ y = (x.setInputBuffer b).call .message) := by
  simp only [handleRead, Outcome.bind_eq_ok, Outcome.zoom_eq_ok] at h
  obtain ⟨_, ⟨b, -, rfl⟩, h⟩ := h
  refine ⟨b, ?_⟩
  match received, h with
  | none, h => exact .inl ⟨rfl, (Outcome.ok.inj h).symm⟩
  | some [], h => exact .inr (.inl ⟨rfl, h⟩)
  | some (c :: data), h => exact .inr (.inr ⟨c, data, rfl, (Outcome.ok.inj h).symm⟩)

theorem removeChannel_eq_ok (h : x.removeChannel ret = .ok y) :
    x.conn.channel.events = Channel.kNoneEvent ∧ x.conn.channel.registeredInEpoller = true ∧
      y = x.setChannel (if ret then { x.conn.channel with registeredInEpoller := false }
        else x.conn.channel) := by
  simp only [removeChannel, Channel.remove, Outcome.zoom_eq_ok, Outcome.bind_eq_ok,
    Outcome.check_eq_ok] at h
  obtain ⟨_, ⟨_, ⟨h1, rfl⟩, _, ⟨h2, rfl⟩, h⟩, rfl⟩ := h
  exact ⟨by simpa [Channel.isNoneEvent] using h1, h2, by rw [Outcome.ok.inj h]⟩

/-- `shutdownInLoop` only touches the socket. -/
theorem shutdownInLoop_eq_ok (h : x.shutdownInLoop tid = .ok y) :
    ∃ s : Socket, y = { x with conn.socket := s } ∧ s.sent = x.conn.socket.sent ∧
      s.shutdowns = x.conn.socket.shutdowns + if x.conn.channel.isWriting then 0 else 1 := by
  rw [shutdownInLoop, Outcome.bind_eq_ok] at h
  obtain ⟨_, h1, h⟩ := h
  obtain ⟨-, rfl⟩ := assertInLoopThread_eq_ok.1 h1
  cases hw : x.conn.channel.isWriting <;> simp only [hw] at h <;> cases h <;>
    exact ⟨_, rfl, rfl, rfl⟩

theorem runShutdownInLoop_eq_ok (h : x.runShutdownInLoop tid = .ok y) :
    (x.conn.loop.isInLoopThread tid = true ∧ x.shutdownInLoop tid = .ok y) ∨
      (x.conn.loop.isInLoopThread tid = false ∧ y = x.queueInLoop .shutdownInLoop) := by
  unfold runShutdownInLoop at h
  split_ifs at h with hin
  · exact .inl ⟨hin, h⟩
  · exact .inr ⟨by simpa using hin, (Outcome.ok.inj h).symm⟩

theorem sendConnected_eq_ok (h : x.sendConnected tid message n ret = .ok y) :
    (x.conn.loop.isInLoopThread tid = true ∧ x.sendInLoop tid message n ret = .ok y) ∨
      (x.conn.loop.isInLoopThread tid = false ∧ y = x.queueInLoop (.sendInLoop message)) := by
  unfold sendConnected at h
  split_ifs at h with hin
  · exact .inl ⟨hin, h⟩
  · exact .inr ⟨by simpa using hin, (Outcome.ok.inj h).symm⟩

/-- `handleWrite` after `outputBuffer_.retrieve(n)`. -/
def flush (n : ℤ) (b : Buffer) (x : ConnCtx) : ConnCtx :=
  (x.write x.conn.outputBuffer.content n).setOutputBuffer b

/-- `handleWrite` after the last byte has left, up to its half-close. -/
def drain (ret : Bool) (x : ConnCtx) : ConnCtx :=
  (x.setChannel (x.conn.channel.disableWriting ret)).queueWriteComplete

theorem drain_conn (ret : Bool) (x : ConnCtx) : (x.drain ret).conn =
    { x.conn with channel := x.conn.channel.disableWriting ret } := by
  rw [drain, queueWriteComplete_conn]; rfl

/-- The ends of `handleWrite`: nothing to do, nothing taken, a part, or the last byte. -/
theorem handleWrite_eq_ok (h : x.handleWrite tid n ret = .ok y) :
    ((x.conn.channel.isWriting = false ∨ n ≤ 0) ∧ y = x) ∨
      (x.conn.channel.isWriting = true ∧ 0 < n ∧
        ∃ b, x.conn.outputBuffer.retrieve n.toNat = .ok b ∧
          ((b.readableBytes ≠ 0 ∧ y = x.flush n b) ∨
            (b.readableBytes = 0 ∧ x.conn.state = .kDisconnecting ∧
              ((x.flush n b).drain ret).shutdownInLoop tid = .ok y) ∨
            (b.readableBytes = 0 ∧ x.conn.state ≠ .kDisconnecting ∧
              y = (x.flush n b).drain ret))) := by
  rw [handleWrite, Outcome.bind_eq_ok] at h
  obtain ⟨_, h1, h⟩ := h
  obtain ⟨-, rfl⟩ := assertInLoopThread_eq_ok.1 h1
  dsimp only at h
  split_ifs at h with hw hpos
  · simp only [Outcome.bind_eq_ok, Outcome.zoom_eq_ok] at h
    obtain ⟨_, ⟨b, hb, rfl⟩, h⟩ := h
    refine .inr ⟨hw, hpos, b, hb, ?_⟩
    have hstate : ((x.flush n b).drain ret).conn.state = x.conn.state := by rw [drain_conn]; rfl
    split_ifs at h with h0 hk
    · exact .inr (.inl ⟨h0, hstate.symm.trans hk, h⟩)
    · exact .inr (.inr ⟨h0, fun h' => hk (hstate.trans h'), (Outcome.ok.inj h).symm⟩)
    · exact .inl ⟨h0, (Outcome.ok.inj h).symm⟩
  · have hn0 : n.toNat = 0 := Int.toNat_of_nonpos (not_lt.1 hpos)
    refine .inl ⟨.inr (not_lt.1 hpos), ?_⟩
    rw [← Outcome.ok.inj h, write, Socket.write, hn0, List.take_zero, List.append_nil]
  · exact .inl ⟨.inl (by simpa using hw), (Outcome.ok.inj h).symm⟩

/-! ### Well-formed output buffers -/

/-- A message and the bytes of a buffer fit in a `size_t`. -/
theorem append_le (b : Buffer) (h : b.WF) {data : Bytes} (hd : data.length ≤ maxSize) :
    b.writerIndex + data.length ≤ SizeT.max ∧
      data.length + Buffer.kCheapPrepend ≤ SizeT.max := by
  have h1 := h.writer_le.trans b.buffer.size_le_maxSize
  have h3 : maxSize + maxSize ≤ SizeT.max := by decide
  have h4 : maxSize + Buffer.kCheapPrepend ≤ SizeT.max := by decide
  omega

/-- `sendInLoop` on a well-formed buffer: it keeps the buffer well formed, and a message that is
not empty leaves a trace in the socket or in the interest of the channel. -/
theorem sendInLoop_wf (h : x.conn.outputBuffer.WF)
    (htid : x.conn.loop.isInLoopThread tid = true) :
    (x.sendInLoop tid message n ret).Ends
      (fun y => y.conn.outputBuffer.WF ∧ (message.bytes ≠ [] →
        y.conn.socket.sent ≠ x.conn.socket.sent ∨ y.conn.channel.isWriting = true))
      (fun e _ => e = .lengthError) := by
  rw [sendInLoop_eq htid]
  dsimp only
  generalize (!x.conn.channel.isWriting && x.conn.outputBuffer.readableBytes != 0) = direct
  -- the direct write: the buffer stays, and a message taken as a whole is in the socket
  have hbuf : (if direct = true then x.writeDirect message n else x).conn.outputBuffer =
      x.conn.outputBuffer := by
    split_ifs
    · rw [writeDirect_conn]
    · rfl
  have hsent : ¬(if direct = true ∧ 0 ≤ n then n else 0).toNat < message.size →
      message.bytes ≠ [] → (if direct = true then x.writeDirect message n else x).conn.socket.sent ≠
        x.conn.socket.sent := by
    intro hle hne
    have hpos : 0 < message.bytes.length := List.length_pos_iff.2 hne
    by_cases hd : direct = true ∧ 0 ≤ n
    · rw [if_pos hd] at hle
      have hlen : message.bytes.length ≤ n.toNat := not_lt.1 hle
      rw [if_pos hd.1, writeDirect_conn]
      simpa [Socket.write, List.take_of_length_le hlen] using hne
    · rw [if_neg hd] at hle
      exact absurd hpos hle
  generalize (if direct = true then x.writeDirect message n else x) = z at hbuf hsent ⊢
  generalize (if direct = true ∧ 0 ≤ n then n else 0).toNat = nwrote at hsent ⊢
  split_ifs with hlt
  · have hdrop : (message.bytes.drop nwrote).length ≤ maxSize := by
      have := message.size_le
      rw [List.length_drop]
      omega
    obtain ⟨h1, h2⟩ := append_le _ h hdrop
    rw [← hbuf] at h h1
    have hz : ((z.conn.outputBuffer.append (message.bytes.drop nwrote)).zoom
        z.setOutputBuffer).Ends (fun y => y.conn.outputBuffer.WF) fun e _ => e = .lengthError :=
      (Buffer.append_spec h _ h1 h2).zoom (fun b hb => hb.wf) fun e b hb => hb.1
    refine hz.bind fun w hw => ?_
    split_ifs with hwr
    · exact ⟨hw, fun _ => .inr hwr⟩
    · exact ⟨hw, fun _ => .inr (Channel.enableWriting_isWriting ret _)⟩
  · exact ⟨by rw [hbuf]; exact h, fun hne => .inl (hsent hlt hne)⟩

end ConnCtx

end Jiangbo
