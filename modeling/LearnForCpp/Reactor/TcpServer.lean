import LearnForCpp.Lib.Word
import LearnForCpp.Reactor.TcpConnection

/-!
# The server and its thread pool

`newConnection` of `reactor/TcpServer.cc` and `reactor/EventLoopThreadPool.cc`.  The connections
that the server has created are a list, and a `TcpConnectionPtr` is an index of it; a record keeps
what has become of its connection.  The acceptor calls `newConnection` with what `accept` returned,
an `Accepted`, which also has what the constructor of the connection finds in the storage of
`peerAddr_` and whether `epoll_ctl` succeeds.

`newConnection` calls `connectEstablished` itself, in the thread of the acceptor, whatever loop
`getNextLoop` chose, and the constructor leaves `peerAddr_` as its storage was:
`accepted_handed_over_iff` says for which threads and sockets this goes well.
-/

namespace Jiangbo

/-- `EventLoopThreadPool`; of its threads only the loops are kept. -/
structure EventLoopThreadPool where
  baseLoop : LoopPtr
  started : Bool
  numThreads : ℕ
  next : ℕ
  loops : List LoopPtr

namespace EventLoopThreadPool

/-- The constructor. -/
def new (baseLoop : LoopPtr) : EventLoopThreadPool := ⟨baseLoop, false, 0, 0, []⟩

def setThreadNum (numThreads : ℕ) (p : EventLoopThreadPool) : EventLoopThreadPool :=
  { p with numThreads := numThreads }

/-- `start()` in the thread `tid`; the `i`-th `startLoop()` runs a loop in `threads i`. -/
def start (tid : Tid) (threads : ℕ → Tid) (p : EventLoopThreadPool) : Result EventLoopThreadPool :=
  (Outcome.check (!p.started) (.assertion .poolStarted) p).bind fun p =>
    (Outcome.check (p.baseLoop.isInLoopThread tid) .notInLoopThread p).bind fun p =>
      .ok { p with
        started := true
        loops := p.loops ++ (List.range p.numThreads).map fun i => ⟨threads i⟩ }

/-- The loop that `getNextLoop()` returns. -/
def nextLoop (p : EventLoopThreadPool) : LoopPtr := p.loops.getD p.next p.baseLoop

/-- What `getNextLoop()` does to `next_`. -/
def advance (p : EventLoopThreadPool) : EventLoopThreadPool :=
  if p.loops = [] then p
  else { p with next := if p.loops.length ≤ p.next + 1 then 0 else p.next + 1 }

end EventLoopThreadPool

/-- A connection of a server, and what has become of it. -/
structure ConnRecord where
  conn : TcpConnection
  /-- The value of `connected()` at each call of `connectionCallback_`. -/
  callbacks : List Bool
  /-- `handleClose` has run. -/
  closed : Bool
  /-- `connectDestoryed` has run. -/
  destroyed : Bool
  deriving DecidableEq

/-- What `accept` returns for a socket, and what else the connection depends on. -/
structure Accepted where
  sockfd : ℤ
  peerAddr : InetAddress
  localAddr : InetAddress
  /-- What the storage of `peerAddr_` holds before the constructor runs. -/
  storage : InetAddress
  /-- Whether `epoll_ctl` succeeds. -/
  ret : Bool
  deriving DecidableEq

/-- `TcpServer`. -/
structure TcpServer where
  loop : LoopPtr
  started : Bool
  nextConnfd : ℤ
  name : String
  threadPool : EventLoopThreadPool
  connections : String → Option ℕ
  /-- Every connection created so far. -/
  conns : List ConnRecord

namespace TcpServer

/-- The constructor; `name` is `listenaddr.toHostPort()`. -/
def new (loop : LoopPtr) (name : String) : TcpServer where
  loop := loop
  started := false
  nextConnfd := 1
  name := name
  threadPool := .new loop
  connections := fun _ => none
  conns := []

def setThreadNum (numThreads : ℕ) (s : TcpServer) : TcpServer :=
  { s with threadPool := s.threadPool.setThreadNum numThreads }

/-- `start()` in the thread `tid`, up to `listen`. -/
def start (tid : Tid) (threads : ℕ → Tid) (s : TcpServer) : Result TcpServer :=
  if s.started then .ok s
  else (s.threadPool.start tid threads).zoom fun p => { s with started := true, threadPool := p }

/-- `name_ + "#" + nextConnfd_`. -/
def connName (s : TcpServer) : String := s.name ++ ("#" ++ s.nextConnfd.repr)

/-- What a call on connection number `c` leaves in the record of the connection. -/
def adopt (c : ℕ) (x : ConnCtx) (s : TcpServer) : TcpServer :=
  { s with conns := s.conns.modify c fun r =>
      { r with
        conn := x.conn
        callbacks := r.callbacks ++ List.replicate (x.calls.count .connection) x.conn.connected
        closed := r.closed || x.calls.contains .close } }

/-- The connection that `newConnection` makes, in the loop `ioLoop`. -/
def makeShared (ioLoop : LoopPtr) (name : String) (a : Accepted) : TcpConnection :=
  .new ioLoop name a.sockfd a.localAddr a.peerAddr a.storage

/-- `newConnection` up to `connectEstablished()`. -/
def register (a : Accepted) (s : TcpServer) : TcpServer :=
  { s with
    nextConnfd := wrap32 (s.nextConnfd + 1)
    threadPool := s.threadPool.advance
    connections := Function.update s.connections s.connName (some s.conns.length)
    conns := s.conns ++ [⟨makeShared s.threadPool.nextLoop s.connName a, [], false, false⟩] }

/-- `newConnection(sockfd, peeraddr)` in the thread `tid`. -/
def newConnection (tid : Tid) (a : Accepted) (s : TcpServer) : Result TcpServer :=
  (Outcome.check (s.loop.isInLoopThread tid) .notInLoopThread s).bind fun s =>
    (Outcome.check (s.threadPool.baseLoop.isInLoopThread tid) .notInLoopThread s).bind fun s =>
      ((makeShared s.threadPool.nextLoop s.connName a).enter.connectEstablished tid a.ret).zoom
        fun x => (s.register a).adopt s.conns.length x

/-- `newConnection` for one accepted socket after the other. -/
def acceptAll (tid : Tid) : List Accepted → TcpServer → Result TcpServer
  | [], s => .ok s
  | a :: accepted, s => (s.newConnection tid a).bind (acceptAll tid accepted)

/-! ### What `newConnection` can do -/

variable {s u : TcpServer} {tid : Tid} {a : Accepted}

/-- The record of a connection that has just been established. -/
def establishedRecord (ioLoop : LoopPtr) (name : String) (a : Accepted) : ConnRecord where
  conn := { makeShared ioLoop name a with
    state := .kConnected
    channel := (Channel.new a.sockfd false).enableReading a.ret }
  callbacks := [true]
  closed := false
  destroyed := false

/-- Changing the last element. -/
theorem modify_concat {α : Type*} (l : List α) (a : α) (f : α → α) :
    (l ++ [a]).modify l.length f = l ++ [f a] := by
  induction l with
  | nil => rfl
  | cons b l ih => exact congrArg (b :: ·) ih

/-- `connectEstablished` on a connection that has just been made. -/
theorem connectEstablished_makeShared {ioLoop : LoopPtr} {name : String}
    (h : ioLoop.isInLoopThread tid = true) :
    (makeShared ioLoop name a).enter.connectEstablished tid a.ret =
      .ok ⟨(establishedRecord ioLoop name a).conn, [], [.connection]⟩ := by
  have hstate : decide ((makeShared ioLoop name a).enter.conn.state = .kConnecting) = true := rfl
  rw [ConnCtx.connectEstablished, ConnCtx.assertInLoopThread_ok h, Outcome.bind_ok,
    Outcome.check_pos hstate, Outcome.bind_ok]
  rfl

/-- `newConnection` when all the loops are that of the calling thread. -/
theorem newConnection_eq (h1 : s.loop.isInLoopThread tid = true)
    (h2 : s.threadPool.baseLoop.isInLoopThread tid = true)
    (h3 : s.threadPool.nextLoop.isInLoopThread tid = true) :
    s.newConnection tid a = .ok { s.register a with
      conns := s.conns ++ [establishedRecord s.threadPool.nextLoop s.connName a] } := by
  rw [newConnection, Outcome.check_pos h1, Outcome.bind_ok, Outcome.check_pos h2, Outcome.bind_ok,
    connectEstablished_makeShared h3, Outcome.zoom_ok]
  simp only [adopt, register, modify_concat]
  rfl

theorem connectEstablished_abort {x : ConnCtx} (h : x.conn.loop.isInLoopThread tid = false)
    (ret : Bool) : x.connectEstablished tid ret = .fault .notInLoopThread x := by
  rw [ConnCtx.connectEstablished, ConnCtx.assertInLoopThread, Outcome.check_neg h,
    Outcome.bind_fault]

/-- When the chosen loop runs in another thread, `newConnection` aborts. -/
theorem newConnection_abort (h : s.threadPool.nextLoop.isInLoopThread tid = false) :
    ∃ v, s.newConnection tid a = .fault .notInLoopThread v := by
  cases h1 : s.loop.isInLoopThread tid with
  | false =>
    rw [newConnection, Outcome.check_neg h1]
    exact ⟨s, rfl⟩
  | true =>
    cases h2 : s.threadPool.baseLoop.isInLoopThread tid with
    | false =>
      rw [newConnection, Outcome.check_pos h1, Outcome.bind_ok, Outcome.check_neg h2]
      exact ⟨s, rfl⟩
    | true =>
      rw [newConnection, Outcome.check_pos h1, Outcome.bind_ok, Outcome.check_pos h2,
        Outcome.bind_ok, connectEstablished_abort h]
      exact ⟨_, rfl⟩

theorem newConnection_eq_ok (h : s.newConnection tid a = .ok u) :
    s.loop.isInLoopThread tid = true ∧ s.threadPool.nextLoop.isInLoopThread tid = true ∧
      u = { s.register a with
        conns := s.conns ++ [establishedRecord s.threadPool.nextLoop s.connName a] } := by
  have hn : s.threadPool.nextLoop.isInLoopThread tid = true := by
    by_contra hn
    obtain ⟨v, hv⟩ := newConnection_abort (a := a) (Bool.eq_false_iff.2 hn)
    rw [hv] at h
    cases h
  simp only [newConnection, Outcome.bind_eq_ok, Outcome.check_eq_ok] at h
  obtain ⟨_, ⟨h1, rfl⟩, _, ⟨h2, rfl⟩, h⟩ := h
  have heq := newConnection_eq (a := a) h1 h2 hn
  rw [newConnection, Outcome.check_pos h1, Outcome.bind_ok, Outcome.check_pos h2, Outcome.bind_ok,
    h] at heq
  exact ⟨h1, hn, Outcome.ok.inj heq⟩

/-! ### Handing over the accepted sockets -/

/-- The sockets are handed over: nothing aborts, so that every operation on a loop runs in the
thread of that loop, and the connection callback is called once for each socket, as connected, on a
connection with the address that `accept` returned. -/
def HandedOver (accepted : List Accepted) (o : Result TcpServer) : Prop :=
  ∃ u, o = .ok u ∧
    (u.conns.map fun r => (r.conn.socket.sockfd, r.conn.peerAddr, r.callbacks)) =
      accepted.map fun a => (a.sockfd, a.peerAddr, [true])

/-- A server of `numThreads` IO threads, started and then called for the accepted sockets. -/
def serve (loop : LoopPtr) (name : String) (numThreads : ℕ) (threads : ℕ → Tid)
    (accepted : List Accepted) : Result TcpServer :=
  (((new loop name).setThreadNum numThreads).start loop.threadId threads).bind
    (acceptAll loop.threadId accepted)

/-- The server before its first connection. -/
def listening (loop : LoopPtr) (name : String) (numThreads : ℕ) (threads : ℕ → Tid) : TcpServer :=
  { new loop name with
    started := true
    threadPool := ⟨loop, true, numThreads, 0, (List.range numThreads).map fun i => ⟨threads i⟩⟩ }

theorem start_eq (loop : LoopPtr) (name : String) (numThreads : ℕ) (threads : ℕ → Tid) :
    ((new loop name).setThreadNum numThreads).start loop.threadId threads =
      .ok (listening loop name numThreads threads) := by
  have hin : loop.isInLoopThread loop.threadId = true := decide_eq_true rfl
  simp [start, setThreadNum, new, EventLoopThreadPool.start, EventLoopThreadPool.setThreadNum,
    EventLoopThreadPool.new, listening, hin]

/-- Without IO threads every socket is handed over, with the address its storage held. -/
theorem acceptAll_eq (accepted : List Accepted) (h1 : s.loop.isInLoopThread tid = true)
    (h2 : s.threadPool.baseLoop.isInLoopThread tid = true) (h3 : s.threadPool.loops = []) :
    ∃ u, s.acceptAll tid accepted = .ok u ∧
      (u.conns.map fun r => (r.conn.socket.sockfd, r.conn.peerAddr, r.callbacks)) =
        (s.conns.map fun r => (r.conn.socket.sockfd, r.conn.peerAddr, r.callbacks)) ++
          accepted.map fun a => (a.sockfd, a.storage, [true]) := by
  induction accepted generalizing s with
  | nil => exact ⟨s, rfl, by simp⟩
  | cons a accepted ih =>
    have hnext : s.threadPool.nextLoop = s.threadPool.baseLoop := by
      rw [EventLoopThreadPool.nextLoop, h3]; rfl
    have hadv : s.threadPool.advance = s.threadPool := if_pos h3
    rw [acceptAll, newConnection_eq h1 h2 (hnext ▸ h2), Outcome.bind_ok]
    obtain ⟨u, hu, hconns⟩ := ih (s := { s.register a with
      conns := s.conns ++ [establishedRecord s.threadPool.nextLoop s.connName a] }) h1
      (by rw [register, hadv]; exact h2) (by rw [register, hadv]; exact h3)
    exact ⟨u, hu, by rw [hconns]; simp [establishedRecord, makeShared, TcpConnection.new]⟩

end TcpServer

/-- **When the accepted sockets are handed over.** With the loops of the IO threads in threads of
their own, `newConnection` hands every accepted socket over exactly if there is no IO thread and the
storage of every `peerAddr_` happens to hold the address of its socket, or no socket at all. -/
theorem accepted_handed_over_iff (loop : LoopPtr) (name : String) (numThreads : ℕ)
    (threads : ℕ → Tid) (hthreads : ∀ i < numThreads, threads i ≠ loop.threadId)
    (accepted : List Accepted) :
    TcpServer.HandedOver accepted (TcpServer.serve loop name numThreads threads accepted) ↔
      accepted = [] ∨ numThreads = 0 ∧ ∀ a ∈ accepted, a.storage = a.peerAddr := by
  have hin : loop.isInLoopThread loop.threadId = true := decide_eq_true rfl
  rw [TcpServer.serve, TcpServer.start_eq, Outcome.bind_ok]
  cases accepted with
  | nil => exact iff_of_true ⟨_, rfl, rfl⟩ (.inl rfl)
  | cons a accepted =>
    rw [or_iff_right (List.cons_ne_nil a accepted)]
    cases numThreads with
    | zero =>
      rw [eq_self, true_and]
      obtain ⟨u, hu, hconns⟩ := TcpServer.acceptAll_eq (a :: accepted)
        (s := TcpServer.listening loop name 0 threads) hin hin rfl
      have hlist : TcpServer.HandedOver (a :: accepted) (.ok u) ↔
          ((a :: accepted).map fun a => (a.sockfd, a.storage, [true])) =
            (a :: accepted).map fun a => (a.sockfd, a.peerAddr, [true]) := by
        rw [TcpServer.HandedOver]
        simp only [Outcome.ok.injEq, exists_eq_left', hconns]
        rfl
      rw [hu, hlist, List.map_inj_left]
      simp
    | succ n =>
      refine iff_of_false ?_ (fun h => absurd h.1 (Nat.succ_ne_zero n))
      rintro ⟨u, hu, -⟩
      have hne : (LoopPtr.mk (threads 0)).isInLoopThread loop.threadId = false :=
        decide_eq_false (hthreads 0 (Nat.succ_pos n))
      have hnext : (TcpServer.listening loop name (n + 1) threads).threadPool.nextLoop =
          ⟨threads 0⟩ := by
        simp [TcpServer.listening, EventLoopThreadPool.nextLoop, List.range_succ_eq_map]
      obtain ⟨v, hv⟩ := TcpServer.newConnection_abort (a := a) (hnext ▸ hne)
      rw [TcpServer.acceptAll, hv] at hu
      cases hu

/-- Socket 7 from 10.0.0.2, with the storage of its `peerAddr_` as given. -/
def socketSeven (storage : InetAddress) : Accepted :=
  ⟨7, ⟨0x0A000002, 4000⟩, ⟨0x0A000001, 80⟩, storage, true⟩

/-- Two sockets without IO threads, their storage lucky, are handed over; with two IO threads they
are not. -/
theorem handed_over_without_io_threads :
    let accepted := [socketSeven ⟨0x0A000002, 4000⟩, socketSeven ⟨0x0A000002, 4000⟩]
    TcpServer.HandedOver accepted (TcpServer.serve ⟨1⟩ "0.0.0.0:80" 0 (· + 2) accepted) ∧
      ¬TcpServer.HandedOver accepted (TcpServer.serve ⟨1⟩ "0.0.0.0:80" 2 (· + 2) accepted) := by
  refine ⟨(accepted_handed_over_iff ⟨1⟩ "0.0.0.0:80" 0 (· + 2) (by decide) _).2 (.inr ?_),
    fun h => ?_⟩
  · exact ⟨rfl, by decide⟩
  · have := (accepted_handed_over_iff ⟨1⟩ "0.0.0.0:80" 2 (· + 2) (by decide) _).1 h
    simp at this

/-- With one IO thread the first `newConnection` aborts in `connectEstablished`; without one it
returns, and `peerAddress()` is what the storage held. -/
theorem first_socket_not_handed_over :
    (TcpServer.serve ⟨1⟩ "0.0.0.0:80" 1 (· + 2) [socketSeven ⟨0, 0⟩]).fault? =
        some .notInLoopThread ∧
      ¬TcpServer.HandedOver [socketSeven ⟨0, 0⟩]
        (TcpServer.serve ⟨1⟩ "0.0.0.0:80" 1 (· + 2) [socketSeven ⟨0, 0⟩]) ∧
      ¬TcpServer.HandedOver [socketSeven ⟨0, 0⟩]
        (TcpServer.serve ⟨1⟩ "0.0.0.0:80" 0 (· + 2) [socketSeven ⟨0, 0⟩]) := by
  have hfault : (TcpServer.serve ⟨1⟩ "0.0.0.0:80" 1 (· + 2) [socketSeven ⟨0, 0⟩]).fault? =
      some .notInLoopThread := by rfl
  refine ⟨hfault, ?_, ?_⟩
  · rintro ⟨u, hu, -⟩
    rw [hu] at hfault
    cases hfault
  · have hpeer : ((TcpServer.serve ⟨1⟩ "0.0.0.0:80" 0 (· + 2) [socketSeven ⟨0, 0⟩]).state.conns.map
        fun r => r.conn.peerAddr) = [⟨0, 0⟩] := by rfl
    rintro ⟨u, hu, hconns⟩
    rw [hu, Outcome.state_ok] at hpeer
    have h := congrArg (List.map fun x => x.2.1) hconns
    rw [List.map_map] at h
    exact absurd (hpeer.symm.trans h) (by decide)

end Jiangbo
