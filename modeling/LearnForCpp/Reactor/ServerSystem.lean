import LearnForCpp.Lib.Transition
import LearnForCpp.Reactor.OutputStream
import LearnForCpp.Reactor.TcpServer

/-!
# A server and its loop

A `TcpServer` in the loop that runs it: `loop()` and `doPendingFunctions` of `reactor/EventLoop.cc`,
`newConnection`, `removeConnection` and `removeConnectionInLoop` of `reactor/TcpServer.cc`, and the
connections of `reactor/TcpConnection.cc`.

`poll` is the return of `epoll_wait`, with the active channels in their order and any events; the
handlers of these follow one by one, then the swap and the functors one by one.  Between these steps
user code in the loop thread may call any connection.  A functor is kept with the number of its
connection.  `EPOLL_CTL_DEL` of a registered descriptor succeeds.
-/

namespace Jiangbo

open OutputStream (WriteResult)

/-- An element of `pendingFunctors_`. -/
structure ServerTask where
  conn : ℕ
  functor : Functor
  deriving DecidableEq

/-- What the loop thread does before the swap, or before the rest of its batch. -/
inductive ServerWork
  /-- `Acceptor::handleRead`. -/
  | accept
  | handler (c : ℕ) (h : Handler)
  /-- The end of `connectDestoryed`. -/
  | removeChannel (c : ℕ)
  deriving DecidableEq

/-- Where `loop()` stands. -/
inductive ServerPhase
  | polling
  | handling
  /-- In `doPendingFunctions`. -/
  | running
  deriving DecidableEq

/-- A server, its loop and its connections. -/
structure ServerSystem where
  server : TcpServer
  phase : ServerPhase
  todo : List ServerWork
  /-- The `functions` of `doPendingFunctions` still to be called. -/
  batch : List ServerTask
  pendingFunctors : List ServerTask
  failed : Option Assertion

/-- An active channel. -/
inductive Active
  | acceptor
  | conn (c : ℕ) (revents : EventMask)
  deriving DecidableEq

/-- What user code does with a connection. -/
inductive UserOp
  | send (message : StdString)
  | shutdown
  | setWriteCompleteCallback (callback : Bool)
  | inputBuffer (op : Buffer.Op)
  deriving DecidableEq

/-- A step of the loop thread. -/
inductive ServerAction
  | poll (active : List Active)
  /-- The next handler, or the end of `connectDestoryed`. -/
  | work (accepted : Option Accepted) (received : Option Bytes) (n : ℤ) (ret : Bool)
  | user (c : ℕ) (op : UserOp) (n : ℤ) (ret : Bool)
  | swap
  /-- The next functor of the batch. -/
  | call (n : ℤ) (ret : Bool)
  /-- The return of `doPendingFunctions`. -/
  | finish
  deriving DecidableEq

namespace Active

/-- The connection of an active channel. -/
def conn? : Active → Option ℕ
  | acceptor => none
  | conn c _ => some c

/-- The handlers of an active channel, in order. -/
def works : Active → List ServerWork
  | acceptor => [.accept]
  | conn c revents => (Channel.handleEvent revents).map (.handler c)

end Active

namespace ServerSystem

/-- A server that has been started, in its loop. -/
def new (server : TcpServer) : ServerSystem := ⟨server, .polling, [], [], [], none⟩

/-- The thread of the loop. -/
def tid (s : ServerSystem) : Tid := s.server.loop.threadId

/-- `removeConnectionInLoop` of connection number `c`, which is called `name`.  The loop of the
connection is the one that runs this. -/
def removeConnectionInLoop (c : ℕ) (name : String) (s : ServerSystem) : ServerSystem :=
  if (s.server.connections name).isSome then
    { s with
      server.connections := Function.update s.server.connections name none
      pendingFunctors := s.pendingFunctors ++ [⟨c, .connectDestoryed⟩] }
  else { s with failed := some .removeConnectionErased }

/-- The connection after a call, and the functors it queued. -/
def adopt (c : ℕ) (x : ConnCtx) (s : ServerSystem) : ServerSystem :=
  { s with
    server := s.server.adopt c x
    pendingFunctors := s.pendingFunctors ++ x.queued.map fun f => ⟨c, f⟩ }

/-- What a call on a connection leaves.  Its `closeCallback_` is `removeConnection`, which in the
loop thread is `removeConnectionInLoop`. -/
def absorb (c : ℕ) (x : ConnCtx) (s : ServerSystem) : ServerSystem :=
  if .close ∈ x.calls then (s.adopt c x).removeConnectionInLoop c x.conn.name else s.adopt c x

/-- The state after a call on a connection; an exception or an abort is no step. -/
def after (c : ℕ) (s : ServerSystem) : Result ConnCtx → Option ServerSystem
  | .ok x => some (s.absorb c x)
  | .fault (.assertion a) x => some { s.absorb c x with failed := some a }
  | .fault _ _ => none

/-- `Acceptor::handleRead`, with what `accept` returned. -/
def accept (accepted : Option Accepted) (s : ServerSystem) : Option ServerSystem :=
  match accepted with
  | none => some s
  | some a =>
      match s.server.newConnection s.tid a with
      | .ok server => some { s with server := server }
      | .fault (.assertion a) server => some { s with server := server, failed := some a }
      | .fault _ _ => none

/-- A handler of the channel of a connection. -/
def handle (c : ℕ) (conn : TcpConnection) (received : Option Bytes) (n : ℤ) (ret : Bool)
    (s : ServerSystem) : Handler → Option ServerSystem
  | .close => s.after c (conn.enter.handleClose s.tid ret)
  | .error => s.after c conn.enter.handleError
  | .read => s.after c (conn.enter.handleRead s.tid received ret)
  | .write =>
      if WriteResult conn.outputBuffer.readableBytes n then
        s.after c (conn.enter.handleWrite s.tid n ret)
      else none

/-- The next piece of work. -/
def work (accepted : Option Accepted) (received : Option Bytes) (n : ℤ) (ret : Bool)
    (s : ServerSystem) : Option ServerSystem :=
  match s.todo with
  | [] => none
  | .accept :: todo => { s with todo := todo }.accept accepted
  | .handler c h :: todo =>
      (s.server.conns[c]?).bind fun r => { s with todo := todo }.handle c r.conn received n ret h
  | .removeChannel c :: todo =>
      (s.server.conns[c]?).bind fun r =>
        { s with todo := todo }.after c (r.conn.enter.removeChannel true)

/-- User code in the loop thread. -/
def user (c : ℕ) (conn : TcpConnection) (n : ℤ) (ret : Bool) (s : ServerSystem) :
    UserOp → Option ServerSystem
  | .send message =>
      if WriteResult message.size n then s.after c (conn.enter.send s.tid message n ret) else none
  | .shutdown => s.after c (conn.enter.shutdown s.tid)
  | .setWriteCompleteCallback callback =>
      some (s.adopt c { conn with writeCompleteCallback := callback }.enter)
  | .inputBuffer op =>
      match op.apply conn.inputBuffer with
      | .ok b => some (s.adopt c { conn with inputBuffer := b }.enter)
      | .fault _ _ => none

/-- A functor of the batch. -/
def runTask (c : ℕ) (conn : TcpConnection) (n : ℤ) (ret : Bool) (s : ServerSystem) :
    Functor → Option ServerSystem
  | .sendInLoop message =>
      if WriteResult message.size n then s.after c (conn.enter.sendInLoop s.tid message n ret)
      else none
  | .shutdownInLoop => s.after c (conn.enter.shutdownInLoop s.tid)
  | .writeComplete => some s
  | .connectDestoryed =>
      { s with
        todo := [.removeChannel c]
        server.conns := s.server.conns.modify c fun r => { r with destroyed := true } }.after c
          (conn.enter.connectDestoryed s.tid ret)

/-- One step. -/
def next (s : ServerSystem) (a : ServerAction) : Option ServerSystem :=
  if s.failed.isSome then none
  else
    match a with
    | .poll active =>
        -- `epoll_wait` reports only channels that are registered, and each once
        if s.phase = .polling ∧ (active.filterMap Active.conn?).Nodup ∧
            ∀ c ∈ active.filterMap Active.conn?, ∃ r ∈ s.server.conns[c]?,
              r.conn.channel.registeredInEpoller = true then
          some { s with phase := .handling, todo := active.flatMap Active.works }
        else none
    | .work accepted received n ret => s.work accepted received n ret
    | .user c op n ret =>
        if s.phase = .polling then none
        else (s.server.conns[c]?).bind fun r => s.user c r.conn n ret op
    | .swap =>
        if s.phase = .handling ∧ s.todo = [] then
          some { s with phase := .running, batch := s.pendingFunctors, pendingFunctors := [] }
        else none
    | .call n ret =>
        match s.phase, s.todo, s.batch with
        | .running, [], task :: batch =>
            (s.server.conns[task.conn]?).bind fun r =>
              { s with batch := batch }.runTask task.conn r.conn n ret task.functor
        | _, _, _ => none
    | .finish =>
        if s.phase = .running ∧ s.todo = [] ∧ s.batch = [] then some { s with phase := .polling }
        else none

end ServerSystem

/-- The runs of a server with any number of IO threads, started in the thread of its loop. -/
def tcpServers : LTS ServerSystem ServerAction where
  init s := ∃ loop name numThreads threads server,
    ((TcpServer.new loop name).setThreadNum numThreads).start loop.threadId threads = .ok server ∧
      s = .new server
  next := ServerSystem.next

end Jiangbo
