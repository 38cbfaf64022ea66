import LearnForCpp.Reactor.OutputStream

/-!
# A connection among threads

One established connection, the loop that runs it, its owner and the threads that call it:
`reactor/TcpConnection.cc` with `doPendingFunctions` and `queueInLoop` of `reactor/EventLoop.cc`,
`removeConnection` of `reactor/TcpServer.cc` and of `reactor/TcpClient.cc`.

`send` and `shutdown` may be called by any thread at any time.  Their steps are those that other
threads can observe: the test of `state_`, the store to it, the push to `pendingFunctors_` (or the
call itself, in the loop thread), and the return.  The loop thread dispatches the handlers of an
event one by one, swaps `pendingFunctors_` and runs the batch; between these steps the loop thread
itself may be a caller, which is what users do in callbacks, timers and functors of their own.

A failed assertion is kept in the state and ends the run there.  An exception or an abort is no
step.
-/

namespace Jiangbo

open OutputStream (WriteResult)

/-- A message together with the number of the `send()` call it was given to. -/
abbrev Ticket := ℕ × StdString

/-- An element of `pendingFunctors_`; a `sendInLoop` carries the number of its `send()` call. -/
structure Task where
  functor : Functor
  ticket : Option ℕ
  deriving DecidableEq

/-- Where a thread's call of `send` or `shutdown` stands. -/
inductive CallPoint
  | idle
  /-- `send` found `kConnected`. -/
  | sendFound (p : Ticket)
  /-- `send` has pushed or passed its message and returns next. -/
  | sendReturning (p : Ticket)
  /-- `shutdown` has begun after the `send()` calls in `before` had returned. -/
  | shutdownBegun (before : List Ticket)
  /-- `shutdown` found `kConnected`. -/
  | shutdownFound (before : List Ticket)
  /-- `shutdown` has stored `kDisconnecting`. -/
  | shutdownSet
  deriving DecidableEq

/-- What the loop thread does next before the rest of its batch. -/
inductive LoopWork
  | handler (h : Handler)
  /-- The end of `connectDestoryed`. -/
  | removeChannel
  deriving DecidableEq

/-- Who set `closeCallback_`. -/
inductive Owner
  | server
  | client
  /-- A client that was deleted: `detail::removeConnection`. -/
  | detached
  deriving DecidableEq

/-- A connection, its loop, its owner and its callers. -/
structure ConnSystem where
  conn : TcpConnection
  owner : Owner
  /-- The name is a key of `connections_`, or `connection_` is this connection. -/
  tracked : Bool
  todo : List LoopWork
  /-- The `functions` of `doPendingFunctions` still to be called. -/
  batch : List Task
  pendingFunctors : List Task
  pc : Tid → CallPoint
  nextTicket : ℕ
  /-- The messages passed to `sendInLoop`, in call order. -/
  passed : List Ticket
  /-- The messages whose `send()` found `kConnected` and returned. -/
  returned : List Ticket
  /-- Those of them that returned before a `shutdown()` that stored `kDisconnecting` began. -/
  must : List Ticket
  /-- The calls of `closeCallback_`. -/
  closeCalls : ℕ
  /-- The calls of `connectDestoryed`. -/
  destroyCalls : ℕ
  /-- `connectDestoryed` has returned. -/
  destroyed : Bool
  failed : Option Assertion

/-- A step of the loop or of a calling thread. -/
inductive ConnAction
  | callSend (t : Tid) (message : StdString)
  | callShutdown (t : Tid)
  /-- The next step of the call of `t`. -/
  | proceed (t : Tid) (n : ℤ) (ret : Bool)
  /-- `epoll_wait` reports `revents` for the channel. -/
  | event (revents : EventMask)
  /-- The next handler, or the end of `connectDestoryed`. -/
  | work (received : Option Bytes) (n : ℤ) (ret : Bool)
  | swap
  /-- The next functor of the batch. -/
  | call (n : ℤ) (ret : Bool)
  | setWriteCompleteCallback (callback : Bool)
  | inputBuffer (op : Buffer.Op)
  /-- `~TcpClient`. -/
  | detach
  deriving DecidableEq

namespace ConnSystem

/-- An established connection of an owner, before any call. -/
def new (conn : TcpConnection) (owner : Owner) : ConnSystem where
  conn := conn
  owner := owner
  tracked := true
  todo := []
  batch := []
  pendingFunctors := []
  pc := fun _ => .idle
  nextTicket := 0
  passed := []
  returned := []
  must := []
  closeCalls := 0
  destroyCalls := 0
  destroyed := false
  failed := none

def setPc (s : ConnSystem) (t : Tid) (c : CallPoint) : ConnSystem :=
  { s with pc := Function.update s.pc t c }

def push (s : ConnSystem) (task : Task) : ConnSystem :=
  { s with pendingFunctors := s.pendingFunctors ++ [task] }

/-- `closeCallback_(shared_from_this())`, in the loop thread: `removeConnectionInLoop` of a server,
`removeConnection` of a client, or `detail::removeConnection`. -/
def closeCallback (s : ConnSystem) : ConnSystem :=
  let s := { s with closeCalls := s.closeCalls + 1 }
  match s.owner with
  | .server =>
      if s.tracked then { s with tracked := false }.push ⟨.connectDestoryed, none⟩
      -- the name was erased before: `assert(n == 1)` fails
      else { s with failed := some .removeConnectionErased }
  | .client =>
      if s.tracked then { s with tracked := false }.push ⟨.connectDestoryed, none⟩
      -- `connection_` was reset before: `assert(connection_ == conn)` fails
      else { s with failed := some .removeConnectionCurrent }
  | .detached => s.push ⟨.connectDestoryed, none⟩

/-- The connection after a call, and the functors it queued. -/
def adopt (s : ConnSystem) (ticket : Option ℕ) (x : ConnCtx) : ConnSystem :=
  { s with
    conn := x.conn
    pendingFunctors := s.pendingFunctors ++ x.queued.map fun f => ⟨f, ticket⟩ }

/-- What a call on the connection leaves: its functors are pushed, and its owner is told. -/
def absorb (s : ConnSystem) (ticket : Option ℕ) (x : ConnCtx) : ConnSystem :=
  if .close ∈ x.calls then (s.adopt ticket x).closeCallback else s.adopt ticket x

/-- The state after a call on the connection. -/
def after (s : ConnSystem) (ticket : Option ℕ) : Result ConnCtx → Option ConnSystem
  | .ok x => some (s.absorb ticket x)
  | .fault (.assertion a) x => some { s.absorb ticket x with failed := some a }
  | .fault _ _ => none

/-- The thread of the loop. -/
def tid (s : ConnSystem) : Tid := s.conn.loop.threadId

/-- The next step of a call of `send` or `shutdown`. -/
def proceed (s : ConnSystem) (t : Tid) (n : ℤ) (ret : Bool) : Option ConnSystem :=
  match s.pc t with
  | .idle => none
  | .sendFound p =>
      if WriteResult p.2.size n then
        -- what `sendInLoop` is given in the loop thread overtakes what is queued for it
        let inLoop := s.conn.loop.isInLoopThread t
        ({ s with passed := if inLoop then s.passed ++ [p] else s.passed }.setPc t
          (.sendReturning p)).after (some p.1) (s.conn.enter.sendConnected t p.2 n ret)
      else none
  | .sendReturning p => some ({ s with returned := s.returned ++ [p] }.setPc t .idle)
  | .shutdownBegun before =>
      -- the test and the store of `shutdown` are two steps
      some (s.setPc t (if s.conn.state = .kConnected then .shutdownFound before else .idle))
  | .shutdownFound before =>
      some ({ s with conn.state := .kDisconnecting, must := s.must ++ before }.setPc t .shutdownSet)
  | .shutdownSet => (s.setPc t .idle).after none (s.conn.enter.runShutdownInLoop t)

/-- A handler of the channel. -/
def handle (s : ConnSystem) (received : Option Bytes) (n : ℤ) (ret : Bool) :
    Handler → Option ConnSystem
  | .close => s.after none (s.conn.enter.handleClose s.tid ret)
  | .error => s.after none s.conn.enter.handleError
  | .read => s.after none (s.conn.enter.handleRead s.tid received ret)
  | .write =>
      if WriteResult s.conn.outputBuffer.readableBytes n then
        s.after none (s.conn.enter.handleWrite s.tid n ret)
      else none

/-- The next piece of work of the loop thread. -/
def work (s : ConnSystem) (received : Option Bytes) (n : ℤ) (ret : Bool) : Option ConnSystem :=
  match s.todo with
  | [] => none
  | .handler h :: todo => { s with todo := todo }.handle received n ret h
  -- the end of `connectDestoryed`, after the callback
  | .removeChannel :: todo =>
      { s with todo := todo, destroyed := true }.after none (s.conn.enter.removeChannel ret)

/-- A functor of the batch. -/
def runTask (s : ConnSystem) (n : ℤ) (ret : Bool) (task : Task) : Option ConnSystem :=
  match task.functor with
  | .sendInLoop message =>
      if WriteResult message.size n then
        { s with passed := s.passed ++ (task.ticket.map (·, message)).toList }.after none
          (s.conn.enter.sendInLoop s.tid message n ret)
      else none
  | .shutdownInLoop => s.after none (s.conn.enter.shutdownInLoop s.tid)
  | .writeComplete => some s
  | .connectDestoryed =>
      { s with todo := [.removeChannel], destroyCalls := s.destroyCalls + 1 }.after none
        (s.conn.enter.connectDestoryed s.tid ret)

/-- The next functor of the batch, when the work before it is done. -/
def call (s : ConnSystem) (n : ℤ) (ret : Bool) : Option ConnSystem :=
  match s.todo, s.batch with
  | [], task :: batch => { s with batch := batch }.runTask n ret task
  | _, _ => none

/-- A step of the loop thread. -/
def loopNext (s : ConnSystem) : ConnAction → Option ConnSystem
  | .event revents =>
      if s.todo = [] ∧ s.batch = [] ∧ s.conn.channel.registeredInEpoller = true then
        -- the handlers are fixed by the events that were reported
        some { s with todo := (Channel.handleEvent revents).map .handler }
      else none
  | .work received n ret => s.work received n ret
  | .swap =>
      if s.todo = [] ∧ s.batch = [] then
        some { s with batch := s.pendingFunctors, pendingFunctors := [] }
      else none
  | .call n ret => s.call n ret
  | .setWriteCompleteCallback callback => some { s with conn.writeCompleteCallback := callback }
  | .inputBuffer op =>
      match op.apply s.conn.inputBuffer with
      | .ok b => some { s with conn.inputBuffer := b }
      | .fault _ _ => none
  | .detach =>
      if s.owner = .client ∧ s.tracked = true then some { s with owner := .detached } else none
  | .callSend _ _ | .callShutdown _ | .proceed _ _ _ => none

/-- A step of a calling thread. -/
def callerNext (s : ConnSystem) : ConnAction → Option ConnSystem
  | .callSend t message =>
      if s.pc t = .idle then
        if s.conn.state = .kConnected then
          some ({ s with nextTicket := s.nextTicket + 1 }.setPc t
            (.sendFound (s.nextTicket, message)))
        else some s
      else none
  | .callShutdown t => if s.pc t = .idle then some (s.setPc t (.shutdownBegun s.returned)) else none
  | .proceed t n ret => s.proceed t n ret
  | _ => none

/-- One step: the loop thread goes on only when its own call of `send` or `shutdown` is over. -/
def next (s : ConnSystem) (a : ConnAction) : Option ConnSystem :=
  if s.failed.isSome then none
  else
    match a with
    | .callSend _ _ | .callShutdown _ | .proceed _ _ _ => s.callerNext a
    | _ => if s.pc s.tid = .idle then s.loopNext a else none

/-! ### What a step can do -/

/-- The steps, one constructor for each way to go on. -/
inductive Step (s : ConnSystem) : ConnAction → ConnSystem → Prop
  | sendFound {t : Tid} {message : StdString} (hpc : s.pc t = .idle)
      (hstate : s.conn.state = .kConnected) :
      Step s (.callSend t message) ({ s with nextTicket := s.nextTicket + 1 }.setPc t
        (.sendFound (s.nextTicket, message)))
  | sendRefused {t : Tid} {message : StdString} : Step s (.callSend t message) s
  | sendConnected {t : Tid} {n : ℤ} {ret : Bool} {p : Ticket} {u : ConnSystem}
      (hpc : s.pc t = .sendFound p) (hn : WriteResult p.2.size n)
      (h : ({ s with passed := if s.conn.loop.isInLoopThread t then s.passed ++ [p] else s.passed
        }.setPc t (.sendReturning p)).after (some p.1)
          (s.conn.enter.sendConnected t p.2 n ret) = some u) : Step s (.proceed t n ret) u
  | sendReturn {t : Tid} {n : ℤ} {ret : Bool} {p : Ticket} (hpc : s.pc t = .sendReturning p) :
      Step s (.proceed t n ret) ({ s with returned := s.returned ++ [p] }.setPc t .idle)
  | shutdownBegin {t : Tid} : Step s (.callShutdown t) (s.setPc t (.shutdownBegun s.returned))
  | shutdownTest {t : Tid} {n : ℤ} {ret : Bool} {before : List Ticket}
      (hpc : s.pc t = .shutdownBegun before) : Step s (.proceed t n ret)
        (s.setPc t (if s.conn.state = .kConnected then .shutdownFound before else .idle))
  | shutdownStore {t : Tid} {n : ℤ} {ret : Bool} {before : List Ticket}
      (hpc : s.pc t = .shutdownFound before) : Step s (.proceed t n ret)
        ({ s with conn.state := .kDisconnecting, must := s.must ++ before }.setPc t .shutdownSet)
  | runShutdown {t : Tid} {n : ℤ} {ret : Bool} {u : ConnSystem} (hpc : s.pc t = .shutdownSet)
      (h : (s.setPc t .idle).after none (s.conn.enter.runShutdownInLoop t) = some u) :
      Step s (.proceed t n ret) u
  | event {revents : EventMask} (htodo : s.todo = []) (hbatch : s.batch = [])
      (hreg : s.conn.channel.registeredInEpoller = true) : Step s (.event revents)
        { s with todo := (Channel.handleEvent revents).map .handler }
  | handler {received : Option Bytes} {n : ℤ} {ret : Bool} {h : Handler} {todo : List LoopWork}
      {u : ConnSystem} (htodo : s.todo = .handler h :: todo)
      (hu : { s with todo := todo }.handle received n ret h = some u) :
      Step s (.work received n ret) u
  | removeChannel {received : Option Bytes} {n : ℤ} {ret : Bool} {todo : List LoopWork}
      {u : ConnSystem} (htodo : s.todo = .removeChannel :: todo)
      (hu : { s with todo := todo, destroyed := true }.after none
        (s.conn.enter.removeChannel ret) = some u) : Step s (.work received n ret) u
  | swap (htodo : s.todo = []) (hbatch : s.batch = []) :
      Step s .swap { s with batch := s.pendingFunctors, pendingFunctors := [] }
  | task {n : ℤ} {ret : Bool} {task : Task} {batch : List Task} {u : ConnSystem}
      (htodo : s.todo = []) (hbatch : s.batch = task :: batch)
      (hu : { s with batch := batch }.runTask n ret task = some u) : Step s (.call n ret) u
  | setWriteCompleteCallback {callback : Bool} : Step s (.setWriteCompleteCallback callback)
      { s with conn.writeCompleteCallback := callback }
  | inputBuffer {op : Buffer.Op} {b : Buffer} : Step s (.inputBuffer op)
      { s with conn.inputBuffer := b }
  | detach : Step s .detach { s with owner := .detached }

theorem proceed_step {s u : ConnSystem} {t : Tid} {n : ℤ} {ret : Bool}
    (h : s.proceed t n ret = some u) : Step s (.proceed t n ret) u := by
  unfold proceed at h
  split at h
  · cases h
  · split_ifs at h with hn
    exact .sendConnected ‹_› hn h
  · cases h
    exact .sendReturn ‹_›
  · cases h
    exact .shutdownTest ‹_›
  · cases h
    exact .shutdownStore ‹_›
  · exact .runShutdown ‹_› h

theorem loopNext_step {s u : ConnSystem} {a : ConnAction} (h : s.loopNext a = some u) :
    Step s a u := by
  cases a with
  | event revents =>
    simp only [loopNext] at h
    split_ifs at h with hg
    cases h
    exact .event hg.1 hg.2.1 hg.2.2
  | work received n ret =>
    simp only [loopNext, work] at h
    split at h
    · cases h
    · exact .handler ‹_› h
    · exact .removeChannel ‹_› h
  | swap =>
    simp only [loopNext] at h
    split_ifs at h with hg
    cases h
    exact .swap hg.1 hg.2
  | call n ret =>
    simp only [loopNext, call] at h
    split at h
    · exact .task ‹_› ‹_› h
    · cases h
  | setWriteCompleteCallback callback =>
    cases h
    exact .setWriteCompleteCallback
  | inputBuffer op =>
    simp only [loopNext] at h
    split at h <;> cases h
    exact .inputBuffer
  | detach =>
    simp only [loopNext] at h
    split_ifs at h
    cases h
    exact .detach
  | _ => cases h

/-- Every step is one of `Step`, by a system in which nothing has failed; the loop thread makes its
own steps only outside a call of `send` or `shutdown`. -/
theorem next_step {s u : ConnSystem} {a : ConnAction} (h : s.next a = some u) :
    s.failed = none ∧ Step s a u := by
  have hf : s.failed = none := by
    by_contra hne
    unfold next at h
    rw [if_pos (Option.isSome_iff_ne_none.2 hne)] at h
    cases h
  refine ⟨hf, ?_⟩
  simp only [next, hf, Option.isSome_none, Bool.false_eq_true, if_false] at h
  cases a with
  | callSend t message =>
    simp only [callerNext] at h
    split_ifs at h with hpc hstate <;> cases h
    · exact .sendFound hpc hstate
    · exact .sendRefused
  | callShutdown t =>
    simp only [callerNext] at h
    split_ifs at h
    cases h
    exact .shutdownBegin
  | proceed t n ret => exact proceed_step h
  | _ =>
    simp only at h
    split_ifs at h
    exact loopNext_step h

/-- A call leaves what `absorb` says, and perhaps a failed assertion. -/
theorem after_eq_some {s u : ConnSystem} {ticket : Option ℕ} {o : Result ConnCtx}
    (h : s.after ticket o = some u) :
    (∃ x, o = .ok x ∧ u = s.absorb ticket x) ∨
      ∃ a x, o = .fault (.assertion a) x ∧ u = { s.absorb ticket x with failed := some a } := by
  unfold after at h
  split at h
  · exact .inl ⟨_, rfl, (Option.some.inj h).symm⟩
  · exact .inr ⟨_, _, rfl, (Option.some.inj h).symm⟩
  · cases h

/-! ### What `absorb` changes -/

variable {s u : ConnSystem} {k : Option ℕ} {x : ConnCtx} {o : Result ConnCtx}

@[simp] theorem closeCallback_conn (s : ConnSystem) : s.closeCallback.conn = s.conn := by
  unfold closeCallback push
  dsimp only
  split <;> (try split_ifs) <;> rfl

@[simp] theorem closeCallback_closeCalls (s : ConnSystem) :
    s.closeCallback.closeCalls = s.closeCalls + 1 := by
  unfold closeCallback push
  dsimp only
  split <;> (try split_ifs) <;> rfl

@[simp] theorem absorb_conn (s : ConnSystem) : (s.absorb k x).conn = x.conn := by
  unfold absorb
  split_ifs
  · exact closeCallback_conn _
  · rfl

theorem absorb_closeCalls (s : ConnSystem) : (s.absorb k x).closeCalls =
    s.closeCalls + if .close ∈ x.calls then 1 else 0 := by
  unfold absorb
  split_ifs
  · exact closeCallback_closeCalls _
  · rfl

/-- The connection after a call is that of the state left behind. -/
theorem after_conn (h : s.after k o = some u) : u.conn = o.state.conn := by
  rcases after_eq_some h with ⟨x, rfl, rfl⟩ | ⟨a, x, rfl, rfl⟩ <;> exact absorb_conn s

theorem after_closeCalls (h : s.after k o = some u) : s.closeCalls ≤ u.closeCalls := by
  rcases after_eq_some h with ⟨x, rfl, rfl⟩ | ⟨a, x, rfl, rfl⟩
  · rw [absorb_closeCalls]; omega
  · simp only [absorb_closeCalls]; omega

/-- After a call nothing has failed only if the call returned. -/
theorem after_ok (h : s.after k o = some u) (hf : u.failed = none) :
    ∃ x, o = .ok x ∧ u = s.absorb k x := by
  rcases after_eq_some h with h | ⟨a, x, rfl, rfl⟩
  · exact h
  · cases hf

end ConnSystem

/-- The runs of an established connection. -/
def connections : LTS ConnSystem ConnAction where
  init s := ∃ conn owner, TcpConnection.Established conn ∧ s = .new conn owner
  next := ConnSystem.next

theorem sample_init (owner : Owner) : connections.init (.new .sample owner) :=
  ⟨_, owner, TcpConnection.sample_established, rfl⟩

/-! ### What a call on a connection leaves -/

namespace ConnCtx

variable {x y : ConnCtx} {c : TcpConnection} {tid : Tid} {message : StdString} {n : ℤ} {ret : Bool}

/-- The marks that a call on `c` leaves outside the stream: it keeps the output buffer well formed
and the state, queues no `connectDestoryed`, and tells the owner if and only if it `closes`, of a
channel without interest. -/
structure Effect (c : TcpConnection) (closes : Prop) (y : ConnCtx) : Prop where
  wf : c.outputBuffer.WF → y.conn.outputBuffer.WF
  state : y.conn.state = c.state
  queued : .connectDestoryed ∉ y.queued
  close_iff : .close ∈ y.calls ↔ closes
  events : closes → y.conn.channel.events = Channel.kNoneEvent

/-- The effect of a call that does not tell the owner. -/
theorem effect_of_calls (hwf : c.outputBuffer.WF → y.conn.outputBuffer.WF)
    (hstate : y.conn.state = c.state) (hq : .connectDestoryed ∉ y.queued)
    (hc : .close ∉ y.calls) : Effect c False y :=
  ⟨hwf, hstate, hq, iff_of_false hc id, False.elim⟩

theorem sendInLoop_effect (h : c.enter.sendInLoop tid message n ret = .ok y) :
    Effect c False y := by
  have hstep := sendInLoop_step h
  refine effect_of_calls
    (fun hwf => ((sendInLoop_wf hwf (sendInLoop_inLoopThread h)).of_ok h).1) hstep.state ?_ ?_
  · intro hq
    rcases hstep.queued _ hq with hq | hq
    · cases hq
    · cases hq
  · rw [hstep.calls]
    exact List.not_mem_nil

theorem sendConnected_effect (h : c.enter.sendConnected tid message n ret = .ok y) :
    Effect c False y := by
  rcases sendConnected_eq_ok h with ⟨-, h⟩ | ⟨-, rfl⟩
  · exact sendInLoop_effect h
  · exact effect_of_calls id rfl (by simp [queueInLoop, TcpConnection.enter]) List.not_mem_nil

theorem shutdownInLoop_effect (h : c.enter.shutdownInLoop tid = .ok y) : Effect c False y := by
  obtain ⟨s, rfl, -⟩ := shutdownInLoop_eq_ok h
  exact effect_of_calls id rfl List.not_mem_nil List.not_mem_nil

theorem runShutdownInLoop_effect (h : c.enter.runShutdownInLoop tid = .ok y) :
    Effect c False y := by
  rcases runShutdownInLoop_eq_ok h with ⟨-, h⟩ | ⟨-, rfl⟩
  · exact shutdownInLoop_effect h
  · exact effect_of_calls id rfl (by simp [queueInLoop, TcpConnection.enter]) List.not_mem_nil

theorem handleClose_effect (h : c.enter.handleClose tid ret = .ok y) : Effect c True y := by
  obtain ⟨-, rfl⟩ := handleClose_eq_ok h
  exact ⟨id, rfl, List.not_mem_nil, iff_of_true List.mem_cons_self trivial,
    fun _ => Channel.disableAll_events ret _⟩

theorem handleError_effect (h : c.enter.handleError = .ok y) : Effect c False y :=
  Outcome.ok.inj h ▸ effect_of_calls id rfl List.not_mem_nil List.not_mem_nil

theorem handleRead_effect {received : Option Bytes}
    (h : c.enter.handleRead tid received ret = .ok y) : Effect c (received = some []) y := by
  obtain ⟨b, ⟨rfl, rfl⟩ | ⟨rfl, hb⟩ | ⟨_, _, rfl, rfl⟩⟩ := handleRead_eq_ok h
  · exact ⟨id, rfl, List.not_mem_nil, iff_of_false List.not_mem_nil nofun, nofun⟩
  · have hclose := handleClose_effect (c := { c with inputBuffer := b }) hb
    exact ⟨hclose.wf, hclose.state, hclose.queued, hclose.close_iff.trans (by simp),
      fun _ => hclose.events trivial⟩
  · refine ⟨id, rfl, List.not_mem_nil, iff_of_false ?_ (by simp), by simp⟩
    simp [call, setInputBuffer, TcpConnection.enter]

/-- The queue after `drain` has at most a write-complete callback more. -/
theorem drain_queued {f : Functor} (h : f ∈ (x.drain ret).queued) :
    f ∈ x.queued ∨ f = .writeComplete := by
  rw [drain, queueWriteComplete_queued] at h
  split_ifs at h
  · exact (List.mem_append.1 h).imp_right List.mem_singleton.1
  · exact .inl h

theorem handleWrite_effect (hn : WriteResult c.outputBuffer.readableBytes n)
    (h : c.enter.handleWrite tid n ret = .ok y) : Effect c False y := by
  rcases handleWrite_eq_ok h with ⟨-, rfl⟩ | ⟨-, hpos, b, hb, hcase⟩
  · exact effect_of_calls id rfl List.not_mem_nil List.not_mem_nil
  have hle : n.toNat ≤ c.outputBuffer.readableBytes := by
    have := hn.2
    omega
  have hwf : c.outputBuffer.WF → b.WF := by
    intro hwf
    obtain ⟨b', hb', hafter⟩ := Buffer.retrieve_spec hwf hle
    obtain rfl : b' = b := Outcome.ok.inj (hb'.symm.trans hb)
    exact hafter.wf
  have hdrain : Effect c False ((c.enter.flush n b).drain ret) := by
    refine effect_of_calls (fun h => ?_) ?_ (fun hq => ?_) ?_
    · rw [drain_conn]; exact hwf h
    · rw [drain_conn]; rfl
    · rcases drain_queued hq with hq | hq
      · cases hq
      · cases hq
    · rw [drain, queueWriteComplete_calls]; exact List.not_mem_nil
  rcases hcase with ⟨-, rfl⟩ | ⟨-, -, h⟩ | ⟨-, -, rfl⟩
  · exact effect_of_calls hwf rfl List.not_mem_nil List.not_mem_nil
  · obtain ⟨s, rfl, -⟩ := shutdownInLoop_eq_ok h
    exact effect_of_calls hdrain.wf hdrain.state hdrain.queued hdrain.close_iff.1
  · exact hdrain

theorem removeChannel_effect (h : c.enter.removeChannel ret = .ok y) : Effect c False y := by
  obtain ⟨-, -, rfl⟩ := removeChannel_eq_ok h
  exact effect_of_calls id rfl List.not_mem_nil List.not_mem_nil

theorem connectDestoryed_effect (h : c.enter.connectDestoryed tid ret = .ok y) :
    Effect { c with state := .kDisConnected } False y := by
  obtain ⟨-, rfl⟩ := connectDestoryed_eq_ok h
  exact effect_of_calls id rfl List.not_mem_nil
    (by simp [call, setChannel, setState, TcpConnection.enter])

end ConnCtx

end Jiangbo
