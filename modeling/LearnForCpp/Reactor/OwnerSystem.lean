import LearnForCpp.Reactor.Connector
import LearnForCpp.Reactor.EpollSystem

/-!
# The owners of channels

What constructs, registers, uses and destroys the channels of one loop: `Acceptor`, alone or in a
`TcpServer`, `TcpConnection`, and `Connector` for its `TcpClient`.  Channels are numbered in the
order of their construction, and an owner that has one channel is known by its number.
`EpollSystem` is what the calls of `updateChannel` and `removeChannel` do; `epoll_ctl` succeeds.

A new descriptor is any number that no open socket has.  A `TcpConnection` exists as long as it is
referred to: by `connections_` or `connection_`, by a queued `connectDestoryed`, or by copies of its
`TcpConnectionPtr` in other hands.  The functors of `TcpServer::start` and of a `send` by another
thread hold no reference, only a raw pointer; so does that of a `shutdown`, which leaves every
interest alone and is not among them.  What `SO_ERROR`, timers and the peer decide is in the
actions, and the functors of the loop are called one by one.
-/

namespace Jiangbo

/-- What the `closeCallback_` of a connection is bound to. -/
inductive Home
  /-- `TcpServer::removeConnection`. -/
  | server (a : ℕ)
  /-- `TcpClient::removeConnection`. -/
  | client (k : ℕ)
  /-- `detail::removeConnection`. -/
  | detached
  deriving DecidableEq

/-- A `TcpConnection` that has been established. -/
structure ConnOwner where
  home : Home
  /-- `state_` is `kDisConnected`; before, it is `kConnected` or `kDisconnecting`. -/
  disconnected : Bool
  /-- It is in `connections_`, or it is `connection_`. -/
  held : Bool
  copies : ℕ
  /-- `sendInLoop` has enabled its channel after `connectDestoryed`. -/
  late : Bool
  deriving DecidableEq

/-- The owner of a channel. -/
inductive ChannelOwner
  | acceptor (listenning : Bool)
  | connection (x : ConnOwner)
  /-- `channel_` of connector `k`, and whether its attempt is in progress. -/
  | attempt (k : ℕ) (inProgress : Bool)
  deriving DecidableEq

/-- A `Connector`. -/
structure ConnectorOwner where
  /-- Its `TcpClient` has not been destroyed. -/
  client : Bool
  state : ConnectorState
  channel : Option ℕ
  deriving DecidableEq

/-- A functor in `pendingFunctors_`. -/
inductive OwnerTask
  | listen (a : ℕ)
  /-- `TcpConnection::sendInLoop`, bound to `this`. -/
  | sendInLoop (c : ℕ)
  | resetChannel (k : ℕ)
  | connectDestoryed (c : ℕ)
  deriving DecidableEq

/-- How an attempt ends: with a `retry`, connected and handed over, or connected after `stop()`. -/
inductive AttemptEnd
  | retry
  | handed
  | stopped
  deriving DecidableEq

/-- A call of an owner, by its user or by the loop. -/
inductive OwnerAction
  | newAcceptor (fd : ℤ)
  /-- `Acceptor::listen`. -/
  | listen (a : ℕ)
  /-- `TcpServer::start`. -/
  | start (a : ℕ) (inLoop : Bool)
  /-- `~Acceptor`, or `~TcpServer`. -/
  | destroyAcceptor (a : ℕ)
  /-- `Acceptor::handleRead` with `TcpServer::newConnection`. -/
  | accept (a : ℕ) (fd : ℤ)
  | newClient (k : ℕ)
  /-- `Connector::startInLoop`, when `connect` does not fail. -/
  | startInLoop (k : ℕ) (fd : ℤ)
  /-- `Connector::handleWrite` or `handleError`. -/
  | attemptEnd (k : ℕ) (how : AttemptEnd)
  /-- `~TcpClient`. -/
  | destroyClient (k : ℕ)
  /-- `~Connector`, when the timer of a destroyed client is deleted. -/
  | deleteConnector (k : ℕ)
  /-- `TcpConnection::sendInLoop` or `handleWrite`. -/
  | write (c : ℕ) (enable : Bool)
  /-- `TcpConnection::send` by another thread. -/
  | send (c : ℕ)
  /-- `TcpConnection::handleClose`, and whether `removeConnection` calls `restart`. -/
  | handleClose (c : ℕ) (restart : Bool)
  | copy (c : ℕ)
  | drop (c : ℕ)
  /-- The next functor, and whether it enables writing when it is a `sendInLoop`. -/
  | call (enable : Bool)
  deriving DecidableEq

/-- The loop, its epoller and the owners of channels. -/
structure OwnerSystem where
  epoll : EpollSystem ℕ
  /-- The channels constructed so far. -/
  created : ℕ
  /-- The owner of a channel that exists. -/
  owner : ℕ → Option ChannelOwner
  connector : ℕ → Option ConnectorOwner
  functors : List OwnerTask
  /-- A function of an owner that is gone has been called. -/
  misused : Bool

namespace ChannelOwner

/-- It has registered its channel, and not removed it. -/
def registers : ChannelOwner → Bool
  | acceptor listenning => listenning
  | connection x => !x.disconnected || x.late
  | attempt _ inProgress => inProgress

/-- It has an open socket, the one of its channel. -/
def opens : ChannelOwner → Bool
  | acceptor _ | connection _ => true
  | attempt _ inProgress => inProgress

/-- The connection that `home` holds. -/
def isHeldBy (home : Home) : ChannelOwner → Bool
  | connection x => x.held && decide (x.home = home)
  | acceptor _ | attempt _ _ => false

/-- Somebody besides `connections_` and `connection_` holds it. -/
def isCopied : ChannelOwner → Bool
  | connection x => decide (0 < x.copies)
  | acceptor _ | attempt _ _ => false

/-- `home` no longer holds it. -/
def release (home new : Home) (o : ChannelOwner) : ChannelOwner :=
  match o with
  | connection x =>
      if x.held ∧ x.home = home then connection { x with held := false, home := new } else o
  | acceptor _ | attempt _ _ => o

end ChannelOwner

/-- The kernel forgets the descriptors that are closed. -/
def EpollSystem.close {C : Type*} (closed : ℤ → Bool) (s : EpollSystem C) : EpollSystem C :=
  { s with
    epoller.interest := fun fd => if closed fd then none else s.epoller.interest fd
    added := fun fd => if closed fd then none else s.added fd }

namespace OwnerSystem

/-- A loop without owners. -/
def new : OwnerSystem := ⟨.new fun _ => .new 0 false, 0, fun _ => none, fun _ => none, [], false⟩

/-- No open socket has the number. -/
def Free (s : OwnerSystem) (fd : ℤ) : Prop :=
  ∀ c < s.created, (s.owner c).any ChannelOwner.opens = true → (s.epoll.channel c).fd ≠ fd

instance (s : OwnerSystem) (fd : ℤ) : Decidable (s.Free fd) :=
  inferInstanceAs (Decidable (∀ c < s.created, _ → _))

def fail (a : Assertion) (s : OwnerSystem) : OwnerSystem := { s with epoll.failed := some a }

/-- An assertion, and what follows when it holds. -/
def check (p : Bool) (a : Assertion) (s : OwnerSystem) (k : OwnerSystem → Option OwnerSystem) :
    Option OwnerSystem :=
  if p then k s else some (s.fail a)

/-- A call of the epoller, and what follows when it returns. -/
def ctl (a : EpollAction ℕ) (s : OwnerSystem) (k : OwnerSystem → Option OwnerSystem) :
    Option OwnerSystem :=
  (s.epoll.next a).bind fun e =>
    if e.failed.isSome then some { s with epoll := e } else k { s with epoll := e }

def setOwner (c : ℕ) (o : Option ChannelOwner) (s : OwnerSystem) : OwnerSystem :=
  { s with owner := Function.update s.owner c o }

def setConnector (k : ℕ) (x : Option ConnectorOwner) (s : OwnerSystem) : OwnerSystem :=
  { s with connector := Function.update s.connector k x }

def queueInLoop (task : OwnerTask) (s : OwnerSystem) : OwnerSystem :=
  { s with functors := s.functors ++ [task] }

def closefd (fd : ℤ) (s : OwnerSystem) : OwnerSystem :=
  { s with epoll := s.epoll.close fun x => x = fd }

/-- A new channel and its owner. -/
def construct (fd : ℤ) (enableet : Bool) (o : ChannelOwner) (s : OwnerSystem) : OwnerSystem :=
  { s with
    epoll.channel := Function.update s.epoll.channel s.created (.new fd enableet)
    owner := Function.update s.owner s.created (some o)
    created := s.created + 1 }

/-- `connections_` or `connection_` is cleared. -/
def release (home new : Home) (s : OwnerSystem) : OwnerSystem :=
  { s with owner := fun c => (s.owner c).map (ChannelOwner.release home new) }

/-- The owner exists: a connection is referred to. -/
def Refers (s : OwnerSystem) (c : ℕ) : ChannelOwner → Prop
  | .connection x => x.held = true ∨ 0 < x.copies ∨ .connectDestoryed c ∈ s.functors
  | .acceptor _ | .attempt _ _ => True

instance (s : OwnerSystem) (c : ℕ) : (o : ChannelOwner) → Decidable (s.Refers c o)
  | .connection _ => inferInstanceAs (Decidable (_ ∨ _))
  | .acceptor _ | .attempt _ _ => inferInstanceAs (Decidable True)

/-- `~TcpConnection` of the connections that nobody refers to. -/
def collect (s : OwnerSystem) : OwnerSystem :=
  { s with
    owner := fun c => (s.owner c).filter fun o => s.Refers c o
    epoll := s.epoll.close fun fd => decide (∃ c < s.created,
      (s.epoll.channel c).fd = fd ∧ ∃ o ∈ s.owner c, ¬s.Refers c o) }

/-- `TcpConnection::TcpConnection` and `connectEstablished`. -/
def newConnection (home : Home) (fd : ℤ) (s : OwnerSystem) : Option OwnerSystem :=
  (s.construct fd false (.connection ⟨home, false, true, 0, false⟩)).ctl
    (.update s.created .enableReading true) some

def listen (a : ℕ) (s : OwnerSystem) : Option OwnerSystem :=
  s.ctl (.update a .enableReading true) fun s =>
    some (s.setOwner a ((s.owner a).map fun _ => .acceptor true))

def startInLoop (k : ℕ) (x : ConnectorOwner) (fd : ℤ) (s : OwnerSystem) : Option OwnerSystem :=
  s.check (x.state = .kDisconnected) .startInLoopState fun s =>
    (s.setConnector k (some { x with state := .kConnecting })).check x.channel.isNone
      .connectingChannel fun s =>
        let x := { x with state := .kConnecting, channel := some s.created }
        ((s.setConnector k (some x)).construct fd true (.attempt k true)).ctl
          (.update s.created .enableWriting true) some

/-- What follows `removeAndResetChannel`. -/
def afterAttempt (k c : ℕ) (x : ConnectorOwner) (how : AttemptEnd) (s : OwnerSystem) :
    Option OwnerSystem :=
  let fd := (s.epoll.channel c).fd
  match how with
  | .retry => some ((s.closefd fd).setConnector k (some { x with state := .kDisconnected }))
  | .stopped => some ((s.closefd fd).setConnector k (some { x with state := .kConnected }))
  | .handed =>
      ((s.setConnector k (some { x with state := .kConnected })).release (.client k)
        (.client k)).newConnection (.client k) fd

def attemptEnd (k c : ℕ) (x : ConnectorOwner) (how : AttemptEnd) (s : OwnerSystem) :
    Option OwnerSystem :=
  s.ctl (.update c .disableAll true) fun s => s.ctl (.removeChannel c true) fun s =>
    ((s.setOwner c (some (.attempt k false))).queueInLoop (.resetChannel k)).afterAttempt k c x how

def deleteConnector (k : ℕ) (x : ConnectorOwner) (s : OwnerSystem) : Option OwnerSystem :=
  s.check x.channel.isNone .dtorChannel fun s => some (s.setConnector k none)

def destroyClient (k : ℕ) (x : ConnectorOwner) (s : OwnerSystem) : Option OwnerSystem :=
  if ∃ c < s.created, ∃ o ∈ s.owner c, o.isHeldBy (.client k) then
    (s.release (.client k) .detached).deleteConnector k x
  else some (s.setConnector k (some { x with client := false }))

/-- The client that a `closeCallback_` belongs to exists. -/
def hasClient (k : ℕ) (s : OwnerSystem) : Bool := (s.connector k).any ConnectorOwner.client

/-- Nobody holds the connection any more, and its `connectDestoryed` is queued. -/
def forget (c : ℕ) (x : ConnOwner) (s : OwnerSystem) : OwnerSystem :=
  (s.setOwner c (some (.connection { x with held := false }))).queueInLoop (.connectDestoryed c)

/-- The `closeCallback_`. -/
def closeCallback (c : ℕ) (x : ConnOwner) (restart : Bool) (s : OwnerSystem) : Option OwnerSystem :=
  match x.home with
  | .server a =>
      if (s.owner a).isNone then some { s with misused := true }
      else s.check x.held .removeConnectionErased fun s => some (s.forget c x)
  | .client k =>
      if !s.hasClient k then some { s with misused := true }
      else s.check x.held .removeConnectionCurrent fun s =>
        let s := s.forget c x
        some (if restart then
          s.setConnector k ((s.connector k).map fun x => { x with state := .kDisconnected }) else s)
  | .detached =>
      -- nobody has held it since its client was destroyed
      some (s.forget c x)

/-- What `sendInLoop` and `handleWrite` do to the interest. -/
def write (c : ℕ) (x : ConnOwner) (enable : Bool) (s : OwnerSystem) : Option OwnerSystem :=
  s.ctl (.update c (if enable then .enableWriting else .disableWriting) true) fun s =>
    some (s.setOwner c (some (.connection { x with
      late := x.late || (x.disconnected && enable) })))

def handleClose (c : ℕ) (x : ConnOwner) (restart : Bool) (s : OwnerSystem) : Option OwnerSystem :=
  s.check (!x.disconnected) .handleCloseState fun s =>
    s.ctl (.update c .disableAll true) fun s => s.closeCallback c x restart

/-- `TcpConnection::connectDestoryed`; its functor is one reference less when it returns. -/
def connectDestoryed (c : ℕ) (x : ConnOwner) (functors : List OwnerTask) (s : OwnerSystem) :
    Option OwnerSystem :=
  s.check (!x.disconnected) .connectDestoryedState fun s =>
    s.ctl (.update c .disableAll true) fun s => s.ctl (.removeChannel c true) fun s =>
      some { s.setOwner c (some (.connection { x with disconnected := true })) with
        functors := functors }

/-- The functor of a `send` by another thread, whatever has become of the connection. -/
def sendInLoop (c : ℕ) (enable : Bool) (s : OwnerSystem) : Option OwnerSystem :=
  if enable then
    match s.owner c with
    | some (.connection x) => s.write c x true
    | _ => s.ctl (.update c .enableWriting true) some
  else some s

/-- The next functor, and those after it. -/
def runTask (task : OwnerTask) (functors : List OwnerTask) (enable : Bool) (s : OwnerSystem) :
    Option OwnerSystem :=
  match task with
  | .listen a => { s with functors := functors }.listen a
  | .sendInLoop c => { s with functors := functors }.sendInLoop c enable
  | .resetChannel k =>
      match s.connector k with
      | none => some { s with misused := true }
      | some x =>
          some { (x.channel.elim s fun c => s.setOwner c none).setConnector k
            (some { x with channel := none }) with functors := functors }
  | .connectDestoryed c =>
      match s.owner c with
      | some (.connection x) => s.connectDestoryed c x functors
      | _ => none

/-- One step, before the references are counted. -/
def act (s : OwnerSystem) : OwnerAction → Option OwnerSystem
  | .newAcceptor fd => if s.Free fd then some (s.construct fd false (.acceptor false)) else none
  | .listen a =>
      match s.owner a with
      | some (.acceptor _) => s.listen a
      | _ => none
  | .start a inLoop =>
      match s.owner a with
      | some (.acceptor listenning) =>
          if listenning then some s
          else if inLoop then s.listen a else some (s.queueInLoop (.listen a))
      | _ => none
  | .destroyAcceptor a =>
      match s.owner a with
      | some (.acceptor _) =>
          some (((s.setOwner a none).closefd (s.epoll.channel a).fd).release (.server a)
            (.server a))
      | _ => none
  | .accept a fd =>
      if s.owner a = some (.acceptor true) ∧ s.Free fd then s.newConnection (.server a) fd else none
  | .newClient k =>
      if s.connector k = none then some (s.setConnector k (some ⟨true, .kDisconnected, none⟩))
      else none
  | .startInLoop k fd =>
      match s.connector k with
      | some x => if x.client ∧ s.Free fd then s.startInLoop k x fd else none
      | none => none
  | .attemptEnd k how =>
      match s.connector k with
      | some x =>
          match x.channel with
          | some c =>
              if s.owner c = some (.attempt k true) ∧ x.state = .kConnecting ∧
                (how = .handed → x.client) then s.attemptEnd k c x how
              else none
          | none => none
      | none => none
  | .destroyClient k =>
      match s.connector k with
      | some x => if x.client then s.destroyClient k x else none
      | none => none
  -- the timer of `~TcpClient` has fired: nobody else refers to the connector
  | .deleteConnector k =>
      match s.connector k with
      | some x => if x.client then none else s.deleteConnector k x
      | none => none
  | .write c enable =>
      match s.owner c with
      | some (.connection x) => s.write c x enable
      | _ => none
  | .send c =>
      match s.owner c with
      | some (.connection x) =>
          if x.disconnected then some s else some (s.queueInLoop (.sendInLoop c))
      | _ => none
  | .handleClose c restart =>
      match s.owner c with
      | some (.connection x) => s.handleClose c x restart
      | _ => none
  | .copy c =>
      match s.owner c with
      | some (.connection x) => some (s.setOwner c (some (.connection { x with
          copies := x.copies + 1 })))
      | _ => none
  | .drop c =>
      match s.owner c with
      | some (.connection x) =>
          if 0 < x.copies then
            some (s.setOwner c (some (.connection { x with copies := x.copies - 1 })))
          else none
      | _ => none
  | .call enable =>
      match s.functors with
      | [] => none
      | task :: functors => s.runTask task functors enable

/-- One step. -/
def next (s : OwnerSystem) (a : OwnerAction) : Option OwnerSystem :=
  if s.misused ∨ s.epoll.failed.isSome then none else (s.act a).map collect

end OwnerSystem

/-- The runs of a loop whose channels have owners. -/
def ownerSystems : LTS OwnerSystem OwnerAction where
  init s := s = .new
  next := OwnerSystem.next

end Jiangbo
