import LearnForCpp.Reactor.SocketOwnership

/-!
# A client and its connector

`reactor/TcpClient.cc` over `ConnectorSystem`.  `newConnectionCallBack_` is `newConnection`; a
connection is known by its socket.  Of a connection only the call of its `closeCallback_` matters,
which its own channel makes in a batch of `epoll_wait` that began after it was established; the
call is `removeConnection`.

`connects` and `restarts` count the calls of `connect()` and of `Connector::restart()`.
-/

namespace Jiangbo

/-- `TcpClient`. -/
structure TcpClient where
  retry : Bool
  connect : Bool
  nextConnId : ℕ
  connection : Option ℤ
  deriving DecidableEq

/-- The constructor. -/
def TcpClient.new : TcpClient := ⟨false, true, 1, none⟩

/-- A client, its connector and its loop. -/
structure ClientSystem where
  connector : ConnectorSystem
  client : TcpClient
  /-- The connections that were handed over and whose `closeCallback_` has not been called. -/
  alive : List ℤ
  /-- Those of them that may be active in the present batch. -/
  active : List ℤ
  connects : ℕ
  restarts : ℕ
  deriving DecidableEq

/-- A call of the client, of the `closeCallback_` of a connection, or a step of the loop. -/
inductive ClientAction
  | connect (inLoop : Bool) (d : Dial) (now : ℤ)
  | disconnect
  | stop
  | enableRetry
  | close (conn : ℤ) (d : Dial) (now : ℤ)
  | loop (a : ConnectorAction)
  deriving DecidableEq

/-- The steps of the loop, in contrast to the calls of the connector by its owner. -/
def ConnectorAction.isLoop : ConnectorAction → Bool
  | start _ _ _ | restart _ _ | stop => false
  | poll _ _ | event _ _ _ | handleRead _ _ | expire _ _ | reset | swap | call _ _ | finish => true

/-- The loop is among the handlers of its active channels. -/
def ConnectorPhase.isHandling : ConnectorPhase → Bool
  | handling _ _ => true
  | expiring _ _ | running _ | polling => false

namespace ClientSystem

/-- A client that has just been constructed. -/
def new : ClientSystem := ⟨.new, .new, [], [], 0, 0⟩

def newConnection (s : ClientSystem) (sockfd : ℤ) : ClientSystem :=
  { s with
    client := { s.client with
      nextConnId := s.client.nextConnId + 1
      connection := some sockfd }
    alive := s.alive ++ [sockfd] }

/-- A step of the loop, with the calls of `newConnectionCallBack_` in it. -/
def adopt (s : ClientSystem) (c : ConnectorSystem) : ClientSystem :=
  (c.ctx.sockets.handed.drop s.connector.ctx.sockets.handed.length).foldl newConnection
    { s with connector := c }

/-- `removeConnection` after its assertion. -/
def forget (s : ClientSystem) (conn : ℤ) : ClientSystem :=
  { s with
    connector.ctx := s.connector.ctx.queueInLoop (.connectDestoryed conn)
    client.connection := none
    alive := s.alive.erase conn }

def removeConnection (s : ClientSystem) (conn : ℤ) (d : Dial) (now : ℤ) : Option ClientSystem :=
  if s.client.connection = some conn then
    let u := s.forget conn
    if s.client.retry ∧ s.client.connect then
      (u.connector.next (.restart d now)).map fun c =>
        { u with connector := c, restarts := u.restarts + 1 }
    else some u
  else some { s with connector.failed := some .removeConnectionCurrent }

/-- One step. -/
def next (s : ClientSystem) (a : ClientAction) : Option ClientSystem :=
  if s.connector.failed.isSome then none
  else
    match a with
    | .connect inLoop d now =>
        (s.connector.next (.start inLoop d now)).map fun c =>
          { s with connector := c, client.connect := true, connects := s.connects + 1 }
    | .disconnect =>
        -- `shutdown` of the connection does not close it
        some { s with client.connect := false }
    | .stop =>
        (s.connector.next .stop).map fun c => { s with connector := c, client.connect := false }
    | .enableRetry => some { s with client.retry := true }
    | .close conn d now =>
        if s.connector.phase.isHandling ∧ conn ∈ s.active ∧ conn ∈ s.alive then
          s.removeConnection conn d now
        else none
    | .loop a =>
        if a.isLoop then
          (s.connector.next a).map fun c =>
            let t := s.adopt c
            { t with active := if s.connector.phase = .polling then s.alive else s.active }
        else none

/-- The connector as an entry of `startInLoop` finds it. -/
def entry (s : ClientSystem) : ClientAction → Option Connector
  | .connect inLoop _ _ =>
      if inLoop then some { s.connector.ctx.connector with connect := true } else none
  | .close _ _ _ =>
      if s.client.retry ∧ s.client.connect then some s.connector.ctx.reinit.connector else none
  | .loop (.expire _ _) => some s.connector.ctx.connector
  | .loop (.call _ _) =>
      if s.connector.phase.functions.head? = some .startInLoop then some s.connector.ctx.connector
      else none
  | _ => none

/-! ### What a step can do -/

variable {s : ClientSystem}

/-- A step that hands nothing over. -/
theorem adopt_eq {c : ConnectorSystem}
    (h : c.ctx.sockets.handed = s.connector.ctx.sockets.handed) :
    s.adopt c = { s with connector := c } := by
  rw [adopt, h, List.drop_length, List.foldl_nil]

theorem adopt_handed {c : ConnectorSystem} {sockfd : ℤ}
    (h : c.ctx.sockets.handed = s.connector.ctx.sockets.handed ++ [sockfd]) :
    s.adopt c = { s with connector := c }.newConnection sockfd := by
  rw [adopt, h, List.drop_left, List.foldl_cons, List.foldl_nil]

/-- The callbacks of a step change the client and its connections. -/
theorem adopt_fields (c : ConnectorSystem) : ∃ client alive,
    s.adopt c = { s with connector := c, client := client, alive := alive } := by
  unfold adopt
  generalize c.ctx.sockets.handed.drop s.connector.ctx.sockets.handed.length = l
  have : ∀ u : ClientSystem, ∃ client alive,
      l.foldl newConnection u = { u with client := client, alive := alive } := by
    induction l with
    | nil => exact fun u => ⟨u.client, u.alive, rfl⟩
    | cons fd l ih =>
      intro u
      obtain ⟨client, alive, h⟩ := ih (u.newConnection fd)
      exact ⟨client, alive, h⟩
  exact this _

theorem adopt_connector (c : ConnectorSystem) : (s.adopt c).connector = c := by
  obtain ⟨client, alive, h⟩ := adopt_fields (s := s) c
  rw [h]

/-- The cases of a step, with their guards. -/
inductive Moves (s t : ClientSystem) : ClientAction → Prop
  | connect {inLoop : Bool} {d : Dial} {now : ℤ} {c : ConnectorSystem} :
      s.connector.next (.start inLoop d now) = some c →
      t = { s with connector := c, client.connect := true, connects := s.connects + 1 } →
      Moves s t (.connect inLoop d now)
  | disconnect : t = { s with client.connect := false } → Moves s t .disconnect
  | stop {c : ConnectorSystem} : s.connector.next .stop = some c →
      t = { s with connector := c, client.connect := false } → Moves s t .stop
  | enableRetry : t = { s with client.retry := true } → Moves s t .enableRetry
  | close {conn : ℤ} {d : Dial} {now : ℤ} : s.connector.phase.isHandling = true →
      conn ∈ s.active → conn ∈ s.alive → s.removeConnection conn d now = some t →
      Moves s t (.close conn d now)
  | loop {a : ConnectorAction} {c : ConnectorSystem} : a.isLoop = true →
      s.connector.next a = some c →
      t = { s.adopt c with
        active := if s.connector.phase = .polling then s.alive else s.active } →
      Moves s t (.loop a)

/-- What a step can do. -/
theorem next_moves {s t : ClientSystem} {a : ClientAction} (h : s.next a = some t) :
    s.connector.failed = none ∧ s.Moves t a := by
  unfold next at h
  by_cases hf : s.connector.failed.isSome = true
  · rw [if_pos hf] at h
    cases h
  rw [if_neg hf] at h
  refine ⟨by simpa using hf, ?_⟩
  cases a with
  | connect inLoop d now =>
    obtain ⟨c, hc, rfl⟩ := Option.map_eq_some_iff.1 h
    exact .connect hc rfl
  | disconnect =>
    cases h
    exact .disconnect rfl
  | stop =>
    obtain ⟨c, hc, rfl⟩ := Option.map_eq_some_iff.1 h
    exact .stop hc rfl
  | enableRetry =>
    cases h
    exact .enableRetry rfl
  | close conn d now =>
    dsimp only at h
    by_cases hclose : s.connector.phase.isHandling = true ∧ conn ∈ s.active ∧ conn ∈ s.alive
    · rw [if_pos hclose] at h
      exact .close hclose.1 hclose.2.1 hclose.2.2 h
    · rw [if_neg hclose] at h
      cases h
  | loop a =>
    dsimp only at h
    by_cases ha : a.isLoop = true
    · rw [if_pos ha] at h
      obtain ⟨c, hc, rfl⟩ := Option.map_eq_some_iff.1 h
      exact .loop ha hc rfl
    · rw [if_neg ha] at h
      cases h

/-- The two ends of `removeConnection`, and its assertion. -/
theorem removeConnection_cases {s t : ClientSystem} {conn : ℤ} {d : Dial} {now : ℤ}
    (h : s.removeConnection conn d now = some t) :
    s.client.connection = some conn ∧ s.client.retry = true ∧ s.client.connect = true ∧
        (∃ c, (s.forget conn).connector.next (.restart d now) = some c ∧
          t = { s.forget conn with
            connector := c
            restarts := (s.forget conn).restarts + 1 }) ∨
      s.client.connection = some conn ∧ ¬(s.client.retry = true ∧ s.client.connect = true) ∧
        t = s.forget conn ∨
      s.client.connection ≠ some conn ∧
        t = { s with connector.failed := some .removeConnectionCurrent } := by
  unfold removeConnection at h
  by_cases hconn : s.client.connection = some conn
  · rw [if_pos hconn] at h
    by_cases hretry : s.client.retry = true ∧ s.client.connect = true
    · rw [if_pos hretry] at h
      obtain ⟨c, hc, rfl⟩ := Option.map_eq_some_iff.1 h
      exact .inl ⟨hconn, hretry.1, hretry.2, c, hc, rfl⟩
    · rw [if_neg hretry] at h
      cases h
      exact .inr (.inl ⟨hconn, hretry, rfl⟩)
  · rw [if_neg hconn] at h
    cases h
    exact .inr (.inr ⟨hconn, rfl⟩)

end ClientSystem

/-- The runs of a client. -/
def clientSystems : LTS ClientSystem ClientAction where
  init s := s = .new
  next := ClientSystem.next

end Jiangbo
