import LearnForCpp.Lib.Rotation
import LearnForCpp.Reactor.EchoConnection

/-!
# Ping-pong

`example/pingpong_client.cc` against `example/pingpong_server.cc`: one session and the connection of
the server at its other end.  The network between them is what TCP is: a byte that one end reads is
the next byte that the other end's kernel took.  Reads may fail, and either end may see the end of
the stream at any time, so that a lost connection is one of the runs.

The message of the client goes around a ring of six places: the socket of the client, the server's
`onMessage` and `outputBuffer_`, and back.  `Rotation` says what goes around it.
-/

namespace Jiangbo

/-- The two ends of a connection. -/
inductive Endpoint
  | client
  | server
  deriving DecidableEq

/-- A session and the server's connection to it. -/
structure PingPong where
  client : EchoConnection
  server : EchoConnection

namespace PingPong

/-- The bytes that one end has sent. -/
def sent (e : EchoConnection) : Bytes := e.system.conn.socket.sent

/-- What a step of one end delivers to it comes next from the other end. -/
def Arrives (e peer : EchoConnection) (a : ConnAction) : Prop :=
  e.received ++ e.system.delivers a <+: sent peer

instance (e peer : EchoConnection) (a : ConnAction) : Decidable (Arrives e peer a) :=
  inferInstanceAs (Decidable (_ <+: _))

def next (s : PingPong) : Endpoint × ConnAction → Option PingPong
  | (.client, a) =>
      if Arrives s.client s.server a then (s.client.next a).map fun e => { s with client := e }
      else none
  | (.server, a) =>
      if Arrives s.server s.client a then (s.server.next a).map fun e => { s with server := e }
      else none

end PingPong

/-- The runs of a session that greets with the message of its client. -/
def pingPongs (message : StdString) : LTS PingPong (Endpoint × ConnAction) where
  init s := (echoConnections (some message)).init s.client ∧ (echoConnections none).init s.server
  next := PingPong.next

/-- Every `epoll_ctl` of the step succeeds. -/
def ConnAction.CtlSucceeds : ConnAction → Prop
  | .proceed _ _ ret | .work _ _ ret | .call _ ret => ret = true
  | _ => True

instance : (a : ConnAction) → Decidable a.CtlSucceeds
  | .proceed _ _ _ | .work _ _ _ | .call _ _ => inferInstanceAs (Decidable (_ = _))
  | .callSend _ _ | .callShutdown _ | .event _ | .swap | .setWriteCompleteCallback _
  | .inputBuffer _ | .detach => inferInstanceAs (Decidable True)

/-- The runs in which every `epoll_ctl` succeeds, that of `connectEstablished` included.  The kernel
then watches a channel in the epoll set for its `events_`: `EpollSystem.Consistent.mask`. -/
def watchedPingPongs (message : StdString) : LTS PingPong (Endpoint × ConnAction) where
  init s := (pingPongs message).init s ∧
    s.client.system.conn.channel.registeredInEpoller = true ∧
    s.server.system.conn.channel.registeredInEpoller = true
  next := ((pingPongs message).restrict fun _ a => a.2.CtlSucceeds).next

/-- The channel is in the epoll set, and its `events_` have `mask`. -/
def Channel.Awaits (c : Channel) (mask : EventMask) : Prop :=
  c.registeredInEpoller = true ∧ Bitmask.test c.events mask = true

namespace PingPong

variable {s t : PingPong} {m : Bytes} {a : Endpoint × ConnAction}

/-- The bytes on their way from one end to the other. -/
def inFlight (e peer : EchoConnection) : Bytes := (sent e).drop peer.received.length

/-- The bytes that are on their way, from what the client reads next on. -/
def circulating (s : PingPong) : Bytes :=
  inFlight s.server s.client ++ s.server.system.conn.outputBuffer.content ++
    s.server.system.held ++ inFlight s.client s.server ++
    s.client.system.conn.outputBuffer.content ++ s.client.system.held

/-- The invariant of a session with the message `m`. -/
structure Inv (m : Bytes) (s : PingPong) : Prop where
  client : s.client.Inv m
  server : s.server.Inv []
  greeting : s.server.greeting = none
  toClient : s.client.received <+: sent s.server
  toServer : s.server.received <+: sent s.client

theorem Inv.of_init {message : StdString} (h : (pingPongs message).init s) :
    s.Inv message.bytes := by
  obtain ⟨hc, hs⟩ := h
  refine ⟨.of_init hc, .of_init hs, hs.2.1, ?_, ?_⟩
  · rw [hc.2.2.1]
    exact List.nil_prefix
  · rw [hs.2.2.1]
    exact List.nil_prefix

theorem Inv.step (hs : s.Inv m) (h : s.next a = some t) : t.Inv m := by
  obtain ⟨e, a⟩ := a
  cases e with
  | client =>
    simp only [next] at h
    split_ifs at h with harrives
    obtain ⟨e, he, rfl⟩ := Option.map_eq_some_iff.1 h
    have hgrows := hs.client.grows he
    exact ⟨hs.client.step he, hs.server, hs.greeting, hgrows.received ▸ harrives,
      hs.toServer.trans hgrows.sent⟩
  | server =>
    simp only [next] at h
    split_ifs at h with harrives
    obtain ⟨e, he, rfl⟩ := Option.map_eq_some_iff.1 h
    have hgrows := hs.server.grows he
    exact ⟨hs.client, hs.server.step he, hgrows.greeting hs.greeting,
      hs.toClient.trans hgrows.sent, hgrows.received ▸ harrives⟩

theorem Inv.of_reachable {message : StdString} (h : (pingPongs message).Reachable s) :
    s.Inv message.bytes :=
  h.invariant (fun _ => Inv.of_init) fun _ _ _ hs => hs.step

/-- What the client reads comes around behind its own message. -/
theorem Inv.received_prefix (hs : s.Inv m) :
    s.client.received <+: m ++ s.client.received ∧
      s.server.received <+: m ++ s.server.received := by
  have h1 : s.client.received <+: s.server.received := hs.toClient.trans hs.server.sent_prefix
  have h2 : s.server.received <+: m ++ s.client.received := hs.toServer.trans hs.client.sent_prefix
  exact ⟨h1.trans h2, h2.trans ((List.prefix_append_right_inj m).2 h1)⟩

/-- Both ends are open and connected, and the client has sent its message. -/
structure Playing (s : PingPong) : Prop where
  greeted : s.client.greeting = none
  client : s.client.system.closeCalls = 0 ∧ s.client.system.conn.state = .kConnected
  server : s.server.system.closeCalls = 0 ∧ s.server.system.conn.state = .kConnected

instance (s : PingPong) : Decidable s.Playing :=
  decidable_of_iff (s.client.greeting = none ∧
    (s.client.system.closeCalls = 0 ∧ s.client.system.conn.state = .kConnected) ∧
      s.server.system.closeCalls = 0 ∧ s.server.system.conn.state = .kConnected)
    ⟨fun h => ⟨h.1, h.2.1, h.2.2⟩, fun h => ⟨h.greeted, h.client, h.server⟩⟩

/-- Bytes of `peer` are on their way to `e`, or in its `outputBuffer_` or a call of `send`, and its
loop will move one: the channel is in the epoll set for what that takes. -/
def Moves (e peer : EchoConnection) : Prop :=
  (inFlight peer e ≠ [] ∧ e.system.conn.channel.Awaits EPOLLIN) ∨
    (e.system.conn.outputBuffer.content ≠ [] ∧ e.system.conn.channel.Awaits EPOLLOUT) ∨
    ∃ p, e.system.pc e.system.tid = .sendFound p

/-- Some byte is where one of the loops is about to move it. -/
def Moving (s : PingPong) : Prop := Moves s.client s.server ∨ Moves s.server s.client

/-- Until its connection is closed, the channel of each end is in the epoll set. -/
structure Registered (s : PingPong) : Prop where
  client : s.client.system.closeCalls = 0 →
    s.client.system.conn.channel.registeredInEpoller = true
  server : s.server.system.closeCalls = 0 →
    s.server.system.conn.channel.registeredInEpoller = true

theorem Registered.step (hs : s.Inv m) (hr : s.Registered) (h : s.next a = some t) :
    t.Registered := by
  obtain ⟨e, a⟩ := a
  cases e with
  | client =>
    simp only [next] at h
    split_ifs at h
    obtain ⟨e, he, rfl⟩ := Option.map_eq_some_iff.1 h
    have hgrows := hs.client.grows he
    refine ⟨fun hopen => hgrows.registered hopen (hr.client ?_), hr.server⟩
    exact Nat.le_zero.1 (hopen ▸ hgrows.closeCalls)
  | server =>
    simp only [next] at h
    split_ifs at h
    obtain ⟨e, he, rfl⟩ := Option.map_eq_some_iff.1 h
    have hgrows := hs.server.grows he
    refine ⟨hr.client, fun hopen => hgrows.registered hopen (hr.server ?_)⟩
    exact Nat.le_zero.1 (hopen ▸ hgrows.closeCalls)

theorem of_watched {message : StdString} (h : (watchedPingPongs message).Reachable s) :
    (pingPongs message).Reachable s ∧ s.Registered := by
  refine h.invariant (I := fun s : PingPong => (pingPongs message).Reachable s ∧ s.Registered)
    (fun s h0 => ⟨.init h0.1, fun _ => h0.2.1, fun _ => h0.2.2⟩) fun s a t hs hn => ?_
  change ((pingPongs message).restrict fun _ a => a.2.CtlSucceeds).next s a = some t at hn
  have hn : s.next a = some t := (LTS.restrict_next.1 hn).2
  exact ⟨.step a hs.1 hn, hs.2.step (.of_reachable hs.1) hn⟩

/-- What one end has sent is what the other has received and what is in flight. -/
theorem sent_eq {e peer : EchoConnection} (h : peer.received <+: sent e) :
    sent e = peer.received ++ inFlight e peer := (List.prefix_iff_eq_append.1 h).symm

/-- The ring: behind what the client has read there is its message, followed by what it has read. -/
theorem Inv.ring (hs : s.Inv m) (hp : s.Playing) :
    s.client.received ++ s.circulating = m ++ s.client.received := by
  have hclient : sent s.client ++ s.client.system.conn.outputBuffer.content ++
      s.client.system.held = m ++ s.client.received :=
    hs.client.answered hp.greeted hp.client.1 hp.client.2
  have hserver : sent s.server ++ s.server.system.conn.outputBuffer.content ++
      s.server.system.held = s.server.received :=
    hs.server.answered hs.greeting hp.server.1 hp.server.2
  rw [sent_eq hs.toClient] at hserver
  rw [← hclient, sent_eq hs.toServer, circulating]
  conv_rhs => rw [← hserver]
  simp only [List.append_assoc]

/-- A byte that has reached an open end is moved on there. -/
theorem moves_of_ne_nil {g : Bytes} {e : EchoConnection} (peer : EchoConnection) (he : e.Inv g)
    (hopen : e.system.closeCalls = 0)
    (hreg : e.system.conn.channel.registeredInEpoller = true)
    (hne : inFlight peer e ≠ [] ∨ e.system.conn.outputBuffer.content ≠ [] ∨ e.system.held ≠ []) :
    Moves e peer := by
  rcases hne with h | h | h
  · exact .inl ⟨h, hreg, he.reading hopen⟩
  · exact .inr (.inl ⟨h, hreg, (he.solo.alone.synced hopen).isWriting_iff.2 h⟩)
  · refine .inr (.inr ?_)
    by_contra hnone
    exact h (ConnSystem.held_eq_nil fun p hp => hnone ⟨p, hp⟩)

/-- A byte of the ring is in one of its six places, and each of them moves it on. -/
theorem Inv.moving (hs : s.Inv m) (hr : s.Registered) (hp : s.Playing)
    (hne : s.circulating ≠ []) : s.Moving := by
  simp only [circulating, ne_eq, List.append_eq_nil_iff, not_and_or] at hne
  have hclient := moves_of_ne_nil s.server hs.client hp.client.1 (hr.client hp.client.1)
  have hserver := moves_of_ne_nil s.client hs.server hp.server.1 (hr.server hp.server.1)
  rcases hne with ((((h | h) | h) | h) | h) | h
  · exact .inl (hclient (.inl h))
  · exact .inr (hserver (.inr (.inl h)))
  · exact .inr (hserver (.inr (.inr h)))
  · exact .inr (hserver (.inl h))
  · exact .inl (hclient (.inr (.inl h)))
  · exact .inl (hclient (.inr (.inr h)))

end PingPong

/-- **Ping-pong.** In every state of every run of a session and its server, whatever the network
does, no assertion has failed at either end, each connection was closed and destroyed at most once,
and what either end has read is the message of the client over and over; `bytesRead_` counts it. -/
theorem ping_pong_integrity {message : StdString} (hm : message.bytes ≠ []) {s : PingPong}
    (h : (pingPongs message).Reachable s) :
    (s.client.system.failed = none ∧ s.client.system.ClosedOnce) ∧
      (s.server.system.failed = none ∧ s.server.system.ClosedOnce) ∧
      (∀ i < s.client.received.length,
        s.client.received[i]? = message.bytes[i % message.bytes.length]?) ∧
      (∀ i < s.server.received.length,
        s.server.received[i]? = message.bytes[i % message.bytes.length]?) ∧
      s.client.counters.bytesRead = .ofNat s.client.received.length := by
  have hs := PingPong.Inv.of_reachable h
  have hclosed : ∀ {g : Bytes} {e : EchoConnection}, e.Inv g →
      e.system.failed = none ∧ e.system.ClosedOnce := fun he =>
    ⟨he.solo.alone.failed, he.solo.ledger.closedOnce_iff.2 he.solo.closeCalls_le⟩
  obtain ⟨hc, hr⟩ := hs.received_prefix
  exact ⟨hclosed hs.client, hclosed hs.server, fun _ hi => Rotation.getElem?_of_isPrefix hm hc hi,
    fun _ hi => Rotation.getElem?_of_isPrefix hm hr hi, hs.client.counted.1⟩

/-- A message of two bytes. -/
def PingPong.message : StdString := ⟨[1, 2], by decide⟩

/-- A session and the server's connection to it, just established. -/
def PingPong.sample : PingPong := ⟨⟨.new .sample .client, some message, [], .new⟩, .sample⟩

theorem PingPong.sample_init : (pingPongs PingPong.message).init .sample :=
  ⟨⟨Jiangbo.sample_init .client, rfl, rfl, rfl⟩, EchoConnection.sample_init⟩

/-- The message goes to the server, and its first byte comes back. -/
def roundTrip : List (Endpoint × ConnAction) :=
  [(.client, .callSend 1 PingPong.message), (.client, .proceed 1 0 true),
    (.client, .proceed 1 0 true), (.client, .event EPOLLOUT), (.client, .work none 2 true),
    (.server, .event EPOLLIN), (.server, .work (some [1, 2]) 0 true), (.server, .proceed 1 0 true),
    (.server, .proceed 1 0 true), (.server, .event EPOLLOUT), (.server, .work none 1 true),
    (.client, .event EPOLLIN), (.client, .work (some [1]) 0 true)]

theorem ping_pong_integrity_round_trip : ∃ s,
    (pingPongs PingPong.message).run .sample roundTrip = some s ∧ s.client.received = [1] ∧
      s.client.received[0]? = PingPong.message.bytes[0]? := by
  obtain ⟨s, hs, hend⟩ := Option.map_eq_some_iff.1 (by decide +kernel :
    (((pingPongs PingPong.message).run .sample roundTrip).map fun s => s.client.received) =
      some [1])
  have h := ping_pong_integrity (by decide : PingPong.message.bytes ≠ [])
    (.of_run (.init PingPong.sample_init) _ hs)
  exact ⟨s, hs, hend, h.2.2.1 0 (by rw [hend]; decide)⟩

/-- **The ring keeps its bytes.** Once the client has sent its message, and while both ends are open
and connected, the bytes on their way are that message, turned by what the client has read: none is
lost, doubled or out of order.  And where each `epoll_ctl` has succeeded, unless the message is
empty, the loop of one end waits for the event that moves a byte on, or is about to move it. -/
theorem ping_pong_conservation {message : StdString} {s : PingPong}
    (h : (pingPongs message).Reachable s) (hp : s.Playing) :
    s.circulating = message.bytes.rotate s.client.received.length ∧
      ((watchedPingPongs message).Reachable s → message.bytes ≠ [] → s.Moving) := by
  have hs := PingPong.Inv.of_reachable h
  have hrotate := Rotation.eq_rotate (hs.ring hp)
  refine ⟨hrotate, fun hw hm => hs.moving (PingPong.of_watched hw).2 hp fun hnil => hm ?_⟩
  rw [hnil] at hrotate
  exact List.rotate_eq_nil_iff.1 hrotate.symm

theorem ping_pong_conservation_round_trip : ∃ s,
    (watchedPingPongs PingPong.message).run .sample roundTrip = some s ∧
      s.circulating = [2, 1] ∧ s.Moving := by
  obtain ⟨s, hs, hend⟩ := Option.map_eq_some_iff.1 (by decide +kernel :
    (((watchedPingPongs PingPong.message).run .sample roundTrip).map fun s =>
      (decide s.Playing, s.client.received)) = some (true, [1]))
  obtain ⟨hp, hreceived⟩ := Prod.mk.inj hend
  have hwatched : (watchedPingPongs PingPong.message).Reachable s :=
    .of_run (.init ⟨PingPong.sample_init, rfl, rfl⟩) _ hs
  obtain ⟨hring, hmoving⟩ := ping_pong_conservation (PingPong.of_watched hwatched).1
    (of_decide_eq_true hp)
  exact ⟨s, hs, by rw [hring, hreceived]; rfl, hmoving hwatched (by decide)⟩

end Jiangbo
