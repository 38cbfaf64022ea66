import LearnForCpp.Reactor.EchoConnection
import LearnForCpp.Reactor.ServerBookkeeping

/-!
# The echo server

`EchoServer` of `example/echo.cc` in the loop of `example/EchoMain.cc`: one thread, a `TcpServer`
and any number of clients.  `onConnection` only logs.  `onMessage` runs inside the handler that
invokes it, on the connection of that handler, and `send` is a direct call there.

The connections share the loop, the map `connections_` and the queue of functors.
`echo_server_integrity` says that the bytes of each client come back to that client, in order, and
to no other one.
-/

namespace Jiangbo

open Bitmask

namespace ServerSystem

/-- The connection on which a read invokes `messageCallback_`, and what `readv` stored. -/
def delivers (s : ServerSystem) (received : Option Bytes) : Option (ℕ × Bytes) :=
  match s.todo, received with
  | .handler c .read :: _, some (b :: data) => some (c, b :: data)
  | _, _ => none

/-- `onMessage` of connection number `c`, unless `handleRead` has aborted. -/
def onMessage (c : ℕ) (n : ℤ) (ret : Bool) (s : ServerSystem) : Option ServerSystem :=
  if s.failed.isSome then some s
  else
    (s.server.conns[c]?).bind fun r =>
      (s.next (.user c (.inputBuffer .retrieveAsString) n ret)).bind fun u =>
        u.next (.user c (.send r.conn.inputBuffer.asString) n ret)

/-- `readv` stores no more than the two buffers of `readFd` hold. -/
def Fits (s : ServerSystem) : ServerAction → Prop
  | .work _ received _ _ => ∀ p ∈ s.delivers received, ∀ r ∈ s.server.conns[p.1]?,
      p.2.length ≤ r.conn.inputBuffer.writableBytes + Buffer.kExtraSize
  | _ => True

instance (s : ServerSystem) : (a : ServerAction) → Decidable (s.Fits a)
  | .work _ received _ _ => inferInstanceAs (Decidable (∀ p ∈ s.delivers received,
      ∀ r ∈ s.server.conns[p.1]?,
        p.2.length ≤ r.conn.inputBuffer.writableBytes + Buffer.kExtraSize))
  | .poll _ | .user _ _ _ _ | .swap | .call _ _ | .finish => .isTrue trivial

end ServerSystem

/-- A server whose `onMessage` sends back what it reads. -/
structure EchoServer where
  system : ServerSystem
  /-- What `readv` has stored so far, for each connection. -/
  received : ℕ → Bytes

namespace EchoServer

/-- A step of the loop, with `onMessage` in it when `handleRead` invokes it.  No other user code
calls a connection. -/
def next (s : EchoServer) (a : ServerAction) : Option EchoServer :=
  if s.system.Regular a ∧ s.system.Fits a then
    match a with
    | .user _ _ _ _ => none
    | .work _ received n ret =>
        (s.system.next a).bind fun v =>
          match s.system.delivers received with
          | none => some { s with system := v }
          | some (c, data) => (v.onMessage c n ret).map fun u =>
              ⟨u, Function.update s.received c (s.received c ++ data)⟩
    | _ => (s.system.next a).map fun v => { s with system := v }
  else none

end EchoServer

/-- The runs of a server with these callbacks. -/
def echoServers : LTS EchoServer ServerAction where
  init s := tcpServers.init s.system ∧ s.received = fun _ => []
  next := EchoServer.next

/-! ### One connection -/

namespace ConnRecord

/-- What holds of a connection that sends back what it receives. -/
structure Echoes (received : Bytes) (r : ConnRecord) : Prop where
  input : r.conn.inputBuffer.Inv
  output : r.conn.outputBuffer.WF
  drained : r.conn.inputBuffer.content = []
  sent : r.conn.socket.sent <+: received
  writing : r.closed = false →
    (r.conn.channel.isWriting = true ↔ r.conn.outputBuffer.content ≠ [])
  reading : r.closed = false → r.conn.channel.Reading
  connected : r.closed = false → r.conn.state = .kConnected
  answered : r.closed = false →
    r.conn.socket.sent ++ r.conn.outputBuffer.content = received
  events : r.closed = true → r.conn.channel.events = Channel.kNoneEvent

variable {received data : Bytes} {r : ConnRecord} {y : ConnCtx} {b : Buffer} {tid : Tid} {n : ℤ}
  {ret : Bool}

theorem Echoes.synced (h : r.Echoes received) (hopen : r.closed = false) : r.conn.Synced :=
  ⟨h.output, h.writing hopen⟩

/-- A connection that was just established. -/
theorem Echoes.established (ioLoop : LoopPtr) (name : String) (a : Accepted) :
    Echoes [] (TcpServer.establishedRecord ioLoop name a) := by
  have hread : test Channel.kReadEvent EPOLLIN = true := by decide
  have hw : ((Channel.new a.sockfd false).enableReading a.ret).isWriting = false := by
    rw [Channel.enableReading_isWriting]
    exact test_zero _
  have hstream : (TcpServer.establishedRecord ioLoop name a).conn.outputBuffer.content = [] :=
    Buffer.new_content
  refine ⟨Buffer.new_inv, Buffer.new_wf, Buffer.new_content, List.prefix_rfl, fun _ => ?_,
    fun _ => ?_, fun _ => rfl, fun _ => ?_, nofun⟩
  · show ((Channel.new a.sockfd false).enableReading a.ret).isWriting = true ↔
      Buffer.new.content ≠ []
    simp [hw, Buffer.new_content]
  · show ((Channel.new a.sockfd false).enableReading a.ret).Reading
    rw [Channel.Reading, Channel.enableReading_events]
    split_ifs <;> simp [hread, test_or]
  · rw [hstream]
    rfl

/-- `handleWrite` moves bytes to the kernel, or does nothing on a closed connection. -/
theorem Echoes.handleWrite (h : r.Echoes received)
    (hn : n ≤ r.conn.outputBuffer.readableBytes)
    (hy : r.conn.enter.handleWrite tid n ret = .ok y) :
    Echoes received { r with conn := y.conn } := by
  have hframe := ConnCtx.handleWrite_frame hy
  by_cases hclosed : r.closed = true
  · have hw : r.conn.enter.conn.channel.isWriting = false :=
      ConnCtx.isWriting_of_none (x := r.conn.enter) (h.events hclosed)
    rcases ConnCtx.handleWrite_eq_ok hy with ⟨-, rfl⟩ | ⟨hw', -⟩
    · exact h
    · rw [hw] at hw'
      cases hw'
  · rw [Bool.not_eq_true] at hclosed
    have hsynced := h.synced hclosed
    have hn' : n ≤ r.conn.enter.rest.length := by
      rw [ConnCtx.rest, show r.conn.enter.conn = r.conn from rfl, hsynced.wf.content_length]
      exact hn
    obtain ⟨hstep, hstate, -⟩ := ConnCtx.handleWrite_synced (x := r.conn.enter) hsynced hn' hy
    have hstream : y.conn.socket.sent ++ y.conn.outputBuffer.content = received := by
      have := hstep.stream
      rw [List.append_nil] at this
      exact this.trans (h.answered hclosed)
    refine ⟨hframe.inputBuffer ▸ h.input, hstep.synced.wf, hframe.inputBuffer ▸ h.drained, ?_,
      fun _ => hstep.synced.isWriting_iff, fun _ => hframe.reading (h.reading hclosed),
      fun _ => hstate.trans (h.connected hclosed), fun _ => hstream, fun ho => ?_⟩
    swap
    · cases hclosed.symm.trans ho
    rw [← hstream]
    exact List.prefix_append _ _

/-- The end of the stream. -/
theorem Echoes.close (h : r.Echoes received) (hb : b.Inv) (hempty : b.content = []) :
    Echoes received (ServerSystem.closedRecord
      { r.conn with inputBuffer := b, channel := r.conn.channel.disableAll ret } r) where
  input := hb
  output := h.output
  drained := hempty
  sent := h.sent
  writing := nofun
  reading := nofun
  connected := nofun
  answered := nofun
  events := fun _ => Channel.disableAll_events ret _

/-- `connectDestoryed`, up to its end. -/
theorem Echoes.destroy (h : r.Echoes received) (hclosed : r.closed = true) :
    Echoes received (ServerSystem.destroyedRecord ret r) := by
  have hne : ∀ {p : Prop}, (ServerSystem.destroyedRecord ret r).closed = false → p := fun ho =>
    absurd (hclosed.symm.trans ho) nofun
  exact ⟨h.input, h.output, h.drained, h.sent, hne, hne, hne, hne,
    fun _ => Channel.disableAll_events ret _⟩

/-- The end of `connectDestoryed`. -/
theorem Echoes.remove (h : r.Echoes received) (hclosed : r.closed = true) :
    Echoes received (ServerSystem.removedRecord r) := by
  have hne : ∀ {p : Prop}, (ServerSystem.removedRecord r).closed = false → p := fun ho =>
    absurd (hclosed.symm.trans ho) nofun
  exact ⟨h.input, h.output, h.drained, h.sent, hne, hne, hne, hne, fun _ => h.events hclosed⟩

/-- `onMessage`: all that `readFd` has stored is taken out of the buffer and sent. -/
theorem Echoes.message (h : r.Echoes received) (hopen : r.closed = false) {message : StdString}
    (hempty : b.content = []) (hb : b.Inv)
    (hy : { r.conn with inputBuffer := b }.enter.sendInLoop tid message n ret = .ok y) :
    Echoes (received ++ message.bytes) { r with conn := y.conn } := by
  have hframe := ConnCtx.sendInLoop_frame hy
  have hsynced : { r.conn with inputBuffer := b }.Synced := (h.synced hopen).congr rfl rfl
  obtain ⟨hstep, hsocket⟩ := ConnCtx.sendInLoop_synced
    (x := { r.conn with inputBuffer := b }.enter) hsynced hy
  have hstate := (ConnCtx.sendInLoop_step hy).state
  refine ⟨?_, hstep.synced.wf, ?_, ?_, fun _ => hstep.synced.isWriting_iff,
    fun _ => hframe.reading (h.reading hopen), fun _ => hstate.trans (h.connected hopen),
    fun _ => ?_, fun ho => absurd (hopen.symm.trans ho) nofun⟩
  · exact hframe.inputBuffer ▸ hb
  · exact hframe.inputBuffer ▸ hempty
  · show y.conn.socket.sent <+: _
    rw [hsocket]
    exact h.sent.trans (List.prefix_append _ _)
  · exact hstep.stream.trans (congrArg (· ++ message.bytes) (h.answered hopen))

end ConnRecord

namespace ServerSystem

variable {s u : ServerSystem} {c : ℕ} {r : ConnRecord} {o : Result ConnCtx} {x : ConnCtx} {n : ℤ}
  {ret : Bool}

/-! ### Calls -/

/-- `messageCallback_` is invoked by a `handleRead` that has read something. -/
theorem delivers_eq_some {received : Option Bytes} {data : Bytes}
    (h : s.delivers received = some (c, data)) :
    (∃ todo, s.todo = .handler c .read :: todo) ∧ received = some data ∧ data ≠ [] := by
  unfold delivers at h
  split at h
  · rename_i d todo b data htodo
    obtain ⟨rfl, rfl⟩ := Prod.mk.inj (Option.some.inj h)
    exact ⟨⟨todo, htodo⟩, rfl, List.cons_ne_nil _ _⟩
  · cases h

/-- A call that fails no assertion returns. -/
theorem after_returns (ho : o.Faults fun e _ => ∀ a, e ≠ .assertion a) (h : s.after c o = some u) :
    ∃ x, o = .ok x ∧ u = s.absorb c x := by
  rcases after_eq_some h with h | ⟨a, x, hx, -⟩
  · exact h
  · exact absurd rfl (ho.of_fault hx a)

/-- The records after a call that the server does not notice. -/
theorem absorb_quiet_conns (hq : ConnCtx.Quiet r.conn x) : (s.absorb c x).server.conns =
    s.server.conns.modify c fun r => { r with conn := x.conn } := by
  rw [absorb_quiet hq]
  rfl

/-- A connection is live until it is destroyed. -/
theorem RecordInv.live (h : s.RecordInv c r) (hdestroyed : r.destroyed = false) : r.conn.Live := by
  cases h.stage with
  | opened _ _ h3 => exact h3
  | closed _ _ h3 => exact h3
  | destroyed _ h2 =>
    rw [hdestroyed] at h2
    cases h2

/-- A connection whose `connectDestoryed` is called is closed, and live. -/
theorem Inv.destroying {batch : List ServerTask} (hs : s.Inv)
    (hbatch : s.batch = ⟨c, .connectDestoryed⟩ :: batch) (hr : s.server.conns[c]? = some r) :
    r.closed = true ∧ r.conn.Live := by
  have hqueued : 0 < s.destroysQueued c := by
    rw [destroysQueued, hbatch]
    exact List.count_pos_iff.2 List.mem_cons_self
  cases (hs.record c r hr).stage with
  | opened h1 h2 h3 h4 h5 => omega
  | closed h1 h2 h3 h4 h5 h6 => exact ⟨h1, h3⟩
  | destroyed h1 h2 h3 h4 h5 => omega

/-- A call of the user on a server in good order. -/
theorem Inv.next_user {op : UserOp} (hs : s.Inv) (h : s.next (.user c op n ret) = some u) :
    ∃ r, s.server.conns[c]? = some r ∧ s.user c r.conn n ret op = some u := by
  rw [ServerSystem.next, hs.failed, if_neg (by simp)] at h
  split_ifs at h
  exact Option.bind_eq_some_iff.1 h

/-- `retrieveAsString()`, after which the buffer is empty. -/
theorem Inv.next_retrieve (hs : s.Inv)
    (h : s.next (.user c (.inputBuffer .retrieveAsString) n ret) = some u) :
    u.Inv ∧ ∃ r, s.server.conns[c]? = some r ∧ u.server.conns = s.server.conns.modify c fun r' =>
      { r' with conn := { r.conn with inputBuffer := r.conn.inputBuffer.retrieveAll } } := by
  obtain ⟨r, hr, hu⟩ := hs.next_user h
  have hq : ConnCtx.Quiet r.conn
      { r.conn with inputBuffer := r.conn.inputBuffer.retrieveAll }.enter :=
    ConnCtx.enter_unnoticed rfl rfl rfl rfl
  have hadopt : u = s.absorb c
      { r.conn with inputBuffer := r.conn.inputBuffer.retrieveAll }.enter := by
    rw [absorb, if_neg hq.close]
    exact (Option.some.inj hu).symm
  rw [hadopt]
  exact ⟨hs.quiet hr hq, r, hr, absorb_quiet_conns hq⟩

/-- `send()` on a connected connection whose output buffer is in order. -/
theorem Inv.next_send {message : StdString} (hs : s.Inv) (hr : s.server.conns[c]? = some r)
    (hk : r.conn.state = .kConnected) (hwf : r.conn.outputBuffer.WF)
    (h : s.next (.user c (.send message) n ret) = some u) :
    u.Inv ∧ ∃ y, r.conn.enter.sendInLoop s.tid message n ret = .ok y ∧
      u.server.conns = s.server.conns.modify c fun r => { r with conn := y.conn } := by
  obtain ⟨r', hr', hu⟩ := hs.next_user h
  obtain rfl : r' = r := Option.some.inj (hr'.symm.trans hr)
  have hin := (hs.record c r' hr).loop
  rw [ServerSystem.user] at hu
  split_ifs at hu
  rw [ConnCtx.send, if_pos (show r'.conn.enter.conn.state = .kConnected from hk)] at hu
  obtain ⟨y, hy, rfl⟩ := after_returns (ConnCtx.sendConnected_returns hwf) hu
  have hsend : r'.conn.enter.sendInLoop s.tid message n ret = .ok y := by
    rcases ConnCtx.sendConnected_eq_ok hy with ⟨-, hy⟩ | ⟨hout, -⟩
    · exact hy
    · rw [show r'.conn.enter.conn.loop = r'.conn.loop from rfl, hin] at hout
      cases hout
  have hq := ConnCtx.sendInLoop_unnoticed (.inl hk) hsend
  exact ⟨hs.quiet hr hq, y, hsend, absorb_quiet_conns hq⟩

/-- `onMessage` sends on its own connection what its input buffer holds, and empties it. -/
theorem Inv.onMessage_spec (hs : s.Inv) (hr : s.server.conns[c]? = some r)
    (hk : r.conn.state = .kConnected) (hwf : r.conn.outputBuffer.WF)
    (h : s.onMessage c n ret = some u) :
    u.Inv ∧ ∃ tid y, { r.conn with inputBuffer := r.conn.inputBuffer.retrieveAll }.enter.sendInLoop
        tid r.conn.inputBuffer.asString n ret = .ok y ∧
      u.server.conns = s.server.conns.modify c fun r => { r with conn := y.conn } := by
  rw [onMessage, hs.failed, if_neg (by simp)] at h
  obtain ⟨r', hr', h⟩ := Option.bind_eq_some_iff.1 h
  obtain rfl : r' = r := Option.some.inj (hr'.symm.trans hr)
  obtain ⟨v, hv, hu⟩ := Option.bind_eq_some_iff.1 h
  obtain ⟨hvinv, r2, hr2, hvconns⟩ := hs.next_retrieve hv
  obtain rfl : r2 = r' := Option.some.inj (hr2.symm.trans hr)
  have hrv : v.server.conns[c]? = some { r2 with
      conn := { r2.conn with inputBuffer := r2.conn.inputBuffer.retrieveAll } } := by
    rw [hvconns, List.getElem?_modify_eq, hr]
    rfl
  obtain ⟨huinv, y, hy, huconns⟩ := hvinv.next_send hrv hk hwf hu
  refine ⟨huinv, _, y, hy, ?_⟩
  rw [huconns, hvconns, List.modify_modify_eq]
  rfl

end ServerSystem

namespace EchoServer

open ServerSystem (getElem?_modify_conn)

variable {s t : EchoServer} {u v : ServerSystem} {c : ℕ} {r : ConnRecord} {n : ℤ} {ret : Bool}
  {a : ServerAction}

/-! ### The invariant -/

/-- The books are right, and every connection sends back what it receives. -/
structure Inv (s : EchoServer) : Prop where
  server : s.system.Inv
  echoes : ∀ c (r : ConnRecord), s.system.server.conns[c]? = some r → r.Echoes (s.received c)
  fresh : ∀ c, s.system.server.conns.length ≤ c → s.received c = []

/-- A step that leaves all connections as they are. -/
theorem Inv.keep (hs : s.Inv) (hu : u.Inv) (h : u.server.conns = s.system.server.conns) :
    Inv { s with system := u } :=
  ⟨hu, fun c r hr => hs.echoes c r (h ▸ hr), fun c hc => hs.fresh c (h ▸ hc)⟩

/-- A step of one connection. -/
theorem Inv.update {received : ℕ → Bytes} {f : ConnRecord → ConnRecord} (hs : s.Inv) (hu : u.Inv)
    (hr : s.system.server.conns[c]? = some r)
    (h : u.server.conns = s.system.server.conns.modify c f) (hf : (f r).Echoes (received c))
    (hother : ∀ d ≠ c, received d = s.received d) : Inv ⟨u, received⟩ where
  server := hu
  echoes d r' hd := by
    rw [h] at hd
    rcases getElem?_modify_conn hr hd with ⟨rfl, rfl⟩ | ⟨hne, hd⟩
    · exact hf
    · have hold := hs.echoes d r' hd
      rwa [← hother d (Ne.symm hne)] at hold
  fresh d hd := by
    have hlen : c < s.system.server.conns.length := (List.getElem?_eq_some_iff.1 hr).1
    rw [h, List.length_modify] at hd
    exact (hother d (by omega)).trans (hs.fresh d hd)

/-- A new connection has received nothing. -/
theorem Inv.append (hs : s.Inv) (hu : u.Inv)
    (h : u.server.conns = s.system.server.conns ++ [r]) (hr : r.Echoes []) :
    Inv { s with system := u } where
  server := hu
  echoes c r' hc := by
    rw [h] at hc
    rcases lt_trichotomy c s.system.server.conns.length with hlt | rfl | hgt
    · rw [List.getElem?_append_left hlt] at hc
      exact hs.echoes c r' hc
    · obtain rfl : r = r' := by simpa using hc
      rw [hs.fresh _ le_rfl]
      exact hr
    · rw [List.getElem?_eq_none (by simp; omega)] at hc
      cases hc
  fresh c hc := by
    rw [h, List.length_append] at hc
    exact hs.fresh c (by omega)

/-! ### Handlers -/

/-- `Acceptor::handleRead`. -/
theorem Inv.accept {accepted : Option Accepted} {todo : List ServerWork} (hs : s.Inv)
    (htodo : s.system.todo = .accept :: todo)
    (hmax : accepted.isSome = true → s.system.server.nextConnfd < 2 ^ 31 - 1)
    (h : { s.system with todo := todo }.accept accepted = some u) : Inv { s with system := u } := by
  have hkept := hs.server.accept htodo hmax h
  have hinv : u.failed = none → u.Inv := fun hf => hkept.resolve_right fun ⟨b, hb, _⟩ => by
    rw [hf] at hb
    cases hb
  unfold ServerSystem.accept at h
  split at h
  · obtain rfl := Option.some.inj h
    exact hs.keep (hinv hs.server.failed) rfl
  · split at h
    · rename_i a server hserver
      obtain ⟨-, -, rfl⟩ := TcpServer.newConnection_eq_ok hserver
      obtain rfl := Option.some.inj h
      exact hs.append (hinv hs.server.failed) rfl (.established _ _ _)
    · rename_i a b server hserver
      cases ServerSystem.newConnection_faults.of_fault hserver
    · cases h

/-- A call on a connection that its server does not notice, in a handler. -/
theorem Inv.quiet {y : ConnCtx} (hs : s.Inv) {todo : List ServerWork}
    (hpop : { s.system with todo := todo }.Inv) (hr : s.system.server.conns[c]? = some r)
    (hq : ConnCtx.Quiet r.conn y)
    (hy : ConnRecord.Echoes (s.received c) { r with conn := y.conn }) :
    Inv { s with system := { s.system with todo := todo }.absorb c y } :=
  hs.update (hpop.quiet hr hq) hr (ServerSystem.absorb_quiet_conns hq) hy fun _ _ => rfl

/-- The end of the stream. -/
theorem Inv.end_of_stream {todo : List ServerWork} {y : ConnCtx} {tid : Tid} (hs : s.Inv)
    (hkept : ({ s.system with todo := todo }.absorb c y).Kept)
    (hpop : { s.system with todo := todo }.Inv) (hr : s.system.server.conns[c]? = some r)
    (hopen : r.closed = false) (hy : r.conn.enter.handleRead tid (some []) ret = .ok y) :
    Inv { s with system := { s.system with todo := todo }.absorb c y } := by
  have hecho := hs.echoes c r hr
  obtain ⟨b, hb, ⟨-, rfl⟩ | ⟨hne, -⟩⟩ := ConnCtx.handleRead_readFd hy
  swap
  · exact absurd rfl hne
  obtain ⟨hinput, hcontent⟩ := hecho.input.readFd (fun data hd => by cases hd; simp) hb
  rw [hecho.drained, List.nil_append] at hcontent
  have habsorb := hpop.absorb_close hr hopen
    (d := { r.conn with inputBuffer := b, channel := r.conn.channel.disableAll ret }) rfl
  rw [habsorb] at hkept ⊢
  refine hs.update (hkept.resolve_right fun ⟨a, ha, _⟩ => ?_) hr rfl
    (hecho.close hinput hcontent) fun _ _ => rfl
  exact absurd (hs.server.failed.symm.trans ha) nofun

/-- A handler of a connection that does not invoke `messageCallback_`. -/
theorem Inv.handle {h : Handler} {todo : List ServerWork} {received : Option Bytes} (hs : s.Inv)
    (htodo : s.system.todo = .handler c h :: todo) (hr : s.system.server.conns[c]? = some r)
    (hdata : s.system.delivers received = none)
    (hu : { s.system with todo := todo }.handle c r.conn received n ret h = some u) :
    Inv { s with system := u } := by
  have hphase := hs.server.handling htodo nofun
  have hpop := hs.server.pop htodo hphase
  have hecho := hs.echoes c r hr
  have hkept := hs.server.handle htodo hr hu
  obtain ⟨hclose, r', hr', hdestroyed, -, hread⟩ :=
    ((ServerSystem.phaseInv_handling hphase).1 hs.server.phase).2.1 (.handler c h)
      (htodo ▸ List.mem_cons_self)
  obtain rfl : r' = r := Option.some.inj (Eq.trans (Eq.symm hr') hr)
  have hlive := (hs.server.record c r' hr).live hdestroyed
  cases h with
  | close => exact absurd rfl hclose
  | error =>
    obtain ⟨y, hy, rfl⟩ := ServerSystem.after_returns (.ok _) hu
    obtain rfl := Outcome.ok.inj hy
    exact hs.quiet hpop hr (ConnCtx.handleError_unnoticed hy) hecho
  | write =>
    rw [ServerSystem.handle] at hu
    split_ifs at hu with hn
    obtain ⟨y, hy, rfl⟩ := ServerSystem.after_returns
      (ConnCtx.handleWrite_returns hecho.output hn) hu
    exact hs.quiet hpop hr (ConnCtx.handleWrite_unnoticed hlive hy) (hecho.handleWrite hn.2 hy)
  | read =>
    rw [ServerSystem.handle] at hu
    rcases received with _ | _ | ⟨b, data⟩
    · obtain ⟨y, hy, rfl⟩ := ServerSystem.after_returns
        (ConnCtx.handleRead_returns hecho.input.toWF (by simp) (by simp)) hu
      obtain ⟨b, hb, ⟨hne, -⟩ | ⟨-, hconn, -, -⟩⟩ := ConnCtx.handleRead_readFd hy
      · cases hne
      refine hs.quiet hpop hr (ConnCtx.handleRead_unnoticed (by simp) hy) ?_
      rw [hconn, show b = r'.conn.inputBuffer from (Outcome.ok.inj hb).symm]
      exact hecho
    · obtain ⟨y, hy, rfl⟩ := ServerSystem.after_returns (ConnCtx.handleRead_returns
        hecho.input.toWF (fun _ => hlive) fun data hd => by cases hd; simp) hu
      exact hs.end_of_stream hkept hpop hr (hread rfl) hy
    · simp [ServerSystem.delivers, htodo] at hdata

/-- A read that invokes `messageCallback_`, and the callback. -/
theorem Inv.message {data : Bytes} {todo : List ServerWork} {w : ServerSystem} (hs : s.Inv)
    (htodo : s.system.todo = .handler c .read :: todo) (hr : s.system.server.conns[c]? = some r)
    (hdata : data ≠ [])
    (hfits : data.length ≤ r.conn.inputBuffer.writableBytes + Buffer.kExtraSize)
    (hv : { s.system with todo := todo }.handle c r.conn (some data) n ret .read = some v)
    (hw : v.onMessage c n ret = some w) :
    Inv ⟨w, Function.update s.received c (s.received c ++ data)⟩ := by
  have hphase := hs.server.handling htodo nofun
  have hpop := hs.server.pop htodo hphase
  have hecho := hs.echoes c r hr
  obtain ⟨-, r', hr', -, -, hread⟩ :=
    ((ServerSystem.phaseInv_handling hphase).1 hs.server.phase).2.1 (.handler c .read)
      (htodo ▸ List.mem_cons_self)
  obtain rfl : r' = r := Option.some.inj (Eq.trans (Eq.symm hr') hr)
  have hopen : r'.closed = false := hread rfl
  -- `readFd`
  have hlen : ∀ d, some data = some d →
      d.length ≤ r'.conn.inputBuffer.writableBytes + Buffer.kExtraSize := by
    rintro d ⟨⟩
    exact hfits
  have hlive : some data = some [] → r'.conn.Live := fun h => absurd (Option.some.inj h) hdata
  obtain ⟨y, hy, rfl⟩ := ServerSystem.after_returns
    (ConnCtx.handleRead_returns hecho.input.toWF hlive hlen) hv
  obtain ⟨b, hb, ⟨heof, -⟩ | ⟨hne, hconn, -, -⟩⟩ := ConnCtx.handleRead_readFd hy
  · exact absurd (Option.some.inj heof) hdata
  obtain ⟨hinput, hcontent⟩ := hecho.input.readFd hlen hb
  rw [hecho.drained, List.nil_append] at hcontent
  have hq := ConnCtx.handleRead_unnoticed hne hy
  have hvinv := hpop.quiet hr hq
  have hvconns : ({ s.system with todo := todo }.absorb c y).server.conns =
      s.system.server.conns.modify c fun r => { r with conn := y.conn } :=
    ServerSystem.absorb_quiet_conns hq
  -- `onMessage`
  have hrv : ({ s.system with todo := todo }.absorb c y).server.conns[c]? =
      some { r' with conn := { r'.conn with inputBuffer := b } } := by
    rw [hvconns, List.getElem?_modify_eq, hr, ← hconn]
    rfl
  obtain ⟨hwinv, tid, z, hz, hwconns⟩ := hvinv.onMessage_spec hrv (hecho.connected hopen)
    hecho.output hw
  have hdrained := Buffer.retrieveAll_spec hinput.cheap_le
  have hmessage : b.asString.bytes = data := hcontent
  rw [hvconns, List.modify_modify_eq] at hwconns
  refine hs.update hwinv hr hwconns ?_ fun d hd => Function.update_of_ne hd _ _
  rw [Function.update_self, ← hmessage]
  exact hecho.message hopen hdrained.content_eq (hdrained.inv hinput) hz

/-- A functor of the batch: a write-complete callback, or `connectDestoryed`. -/
theorem Inv.call {task : ServerTask} {batch : List ServerTask} (hs : s.Inv)
    (hphase : s.system.phase = .running) (htodo : s.system.todo = [])
    (hbatch : s.system.batch = task :: batch) (hr : s.system.server.conns[task.conn]? = some r)
    (hu : { s.system with batch := batch }.runTask task.conn r.conn n ret task.functor = some u) :
    Inv { s with system := u } := by
  have hinv := hs.server.call hphase htodo hbatch hr hu
  obtain ⟨c, f⟩ := task
  rcases (hs.server.tasks ⟨c, f⟩ (by simp [hbatch])).2 with hf | hf
  · obtain rfl : f = .connectDestoryed := hf
    obtain ⟨hclosed, hlive⟩ := hs.server.destroying hbatch hr
    obtain rfl := ServerSystem.runTask_destroy hr hlive hu
    exact hs.update hinv hr rfl ((hs.echoes c r hr).destroy hclosed) fun _ _ => rfl
  · obtain rfl : f = .writeComplete := hf
    obtain rfl := Option.some.inj hu
    exact hs.keep hinv rfl

/-- The end of `connectDestoryed`. -/
theorem Inv.remove {todo : List ServerWork} (hs : s.Inv)
    (htodo : s.system.todo = .removeChannel c :: todo)
    (hr : s.system.server.conns[c]? = some r)
    (hu : { s.system with todo := todo }.after c (r.conn.enter.removeChannel true) = some u) :
    Inv { s with system := u } := by
  have hinv := hs.server.remove htodo hr hu
  obtain ⟨hclosed, -, -, hevents, -, hreg⟩ :=
    hs.server.removable (htodo ▸ List.mem_cons_self) hr
  obtain rfl := ServerSystem.removeChannel_after hr hevents hreg hu
  exact hs.update hinv hr rfl ((hs.echoes c r hr).remove hclosed) fun _ _ => rfl

/-! ### Steps -/

/-- What a step can do. -/
inductive Moves (s : EchoServer) : ServerAction → EchoServer → Prop
  | poll {active : List Active} (hphase : s.system.phase = .polling)
      (hnodup : (active.filterMap Active.conn?).Nodup)
      (hregistered : ∀ c ∈ active.filterMap Active.conn?, ∃ r ∈ s.system.server.conns[c]?,
        r.conn.channel.registeredInEpoller = true)
      (hregular : ∀ a ∈ active, a.regular = true) :
      Moves s (.poll active) { s with system := { s.system with
        phase := .handling
        todo := active.flatMap Active.works } }
  | work {accepted : Option Accepted} {received : Option Bytes} {n : ℤ} {ret : Bool}
      {v : ServerSystem} (hregular : s.system.Regular (.work accepted received n ret))
      (hdata : s.system.delivers received = none)
      (hwork : s.system.work accepted received n ret = some v) :
      Moves s (.work accepted received n ret) { s with system := v }
  | message {accepted : Option Accepted} {received : Option Bytes} {n : ℤ} {ret : Bool} {c : ℕ}
      {data : Bytes} {v u : ServerSystem} (hdata : s.system.delivers received = some (c, data))
      (hfits : ∀ r ∈ s.system.server.conns[c]?,
        data.length ≤ r.conn.inputBuffer.writableBytes + Buffer.kExtraSize)
      (hwork : s.system.work accepted received n ret = some v)
      (hmessage : v.onMessage c n ret = some u) :
      Moves s (.work accepted received n ret)
        ⟨u, Function.update s.received c (s.received c ++ data)⟩
  | swap (hphase : s.system.phase = .handling) (htodo : s.system.todo = []) :
      Moves s .swap { s with system := { s.system with
        phase := .running
        batch := s.system.pendingFunctors
        pendingFunctors := [] } }
  | call {n : ℤ} {ret : Bool} {task : ServerTask} {batch : List ServerTask} {r : ConnRecord}
      {v : ServerSystem} (hphase : s.system.phase = .running) (htodo : s.system.todo = [])
      (hbatch : s.system.batch = task :: batch) (hr : s.system.server.conns[task.conn]? = some r)
      (hcall : { s.system with batch := batch }.runTask task.conn r.conn n ret task.functor =
        some v) : Moves s (.call n ret) { s with system := v }
  | finish (hphase : s.system.phase = .running) (htodo : s.system.todo = [])
      (hbatch : s.system.batch = []) :
      Moves s .finish { s with system := { s.system with phase := .polling } }

theorem next_moves (hf : s.system.failed = none) (h : s.next a = some t) : s.Moves a t := by
  unfold EchoServer.next at h
  split_ifs at h with hguard
  obtain ⟨hregular, hfits⟩ := hguard
  have hrun : ¬s.system.failed.isSome = true := by simp [hf]
  cases a with
  | poll active =>
    obtain ⟨v, hv, rfl⟩ := Option.map_eq_some_iff.1 h
    simp only [ServerSystem.next, if_neg hrun] at hv
    split_ifs at hv with hp
    obtain rfl := Option.some.inj hv
    exact .poll hp.1 hp.2.1 hp.2.2 hregular
  | work accepted received n ret =>
    obtain ⟨v, hv, h⟩ := Option.bind_eq_some_iff.1 h
    rw [ServerSystem.next, if_neg hrun] at hv
    cases hdata : s.system.delivers received with
    | none =>
      rw [hdata] at h
      obtain rfl := Option.some.inj h
      exact .work hregular hdata hv
    | some p =>
      obtain ⟨c, data⟩ := p
      rw [hdata] at h
      obtain ⟨u, hu, rfl⟩ := Option.map_eq_some_iff.1 h
      exact .message hdata (hfits (c, data) hdata) hv hu
  | user c op n ret => cases h
  | swap =>
    obtain ⟨v, hv, rfl⟩ := Option.map_eq_some_iff.1 h
    simp only [ServerSystem.next, if_neg hrun] at hv
    split_ifs at hv with hp
    obtain rfl := Option.some.inj hv
    exact .swap hp.1 hp.2
  | call n ret =>
    obtain ⟨v, hv, rfl⟩ := Option.map_eq_some_iff.1 h
    simp only [ServerSystem.next, if_neg hrun] at hv
    split at hv
    · rename_i task batch hphase htodo hbatch
      obtain ⟨r, hr, hu⟩ := Option.bind_eq_some_iff.1 hv
      exact .call hphase htodo hbatch hr hu
    · cases hv
  | finish =>
    obtain ⟨v, hv, rfl⟩ := Option.map_eq_some_iff.1 h
    simp only [ServerSystem.next, if_neg hrun] at hv
    split_ifs at hv with hp
    obtain rfl := Option.some.inj hv
    exact .finish hp.1 hp.2.1 hp.2.2

/-- A piece of work that does not invoke `messageCallback_`. -/
theorem Inv.work {accepted : Option Accepted} {received : Option Bytes} (hs : s.Inv)
    (hregular : s.system.Regular (.work accepted received n ret))
    (hdata : s.system.delivers received = none)
    (hv : s.system.work accepted received n ret = some v) : Inv { s with system := v } := by
  unfold ServerSystem.work at hv
  split at hv
  · cases hv
  · rename_i todo htodo
    exact hs.accept htodo (fun hsome => hregular hsome (by rw [htodo]; rfl)) hv
  · rename_i c handler todo htodo
    obtain ⟨r, hr, hv⟩ := Option.bind_eq_some_iff.1 hv
    exact hs.handle htodo hr hdata hv
  · rename_i c todo htodo
    obtain ⟨r, hr, hv⟩ := Option.bind_eq_some_iff.1 hv
    exact hs.remove htodo hr hv

/-- One step of the loop. -/
theorem Inv.step (hs : s.Inv) (h : s.next a = some t) : t.Inv := by
  cases next_moves hs.server.failed h with
  | poll hphase hnodup hregistered hregular =>
    exact hs.keep (hs.server.poll hphase hnodup hregistered hregular) rfl
  | work hregular hdata hwork => exact hs.work hregular hdata hwork
  | message hdata hfits hwork hmessage =>
    obtain ⟨⟨todo, htodo⟩, rfl, hne⟩ := ServerSystem.delivers_eq_some hdata
    rw [ServerSystem.work, htodo] at hwork
    obtain ⟨r, hr, hwork⟩ := Option.bind_eq_some_iff.1 hwork
    exact hs.message htodo hr hne (hfits r hr) hwork hmessage
  | swap hphase htodo => exact hs.keep (hs.server.swap hphase htodo) rfl
  | call hphase htodo hbatch hr hcall => exact hs.call hphase htodo hbatch hr hcall
  | finish hphase htodo hbatch => exact hs.keep (hs.server.finish hphase htodo hbatch) rfl

/-- A server that has just been started has no connections. -/
theorem Inv.of_init (h : echoServers.init s) : s.Inv := by
  obtain ⟨⟨loop, name, numThreads, threads, server, hstart, hsystem⟩, hreceived⟩ := h
  rw [TcpServer.start_eq] at hstart
  obtain rfl := Outcome.ok.inj hstart
  refine ⟨hsystem ▸ .new, fun c r hr => ?_, fun c _ => congrFun hreceived c⟩
  rw [hsystem] at hr
  cases hr

end EchoServer

/-- **The echo server.** In every state of a run nothing has aborted and the books are right.  What
has left the socket of a connection is a prefix of what has arrived on it.  Until the connection is
closed, the rest, in order, is in its output buffer, it is reading, and it watches for `EPOLLOUT`
exactly when that buffer is not empty. -/
theorem echo_server_integrity {s : EchoServer} (h : echoServers.Reachable s) :
    s.system.failed = none ∧ s.system.Bookkeeping ∧
      ∀ c r, s.system.server.conns[c]? = some r →
        r.conn.socket.sent <+: s.received c ∧
          (r.closed = false →
            r.conn.socket.sent ++ r.conn.outputBuffer.content = s.received c ∧
              test r.conn.channel.events EPOLLIN = true ∧
              (r.conn.channel.isWriting = true ↔ r.conn.outputBuffer.content ≠ [])) := by
  have hs : s.Inv := h.invariant (fun _ => EchoServer.Inv.of_init) fun _ _ _ hs hn => hs.step hn
  refine ⟨hs.server.failed, hs.server.bookkeeping, fun c r hr => ?_⟩
  have hecho := hs.echoes c r hr
  exact ⟨hecho.sent, fun hopen =>
    ⟨hecho.answered hopen, hecho.reading hopen, hecho.writing hopen⟩⟩

/-- Two clients are accepted and send something.  The socket of the first one does not take all that
is sent back at once. -/
def twoClients : List ServerAction :=
  [.poll [.acceptor], .work (some (socketSeven ⟨0, 0⟩)) none 0 true, .swap, .finish,
    .poll [.acceptor], .work (some { socketSeven ⟨0, 0⟩ with sockfd := 8 }) none 0 true, .swap,
    .finish, .poll [.conn 0 EPOLLIN, .conn 1 EPOLLIN], .work none (some [1, 2, 3]) 0 true,
    .work none (some [9]) 0 true, .swap, .finish, .poll [.conn 1 EPOLLOUT, .conn 0 EPOLLOUT],
    .work none none 1 true, .work none none 2 true]

/-- After that run one byte of the first client has not come back. -/
theorem echo_server_integrity_two_clients : ∃ s : EchoServer, s.system.Bookkeeping ∧
    (∀ c r, s.system.server.conns[c]? = some r → r.conn.socket.sent <+: s.received c) ∧
      (s.system.server.conns.map fun r => r.conn.socket.sent) = [[1, 2], [9]] ∧
      s.received 0 = [1, 2, 3] ∧ s.received 1 = [9] := by
  obtain ⟨s, hs, hrun⟩ := Option.map_eq_some_iff.1 (by decide +kernel :
    ((echoServers.run ⟨.new (.listening ⟨1⟩ "0.0.0.0:80" 0 fun _ => 0), fun _ => []⟩
      twoClients).map fun s => (s.system.server.conns.map fun r => r.conn.socket.sent,
        s.received 0, s.received 1)) = some ([[1, 2], [9]], [1, 2, 3], [9]))
  obtain ⟨hsent, hreceived⟩ := Prod.mk.inj hrun |>.imp id Prod.mk.inj
  have hinit : echoServers.init
      ⟨.new (.listening ⟨1⟩ "0.0.0.0:80" 0 fun _ => 0), fun _ => []⟩ :=
    ⟨⟨⟨1⟩, "0.0.0.0:80", 0, fun _ => 0, _, TcpServer.start_eq _ _ _ _, rfl⟩, rfl⟩
  obtain ⟨-, hbooks, hconns⟩ := echo_server_integrity (LTS.Reachable.of_run (.init hinit) _ hs)
  exact ⟨s, hbooks, fun c r hr => (hconns c r hr).1, hsent, hreceived⟩

end Jiangbo
