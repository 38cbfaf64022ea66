import LearnForCpp.Reactor.LoopSender

/-!
# Echo

`onMessage` of `example/echo.cc`, of `example/pingpong_server.cc`, of `reactor/test8.cc` and of
`Session` in `example/pingpong_client.cc`: it takes all that is readable as one string and sends it
back.  `onConnection` of a `Session` sends the message of its client first.

An `EchoConnection` is a connection with these callbacks.  The loop thread runs a callback inside
the handler that invokes it; the two steps of `send` are those of `ConnSystem`, so that other
threads may shut the connection down between them.
-/

namespace Jiangbo

open Bitmask

/-- `retrieveAsString()`, the string. -/
def Buffer.asString (b : Buffer) : StdString :=
  ⟨b.content, by
    have h1 := List.length_take_le b.readableBytes (b.buffer.bytes.drop b.readerIndex)
    have h2 := b.buffer.size_le
    have h3 : (b.content).length ≤ (b.buffer.bytes.drop b.readerIndex).length :=
      List.length_take_le' _ _
    rw [List.length_drop] at h3
    omega⟩

namespace ConnSystem

/-- The thread that makes a step. -/
def actor (s : ConnSystem) : ConnAction → Tid
  | .callSend t _ | .callShutdown t | .proceed t _ _ => t
  | _ => s.tid

/-- What `readv` has stored when `handleRead` invokes `messageCallback_`. -/
def delivers (s : ConnSystem) : ConnAction → Bytes
  | .work (some data) _ _ =>
      match s.todo with
      | .handler .read :: _ => data
      | _ => []
  | _ => []

/-- `onMessage`, up to the test of `state_` in `send`. -/
def onMessage (s : ConnSystem) : Option ConnSystem :=
  (s.next (.inputBuffer .retrieveAsString)).bind fun u =>
    u.next (.callSend u.tid s.conn.inputBuffer.asString)

end ConnSystem

/-! ### What a step leaves -/

/-- The channel waits for input. -/
def Channel.Reading (c : Channel) : Prop := test c.events EPOLLIN = true

theorem Channel.Reading.enableWriting {c : Channel} (ret : Bool) (h : c.Reading) :
    (c.enableWriting ret).Reading := by
  rw [Reading, enableWriting_events, test_or, show test c.events EPOLLIN = true from h,
    Bool.true_or]

theorem Channel.Reading.disableWriting {c : Channel} (ret : Bool) (h : c.Reading) :
    (c.disableWriting ret).Reading := by
  have hmask : ~~~kWriteEvent &&& EPOLLIN = EPOLLIN := by decide
  rw [Reading, disableWriting_events, test, BitVec.and_assoc, hmask]
  exact h

namespace ConnCtx

variable {c : TcpConnection} {y : ConnCtx} {tid : Tid} {message : StdString} {n : ℤ} {ret : Bool}

/-- What a call on `c` leaves, when it neither reads nor closes. -/
structure Frame (c : TcpConnection) (y : ConnCtx) : Prop where
  loop : y.conn.loop = c.loop
  inputBuffer : y.conn.inputBuffer = c.inputBuffer
  state : y.conn.state = .kConnected → c.state = .kConnected
  sent : c.socket.sent <+: y.conn.socket.sent
  reading : c.channel.Reading → y.conn.channel.Reading
  registered : c.channel.registeredInEpoller = true → y.conn.channel.registeredInEpoller = true

theorem enter_frame {so : Socket} {queued : List Functor} {calls : List Callback}
    (h : so.sent = c.socket.sent) : Frame c ⟨{ c with socket := so }, queued, calls⟩ where
  loop := rfl
  inputBuffer := rfl
  state := id
  sent := by rw [h]
  reading := id
  registered := id

theorem sendInLoop_frame (h : c.enter.sendInLoop tid message n ret = .ok y) : Frame c y := by
  have hstep := sendInLoop_step h
  refine ⟨hstep.same.loop, hstep.inputBuffer, fun hy => hstep.state.symm.trans hy, ?_,
    fun hr => ?_, fun hr => ?_⟩
  · obtain ⟨p, -, hp⟩ := hstep.sent
    rw [hp]
    exact List.prefix_append _ _
  · rcases hstep.channel with hc | ⟨-, hc⟩ <;> rw [hc]
    · exact hr
    · exact hr.enableWriting ret
  · rcases hstep.channel with hc | ⟨-, hc⟩ <;> rw [hc]
    · exact hr
    · exact Channel.update_registered_of_true ret _ hr

theorem sendConnected_frame (h : c.enter.sendConnected tid message n ret = .ok y) :
    Frame c y := by
  rcases sendConnected_eq_ok h with ⟨-, h⟩ | ⟨-, rfl⟩
  · exact sendInLoop_frame h
  · exact enter_frame rfl

theorem shutdownInLoop_frame (h : c.enter.shutdownInLoop tid = .ok y) : Frame c y := by
  obtain ⟨so, rfl, hsent, -⟩ := shutdownInLoop_eq_ok h
  exact enter_frame hsent

theorem runShutdownInLoop_frame (h : c.enter.runShutdownInLoop tid = .ok y) : Frame c y := by
  rcases runShutdownInLoop_eq_ok h with ⟨-, h⟩ | ⟨-, rfl⟩
  · exact shutdownInLoop_frame h
  · exact enter_frame rfl

theorem handleWrite_frame (h : c.enter.handleWrite tid n ret = .ok y) : Frame c y := by
  have hdrain : ∀ b, Frame c ((c.enter.flush n b).drain ret) := by
    intro b
    refine ⟨?_, ?_, fun hy => ?_, ?_, fun hr => ?_, fun hr => ?_⟩
    · rw [drain_conn]; rfl
    · rw [drain_conn]; rfl
    · rw [drain_conn] at hy; exact hy
    · rw [drain_conn]; exact List.prefix_append _ _
    · rw [drain_conn]; exact hr.disableWriting ret
    · rw [drain_conn]; exact Channel.update_registered_of_true ret _ hr
  rcases handleWrite_eq_ok h with ⟨-, rfl⟩ | ⟨-, -, b, -, ⟨-, rfl⟩ | ⟨-, -, h⟩ | ⟨-, -, rfl⟩⟩
  · exact enter_frame rfl
  · exact ⟨rfl, rfl, id, List.prefix_append _ _, id, id⟩
  · obtain ⟨so, rfl, hsent, -⟩ := shutdownInLoop_eq_ok h
    have hb := hdrain b
    exact ⟨hb.loop, hb.inputBuffer, hb.state, hsent ▸ hb.sent, hb.reading, hb.registered⟩
  · exact hdrain b

end ConnCtx

namespace ConnSystem

variable {s u : ConnSystem} {a : ConnAction}

/-- What a step leaves of the input, of `state_`, of the interest in input and of the
registration. -/
structure Frame (s : ConnSystem) (a : ConnAction) (u : ConnSystem) : Prop where
  loop : u.conn.loop = s.conn.loop
  input : u.conn.inputBuffer.content = s.conn.inputBuffer.content ++ s.delivers a
  state : u.conn.state = .kConnected → s.conn.state = .kConnected
  sent : s.conn.socket.sent <+: u.conn.socket.sent
  reading : u.closeCalls = 0 → s.conn.channel.Reading → u.conn.channel.Reading
  registered : u.closeCalls = 0 → s.conn.channel.registeredInEpoller = true →
    u.conn.channel.registeredInEpoller = true

theorem Frame.of_call {s' : ConnSystem} {k : Option ℕ} {o : Result ConnCtx}
    (ha : s.delivers a = []) (ho : ∀ x, o = .ok x → ConnCtx.Frame s.conn x)
    (h : s'.after k o = some u) (hf : u.failed = none) : Frame s a u := by
  obtain ⟨x, hx, rfl⟩ := after_ok h hf
  have hframe := ho x hx
  refine ⟨?_, ?_, ?_, ?_, fun _ => ?_, fun _ => ?_⟩ <;> rw [absorb_conn]
  · exact hframe.loop
  · rw [ha, List.append_nil, hframe.inputBuffer]
  · exact hframe.state
  · exact hframe.sent
  · exact hframe.reading
  · exact hframe.registered

theorem Frame.of_eq (ha : s.delivers a = []) (hc : u.conn = s.conn) : Frame s a u where
  loop := by rw [hc]
  input := by rw [hc, ha, List.append_nil]
  state := by rw [hc]; exact id
  sent := by rw [hc]
  reading := fun _ => by rw [hc]; exact id
  registered := fun _ => by rw [hc]; exact id

/-- Only a read delivers. -/
theorem delivers_eq_nil {received : Option Bytes} {n : ℤ} {ret : Bool}
    (h : ∀ todo, s.todo ≠ .handler .read :: todo) : s.delivers (.work received n ret) = [] := by
  cases received with
  | none => rfl
  | some data => simp only [delivers]

/-- The end of the stream, an error, or data. -/
theorem Frame.of_read {received : Option Bytes} {n : ℤ} {ret : Bool} {todo : List LoopWork}
    (hinput : s.conn.inputBuffer.Inv) (htodo : s.todo = .handler .read :: todo)
    (hlen : ∀ data, received = some data →
      data.length ≤ s.conn.inputBuffer.writableBytes + Buffer.kExtraSize)
    (h : { s with todo := todo }.after none (s.conn.enter.handleRead s.tid received ret) =
      some u) (hf : u.failed = none) : Frame s (.work received n ret) u := by
  obtain ⟨x, hx, rfl⟩ := after_ok h hf
  obtain ⟨b, hb, hcase⟩ := ConnCtx.handleRead_readFd hx
  have hcontent := (hinput.readFd hlen hb).2
  have hdata : s.delivers (.work received n ret) = received.getD [] := by
    cases received with
    | none => rfl
    | some data => rw [delivers, htodo]; rfl
  rcases hcase with ⟨rfl, rfl⟩ | ⟨-, hconn, -, hcalls⟩
  · refine ⟨?_, ?_, ?_, ?_, fun hopen => ?_, fun _ hr => ?_⟩
    · rw [absorb_conn]
    · rw [absorb_conn, hdata]; exact hcontent
    · rw [absorb_conn]; exact id
    · rw [absorb_conn]
    · rw [absorb_closeCalls, if_pos List.mem_cons_self] at hopen
      cases hopen
    · rw [absorb_conn]
      exact (Channel.disableAll_registered ret _).trans hr
  · refine ⟨?_, ?_, ?_, ?_, fun _ => ?_, fun _ => ?_⟩ <;> rw [absorb_conn, hconn]
    · rw [hdata]; exact hcontent
    · exact id
    · exact id
    · exact id

theorem Solo.frame (hs : s.Solo) (ha : s.SentByLoop a) (hop : ∀ op, a ≠ .inputBuffer op)
    (h : s.next a = some u) : Frame s a u := by
  have hf := (hs.step ha h).1.alone.failed
  have hcalls := (hs.ledger.step hs.alone.failed (next_step h).2).2
  obtain ⟨-, hstep⟩ := next_step h
  cases hstep with
  | sendFound hpc hstate => exact .of_eq rfl rfl
  | sendRefused => exact .of_eq rfl rfl
  | sendConnected hpc hn hu => exact .of_call rfl (fun _ => ConnCtx.sendConnected_frame) hu hf
  | sendReturn hpc => exact .of_eq rfl rfl
  | shutdownBegin => exact .of_eq rfl rfl
  | shutdownTest hpc => exact .of_eq rfl rfl
  | shutdownStore hpc =>
    exact ⟨rfl, (List.append_nil _).symm, fun h => (by cases h), List.prefix_rfl, fun _ => id,
      fun _ => id⟩
  | runShutdown hpc hu => exact .of_call rfl (fun _ => ConnCtx.runShutdownInLoop_frame) hu hf
  | event htodo hbatch hreg => exact .of_eq rfl rfl
  | @handler received n ret handler todo u htodo hu =>
    have hnone : handler ≠ .read → s.delivers (.work received n ret) = [] := fun hne =>
      delivers_eq_nil fun todo h => hne (by rw [htodo] at h; cases h; rfl)
    cases handler with
    | close =>
      exact absurd (by rw [htodo]; exact List.mem_cons_self) hs.alone.close_not_mem
    | error =>
      change ConnSystem.after _ none s.conn.enter.handleError = _ at hu
      refine .of_call (hnone (by simp)) (fun x hx => ?_) hu hf
      cases hx
      exact ConnCtx.enter_frame rfl
    | read =>
      refine .of_read hs.alone.input htodo (fun data hdata => ?_) hu hf
      subst hdata
      exact ha
    | write =>
      simp only [handle] at hu
      split_ifs at hu
      exact .of_call (hnone (by simp)) (fun _ => ConnCtx.handleWrite_frame) hu hf
  | removeChannel htodo hu =>
    have hclosed := (hs.alone.removing (by rw [htodo]; exact List.mem_cons_self)).2.2.2
    obtain ⟨x, hx, rfl⟩ := after_ok hu hf
    obtain ⟨-, -, rfl⟩ := ConnCtx.removeChannel_eq_ok hx
    refine ⟨by rw [absorb_conn]; rfl, ?_, by rw [absorb_conn]; exact id,
      by rw [absorb_conn]; exact List.prefix_rfl, fun h0 => by omega, fun h0 => by omega⟩
    rw [absorb_conn, delivers_eq_nil (by simp [htodo]), List.append_nil]
    rfl
  | swap htodo hbatch => exact .of_eq rfl rfl
  | @task n ret task batch u htodo hbatch hu =>
    unfold runTask at hu
    split at hu
    · split_ifs at hu
      exact .of_call rfl (fun _ => ConnCtx.sendInLoop_frame) hu hf
    · exact .of_call rfl (fun _ => ConnCtx.shutdownInLoop_frame) hu hf
    · cases hu
      exact .of_eq rfl rfl
    · rename_i hfun
      have hone := (hs.ledger.live_of_queued hs.closeCalls_le hbatch hfun).2.2
      obtain ⟨x, hx, rfl⟩ := after_ok hu hf
      obtain ⟨-, rfl⟩ := ConnCtx.connectDestoryed_eq_ok hx
      refine ⟨by rw [absorb_conn]; rfl, ?_, fun hk => ?_,
        by rw [absorb_conn]; exact List.prefix_rfl, fun h0 => by omega, fun h0 => by omega⟩
      · rw [absorb_conn]
        exact (List.append_nil _).symm
      · rw [absorb_conn] at hk
        cases hk
  | setWriteCompleteCallback =>
    exact ⟨rfl, (List.append_nil _).symm, id, List.prefix_rfl, fun _ => id, fun _ => id⟩
  | inputBuffer => exact absurd rfl (hop _)
  | detach => exact .of_eq rfl rfl

end ConnSystem

/-! ### The programs -/

/-- The counters of a `Session`. -/
structure SessionCounters where
  bytesRead : Int64
  bytesWritten : Int64
  messagesRead : Int64
  deriving DecidableEq

namespace SessionCounters

def new : SessionCounters := ⟨0, 0, 0⟩

/-- The counters after `onMessage` with `readable` readable bytes. -/
def onMessage (readable : ℕ) (c : SessionCounters) : SessionCounters where
  bytesRead := c.bytesRead + .ofNat readable
  bytesWritten := c.bytesWritten + .ofNat readable
  messagesRead := c.messagesRead + 1

end SessionCounters

/-- A connection whose `onMessage` sends back what it reads. -/
structure EchoConnection where
  system : ConnSystem
  /-- What `onConnection` is about to send. -/
  greeting : Option StdString
  /-- What `readv` has stored so far. -/
  received : Bytes
  /-- Kept by a `Session` only. -/
  counters : SessionCounters

namespace EchoConnection

/-- What the kernel and the threads may do: the loop thread goes on when `onConnection` is over. -/
def MayStep (s : EchoConnection) (a : ConnAction) : Prop :=
  s.system.SentByLoop a ∧ (s.greeting = none ∨ s.system.actor a ≠ s.system.tid)

instance (s : EchoConnection) (a : ConnAction) : Decidable (s.MayStep a) :=
  inferInstanceAs (Decidable (_ ∧ _))

/-- A step of the connection, with `onMessage` in it when `handleRead` invokes it. -/
def advance (s : EchoConnection) (a : ConnAction) : Option EchoConnection :=
  (s.system.next a).bind fun v =>
    if s.system.delivers a = [] then some { s with system := v }
    else v.onMessage.map fun u =>
      { s with
        system := u
        received := s.received ++ s.system.delivers a
        counters := s.counters.onMessage v.conn.inputBuffer.readableBytes }

def next (s : EchoConnection) (a : ConnAction) : Option EchoConnection :=
  match a with
  | .callSend t message =>
      -- the `send` of `onConnection`
      if t = s.system.tid ∧ s.greeting = some message then
        (s.system.next a).map fun u => { s with system := u, greeting := none }
      else none
  | .inputBuffer _ | .setWriteCompleteCallback _ | .detach => none
  | _ => if s.MayStep a then s.advance a else none

end EchoConnection

/-- The runs of an established connection with these callbacks. -/
def echoConnections (greeting : Option StdString) : LTS EchoConnection ConnAction where
  init s := connections.init s.system ∧ s.greeting = greeting ∧ s.received = [] ∧
    s.counters = .new
  next := EchoConnection.next

namespace EchoConnection

variable {s t : EchoConnection} {a : ConnAction} {g : Bytes}

/-! ### Steps -/

/-- What `onMessage` does: it reads all there is, and sends it if `state_` is still `kConnected`. -/
theorem onMessage_spec {v u : ConnSystem} (hv : v.Solo) (hopen : v.closeCalls = 0)
    (h : v.onMessage = some u) :
    u.Solo ∧ u.conn.inputBuffer.content = [] ∧ u.closeCalls = 0 ∧ u.conn.state = v.conn.state ∧
      u.conn.loop = v.conn.loop ∧ u.conn.channel = v.conn.channel ∧
      u.conn.socket = v.conn.socket ∧ u.stream = v.stream ++
        if v.conn.state = .kConnected then v.conn.inputBuffer.content else [] := by
  obtain ⟨w, hw, hu⟩ := Option.bind_eq_some_iff.1 h
  obtain ⟨hw', hwstream⟩ := hv.step (a := .inputBuffer .retrieveAsString) trivial hw
  obtain ⟨b, hb, rfl⟩ := ConnSystem.next_inputBuffer hw
  have hb : v.conn.inputBuffer.retrieveAll = b := Outcome.ok.inj hb
  have hempty := (Buffer.retrieveAll_spec hv.alone.input.cheap_le).content_eq
  obtain ⟨hu', hustream⟩ := hw'.step (a := .callSend _ _) ⟨rfl, hopen⟩ hu
  obtain ⟨hpc, rfl⟩ := ConnSystem.next_callSend hu
  have hdrained : b.content = [] := hb ▸ hempty
  have hstream := hustream.trans (congrArg (· ++ _) (hwstream.trans (List.append_nil _)))
  refine ⟨hu', ?_, ?_, ?_, ?_, ?_, ?_, hstream⟩ <;> split_ifs
  all_goals first | exact hdrained | exact hopen | rfl

/-- The invariant of an echo that greets with `g`. -/
structure Inv (g : Bytes) (s : EchoConnection) : Prop where
  solo : s.system.Solo
  drained : s.system.conn.inputBuffer.content = []
  greeting : ∀ message, s.greeting = some message →
    message.bytes = g ∧ s.received = [] ∧ s.system.stream = [] ∧ s.system.closeCalls = 0
  stream : s.system.stream <+: g ++ s.received
  answered : s.greeting = none → s.system.closeCalls = 0 → s.system.conn.state = .kConnected →
    s.system.stream = g ++ s.received
  reading : s.system.closeCalls = 0 → s.system.conn.channel.Reading
  counted : s.counters.bytesRead = .ofNat s.received.length ∧
    s.counters.bytesWritten = s.counters.bytesRead

theorem Inv.of_init {greeting : Option StdString} (h : (echoConnections greeting).init s) :
    s.Inv (greeting.elim [] CharVector.bytes) := by
  obtain ⟨hinit, rfl, hreceived, hcounters⟩ := h
  have hsolo := ConnSystem.Solo.of_init hinit
  obtain ⟨conn, owner, hconn, hs⟩ := hinit
  obtain ⟨loop, name, sockfd, localAddr, peerAddr, storage, callback, ret, rfl⟩ := hconn.eq
  have hstream : s.system.stream = [] := by
    rw [hs]
    simp [ConnSystem.stream, ConnSystem.held, ConnSystem.new, TcpConnection.new, Buffer.new_content]
  refine ⟨hsolo, ?_, fun message hm => ⟨?_, hreceived, hstream, ?_⟩, ?_, fun hg _ _ => ?_,
    fun _ => ?_, ?_⟩
  · rw [hs]
    exact Buffer.new_content
  · rw [hm]
    rfl
  · rw [hs]
    rfl
  · rw [hstream]
    exact List.nil_prefix
  · rw [hstream, hg, hreceived]
    rfl
  · have hread : Bitmask.test Channel.kReadEvent EPOLLIN = true := by decide
    rw [hs, Channel.Reading]
    simp only [ConnSystem.new, Channel.enableReading_events]
    split_ifs <;> simp [hread, Bitmask.test_or]
  · rw [hcounters, hreceived]
    exact ⟨rfl, rfl⟩

/-- A step of the connection without a callback. -/
theorem Inv.of_quiet {u : ConnSystem} (hs : s.Inv g) (ha : s.system.SentByLoop a)
    (hop : ∀ op, a ≠ .inputBuffer op) (hsend : s.system.taken a = [])
    (hdata : s.system.delivers a = []) (hends : s.greeting = none ∨ s.system.endsStream a = false)
    (h : s.system.next a = some u) : Inv g { s with system := u } := by
  obtain ⟨hu, hstream⟩ := hs.solo.step ha h
  rw [hsend, List.append_nil] at hstream
  have hframe := hs.solo.frame ha hop h
  have hcalls := (hs.solo.ledger.step hs.solo.alone.failed (ConnSystem.next_step h).2).2
  refine ⟨hu, ?_, fun message hm => ?_, ?_, fun hg hopen hk => ?_, fun hopen => ?_, hs.counted⟩
  · show u.conn.inputBuffer.content = []
    rw [hframe.input, hdata, hs.drained, List.append_nil]
  · obtain ⟨h1, h2, h3, h4⟩ := hs.greeting message hm
    refine ⟨h1, h2, hstream.trans h3, ?_⟩
    rw [hcalls, h4, hends.resolve_left (by rw [hm]; nofun)]
    rfl
  · show u.stream <+: _
    rw [hstream]
    exact hs.stream
  · show u.stream = _
    rw [hstream]
    exact hs.answered hg (by simp only at hopen; omega) (hframe.state hk)
  · exact hframe.reading hopen (hs.reading (by simp only at hopen; omega))

/-- A read that delivers, on an open connection. -/
theorem delivers_open {v : ConnSystem} (hs : s.system.Solo) (h : s.system.next a = some v)
    (hdata : s.system.delivers a ≠ []) :
    s.system.closeCalls = 0 ∧ v.closeCalls = 0 ∧ s.system.actor a = s.system.tid := by
  have hcalls := (hs.ledger.step hs.alone.failed (ConnSystem.next_step h).2).2
  unfold ConnSystem.delivers at hdata
  split at hdata
  · rename_i data n ret
    split at hdata
    · rename_i todo htodo
      have hopen : s.system.closeCalls = 0 := by
        by_contra hne
        exact hs.alone.read_not_mem (Nat.pos_of_ne_zero hne)
          (by rw [htodo]; exact List.mem_cons_self)
      have hends : s.system.endsStream (.work (some data) n ret) = false := by
        simp [ConnSystem.endsStream, htodo, hdata]
      rw [hends, hopen] at hcalls
      exact ⟨hopen, hcalls, rfl⟩
    · exact absurd rfl hdata
  · exact absurd rfl hdata

/-- A step that invokes `messageCallback_`. -/
theorem Inv.of_message {v u : ConnSystem} (hs : s.Inv g) (ha : s.system.SentByLoop a)
    (hop : ∀ op, a ≠ .inputBuffer op) (hsend : s.system.taken a = [])
    (hdata : s.system.delivers a ≠ []) (hgreeting : s.greeting = none)
    (hv : s.system.next a = some v) (hu : v.onMessage = some u) :
    Inv g { s with
      system := u
      received := s.received ++ s.system.delivers a
      counters := s.counters.onMessage v.conn.inputBuffer.readableBytes } := by
  obtain ⟨hvs, hvstream⟩ := hs.solo.step ha hv
  obtain ⟨hopen, hvopen, -⟩ := delivers_open hs.solo hv hdata
  have hframe := hs.solo.frame ha hop hv
  have hinput : v.conn.inputBuffer.content = s.system.delivers a := by
    rw [hframe.input, hs.drained, List.nil_append]
  obtain ⟨hus, hdrained, huopen, hstate, -, hchannel, -, hustream⟩ := onMessage_spec hvs hvopen hu
  rw [hsend, List.append_nil] at hvstream
  rw [hvstream, hinput] at hustream
  -- a message that is answered finds all messages before it answered
  have hall : v.conn.state = .kConnected → s.system.stream = g ++ s.received := fun hk =>
    hs.answered hgreeting hopen (hframe.state hk)
  refine ⟨hus, hdrained, fun message hm => ?_, ?_, fun _ _ hk => ?_, fun _ => ?_, ?_⟩
  · rw [hgreeting] at hm
    cases hm
  · show u.stream <+: g ++ (s.received ++ s.system.delivers a)
    rw [hustream, ← List.append_assoc]
    split_ifs with hk
    · rw [hall hk]
    · rw [List.append_nil]
      exact hs.stream.trans (List.prefix_append _ _)
  · have hk' : v.conn.state = .kConnected := hstate ▸ hk
    show u.stream = g ++ (s.received ++ s.system.delivers a)
    rw [hustream, if_pos hk', hall hk', List.append_assoc]
  · show u.conn.channel.Reading
    rw [hchannel]
    exact hframe.reading hvopen (hs.reading hopen)
  · have hlen : v.conn.inputBuffer.readableBytes = (s.system.delivers a).length := by
      rw [← hvs.alone.input.toWF.content_length, hinput]
    obtain ⟨h1, h2⟩ := hs.counted
    simp only [SessionCounters.onMessage, h2, h1, hlen, List.length_append, Int64.ofNat_add,
      and_self]

/-- A step of the connection, with or without a callback. -/
theorem Inv.advance (hs : s.Inv g) (ha : s.MayStep a) (hop : ∀ op, a ≠ .inputBuffer op)
    (hsend : s.system.taken a = []) (h : s.advance a = some t) : t.Inv g := by
  obtain ⟨v, hv, h⟩ := Option.bind_eq_some_iff.1 h
  split_ifs at h with hdata
  · cases h
    refine hs.of_quiet ha.1 hop hsend hdata (ha.2.imp_right fun hactor => ?_) hv
    -- the end of the stream is reported to the loop thread
    cases a with
    | work received n ret => exact absurd rfl hactor
    | _ => rfl
  · obtain ⟨u, hu, rfl⟩ := Option.map_eq_some_iff.1 h
    have hactor := (delivers_open hs.solo hv hdata).2.2
    exact hs.of_message ha.1 hop hsend hdata (ha.2.resolve_right (not_not.2 hactor)) hv hu

/-- The `send` of `onConnection`. -/
theorem Inv.greet {message : StdString} {u : ConnSystem} (hs : s.Inv g)
    (hg : s.greeting = some message) (h : s.system.next (.callSend s.system.tid message) = some u) :
    Inv g { s with system := u, greeting := none } := by
  obtain ⟨hm, hreceived, hempty, hopen⟩ := hs.greeting message hg
  obtain ⟨hu, hstream⟩ := hs.solo.step (a := .callSend _ _) ⟨rfl, hopen⟩ h
  have hframe := hs.solo.frame (a := .callSend _ _) ⟨rfl, hopen⟩ (fun _ => nofun) h
  have hcalls := (hs.solo.ledger.step hs.solo.alone.failed (ConnSystem.next_step h).2).2
  rw [hempty, List.nil_append, ConnSystem.taken, hm] at hstream
  refine ⟨hu, ?_, nofun, ?_, fun _ _ hk => ?_, fun hu0 => hframe.reading hu0 (hs.reading hopen),
    hs.counted⟩
  · exact hframe.input.trans ((List.append_nil _).trans hs.drained)
  · show u.stream <+: g ++ s.received
    rw [hstream, hreceived, List.append_nil]
    split_ifs
    · exact List.prefix_rfl
    · exact List.nil_prefix
  · show u.stream = g ++ s.received
    rw [hstream, if_pos (hframe.state hk), hreceived, List.append_nil]

theorem Inv.step (hs : s.Inv g) (h : s.next a = some t) : t.Inv g := by
  cases a with
  | callSend thread message =>
    simp only [next] at h
    split_ifs at h with hg
    obtain ⟨rfl, hg⟩ := hg
    obtain ⟨u, hu, rfl⟩ := Option.map_eq_some_iff.1 h
    exact hs.greet hg hu
  | inputBuffer op => cases h
  | setWriteCompleteCallback callback => cases h
  | detach => cases h
  | _ =>
    simp only [next] at h
    split_ifs at h with hg
    exact hs.advance hg (fun _ => nofun) rfl h

/-- What a step does to the bytes at the two ends of the socket, and what it keeps. -/
structure Grows (s : EchoConnection) (a : ConnAction) (t : EchoConnection) : Prop where
  received : t.received = s.received ++ s.system.delivers a
  sent : s.system.conn.socket.sent <+: t.system.conn.socket.sent
  greeting : s.greeting = none → t.greeting = none
  closeCalls : s.system.closeCalls ≤ t.system.closeCalls
  registered : t.system.closeCalls = 0 → s.system.conn.channel.registeredInEpoller = true →
    t.system.conn.channel.registeredInEpoller = true

theorem Inv.grows_of_advance (hs : s.Inv g) (ha : s.MayStep a) (hop : ∀ op, a ≠ .inputBuffer op)
    (h : s.advance a = some t) : Grows s a t := by
  obtain ⟨v, hv, h⟩ := Option.bind_eq_some_iff.1 h
  have hframe := hs.solo.frame ha.1 hop hv
  have hcalls := (hs.solo.ledger.step hs.solo.alone.failed (ConnSystem.next_step hv).2).2
  split_ifs at h with hdata
  · cases h
    exact ⟨by rw [hdata, List.append_nil], hframe.sent, id, by simp only; omega, hframe.registered⟩
  · obtain ⟨u, hu, rfl⟩ := Option.map_eq_some_iff.1 h
    obtain ⟨hopen, hvopen, -⟩ := delivers_open hs.solo hv hdata
    obtain ⟨-, -, -, -, -, hchannel, hsocket, -⟩ :=
      onMessage_spec (hs.solo.step ha.1 hv).1 hvopen hu
    refine ⟨rfl, by simpa only [hsocket] using hframe.sent, id, by simp only; omega, fun _ => ?_⟩
    simpa only [hchannel] using hframe.registered hvopen

theorem Inv.grows (hs : s.Inv g) (h : s.next a = some t) : Grows s a t := by
  cases a with
  | callSend thread message =>
    simp only [next] at h
    split_ifs at h with hg
    obtain ⟨rfl, hg⟩ := hg
    obtain ⟨u, hu, rfl⟩ := Option.map_eq_some_iff.1 h
    have hopen := (hs.greeting message hg).2.2.2
    have hframe := hs.solo.frame (a := .callSend _ _) ⟨rfl, hopen⟩ (fun _ => nofun) hu
    exact ⟨(List.append_nil _).symm, hframe.sent, fun _ => rfl, by simp only; omega,
      hframe.registered⟩
  | inputBuffer op => cases h
  | setWriteCompleteCallback callback => cases h
  | detach => cases h
  | _ =>
    simp only [next] at h
    split_ifs at h with hg
    exact hs.grows_of_advance hg (fun _ => nofun) h

/-- What the kernel took is part of the stream. -/
theorem Inv.sent_prefix (hs : s.Inv g) :
    s.system.conn.socket.sent <+: g ++ s.received := by
  refine List.IsPrefix.trans ?_ hs.stream
  rw [ConnSystem.stream, List.append_assoc]
  exact List.prefix_append _ _

end EchoConnection

/-- **Echo.** In every state of every run no assertion has failed, the connection was closed and
destroyed at most once, and what the kernel took is a prefix of the greeting followed by what was
received.  While the connection is open and connected that is all that was ever sent, the bytes on
their way included, and the channel waits for input, and for room exactly if bytes are left. -/
theorem echo_integrity {greeting : Option StdString} {s : EchoConnection}
    (h : (echoConnections greeting).Reachable s) :
    s.system.failed = none ∧ s.system.ClosedOnce ∧
      s.system.conn.socket.sent <+: greeting.elim [] CharVector.bytes ++ s.received ∧
      (s.system.closeCalls = 0 → s.greeting = none → s.system.conn.state = .kConnected →
        s.system.conn.socket.sent ++ s.system.conn.outputBuffer.content ++ s.system.held =
          greeting.elim [] CharVector.bytes ++ s.received ∧
        Bitmask.test s.system.conn.channel.events EPOLLIN = true ∧
        (s.system.conn.channel.isWriting = true ↔ s.system.conn.outputBuffer.content ≠ [])) := by
  have hs : s.Inv (greeting.elim [] CharVector.bytes) :=
    h.invariant (fun _ => EchoConnection.Inv.of_init) fun _ _ _ hs => hs.step
  refine ⟨hs.solo.alone.failed, hs.solo.ledger.closedOnce_iff.2 hs.solo.closeCalls_le,
    hs.sent_prefix, fun hopen hg hk => ⟨hs.answered hg hopen hk, hs.reading hopen, ?_⟩⟩
  exact (hs.solo.alone.synced hopen).isWriting_iff

/-- A connection of a server with these callbacks, just established. -/
def EchoConnection.sample : EchoConnection := ⟨.new .sample .server, none, [], .new⟩

theorem EchoConnection.sample_init : (echoConnections none).init .sample :=
  ⟨Jiangbo.sample_init .server, rfl, rfl, rfl⟩

/-- Three bytes arrive in two reads, and the kernel takes two of them back. -/
def echoThreeBytes : List ConnAction :=
  [.event EPOLLIN, .work (some [1, 2]) 0 true, .proceed 1 0 true, .proceed 1 0 true,
    .event (EPOLLIN ||| EPOLLOUT), .work (some [3]) 0 true, .proceed 1 0 true, .proceed 1 0 true,
    .work none 2 true]

theorem echo_integrity_three_bytes : ∃ s,
    (echoConnections none).run .sample echoThreeBytes = some s ∧ s.received = [1, 2, 3] ∧
      s.system.failed = none ∧ s.system.conn.socket.sent <+: [] ++ s.received := by
  obtain ⟨s, hs, hend⟩ := Option.map_eq_some_iff.1 (by decide +kernel :
    (((echoConnections none).run .sample echoThreeBytes).map fun s => s.received) =
      some [1, 2, 3])
  obtain ⟨hfailed, -, hsent, -⟩ := echo_integrity (.of_run (.init EchoConnection.sample_init) _ hs)
  exact ⟨s, hs, hend, hfailed, hsent⟩

end Jiangbo
