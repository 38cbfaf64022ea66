import LearnForCpp.Reactor.ClosedConnection
import LearnForCpp.Reactor.GracefulShutdown
import LearnForCpp.Reactor.QuietCalls

/-!
# Connections that only their loop sends on

The servers and clients of this repository send from `onConnection` and `onMessage`, in the thread
of the loop and before `handleClose`; other threads at most call `shutdown`.  `loopSenders` are the
runs in which that is so, in which the kernel reports what the channel asked for, and in which
`readv` stores no more than the two buffers of `readFd` hold.

On such a run nothing goes wrong: `Alone` keeps every assertion true, and the bytes of `stream`, the
ones with the kernel, the ones in `outputBuffer_` and the ones on their way to `sendInLoop`, only
ever grow by the messages that `send` takes.
-/

namespace Jiangbo

open Bitmask

def EPOLLHUP : EventMask := 0x010

namespace Channel

/-- What `epoll_wait` may report: the interest of the channel, errors and hang-ups, and the end of
the stream only together with `EPOLLIN`. -/
def Reports (c : Channel) (revents : EventMask) : Prop :=
  revents &&& (c.events ||| EPOLLERR ||| EPOLLHUP) = revents ∧
    (test revents EPOLLRDHUP = true → test revents EPOLLIN = true)

instance (c : Channel) (revents : EventMask) : Decidable (c.Reports revents) :=
  inferInstanceAs (Decidable (_ ∧ _))

variable {c : Channel} {revents : EventMask}

theorem Reports.close_not_mem (h : c.Reports revents) : .close ∉ handleEvent revents := by
  have hin := h.2
  unfold handleEvent
  cases h1 : test revents EPOLLRDHUP with
  | true => simp [hin h1]
  | false => simp

/-- A channel without interest is told of errors and hang-ups only. -/
theorem Reports.read_not_mem (h : c.Reports revents) (hc : c.events = kNoneEvent) :
    .read ∉ handleEvent revents := by
  have hmask : (kNoneEvent ||| EPOLLERR ||| EPOLLHUP) &&& (EPOLLIN ||| EPOLLPRI ||| EPOLLRDHUP) =
      0#32 := by decide
  have htest : test revents (EPOLLIN ||| EPOLLPRI ||| EPOLLRDHUP) = false := by
    rw [test, ← h.1, hc, BitVec.and_assoc, hmask, BitVec.and_zero]
    rfl
  unfold handleEvent
  rw [htest]
  simp

theorem handleEvent_nodup (revents : EventMask) : (handleEvent revents).Nodup := by
  unfold handleEvent
  split_ifs <;> decide

end Channel

/-- `readFd` on a buffer in use adds what `readv` stored. -/
theorem Buffer.Inv.readFd {b b' : Buffer} {received : Option Bytes} (hb : b.Inv)
    (hlen : ∀ data, received = some data → data.length ≤ b.writableBytes + kExtraSize)
    (h : b.readFd received = .ok b') : b'.Inv ∧ b'.content = b.content ++ received.getD [] := by
  match received, hlen with
  | none, _ =>
    cases h
    exact ⟨hb, (List.append_nil _).symm⟩
  | some data, hlen =>
    have hafter := (readFd_spec hb.toWF (hlen data rfl)).of_ok h
    exact ⟨hafter.inv hb, hafter.content_eq⟩

namespace ConnCtx

variable {c : TcpConnection} {x y : ConnCtx} {tid : Tid} {received : Option Bytes} {ret : Bool}

theorem handleWrite_inputBuffer {n : ℤ} (h : x.handleWrite tid n ret = .ok y) :
    y.conn.inputBuffer = x.conn.inputBuffer := by
  have hdrain : ∀ b, ((x.flush n b).drain ret).conn.inputBuffer = x.conn.inputBuffer := by
    intro b
    rw [drain_conn]
    rfl
  rcases handleWrite_eq_ok h with ⟨-, rfl⟩ | ⟨-, -, b, -, ⟨-, rfl⟩ | ⟨-, -, h⟩ | ⟨-, -, rfl⟩⟩
  · rfl
  · rfl
  · obtain ⟨so, rfl, -⟩ := shutdownInLoop_eq_ok h
    exact hdrain b
  · exact hdrain b

/-- What `handleRead` leaves, with the buffer that `readFd` left. -/
theorem handleRead_readFd (h : c.enter.handleRead tid received ret = .ok y) :
    ∃ b, c.inputBuffer.readFd received = .ok b ∧
      ((received = some [] ∧
          y = ⟨{ c with inputBuffer := b, channel := c.channel.disableAll ret }, [], [.close]⟩) ∨
        (received ≠ some [] ∧ y.conn = { c with inputBuffer := b } ∧ y.queued = [] ∧
          .close ∉ y.calls)) := by
  simp only [handleRead, Outcome.bind_eq_ok, Outcome.zoom_eq_ok] at h
  obtain ⟨_, ⟨b, hb, rfl⟩, h⟩ := h
  refine ⟨b, hb, ?_⟩
  rcases received with _ | _ | ⟨d, data⟩
  · cases h
    exact .inr ⟨by simp, rfl, rfl, List.not_mem_nil⟩
  · exact .inl ⟨rfl, (handleClose_eq_ok h).2⟩
  · cases h
    exact .inr ⟨by simp, rfl, rfl, by simp [call, setInputBuffer, TcpConnection.enter]⟩

/-- A read of a live connection fails no assertion. -/
theorem handleRead_returns (hwf : c.inputBuffer.WF) (hlive : received = some [] → c.Live)
    (hlen : ∀ data, received = some data →
      data.length ≤ c.inputBuffer.writableBytes + Buffer.kExtraSize) :
    (c.enter.handleRead tid received ret).Faults fun e _ => ∀ a, e ≠ .assertion a := by
  have hread : (c.inputBuffer.readFd received).Faults fun e _ => ∀ a, e ≠ .assertion a := by
    match received, hlen with
    | none, _ => exact .ok _
    | some data, hlen =>
      exact (Buffer.readFd_spec hwf (hlen data rfl)).mono (fun _ _ => trivial)
        fun e _ he a => by simp [he.1]
  refine .bind (hread.zoom fun _ _ => id) fun z hz => ?_
  obtain ⟨b, -, rfl⟩ := Outcome.zoom_eq_ok.1 hz
  match received, hlive with
  | none, _ => exact .ok _
  | some [], hlive =>
    refine (handleClose_faults (c := { c with inputBuffer := b })).mono fun e z h a ha => ?_
    rcases h.2 with h | h
    · rw [h] at ha
      cases ha
    · exact h (hlive rfl)
  | some (_ :: _), _ => exact .ok _

end ConnCtx

theorem TcpConnection.Synced.congr {c d : TcpConnection} (h : c.Synced)
    (hb : d.outputBuffer = c.outputBuffer) (hc : d.channel = c.channel) : d.Synced :=
  ⟨hb ▸ h.wf, by rw [hb, hc]; exact h.isWriting_iff⟩

namespace ConnSystem

open ConnCtx (StreamStep)
open OutputStream (WriteResult)
open TcpConnection (Live)

/-- The steps of a connection that only its loop sends on. -/
def SentByLoop (s : ConnSystem) : ConnAction → Prop
  | .callSend t _ => t = s.tid ∧ s.closeCalls = 0
  | .event revents => s.conn.channel.Reports revents
  | .work (some data) _ _ =>
      data.length ≤ s.conn.inputBuffer.writableBytes + Buffer.kExtraSize
  | .inputBuffer op => op.Legal s.conn.inputBuffer
  | _ => True

instance (s : ConnSystem) : (a : ConnAction) → Decidable (s.SentByLoop a)
  | .callSend _ _ => inferInstanceAs (Decidable (_ ∧ _))
  | .event revents => inferInstanceAs (Decidable (s.conn.channel.Reports revents))
  | .work (some _) _ _ => inferInstanceAs (Decidable (_ ≤ _))
  | .inputBuffer op => inferInstanceAs (Decidable (op.Legal s.conn.inputBuffer))
  | .work none _ _ | .callShutdown _ | .proceed _ _ _ | .swap | .call _ _
  | .setWriteCompleteCallback _ | .detach => inferInstanceAs (Decidable True)

/-- The message with which the loop thread is between the test of `state_` and `sendInLoop`. -/
def held (s : ConnSystem) : Bytes :=
  match s.pc s.tid with
  | .sendFound p => p.2.bytes
  | _ => []

/-- The bytes that the connection has to send, in order, from the first one on. -/
def stream (s : ConnSystem) : Bytes :=
  s.conn.socket.sent ++ s.conn.outputBuffer.content ++ s.held

/-- What a step adds to the stream. -/
def taken (s : ConnSystem) : ConnAction → Bytes
  | .callSend _ message => if s.conn.state = .kConnected then message.bytes else []
  | _ => []

/-- What is true of a connection that only its loop sends on, before and after `handleClose`. -/
structure Alone (s : ConnSystem) : Prop where
  failed : s.failed = none
  input : s.conn.inputBuffer.Inv
  senders : ∀ t p, s.pc t = .sendFound p → t = s.tid ∧ s.closeCalls = 0
  tasks : ∀ task ∈ s.batch ++ s.pendingFunctors, ∀ m, task.functor ≠ .sendInLoop m
  nodup : s.todo.Nodup
  close_not_mem : .handler .close ∉ s.todo
  synced : s.closeCalls = 0 → s.conn.Synced
  events : 0 < s.closeCalls → s.conn.channel.events = Channel.kNoneEvent
  read_not_mem : 0 < s.closeCalls → .handler .read ∉ s.todo
  removing : .removeChannel ∈ s.todo →
    s.todo = [.removeChannel] ∧ s.destroyed = false ∧ 0 < s.destroyCalls ∧ 0 < s.closeCalls
  destroyed : s.destroyed = true → 0 < s.destroyCalls
  registered : s.destroyed = false → s.todo ≠ [] ∨ 0 < s.closeCalls →
    s.conn.channel.registeredInEpoller = true

variable {s u : ConnSystem} {a : ConnAction} {k : Option ℕ} {x : ConnCtx}

/-! ### The stream -/

theorem held_of_found {p : Ticket} (h : s.pc s.tid = .sendFound p) : s.held = p.2.bytes := by
  rw [held, h]

theorem held_eq_nil (h : ∀ p, s.pc s.tid ≠ .sendFound p) : s.held = [] := by
  unfold held
  split
  · exact absurd ‹_› (h _)
  · rfl

/-- The step of a caller that is not about to send, and does not come to be. -/
theorem held_setPc {t : Tid} {c : CallPoint} (ht : ∀ p, s.pc t ≠ .sendFound p)
    (hc : ∀ p, c ≠ .sendFound p) : (s.setPc t c).held = s.held := by
  by_cases hself : s.tid = t
  · have hpc : (s.setPc t c).pc (s.setPc t c).tid = c := by
      show Function.update s.pc t c s.tid = c
      rw [hself, Function.update_self]
    rw [held_eq_nil (by rw [hpc]; exact hc), held_eq_nil (by rw [hself]; exact ht)]
  · have hpc : (s.setPc t c).pc (s.setPc t c).tid = s.pc s.tid :=
      Function.update_of_ne hself _ _
    rw [held, held, hpc]

theorem stream_setPc {t : Tid} {c : CallPoint} (ht : ∀ p, s.pc t ≠ .sendFound p)
    (hc : ∀ p, c ≠ .sendFound p) : (s.setPc t c).stream = s.stream := by
  rw [stream, stream, held_setPc ht hc]
  rfl

/-! ### Bookkeeping -/

/-- A step of a caller that does not come to be about to send. -/
theorem Alone.setPc {t : Tid} {c : CallPoint} (hs : s.Alone) (hc : ∀ p, c ≠ .sendFound p) :
    (s.setPc t c).Alone :=
  { hs with
    senders := by
      intro t' p hp
      change Function.update s.pc t c t' = _ at hp
      rcases eq_or_ne t' t with rfl | hne
      · rw [Function.update_self] at hp
        exact absurd hp (hc p)
      · rw [Function.update_of_ne hne] at hp
        exact hs.senders t' p hp }

/-- The next piece of work is taken off. -/
theorem Alone.tail {w : LoopWork} {todo : List LoopWork} (hs : s.Alone)
    (htodo : s.todo = w :: todo) : { s with todo := todo }.Alone := by
  have hmem : ∀ {v}, v ∈ todo → v ∈ s.todo := fun hv => htodo ▸ List.mem_cons_of_mem w hv
  exact { hs with
    nodup := (List.nodup_cons.1 (htodo ▸ hs.nodup)).2
    close_not_mem := fun h => hs.close_not_mem (hmem h)
    read_not_mem := fun hc h => hs.read_not_mem hc (hmem h)
    removing := by
      intro h
      have := (hs.removing (hmem h)).1
      rw [htodo] at this
      cases this
      cases h
    registered := fun hd _ => hs.registered hd (.inl (by rw [htodo]; nofun)) }

/-- The connection after a call that does not tell the owner. -/
theorem Alone.adopt (hs : s.Alone) (hloop : x.conn.loop = s.conn.loop)
    (hinput : x.conn.inputBuffer.Inv) (hqueued : ∀ f ∈ x.queued, ∀ m, f ≠ .sendInLoop m)
    (hsynced : s.closeCalls = 0 → x.conn.Synced)
    (hevents : 0 < s.closeCalls → x.conn.channel.events = Channel.kNoneEvent)
    (hreg : s.destroyed = false → s.conn.channel.registeredInEpoller = true →
      x.conn.channel.registeredInEpoller = true) : (s.adopt k x).Alone :=
  { hs with
    input := hinput
    senders := fun t p hp => by
      have htid : (s.adopt k x).tid = s.tid := congrArg LoopPtr.threadId hloop
      rw [htid]
      exact hs.senders t p hp
    tasks := by
      intro task ht m
      simp only [ConnSystem.adopt, List.mem_append, List.mem_map] at ht
      rcases ht with ht | ht | ⟨f, hf, rfl⟩
      · exact hs.tasks task (List.mem_append_left _ ht) m
      · exact hs.tasks task (List.mem_append_right _ ht) m
      · exact hqueued f hf m
    synced := hsynced
    events := hevents
    registered := fun hd h => hreg hd (hs.registered hd h) }

/-- An owner that knows the connection queues its `connectDestoryed`. -/
theorem closeCallback_of_tracked (h : s.tracked = true) : ∃ tracked, s.closeCallback =
    { s with closeCalls := s.closeCalls + 1, tracked := tracked }.push
      ⟨.connectDestoryed, none⟩ := by
  unfold ConnSystem.closeCallback
  cases ho : s.owner with
  | server => exact ⟨false, by simp only [h, if_true]⟩
  | client => exact ⟨false, by simp only [h, if_true]⟩
  | detached => exact ⟨s.tracked, rfl⟩

/-- `handleClose` of an open connection, at the end of the stream. -/
theorem Alone.close {b : Buffer} {ret : Bool} (hs : s.Alone) (hopen : s.closeCalls = 0)
    (hidle : s.pc s.tid = .idle) (hread : .handler .read ∉ s.todo) (htracked : s.tracked = true)
    (hreg : s.conn.channel.registeredInEpoller = true) (hb : b.Inv) :
    (s.absorb k ⟨{ s.conn with inputBuffer := b, channel := s.conn.channel.disableAll ret }, [],
      [.close]⟩).Alone := by
  rw [absorb, if_pos List.mem_cons_self]
  obtain ⟨tracked, hclose⟩ := closeCallback_of_tracked (s := s.adopt k
    ⟨{ s.conn with inputBuffer := b, channel := s.conn.channel.disableAll ret }, [], [.close]⟩)
    htracked
  rw [hclose]
  refine ⟨hs.failed, hb, ?senders, ?tasks, hs.nodup, hs.close_not_mem, ?synced, ?events, ?read,
    ?removing, hs.destroyed, ?registered⟩
  case senders =>
    intro t p hp
    obtain ⟨rfl, -⟩ := hs.senders t p hp
    cases hp.symm.trans hidle
  case tasks =>
    intro task ht m
    simp only [ConnSystem.adopt, push, List.map_nil, List.append_nil, List.mem_append,
      List.mem_singleton] at ht
    rcases ht with ht | ht | rfl
    · exact hs.tasks task (List.mem_append_left _ ht) m
    · exact hs.tasks task (List.mem_append_right _ ht) m
    · simp
  case synced =>
    intro h
    cases h
  case events => exact fun _ => Channel.disableAll_events ret _
  case read => exact fun _ => hread
  case removing =>
    intro h
    exact absurd (hs.removing h).2.2.2 (by omega)
  case registered =>
    intro _ _
    exact (Channel.disableAll_registered ret _).trans hreg

/-! ### Calls -/

@[simp] theorem closeCallback_pc (s : ConnSystem) : s.closeCallback.pc = s.pc := by
  unfold closeCallback push
  dsimp only
  split <;> (try split_ifs) <;> rfl

theorem absorb_held (hloop : x.conn.loop = s.conn.loop) : (s.absorb k x).held = s.held := by
  have hpc : (s.absorb k x).pc = s.pc := by
    unfold absorb
    split_ifs
    · exact closeCallback_pc _
    · rfl
  have htid : (s.absorb k x).tid = s.tid := by
    rw [tid, absorb_conn, hloop]
    rfl
  rw [held, held, hpc, htid]

/-- A call that moves no bytes. -/
theorem absorb_stream_eq (hloop : x.conn.loop = s.conn.loop)
    (hsent : x.conn.socket.sent = s.conn.socket.sent)
    (hout : x.conn.outputBuffer = s.conn.outputBuffer) : (s.absorb k x).stream = s.stream := by
  rw [stream, stream, absorb_conn, absorb_held hloop, hsent, hout]

/-- A call on an open connection that writes or appends. -/
theorem Alone.absorb_stream {m : Bytes} {j : ℕ} (hs : s.Alone) (hopen : s.closeCalls = 0)
    (hx : StreamStep m j s.conn.enter x) (hinput : x.conn.inputBuffer = s.conn.inputBuffer)
    (hq : ConnCtx.Quiet s.conn x) : (s.absorb k x).Alone ∧ (s.absorb k x).stream =
      s.conn.socket.sent ++ s.conn.outputBuffer.content ++ m ++ s.held := by
  refine ⟨?_, ?_⟩
  · rw [absorb_eq_adopt hq.close]
    refine hs.adopt hq.loop (hinput ▸ hs.input) (fun f hf m => ?_) (fun _ => hx.synced)
      (fun h => absurd h (by omega)) fun _ => hq.registered
    rw [hq.queued f hf]
    nofun
  · rw [stream, absorb_conn, absorb_held hq.loop]
    exact congrArg (· ++ s.held) hx.stream

/-- A call that only touches the half-closes and the queue of functors. -/
theorem Alone.absorb_socket {o : Socket} {queued : List Functor} (hs : s.Alone)
    (hsent : o.sent = s.conn.socket.sent) (hqueued : ∀ f ∈ queued, ∀ m, f ≠ .sendInLoop m) :
    (s.absorb k ⟨{ s.conn with socket := o }, queued, []⟩).Alone ∧
      (s.absorb k ⟨{ s.conn with socket := o }, queued, []⟩).stream = s.stream := by
  refine ⟨?_, absorb_stream_eq rfl hsent rfl⟩
  rw [absorb_eq_adopt List.not_mem_nil]
  exact hs.adopt rfl hs.input hqueued (fun h => ⟨(hs.synced h).wf, (hs.synced h).isWriting_iff⟩)
    hs.events fun _ => id

theorem Alone.shutdownInLoop {t : Tid} (hs : s.Alone)
    (h : s.after k (s.conn.enter.shutdownInLoop t) = some u) : u.Alone ∧ u.stream = s.stream := by
  obtain ⟨x, hx, rfl⟩ := after_returns ConnCtx.shutdownInLoop_returns h
  obtain ⟨so, rfl, hsent, -⟩ := ConnCtx.shutdownInLoop_eq_ok hx
  exact hs.absorb_socket hsent (by simp [TcpConnection.enter])

theorem Alone.runShutdownInLoop {t : Tid} (hs : s.Alone)
    (h : s.after k (s.conn.enter.runShutdownInLoop t) = some u) :
    u.Alone ∧ u.stream = s.stream := by
  obtain ⟨x, hx, rfl⟩ := after_returns ConnCtx.runShutdownInLoop_returns h
  rcases ConnCtx.runShutdownInLoop_eq_ok hx with ⟨-, hx⟩ | ⟨-, rfl⟩
  · obtain ⟨so, rfl, hsent, -⟩ := ConnCtx.shutdownInLoop_eq_ok hx
    exact hs.absorb_socket hsent (by simp [TcpConnection.enter])
  · exact hs.absorb_socket (o := s.conn.socket) rfl
      (by simp [TcpConnection.enter])

theorem Ledger.live (hs : s.Ledger) (hopen : s.closeCalls = 0) : s.conn.Live := by
  refine hs.state_iff.2 fun hstate => ?_
  have := hs.state hstate
  have := hs.destroys
  omega

/-- The direct call of `sendInLoop`, from the loop thread. -/
theorem Alone.sendConnected {t : Tid} {n : ℤ} {ret : Bool} {p : Ticket} {passed : List Ticket}
    (hs : s.Alone) (hledger : s.Ledger) (hpc : s.pc t = .sendFound p)
    (h : ({ s with passed := passed }.setPc t (.sendReturning p)).after (some p.1)
      (s.conn.enter.sendConnected t p.2 n ret) = some u) : u.Alone ∧ u.stream = s.stream := by
  obtain ⟨rfl, hopen⟩ := hs.senders t p hpc
  have hsynced := hs.synced hopen
  obtain ⟨x, hx, rfl⟩ := after_returns (ConnCtx.sendConnected_returns hsynced.wf) h
  have hx : s.conn.enter.sendInLoop s.tid p.2 n ret = .ok x := by
    rcases ConnCtx.sendConnected_eq_ok hx with ⟨-, hx⟩ | ⟨hout, -⟩
    · exact hx
    · rw [show s.conn.enter.conn.loop.isInLoopThread s.tid = true from decide_eq_true rfl] at hout
      cases hout
  have hs' : ({ s with passed := passed }.setPc s.tid (.sendReturning p)).Alone :=
    Alone.setPc { hs with } nofun
  obtain ⟨halone, hstream⟩ := hs'.absorb_stream (k := some p.1) hopen
    (ConnCtx.sendInLoop_synced hsynced hx).1 (ConnCtx.sendInLoop_step hx).inputBuffer
    (ConnCtx.sendInLoop_unnoticed (hledger.live hopen) hx)
  refine ⟨halone, ?_⟩
  have hnone : ({ s with passed := passed }.setPc s.tid (.sendReturning p)).held = [] :=
    held_eq_nil fun q hq => by
      change Function.update s.pc s.tid _ s.tid = _ at hq
      rw [Function.update_self] at hq
      cases hq
  rw [hstream, hnone, List.append_nil, stream, held_of_found hpc]
  rfl

/-- A handler of an open connection, with its work taken off. -/
theorem Alone.handle_open {received : Option Bytes} {n : ℤ} {ret : Bool} {handler : Handler}
    (hs : s.Alone) (hledger : s.Ledger) (hopen : s.closeCalls = 0) (hidle : s.pc s.tid = .idle)
    (hclose : handler ≠ .close) (hread : .handler .read ∉ s.todo ∨ handler ≠ .read)
    (hreg : s.conn.channel.registeredInEpoller = true)
    (hlen : ∀ data, received = some data →
      data.length ≤ s.conn.inputBuffer.writableBytes + Buffer.kExtraSize)
    (h : s.handle received n ret handler = some u) : u.Alone ∧ u.stream = s.stream := by
  have hsynced := hs.synced hopen
  cases handler with
  | close => exact absurd rfl hclose
  | error =>
    obtain ⟨x, hx, rfl⟩ := after_returns (.ok _) h
    cases hx
    exact hs.absorb_socket (o := s.conn.socket) rfl nofun
  | read =>
    obtain ⟨x, hx, rfl⟩ := after_returns
      (ConnCtx.handleRead_returns hs.input.toWF (fun _ => hledger.live hopen) hlen) h
    obtain ⟨b, hb, hcase⟩ := ConnCtx.handleRead_readFd hx
    have hinput := (hs.input.readFd hlen hb).1
    rcases hcase with ⟨rfl, rfl⟩ | ⟨-, hconn, hqueued, hcalls⟩
    · refine ⟨?_, absorb_stream_eq rfl rfl rfl⟩
      exact hs.close hopen hidle (hread.resolve_right (by simp)) (hledger.tracked hopen) hreg hinput
    · refine ⟨?_, absorb_stream_eq (by rw [hconn]) (by rw [hconn]) (by rw [hconn])⟩
      rw [absorb_eq_adopt hcalls]
      refine hs.adopt (by rw [hconn]) (by rw [hconn]; exact hinput) (by simp [hqueued])
        (fun _ => ?_) (fun h0 => absurd h0 (by omega)) fun _ => by rw [hconn]; exact id
      rw [hconn]
      exact ⟨hsynced.wf, hsynced.isWriting_iff⟩
  | write =>
    simp only [handle] at h
    split_ifs at h with hn
    obtain ⟨x, hx, rfl⟩ := after_returns (ConnCtx.handleWrite_returns hsynced.wf hn) h
    have hn' : n ≤ s.conn.enter.rest.length := by
      rw [ConnCtx.rest, show s.conn.enter.conn = s.conn from rfl, hsynced.wf.content_length]
      exact hn.2
    obtain ⟨halone, hstream⟩ := hs.absorb_stream hopen
      (ConnCtx.handleWrite_synced hsynced hn' hx).1 (ConnCtx.handleWrite_inputBuffer hx)
      (ConnCtx.handleWrite_unnoticed (hledger.live hopen) hx)
    exact ⟨halone, by rw [hstream, List.append_nil, stream]⟩

/-- A handler of a closed connection, which has no interest any more. -/
theorem Alone.handle_closed {received : Option Bytes} {n : ℤ} {ret : Bool} {handler : Handler}
    (hs : s.Alone) (hclosed : 0 < s.closeCalls) (hclose : handler ≠ .close)
    (hread : handler ≠ .read) (h : s.handle received n ret handler = some u) :
    u.Alone ∧ u.stream = s.stream := by
  cases handler with
  | close => exact absurd rfl hclose
  | read => exact absurd rfl hread
  | error =>
    obtain ⟨x, hx, rfl⟩ := after_returns (.ok _) h
    cases hx
    exact hs.absorb_socket (o := s.conn.socket) rfl nofun
  | write =>
    have hw : s.conn.enter.conn.channel.isWriting = false :=
      ConnCtx.isWriting_of_none (x := s.conn.enter) (hs.events hclosed)
    have hreturns : (s.conn.enter.handleWrite s.tid n ret).Faults
        fun e _ => ∀ a, e ≠ .assertion a := by
      refine .bind ConnCtx.assertInLoopThread_returns fun x hx => ?_
      obtain ⟨-, rfl⟩ := ConnCtx.assertInLoopThread_eq_ok.1 hx
      rw [hw]
      exact .ok _
    simp only [handle] at h
    split_ifs at h with hn
    obtain ⟨x, hx, rfl⟩ := after_returns hreturns h
    rcases ConnCtx.handleWrite_eq_ok hx with ⟨-, rfl⟩ | ⟨hw', -⟩
    · exact hs.absorb_socket (o := s.conn.socket) rfl nofun
    · rw [hw] at hw'
      cases hw'

/-- A handler. -/
theorem Alone.handle {received : Option Bytes} {n : ℤ} {ret : Bool} {handler : Handler}
    {todo : List LoopWork} (hs : s.Alone) (hledger : s.Ledger) (hidle : s.pc s.tid = .idle)
    (hlen : ∀ data, received = some data →
      data.length ≤ s.conn.inputBuffer.writableBytes + Buffer.kExtraSize)
    (htodo : s.todo = .handler handler :: todo)
    (h : { s with todo := todo }.handle received n ret handler = some u) :
    u.Alone ∧ u.stream = s.stream := by
  have htail := hs.tail htodo
  have hmem : LoopWork.handler handler ∈ s.todo := htodo ▸ List.mem_cons_self
  have hclose : handler ≠ .close := fun h => hs.close_not_mem (h ▸ hmem)
  rcases Nat.eq_zero_or_pos s.closeCalls with hopen | hclosed
  · have hdestroyed : s.destroyed = false := by
      by_contra hd
      have := hs.destroyed (by simpa using hd)
      have := hledger.destroys
      omega
    refine htail.handle_open ⟨hledger.established, hledger.state, hledger.destroys,
      hledger.tracked, hledger.removal, hledger.destroyed⟩ hopen hidle hclose ?_
      (hs.registered hdestroyed (.inl (by rw [htodo]; nofun))) hlen h
    by_cases hread : handler = .read
    · exact .inl (hread ▸ (List.nodup_cons.1 (htodo ▸ hs.nodup)).1)
    · exact .inr hread
  · exact htail.handle_closed hclosed hclose (fun h => hs.read_not_mem hclosed (h ▸ hmem)) h

/-- The connection is destroyed at most once, so it is still alive when that happens. -/
theorem Ledger.live_of_queued {task : Task} {batch : List Task} (hledger : s.Ledger)
    (hcalls : s.closeCalls ≤ 1) (hbatch : s.batch = task :: batch)
    (htask : task.functor = .connectDestoryed) :
    s.conn.Live ∧ s.destroyCalls = 0 ∧ s.closeCalls = 1 := by
  have hqueued : 0 < s.destroysQueued := by
    rw [destroysQueued, hbatch]
    exact List.countP_pos_iff.2 ⟨task, List.mem_cons_self, decide_eq_true htask⟩
  have hdestroys := hledger.destroys
  refine ⟨hledger.state_iff.2 fun hstate => ?_, by omega, by omega⟩
  have := hledger.state hstate
  omega

/-- A functor of the batch. -/
theorem Alone.runTask {n : ℤ} {ret : Bool} {task : Task} {batch : List Task} (hs : s.Alone)
    (hledger : s.Ledger) (hcalls : s.closeCalls ≤ 1) (hbatch : s.batch = task :: batch)
    (h : { s with batch := batch }.runTask n ret task = some u) :
    u.Alone ∧ u.stream = s.stream := by
  have htasks : ∀ t ∈ batch ++ s.pendingFunctors, ∀ m, t.functor ≠ .sendInLoop m := by
    intro t ht
    refine hs.tasks t ?_
    rw [hbatch]
    exact List.mem_cons_of_mem _ ht
  have hs' : { s with batch := batch }.Alone := { hs with tasks := htasks }
  unfold ConnSystem.runTask at h
  split at h
  · rename_i message hfun
    exact absurd hfun (hs.tasks task (by rw [hbatch]; exact List.mem_cons_self) message)
  · exact hs'.shutdownInLoop h
  · cases h
    exact ⟨hs', rfl⟩
  · rename_i hfun
    obtain ⟨hlive, hzero, hone⟩ := hledger.live_of_queued hcalls hbatch hfun
    have hreturns : (s.conn.enter.connectDestoryed s.tid ret).Faults
        fun e _ => ∀ a, e ≠ .assertion a := by
      refine ConnCtx.connectDestoryed_faults.mono fun e x he a ha => ?_
      rcases he.2 with h0 | ⟨-, h0⟩
      · rw [h0] at ha
        cases ha
      · exact h0 hlive
    obtain ⟨x, hx, rfl⟩ := after_returns hreturns h
    obtain ⟨-, rfl⟩ := ConnCtx.connectDestoryed_eq_ok hx
    have hdestroyed : s.destroyed = false := by
      by_contra hd
      have := hs.destroyed (by simpa using hd)
      omega
    have hreg := hs.registered hdestroyed (.inr (by omega))
    -- `removeChannel` is what is left to do
    have hremoving : { s with
        batch := batch
        todo := [.removeChannel]
        destroyCalls := s.destroyCalls + 1 }.Alone := { hs' with
      nodup := List.nodup_singleton _
      close_not_mem := by simp
      read_not_mem := by simp
      removing := fun _ => ⟨rfl, hdestroyed, Nat.succ_pos _, by simp only; omega⟩
      destroyed := fun _ => Nat.succ_pos _
      registered := fun _ _ => hreg }
    refine ⟨?_, absorb_stream_eq rfl rfl rfl⟩
    rw [absorb_eq_adopt (by simp [ConnCtx.call, ConnCtx.setChannel, ConnCtx.setState,
      TcpConnection.enter])]
    refine hremoving.adopt rfl hs.input (fun f hf => absurd hf List.not_mem_nil) (fun h0 => ?_)
      (fun _ => Channel.disableAll_events ret _) fun _ _ =>
        (Channel.disableAll_registered ret _).trans hreg
    exact absurd (show s.closeCalls = 0 from h0) (by omega)

/-- The end of `connectDestoryed`. -/
theorem Alone.removeChannel {ret : Bool} {todo : List LoopWork} (hs : s.Alone)
    (htodo : s.todo = .removeChannel :: todo)
    (h : { s with todo := todo, destroyed := true }.after k (s.conn.enter.removeChannel ret) =
      some u) : u.Alone ∧ u.stream = s.stream := by
  obtain ⟨hall, hdestroyed, hcalled, hclosed⟩ := hs.removing (htodo ▸ List.mem_cons_self)
  obtain rfl : todo = [] := (List.cons.inj (htodo.symm.trans hall)).2
  have hevents := hs.events hclosed
  rw [ConnCtx.removeChannel, show s.conn.enter.conn.channel = s.conn.channel from rfl,
    Channel.remove_eq ret hevents (hs.registered hdestroyed (.inr hclosed)), Outcome.zoom_ok] at h
  obtain ⟨x, hx, rfl⟩ := after_returns (.ok _) h
  cases hx
  have hremoved : { s with todo := [], destroyed := true }.Alone := { hs with
    nodup := List.nodup_nil
    close_not_mem := List.not_mem_nil
    read_not_mem := fun _ => List.not_mem_nil
    removing := fun h => absurd h List.not_mem_nil
    destroyed := fun _ => hcalled
    registered := fun h => by cases h }
  refine ⟨?_, absorb_stream_eq rfl rfl rfl⟩
  rw [absorb_eq_adopt List.not_mem_nil]
  refine hremoved.adopt rfl hs.input (fun f hf => absurd hf List.not_mem_nil)
    (fun h0 => absurd h0 hclosed.ne') (fun _ => ?_) fun h => by cases h
  show (if ret = true then _ else _ : Channel).events = _
  split_ifs <;> exact hevents

/-! ### Steps -/

theorem next_inputBuffer {op : Buffer.Op} (h : s.next (.inputBuffer op) = some u) :
    ∃ b, op.apply s.conn.inputBuffer = .ok b ∧ u = { s with conn.inputBuffer := b } := by
  unfold next at h
  split_ifs at h
  simp only [loopNext] at h
  split at h <;> cases h
  exact ⟨_, ‹_›, rfl⟩

theorem next_callShutdown_idle {t : Tid} (h : s.next (.callShutdown t) = some u) :
    s.pc t = .idle := by
  have hf := (next_step h).1
  simp only [next, hf, Option.isSome_none, Bool.false_eq_true, if_false, callerNext] at h
  split_ifs at h
  assumption

/-- A `send` goes on exactly if it found `kConnected`. -/
theorem next_callSend {t : Tid} {message : StdString} (h : s.next (.callSend t message) = some u) :
    s.pc t = .idle ∧ u = if s.conn.state = .kConnected then
      { s with nextTicket := s.nextTicket + 1 }.setPc t (.sendFound (s.nextTicket, message))
    else s := by
  have hf := (next_step h).1
  have hnext : s.callerNext (.callSend t message) = some u := by
    rw [next, if_neg (by simp [hf])] at h
    exact h
  simp only [callerNext] at hnext
  split_ifs at hnext with hpc hstate <;> cases hnext
  · exact ⟨hpc, (if_pos hstate).symm⟩
  · exact ⟨hpc, (if_neg hstate).symm⟩

/-- The loop thread dispatches its work outside its own calls of `send` and `shutdown`. -/
theorem next_work_idle {received : Option Bytes} {n : ℤ} {ret : Bool}
    (h : s.next (.work received n ret) = some u) : s.pc s.tid = .idle := by
  unfold next at h
  split_ifs at h
  assumption

/-- The test of `send`, in the loop thread. -/
theorem Alone.callSend {message : StdString} (hs : s.Alone) (hopen : s.closeCalls = 0)
    (h : s.next (.callSend s.tid message) = some u) :
    u.Alone ∧ u.stream = s.stream ++ s.taken (.callSend s.tid message) := by
  obtain ⟨hpc, rfl⟩ := next_callSend h
  unfold taken
  split_ifs with hstate
  · refine ⟨{ hs with senders := fun t p hp => ?_ }, ?_⟩
    · rcases eq_or_ne t s.tid with rfl | hne
      · exact ⟨rfl, hopen⟩
      · change Function.update s.pc s.tid _ t = _ at hp
        rw [Function.update_of_ne hne] at hp
        exact hs.senders t p hp
    · have hfound : ({ s with nextTicket := s.nextTicket + 1 }.setPc s.tid
          (.sendFound (s.nextTicket, message))).held = message.bytes :=
        held_of_found (p := (s.nextTicket, message)) (Function.update_self _ _ _)
      have hnone : s.held = [] := held_eq_nil fun p hp => by
        rw [hpc] at hp
        cases hp
      rw [stream, stream, hfound, hnone, List.append_nil]
      rfl
  · exact ⟨hs, (List.append_nil _).symm⟩

theorem Alone.inputBuffer {op : Buffer.Op} (hs : s.Alone) (ha : op.Legal s.conn.inputBuffer)
    (h : s.next (.inputBuffer op) = some u) : u.Alone ∧ u.stream = s.stream := by
  obtain ⟨b, hb, rfl⟩ := next_inputBuffer h
  have hafter := (Buffer.Op.apply_spec hs.input ha).of_ok hb
  exact ⟨{ hs with
    input := hafter.inv hs.input
    synced := fun h0 => (hs.synced h0).congr rfl rfl }, rfl⟩

/-- **Steps.** A step of a connection that only its loop sends on fails no assertion, and takes to
the stream the message of a `send` that found `kConnected`. -/
theorem Alone.step (hs : s.Alone) (hledger : s.Ledger) (hcalls : s.closeCalls ≤ 1)
    (ha : s.SentByLoop a) (h : s.next a = some u) :
    u.Alone ∧ u.stream = s.stream ++ s.taken a := by
  obtain ⟨-, hstep⟩ := next_step h
  have hplain : s.taken a = [] → u.Alone ∧ u.stream = s.stream →
      u.Alone ∧ u.stream = s.stream ++ s.taken a := fun h0 hu => by rwa [h0, List.append_nil]
  cases hstep with
  | sendFound hpc hstate =>
    obtain ⟨rfl, hopen⟩ := ha
    exact hs.callSend hopen h
  | sendRefused =>
    obtain ⟨rfl, hopen⟩ := ha
    exact hs.callSend hopen h
  | sendConnected hpc hn hu => exact hplain rfl (hs.sendConnected hledger hpc hu)
  | sendReturn hpc =>
    exact hplain rfl ⟨Alone.setPc { hs with } nofun, stream_setPc (by simp [hpc]) nofun⟩
  | shutdownBegin =>
    exact hplain rfl ⟨hs.setPc nofun, stream_setPc (by simp [next_callShutdown_idle h]) nofun⟩
  | @shutdownTest t n ret before hpc =>
    have hnot : ∀ p, (if s.conn.state = .kConnected then CallPoint.shutdownFound before
        else .idle) ≠ .sendFound p := by
      intro p
      split_ifs <;> nofun
    exact hplain rfl ⟨hs.setPc hnot, stream_setPc (by simp [hpc]) hnot⟩
  | shutdownStore hpc =>
    exact hplain rfl ⟨Alone.setPc { hs with synced := fun h0 => (hs.synced h0).congr rfl rfl }
      nofun, stream_setPc (by simp [hpc]) nofun⟩
  | runShutdown hpc hu =>
    have hidle : ∀ p, CallPoint.idle ≠ .sendFound p := nofun
    obtain ⟨halone, hstream⟩ := Alone.runShutdownInLoop (hs.setPc hidle) hu
    exact hplain rfl ⟨halone, hstream.trans (stream_setPc (by simp [hpc]) hidle)⟩
  | event htodo hbatch hreg =>
    refine hplain rfl ⟨{ hs with
      nodup := (Channel.handleEvent_nodup _).map fun _ _ => LoopWork.handler.inj
      close_not_mem := fun hc => ?_
      read_not_mem := fun hclosed hr => ?_
      removing := fun hr => ?_
      registered := fun _ _ => hreg }, rfl⟩
    · obtain ⟨_, hc, heq⟩ := List.mem_map.1 hc
      cases heq
      exact Channel.Reports.close_not_mem ha hc
    · obtain ⟨_, hr, heq⟩ := List.mem_map.1 hr
      cases heq
      exact Channel.Reports.read_not_mem ha (hs.events hclosed) hr
    · obtain ⟨_, -, heq⟩ := List.mem_map.1 hr
      cases heq
  | handler htodo hu =>
    refine hplain rfl (hs.handle hledger (next_work_idle h) (fun data hdata => ?_) htodo hu)
    subst hdata
    exact ha
  | removeChannel htodo hu => exact hplain rfl (hs.removeChannel htodo hu)
  | swap htodo hbatch =>
    refine hplain rfl ⟨{ hs with tasks := fun task ht => hs.tasks task ?_ }, rfl⟩
    rw [List.append_nil] at ht
    exact List.mem_append_right _ ht
  | task htodo hbatch hu => exact hplain rfl (hs.runTask hledger hcalls hbatch hu)
  | setWriteCompleteCallback =>
    exact hplain rfl ⟨{ hs with synced := fun h0 => (hs.synced h0).congr rfl rfl }, rfl⟩
  | inputBuffer => exact hplain rfl (hs.inputBuffer ha h)
  | detach => exact hplain rfl ⟨{ hs with }, rfl⟩

/-! ### Runs -/

/-- The invariant of a connection that only its loop sends on. -/
structure Solo (s : ConnSystem) : Prop where
  alone : s.Alone
  ledger : s.Ledger
  closeCalls_le : s.closeCalls ≤ 1

theorem Solo.of_init (h : connections.init s) : s.Solo := by
  have hledger := Ledger.of_init h
  obtain ⟨conn, owner, hconn, rfl⟩ := h
  have hsynced := hconn.synced
  obtain ⟨loop, name, sockfd, localAddr, peerAddr, storage, callback, ret, rfl⟩ := hconn.eq
  refine ⟨?_, hledger, zero_le_one⟩
  exact {
    failed := rfl
    input := Buffer.new_inv
    senders := nofun
    tasks := nofun
    nodup := List.nodup_nil
    close_not_mem := List.not_mem_nil
    synced := fun _ => hsynced
    events := fun h => absurd h (lt_irrefl 0)
    read_not_mem := fun _ => List.not_mem_nil
    removing := nofun
    destroyed := nofun
    registered := fun _ h => h.elim (absurd rfl) fun h => absurd h (lt_irrefl 0) }

/-- The end of the stream is reported once. -/
theorem Alone.open_of_endsStream (hs : s.Alone) (h : s.endsStream a = true) :
    s.closeCalls = 0 := by
  cases a with
  | work received n ret =>
    by_contra hne
    simp only [endsStream] at h
    split at h
    · exact hs.close_not_mem (by rw [‹s.todo = _›]; exact List.mem_cons_self)
    · exact hs.read_not_mem (Nat.pos_of_ne_zero hne)
        (by rw [‹s.todo = _›]; exact List.mem_cons_self)
    · cases h
  | _ => cases h

theorem Solo.step (hs : s.Solo) (ha : s.SentByLoop a) (h : s.next a = some u) :
    u.Solo ∧ u.stream = s.stream ++ s.taken a := by
  obtain ⟨halone, hstream⟩ := hs.alone.step hs.ledger hs.closeCalls_le ha h
  obtain ⟨hledger, hcalls⟩ := hs.ledger.step hs.alone.failed (next_step h).2
  refine ⟨⟨halone, hledger, ?_⟩, hstream⟩
  rw [hcalls]
  split_ifs with hends
  · rw [hs.alone.open_of_endsStream hends]
  · exact hs.closeCalls_le

end ConnSystem

/-- The runs of a connection that only its loop sends on. -/
def loopSenders : LTS ConnSystem ConnAction := connections.restrict ConnSystem.SentByLoop

theorem ConnSystem.Solo.run {s t : ConnSystem} {run : List (Transition ConnSystem ConnAction)}
    (hs : s.Solo) (h : loopSenders.Steps s run t) :
    t.Solo ∧ t.stream = s.stream ++ run.flatMap fun e => e.source.taken e.action := by
  induction h with
  | nil => exact ⟨hs, (List.append_nil _).symm⟩
  | cons hn _ ih =>
    obtain ⟨ha, hn⟩ := LTS.restrict_next.1 hn
    obtain ⟨hu, hstream⟩ := hs.step ha hn
    obtain ⟨ht, hrest⟩ := ih hu
    exact ⟨ht, by rw [hrest, hstream, List.flatMap_cons, List.append_assoc]⟩

/-- **Connections that only their loop sends on.** In every run no assertion fails, the connection
is closed and destroyed at most once, and the bytes that the kernel took, those in `outputBuffer_`
and those on their way to `sendInLoop` are the messages that `send` took, in call order. -/
theorem loop_sender_integrity {s t : ConnSystem} {run : List (Transition ConnSystem ConnAction)}
    (h0 : loopSenders.init s) (h : loopSenders.Steps s run t) :
    t.failed = none ∧ t.closeCalls ≤ 1 ∧ t.destroyCalls ≤ t.closeCalls ∧
      t.conn.socket.sent ++ t.conn.outputBuffer.content ++ t.held =
        run.flatMap fun e => e.source.taken e.action := by
  obtain ⟨ht, hstream⟩ := (ConnSystem.Solo.of_init h0).run h
  have hempty : s.stream = [] := by
    obtain ⟨conn, owner, hconn, rfl⟩ := h0
    obtain ⟨loop, name, sockfd, localAddr, peerAddr, storage, callback, ret, rfl⟩ := hconn.eq
    simp [ConnSystem.stream, ConnSystem.held, ConnSystem.new, TcpConnection.new, Buffer.new_content]
  have hdestroys := ht.ledger.destroys
  refine ⟨ht.alone.failed, ht.closeCalls_le, by omega, ?_⟩
  rw [hempty, List.nil_append] at hstream
  exact hstream

/-- The loop sends a byte, which the kernel takes; thread 2 shuts down; the peer closes. -/
def sendShutdownClose : List ConnAction :=
  [.callSend 1 .bell, .proceed 1 0 true, .proceed 1 0 true, .event EPOLLOUT, .work none 1 true,
    .callShutdown 2, .proceed 2 0 true, .proceed 2 0 true, .proceed 2 0 true,
    .event (EPOLLIN ||| EPOLLRDHUP), .work (some []) 0 true, .swap, .call 0 true, .call 0 true,
    .work none 0 true]

theorem loop_sender_integrity_send_shutdown_close : ∃ run t,
    loopSenders.Steps (.new .sample .server) run t ∧
      run.map Transition.action = sendShutdownClose ∧ t.destroyed = true ∧
      t.failed = none ∧ t.closeCalls ≤ 1 ∧ t.destroyCalls ≤ t.closeCalls ∧
      t.conn.socket.sent ++ t.conn.outputBuffer.content ++ t.held =
        run.flatMap fun e => e.source.taken e.action := by
  obtain ⟨t, ht, hend⟩ := Option.map_eq_some_iff.1 (by decide +kernel :
    ((loopSenders.run (.new .sample .server) sendShutdownClose).map fun t => t.destroyed) =
      some true)
  obtain ⟨run, hrun, hmap⟩ := LTS.exists_steps_of_run ht
  exact ⟨run, t, hrun, hmap, hend, loop_sender_integrity (sample_init .server) hrun⟩

end Jiangbo
