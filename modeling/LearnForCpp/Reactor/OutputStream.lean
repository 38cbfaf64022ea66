import LearnForCpp.Lib.Transition
import LearnForCpp.Reactor.BufferQueue
import LearnForCpp.Reactor.TcpConnection

/-!
# The output stream of a live connection

What a connection was asked to send is a stream of bytes.  A part of it is with the kernel, the
rest is in `outputBuffer_`, and the channel asks for write events while there is a rest: this is
`Synced`.  It is also why the direct write of `sendInLoop` cannot reorder bytes: the branch asks
for a channel that does not write and a buffer that is not empty, and there is no such connection.

`StreamStep` says what a member function does to the stream.  `outputStreams` runs the member
functions of an established connection in any order, up to the first `handleClose` or
`connectDestoryed`.
-/

namespace Jiangbo

namespace TcpConnection

/-- `connectEstablished` has run on a new connection. -/
def Established (c : TcpConnection) : Prop :=
  ∃ loop name sockfd localAddr peerAddr storage callback tid ret x,
    ConnCtx.connectEstablished tid ret
      (enter { new loop name sockfd localAddr peerAddr storage with
        writeCompleteCallback := callback }) = .ok x ∧ c = x.conn

/-- The channel wants to write exactly while there is something to write. -/
structure Synced (c : TcpConnection) : Prop where
  wf : c.outputBuffer.WF
  isWriting_iff : c.channel.isWriting = true ↔ c.outputBuffer.content ≠ []

/-- What an established connection looks like. -/
theorem Established.eq {c : TcpConnection} (h : c.Established) :
    ∃ loop name sockfd localAddr peerAddr storage callback ret,
      c = { new loop name sockfd localAddr peerAddr storage with
        state := .kConnected
        channel := (Channel.new sockfd false).enableReading ret
        writeCompleteCallback := callback } := by
  obtain ⟨loop, name, sockfd, localAddr, peerAddr, storage, callback, tid, ret, x, hx, rfl⟩ := h
  simp only [ConnCtx.connectEstablished, Outcome.bind_eq_ok] at hx
  obtain ⟨x1, h1, x2, h2, h⟩ := hx
  obtain ⟨-, rfl⟩ := Outcome.check_eq_ok.1 h1
  obtain ⟨-, rfl⟩ := Outcome.check_eq_ok.1 h2
  cases h
  exact ⟨loop, name, sockfd, localAddr, peerAddr, storage, callback, ret, rfl⟩

theorem Established.synced {c : TcpConnection} (h : c.Established) : c.Synced := by
  obtain ⟨loop, name, sockfd, localAddr, peerAddr, storage, callback, ret, rfl⟩ := h.eq
  have hw : ((Channel.new sockfd false).enableReading ret).isWriting = false := by
    rw [Channel.enableReading_isWriting]; exact Bitmask.test_zero _
  exact ⟨Buffer.new_wf, by simp [hw, new, Buffer.new_content]⟩

/-- A connection of thread 1 on file descriptor 5, just established. -/
def sample : TcpConnection :=
  { new ⟨1⟩ "#1" 5 ⟨0, 80⟩ ⟨1, 90⟩ ⟨1, 90⟩ with
    state := .kConnected
    channel := (Channel.new 5 false).enableReading true }

theorem sample_established : sample.Established :=
  ⟨⟨1⟩, "#1", 5, ⟨0, 80⟩, ⟨1, 90⟩, ⟨1, 90⟩, false, 1, true,
    ⟨sample, [], [.connection]⟩, rfl, rfl⟩

end TcpConnection

namespace ConnCtx

open TcpConnection

variable {x y : ConnCtx} {tid : Tid} {message : StdString} {n : ℤ} {ret : Bool}

/-- The bytes not yet written. -/
abbrev rest (x : ConnCtx) : Bytes := x.conn.outputBuffer.content

/-- A write-complete callback is due: the last byte has left the buffer. -/
def Drained (x y : ConnCtx) : Prop := x.rest ≠ [] ∧ y.rest = []

instance (x y : ConnCtx) : Decidable (x.Drained y) := inferInstanceAs (Decidable (_ ∧ _))

/-- A step on the stream: the kernel takes `k` bytes of the rest, and `message` is added to it. -/
structure StreamStep (message : Bytes) (k : ℕ) (x y : ConnCtx) : Prop where
  synced : y.conn.Synced
  sent : y.conn.socket.sent = x.conn.socket.sent ++ x.rest.take k
  rest : y.rest = x.rest.drop k ++ message
  queued : y.queued =
    if x.Drained y ∧ x.conn.writeCompleteCallback = true then x.queued ++ [.writeComplete]
    else x.queued
  callback : y.conn.writeCompleteCallback = x.conn.writeCompleteCallback
  loop : y.conn.loop = x.conn.loop

theorem StreamStep.refl (h : x.conn.Synced) : StreamStep [] 0 x x where
  synced := h
  sent := by simp
  rest := by simp
  queued := by rw [if_neg]; exact fun hd => hd.1.1 hd.1.2
  callback := rfl
  loop := rfl

/-- What is sent followed by the rest grows by the message. -/
theorem StreamStep.stream {m : Bytes} {k : ℕ} (h : StreamStep m k x y) :
    y.conn.socket.sent ++ y.rest = x.conn.socket.sent ++ x.rest ++ m := by
  rw [h.sent, h.rest, List.append_assoc, ← List.append_assoc (x.rest.take k),
    List.take_append_drop, List.append_assoc]

/-- A step that writes nothing queues nothing. -/
theorem StreamStep.queued_eq {m : Bytes} (h : StreamStep m 0 x y) : y.queued = x.queued := by
  rw [h.queued, if_neg]
  rintro ⟨⟨hne, hempty⟩, -⟩
  rw [h.rest, List.drop_zero, List.append_eq_nil_iff] at hempty
  exact hne hempty.1

/-- A connection in step never takes the direct write: `sendInLoop` appends. -/
theorem sendInLoop_of_synced (hs : x.conn.Synced) (h : x.conn.loop.isInLoopThread tid = true) :
    x.sendInLoop tid message n ret =
      if message.bytes = [] then .ok x
      else ((x.conn.outputBuffer.append message.bytes).zoom x.setOutputBuffer).bind fun x =>
        .ok (if x.conn.channel.isWriting then x
          else x.setChannel (x.conn.channel.enableWriting ret)) := by
  have hdirect : (!x.conn.channel.isWriting && x.conn.outputBuffer.readableBytes != 0) = false := by
    cases hw : x.conn.channel.isWriting with
    | true => rfl
    | false =>
      have hempty : x.conn.outputBuffer.content = [] := by
        by_contra hne
        rw [hs.isWriting_iff.2 hne] at hw
        cases hw
      simp [hs.wf.readableBytes_eq_zero.2 hempty]
  rw [sendInLoop_eq h, hdirect]
  simp only [Bool.false_eq_true, false_and, if_false, Int.toNat_zero, List.drop_zero]
  by_cases hm : message.bytes = []
  · rw [if_neg (by simp [CharVector.size, hm]), if_pos hm]
  · rw [if_pos (by simpa [CharVector.size, List.length_pos_iff] using hm), if_neg hm]

/-- `sendInLoop` adds the message to the stream, writes nothing, and changes nothing else. -/
theorem sendInLoop_synced (hs : x.conn.Synced) (h : x.sendInLoop tid message n ret = .ok y) :
    StreamStep message.bytes 0 x y ∧ y.conn.socket = x.conn.socket := by
  have htid := sendInLoop_inLoopThread h
  rw [sendInLoop_of_synced hs htid] at h
  split_ifs at h with hm
  · cases h
    rw [hm]
    exact ⟨.refl hs, rfl⟩
  simp only [Outcome.bind_eq_ok, Outcome.zoom_eq_ok] at h
  obtain ⟨w, ⟨b, hb, rfl⟩, h⟩ := h
  obtain ⟨h1, h2⟩ := append_le _ hs.wf message.size_le
  have hafter := (Buffer.append_spec hs.wf message.bytes h1 h2).of_ok hb
  have hne : b.content ≠ [] := by rw [hafter.content_eq]; simp [hm]
  have hqueued : ∀ {z : ConnCtx}, z.rest = b.content → z.queued = x.queued → z.queued =
      if x.Drained z ∧ x.conn.writeCompleteCallback = true then x.queued ++ [.writeComplete]
      else x.queued := by
    intro z hz hq
    rw [if_neg (fun hd => hne (hz ▸ hd.1.2)), hq]
  have hrest : b.content = x.rest.drop 0 ++ message.bytes := by
    rw [hafter.content_eq, List.drop_zero]
  split_ifs at h with hw <;> cases h
  · exact ⟨⟨⟨hafter.wf, by simp [setOutputBuffer] at hw ⊢; simp [hw, hne]⟩,
      by simp [setOutputBuffer], hrest, hqueued rfl rfl, rfl, rfl⟩, rfl⟩
  · exact ⟨⟨⟨hafter.wf, by simp [setOutputBuffer, setChannel, hne]⟩,
      by simp [setOutputBuffer, setChannel], hrest, hqueued rfl rfl, rfl, rfl⟩, rfl⟩

/-- Half-closes are not on the stream. -/
theorem StreamStep.of_socket {m : Bytes} {k : ℕ} (h : StreamStep m k x y) {s : Socket}
    (hs : s.sent = y.conn.socket.sent) : StreamStep m k x { y with conn.socket := s } where
  synced := ⟨h.synced.wf, h.synced.isWriting_iff⟩
  sent := hs.trans h.sent
  rest := h.rest
  queued := h.queued
  callback := h.callback
  loop := h.loop

theorem shutdownInLoop_synced (hs : x.conn.Synced) (h : x.shutdownInLoop tid = .ok y) :
    StreamStep [] 0 x y := by
  obtain ⟨s, rfl, hsent, -⟩ := shutdownInLoop_eq_ok h
  exact (StreamStep.refl hs).of_socket hsent

/-- The half-closes of `handleWrite`. -/
def drainShutdowns (x y : ConnCtx) : ℕ :=
  if x.Drained y ∧ x.conn.state = .kDisconnecting then 1 else 0

/-- A write of a part of the rest. -/
theorem flush_step (hs : x.conn.Synced) (hne : x.rest ≠ []) {b : Buffer}
    (hb : x.conn.outputBuffer.After (x.rest.drop n.toNat) b) (hrest : b.content ≠ []) :
    StreamStep [] n.toNat x (x.flush n b) where
  synced := ⟨hb.wf, ⟨fun _ => hrest, fun _ => hs.isWriting_iff.2 hne⟩⟩
  sent := rfl
  rest := by rw [List.append_nil]; exact hb.content_eq
  queued := by rw [if_neg (fun hd => hrest hd.1.2)]; rfl
  callback := rfl
  loop := rfl

/-- A write of the whole rest. -/
theorem drain_step (hne : x.rest ≠ []) {b : Buffer}
    (hb : x.conn.outputBuffer.After (x.rest.drop n.toNat) b) (hdone : b.content = []) :
    StreamStep [] n.toNat x ((x.flush n b).drain ret) := by
  have hrest : ((x.flush n b).drain ret).rest = [] := by rw [rest, drain_conn]; exact hdone
  have hd : x.Drained ((x.flush n b).drain ret) := ⟨hne, hrest⟩
  refine ⟨⟨?_, ?_⟩, ?_, ?_, ?_, ?_, ?_⟩
  · rw [drain_conn]; exact hb.wf
  · rw [drain_conn]; simp [flush, setOutputBuffer, hdone]
  · rw [drain_conn]; rfl
  · rw [hrest, List.append_nil, ← hb.content_eq, hdone]
  · simp only [hd, true_and]
    exact queueWriteComplete_queued _
  · rw [drain_conn]; rfl
  · rw [drain_conn]; rfl

/-- `handleWrite` moves bytes from the rest to the kernel, and half-closes the socket when the
rest is gone and a shutdown waits for it. -/
theorem handleWrite_synced (hs : x.conn.Synced) (hn : n ≤ x.rest.length)
    (h : x.handleWrite tid n ret = .ok y) :
    StreamStep [] n.toNat x y ∧ y.conn.state = x.conn.state ∧
      y.conn.socket.shutdowns = x.conn.socket.shutdowns + x.drainShutdowns y := by
  have hrefl := StreamStep.refl hs
  rcases handleWrite_eq_ok h with ⟨h0, rfl⟩ | ⟨hw, hpos, b, hb, hcase⟩
  · have htake : y.rest.take n.toNat = [] ∧ y.rest.drop n.toNat = y.rest := by
      rcases h0 with hw | hn0
      · have hrest : y.rest = [] := by
          by_contra hne
          rw [hs.isWriting_iff.2 hne] at hw
          cases hw
        rw [hrest]
        exact ⟨List.take_nil, List.drop_nil⟩
      · rw [Int.toNat_of_nonpos hn0]
        exact ⟨List.take_zero, List.drop_zero⟩
    have hd : ¬y.Drained y := fun hd => hd.1 hd.2
    refine ⟨⟨hs, ?_, ?_, hrefl.queued, rfl, rfl⟩, rfl, ?_⟩
    · rw [htake.1, List.append_nil]
    · rw [htake.2, List.append_nil]
    · rw [drainShutdowns, if_neg (fun h' => hd h'.1), Nat.add_zero]
  have hne := hs.isWriting_iff.1 hw
  have hle : n.toNat ≤ x.conn.outputBuffer.readableBytes := by
    have hn' : n ≤ x.conn.outputBuffer.content.length := hn
    rw [← hs.wf.content_length]; omega
  obtain ⟨b', hb', hafter⟩ := Buffer.retrieve_spec hs.wf hle
  obtain rfl : b' = b := Outcome.ok.inj (hb'.symm.trans hb)
  simp only [ne_eq, hafter.wf.readableBytes_eq_zero] at hcase
  rcases hcase with ⟨hrest, rfl⟩ | ⟨hdone, hk, hshut⟩ | ⟨hdone, hk, rfl⟩
  · refine ⟨flush_step hs hne hafter hrest, rfl, ?_⟩
    rw [drainShutdowns, if_neg (fun hd => hrest hd.1.2)]; rfl
  · obtain ⟨s, rfl, hsent, hs'⟩ := shutdownInLoop_eq_ok hshut
    have hd : x.Drained ((x.flush n b').drain ret) := ⟨hne, by rw [rest, drain_conn]; exact hdone⟩
    refine ⟨(drain_step hne hafter hdone).of_socket hsent, by rw [drain_conn]; rfl, ?_⟩
    rw [drainShutdowns, if_pos ⟨hd, hk⟩]
    simpa [drain_conn, flush, write, Socket.write, setOutputBuffer] using hs'
  · refine ⟨drain_step hne hafter hdone, by rw [drain_conn]; rfl, ?_⟩
    rw [drainShutdowns, if_neg (fun h' => hk h'.2), drain_conn]; rfl

end ConnCtx

/-! ### Runs -/

/-- An established connection, with what its callers have passed to `sendInLoop` and what it has
handed to `queueInLoop`. -/
structure OutputStream where
  conn : TcpConnection
  passed : List StdString
  queued : List Functor
  deriving DecidableEq

/-- A call on the connection.  The calls made inside a user's callback are steps of their own,
after the step that invokes the callback. -/
inductive StreamAction
  | send (tid : Tid) (message : StdString) (n : ℤ) (ret : Bool)
  | sendInLoop (tid : Tid) (message : StdString) (n : ℤ) (ret : Bool)
  | shutdown (tid : Tid)
  | shutdownInLoop (tid : Tid)
  | handleWrite (tid : Tid) (n : ℤ) (ret : Bool)
  | handleRead (tid : Tid) (received : Option Bytes) (ret : Bool)
  | handleError
  | setWriteCompleteCallback (callback : Bool)
  /-- The user's call on `inputBuffer_`. -/
  | inputBuffer (op : Buffer.Op)
  deriving DecidableEq

namespace OutputStream

/-- The state after a call: a fault ends the run. -/
def after (s : OutputStream) (passed : List StdString) : Result ConnCtx → Option OutputStream
  | .ok x => some ⟨x.conn, s.passed ++ passed, s.queued ++ x.queued⟩
  | .fault _ _ => none

/-- `::write` on `len` bytes returns -1 or takes at most `len` of them. -/
def WriteResult (len : ℕ) (n : ℤ) : Prop := -1 ≤ n ∧ n ≤ len

instance (len : ℕ) (n : ℤ) : Decidable (WriteResult len n) := inferInstanceAs (Decidable (_ ∧ _))

def next (s : OutputStream) : StreamAction → Option OutputStream
  | .send tid message n ret =>
      if WriteResult message.size n then
        let inLoop := s.conn.state = .kConnected ∧ s.conn.loop.isInLoopThread tid = true
        s.after (if inLoop then [message] else []) (s.conn.enter.send tid message n ret)
      else none
  | .sendInLoop tid message n ret =>
      if WriteResult message.size n then
        s.after [message] (s.conn.enter.sendInLoop tid message n ret)
      else none
  | .shutdown tid => s.after [] (s.conn.enter.shutdown tid)
  | .shutdownInLoop tid => s.after [] (s.conn.enter.shutdownInLoop tid)
  | .handleWrite tid n ret =>
      if WriteResult s.conn.outputBuffer.readableBytes n then
        s.after [] (s.conn.enter.handleWrite tid n ret)
      else none
  | .handleRead tid received ret =>
      -- at the end of the stream `handleRead` runs `handleClose`
      if received ≠ some [] then s.after [] (s.conn.enter.handleRead tid received ret) else none
  | .handleError => s.after [] s.conn.enter.handleError
  | .setWriteCompleteCallback callback =>
      some { s with conn.writeCompleteCallback := callback }
  | .inputBuffer op =>
      match op.apply s.conn.inputBuffer with
      | .ok b => some { s with conn.inputBuffer := b }
      | .fault _ _ => none

end OutputStream

/-- The runs from `connectEstablished` up to the first `handleClose` or `connectDestoryed`. -/
def outputStreams : LTS OutputStream StreamAction where
  init s := s.conn.Established ∧ s.passed = [] ∧ s.queued = []
  next := OutputStream.next

namespace OutputStream

open TcpConnection

variable {s t : OutputStream}

/-- What was passed to `sendInLoop` is what was sent and what is left to send. -/
structure Inv (s : OutputStream) : Prop where
  synced : s.conn.Synced
  stream : s.conn.socket.sent ++ s.conn.outputBuffer.content =
    s.passed.flatMap CharVector.bytes

/-- A write-complete callback is queued by the step exactly if it drains the buffer and the
callback is set. -/
def QueuesOnDrain (s t : OutputStream) : Prop :=
  t.queued.count .writeComplete = s.queued.count .writeComplete +
    if s.conn.outputBuffer.content ≠ [] ∧ t.conn.outputBuffer.content = [] ∧
      s.conn.writeCompleteCallback = true then 1 else 0

/-- A step on the stream. -/
theorem Inv.of_streamStep (hs : s.Inv) (passed : List StdString) {k : ℕ} {x : ConnCtx}
    (h : ConnCtx.StreamStep (passed.flatMap CharVector.bytes) k s.conn.enter x) :
    Inv ⟨x.conn, s.passed ++ passed, s.queued ++ x.queued⟩ ∧
      s.QueuesOnDrain ⟨x.conn, s.passed ++ passed, s.queued ++ x.queued⟩ := by
  refine ⟨⟨h.synced, ?_⟩, ?_⟩
  · rw [List.flatMap_append, ← hs.stream]
    exact h.stream
  · have hq := h.queued
    simp only [QueuesOnDrain, List.count_append]
    by_cases hd : s.conn.enter.Drained x ∧ s.conn.writeCompleteCallback = true
    · rw [if_pos (by exact hd)] at hq
      rw [hq, if_pos (by exact ⟨hd.1.1, hd.1.2, hd.2⟩)]
      rfl
    · rw [if_neg (by exact hd)] at hq
      rw [hq, if_neg (by exact fun h => hd ⟨⟨h.1, h.2.1⟩, h.2.2⟩)]
      rfl

/-- A step next to the stream: it queues no write-complete callback. -/
theorem Inv.of_idle {q : List Functor} (hs : s.Inv)
    (hb : t.conn.outputBuffer = s.conn.outputBuffer) (hc : t.conn.channel = s.conn.channel)
    (hsent : t.conn.socket.sent = s.conn.socket.sent) (hp : t.passed = s.passed)
    (hqueued : t.queued = s.queued ++ q) (hq : .writeComplete ∉ q) :
    t.Inv ∧ s.QueuesOnDrain t := by
  refine ⟨⟨⟨hb ▸ hs.synced.wf, by rw [hb, hc]; exact hs.synced.isWriting_iff⟩, ?_⟩, ?_⟩
  · rw [hb, hsent, hp]
    exact hs.stream
  · rw [QueuesOnDrain, hqueued, List.count_append, List.count_eq_zero.2 hq, hb, if_neg]
    exact fun h => h.1 h.2.1

/-- A call that ends the run is no step. -/
theorem after_eq_some {passed : List StdString} {o : Result ConnCtx}
    (h : s.after passed o = some t) :
    ∃ x, o = .ok x ∧ t = ⟨x.conn, s.passed ++ passed, s.queued ++ x.queued⟩ := by
  cases o with
  | ok x => exact ⟨x, rfl, (Option.some.inj h).symm⟩
  | fault e x => cases h

theorem next_send {tid : Tid} {message : StdString} {n : ℤ} {ret : Bool} (hs : s.Inv)
    (h : s.next (.send tid message n ret) = some t) : t.Inv ∧ s.QueuesOnDrain t := by
  simp only [next] at h
  split_ifs at h
  all_goals
    obtain ⟨x, hx, rfl⟩ := after_eq_some h
    unfold ConnCtx.send ConnCtx.sendConnected at hx
  · rename_i hin
    rw [if_pos (by exact hin.1), if_pos (by exact hin.2)] at hx
    exact hs.of_streamStep [message] (by simpa using (ConnCtx.sendInLoop_synced hs.synced hx).1)
  · rename_i hin
    split_ifs at hx with h1 h2
    · exact absurd ⟨h1, h2⟩ hin
    · cases hx
      exact hs.of_idle rfl rfl rfl (List.append_nil _) rfl (by simp [ConnCtx.queueInLoop, enter])
    · cases hx
      exact hs.of_idle rfl rfl rfl (List.append_nil _) rfl (by simp [enter])

theorem next_shutdown {tid : Tid} (hs : s.Inv) (h : s.next (.shutdown tid) = some t) :
    t.Inv ∧ s.QueuesOnDrain t := by
  obtain ⟨x, hx, rfl⟩ := after_eq_some h
  unfold ConnCtx.shutdown ConnCtx.runShutdownInLoop at hx
  split_ifs at hx
  · have hset : (s.conn.enter.setState .kDisconnecting).conn.Synced :=
      ⟨hs.synced.wf, hs.synced.isWriting_iff⟩
    have hstep := ConnCtx.shutdownInLoop_synced hset hx
    exact hs.of_streamStep [] ⟨hstep.synced, hstep.sent, hstep.rest, hstep.queued,
      hstep.callback, hstep.loop⟩
  · cases hx
    exact hs.of_idle rfl rfl rfl (List.append_nil _) rfl
      (by simp [ConnCtx.queueInLoop, ConnCtx.setState, enter])
  · cases hx
    exact hs.of_idle rfl rfl rfl (List.append_nil _) rfl (by simp [enter])

theorem next_handleRead {tid : Tid} {received : Option Bytes} {ret : Bool} (hs : s.Inv)
    (h : s.next (.handleRead tid received ret) = some t) : t.Inv ∧ s.QueuesOnDrain t := by
  simp only [next] at h
  split_ifs at h with hne
  obtain ⟨x, hx, rfl⟩ := after_eq_some h
  simp only [ConnCtx.handleRead, Outcome.bind_eq_ok, Outcome.zoom_eq_ok] at hx
  obtain ⟨_, ⟨b, -, rfl⟩, hx⟩ := hx
  cases received with
  | none =>
    cases hx
    exact hs.of_idle rfl rfl rfl (List.append_nil _) rfl (by simp [ConnCtx.setInputBuffer, enter])
  | some data =>
    cases data with
    | nil => exact absurd rfl hne
    | cons byte data =>
      cases hx
      exact hs.of_idle rfl rfl rfl (List.append_nil _) rfl
        (by simp [ConnCtx.call, ConnCtx.setInputBuffer, enter])

/-- Every call keeps the invariant and queues write-complete callbacks as it should. -/
theorem next_spec {a : StreamAction} (hs : s.Inv) (h : s.next a = some t) :
    t.Inv ∧ s.QueuesOnDrain t := by
  cases a with
  | send tid message n ret => exact next_send hs h
  | sendInLoop tid message n ret =>
    simp only [next] at h
    split_ifs at h
    obtain ⟨x, hx, rfl⟩ := after_eq_some h
    exact hs.of_streamStep [message] (by simpa using (ConnCtx.sendInLoop_synced hs.synced hx).1)
  | shutdown tid => exact next_shutdown hs h
  | shutdownInLoop tid =>
    obtain ⟨x, hx, rfl⟩ := after_eq_some h
    exact hs.of_streamStep [] (ConnCtx.shutdownInLoop_synced hs.synced hx)
  | handleWrite tid n ret =>
    simp only [next] at h
    split_ifs at h with hn
    obtain ⟨x, hx, rfl⟩ := after_eq_some h
    rw [← hs.synced.wf.content_length] at hn
    exact hs.of_streamStep [] (ConnCtx.handleWrite_synced hs.synced hn.2 hx).1
  | handleRead tid received ret => exact next_handleRead hs h
  | handleError =>
    cases h
    exact hs.of_idle rfl rfl rfl (List.append_nil _) rfl (by simp [enter])
  | setWriteCompleteCallback callback =>
    cases h
    exact hs.of_idle rfl rfl rfl rfl (List.append_nil _).symm (by simp)
  | inputBuffer op =>
    simp only [next] at h
    split at h <;> cases h
    exact hs.of_idle rfl rfl rfl rfl (List.append_nil _).symm (by simp)

theorem Inv.of_init (h : outputStreams.init s) : s.Inv := by
  obtain ⟨hc, hp, -⟩ := h
  refine ⟨hc.synced, ?_⟩
  obtain ⟨loop, name, sockfd, localAddr, peerAddr, storage, callback, ret, hc⟩ := hc.eq
  rw [hc, hp]
  simp only [new, List.nil_append, Buffer.new_content, List.flatMap_nil]

end OutputStream

/-- **The output stream.** In every state of every run the bytes that the kernel took, followed by
the readable bytes of `outputBuffer_`, are the messages passed to `sendInLoop` in call order; the
channel is writing exactly if the buffer is not empty; and a step queues a write-complete callback
exactly if the callback is set and the step empties the buffer. -/
theorem output_stream_integrity {s : OutputStream} (h : outputStreams.Reachable s) :
    s.conn.socket.sent ++ s.conn.outputBuffer.content = s.passed.flatMap CharVector.bytes ∧
      (s.conn.channel.isWriting = true ↔ s.conn.outputBuffer.content ≠ []) ∧
      ∀ a t, outputStreams.next s a = some t → t.queued.count .writeComplete =
        s.queued.count .writeComplete +
          if s.conn.outputBuffer.content ≠ [] ∧ t.conn.outputBuffer.content = [] ∧
            s.conn.writeCompleteCallback = true then 1 else 0 := by
  have hinv : s.Inv := h.invariant (I := OutputStream.Inv) (fun _ => OutputStream.Inv.of_init)
    fun _ _ _ hs hn => (OutputStream.next_spec hs hn).1
  exact ⟨hinv.stream, hinv.synced.isWriting_iff, fun _ _ hn => (OutputStream.next_spec hinv hn).2⟩

/-- Two messages, and a write that takes a part of the first. -/
def partialWrite : List StreamAction :=
  [.sendInLoop 1 ⟨[7, 8], by decide⟩ 0 true, .handleWrite 1 1 true,
    .send 1 ⟨[9], by decide⟩ 0 true]

theorem output_stream_integrity_partial_write :
    ∃ s, outputStreams.run ⟨.sample, [], []⟩ partialWrite = some s ∧
      s.conn.socket.sent ++ s.conn.outputBuffer.content = [7, 8, 9] := by
  obtain ⟨s, hs⟩ := Option.isSome_iff_exists.1 (by decide +kernel :
    (outputStreams.run ⟨.sample, [], []⟩ partialWrite).isSome = true)
  have hp : ((outputStreams.run ⟨.sample, [], []⟩ partialWrite).map fun s =>
      s.passed.flatMap CharVector.bytes) = some [7, 8, 9] := by decide +kernel
  have h0 : outputStreams.init ⟨.sample, [], []⟩ := ⟨TcpConnection.sample_established, rfl, rfl⟩
  rw [hs] at hp
  refine ⟨s, hs, ?_⟩
  rw [(output_stream_integrity (.of_run (.init h0) _ hs)).1]
  exact Option.some.inj hp

end Jiangbo
