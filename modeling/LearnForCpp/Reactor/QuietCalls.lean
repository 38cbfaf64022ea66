import LearnForCpp.Reactor.CloseOnce

/-!
# Calls that a server does not notice

Most calls on a connection neither tell its owner nor call `connectionCallback_`, queue nothing but
the write-complete callback, and leave a live connection alive and a registered channel registered.
`ConnCtx.Quiet` says so, with one lemma for each member function; what is left are `handleClose`
and `connectDestoryed`.
-/

namespace Jiangbo

/-- Established and not destroyed, as the assertions of `handleClose` and `connectDestoryed` have
it. -/
def TcpConnection.Live (c : TcpConnection) : Prop :=
  c.state = .kConnected ∨ c.state = .kDisconnecting

theorem TcpConnection.Live.not_dead {c : TcpConnection} (h : c.Live) :
    c.state ≠ .kDisConnected := by
  rcases h with h | h <;> rw [h] <;> nofun

namespace Channel

theorem enableWriting_registered {ret : Bool} {c : Channel} (h : c.registeredInEpoller = true) :
    (c.enableWriting ret).registeredInEpoller = true :=
  update_registered_of_true ret _ h

theorem disableWriting_registered {ret : Bool} {c : Channel} (h : c.registeredInEpoller = true) :
    (c.disableWriting ret).registeredInEpoller = true :=
  update_registered_of_true ret _ h

end Channel

namespace ConnCtx

/-- What a call on `c` leaves that its server does not notice. -/
structure Quiet (c : TcpConnection) (y : ConnCtx) : Prop where
  loop : y.conn.loop = c.loop
  name : y.conn.name = c.name
  queued : ∀ f ∈ y.queued, f = .writeComplete
  close : .close ∉ y.calls
  connection : .connection ∉ y.calls
  live : c.Live → y.conn.Live
  registered : c.channel.registeredInEpoller = true → y.conn.channel.registeredInEpoller = true
  dead : c.state = .kDisConnected → y.conn.state = .kDisConnected ∧ y.conn.channel = c.channel

variable {c d : TcpConnection} {x y : ConnCtx} {tid : Tid} {message : StdString} {n : ℤ}
  {ret : Bool}

/-- A call that only replaces fields of the connection. -/
theorem enter_unnoticed (hloop : d.loop = c.loop) (hname : d.name = c.name)
    (hstate : d.state = c.state) (hchannel : d.channel = c.channel) : Quiet c d.enter where
  loop := hloop
  name := hname
  queued := fun _ h => absurd h List.not_mem_nil
  close := List.not_mem_nil
  connection := List.not_mem_nil
  live := fun h => by rwa [TcpConnection.Live, TcpConnection.enter, hstate]
  registered := fun h => hchannel ▸ h
  dead := fun h => ⟨hstate.trans h, hchannel⟩

theorem sendInLoop_unnoticed (hl : c.Live) (h : c.enter.sendInLoop tid message n ret = .ok y) :
    Quiet c y := by
  have hstep := sendInLoop_step h
  have hcalls : y.calls = [] := hstep.calls
  refine ⟨hstep.same.loop, hstep.same.name, fun f hf => ?_, by simp [hcalls], by simp [hcalls],
    fun _ => ?_, fun hr => ?_, fun hd => absurd hd hl.not_dead⟩
  · exact (hstep.queued f hf).resolve_left List.not_mem_nil
  · rwa [TcpConnection.Live, hstep.state]
  · rcases hstep.channel with hch | ⟨-, hch⟩ <;> rw [hch]
    · exact hr
    · exact Channel.enableWriting_registered hr

theorem send_unnoticed (hin : c.loop.isInLoopThread tid = true)
    (h : c.enter.send tid message n ret = .ok y) : Quiet c y := by
  unfold send at h
  split_ifs at h with hstate
  · rcases sendConnected_eq_ok h with ⟨-, h⟩ | ⟨hout, -⟩
    · exact sendInLoop_unnoticed (.inl hstate) h
    · rw [show c.enter.conn.loop = c.loop from rfl, hin] at hout
      cases hout
  · cases h
    exact enter_unnoticed rfl rfl rfl rfl

theorem shutdown_unnoticed (hin : c.loop.isInLoopThread tid = true)
    (h : c.enter.shutdown tid = .ok y) : Quiet c y := by
  unfold shutdown at h
  split_ifs at h with hstate
  · have hl : c.Live := .inl hstate
    rcases runShutdownInLoop_eq_ok h with ⟨-, h⟩ | ⟨hout, -⟩
    · obtain ⟨s, rfl, -⟩ := shutdownInLoop_eq_ok h
      exact ⟨rfl, rfl, fun _ h => absurd h List.not_mem_nil, List.not_mem_nil, List.not_mem_nil,
        fun _ => .inr rfl, id, fun hd => absurd hd hl.not_dead⟩
    · rw [show (c.enter.setState .kDisconnecting).conn.loop = c.loop from rfl, hin] at hout
      cases hout
  · cases h
    exact enter_unnoticed rfl rfl rfl rfl

theorem handleError_unnoticed (h : c.enter.handleError = .ok y) : Quiet c y :=
  Outcome.ok.inj h ▸ enter_unnoticed rfl rfl rfl rfl

theorem handleRead_unnoticed {received : Option Bytes} (hr : received ≠ some [])
    (h : c.enter.handleRead tid received ret = .ok y) : Quiet c y := by
  obtain ⟨b, ⟨-, rfl⟩ | ⟨heof, -⟩ | ⟨_, _, -, rfl⟩⟩ := handleRead_eq_ok h
  · exact enter_unnoticed (d := { c with inputBuffer := b }) rfl rfl rfl rfl
  · exact absurd heof hr
  · have hq := enter_unnoticed (c := c) (d := { c with inputBuffer := b }) rfl rfl rfl rfl
    exact ⟨hq.loop, hq.name, hq.queued, by simp [call, setInputBuffer, TcpConnection.enter],
      by simp [call, setInputBuffer, TcpConnection.enter], hq.live, hq.registered, hq.dead⟩

theorem drain_unnoticed (hl : c.Live) (b : Buffer) : Quiet c ((c.enter.flush n b).drain ret) := by
  have hconn := drain_conn ret (c.enter.flush n b)
  refine ⟨by rw [hconn]; rfl, by rw [hconn]; rfl, fun f hf => ?_, ?_, ?_, fun _ => ?_, fun hr => ?_,
    fun hd => absurd hd hl.not_dead⟩
  · exact (drain_queued hf).resolve_left List.not_mem_nil
  · rw [drain, queueWriteComplete_calls]
    exact List.not_mem_nil
  · rw [drain, queueWriteComplete_calls]
    exact List.not_mem_nil
  · rw [hconn]
    exact hl
  · rw [hconn]
    exact Channel.disableWriting_registered hr

theorem handleWrite_unnoticed (hl : c.Live) (h : c.enter.handleWrite tid n ret = .ok y) :
    Quiet c y := by
  rcases handleWrite_eq_ok h with ⟨-, rfl⟩ | ⟨-, -, b, -, ⟨-, rfl⟩ | ⟨-, -, h⟩ | ⟨-, -, rfl⟩⟩
  · exact enter_unnoticed rfl rfl rfl rfl
  · exact enter_unnoticed (d := (c.enter.flush n b).conn) rfl rfl rfl rfl
  · obtain ⟨s, rfl, -⟩ := shutdownInLoop_eq_ok h
    have hq : Quiet c ((c.enter.flush n b).drain ret) := drain_unnoticed hl b
    exact ⟨hq.loop, hq.name, hq.queued, hq.close, hq.connection, hq.live, hq.registered, hq.dead⟩
  · exact drain_unnoticed hl b

/-! ### The calls that are noticed -/

/-- `handleRead` at the end of the stream closes a live connection. -/
theorem handleRead_eof (h : c.enter.handleRead tid (some []) ret = .ok y) :
    ∃ b, y = ⟨{ c with inputBuffer := b, channel := c.channel.disableAll ret }, [], [.close]⟩ := by
  obtain ⟨b, ⟨h1, -⟩ | ⟨-, hb⟩ | ⟨_, _, h3, -⟩⟩ := handleRead_eq_ok h
  · cases h1
  · exact ⟨b, (handleClose_eq_ok hb).2⟩
  · cases h3

/-- A fault of a call on a live connection is none of the assertions of closing it. -/
theorem Harmless.of_live {e : Fault} (h : Harmless c e x) (hl : c.Live) : e.ofClosing = false :=
  h.fault.resolve_right fun h => h.2 hl

theorem send_faults : (c.enter.send tid message n ret).Faults fun e _ => e.ofClosing = false := by
  unfold send
  split_ifs with hstate
  · exact sendConnected_faults.mono fun e x h => h.of_live (.inl hstate)
  · exact .ok _

theorem shutdown_faults : (c.enter.shutdown tid).Faults fun e _ => e.ofClosing = false := by
  unfold shutdown
  split_ifs
  · exact (runShutdownInLoop_faults (c := { c with state := .kDisconnecting })).mono
      fun e x h => h.of_live (.inr rfl)
  · exact .ok _

end ConnCtx

end Jiangbo
