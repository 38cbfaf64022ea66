import LearnForCpp.Reactor.ConnSystem

/-!
# What a closed connection still does

`handleClose` empties the interest of the channel but leaves `state_` at `kConnected`, and
`connectDestoryed` is only queued.  Until it runs, and behind it in the queue, a `sendInLoop` does
not know that the connection is closed: it writes past what is left in `outputBuffer_`, or appends
and asks for write events again, and after `removeChannel` that registers the channel anew.

`closed_stays_quiet_iff` says that this is the only way: a run is quiet after `handleClose` exactly
if it passes no message that is not empty to `sendInLoop` any more.
-/

namespace Jiangbo

namespace TcpConnection

/-- From `c` to `d` nothing was written, and no interest or registration came back. -/
structure Quiet (c d : TcpConnection) : Prop where
  sent : d.socket.sent = c.socket.sent
  events : d.channel.events = Channel.kNoneEvent
  registered : c.channel.registeredInEpoller = false → d.channel.registeredInEpoller = false
  outputBuffer : d.outputBuffer = c.outputBuffer

variable {c d : TcpConnection}

theorem Quiet.refl (h : c.channel.events = Channel.kNoneEvent) : c.Quiet c := ⟨rfl, h, id, rfl⟩

/-- A disabled channel is no more registered than before. -/
theorem Quiet.disableAll (ret : Bool) (hs : d.socket.sent = c.socket.sent)
    (hc : d.channel = c.channel.disableAll ret) (hb : d.outputBuffer = c.outputBuffer) :
    c.Quiet d :=
  ⟨hs, by rw [hc, Channel.disableAll_events], fun h => by rwa [hc, Channel.disableAll_registered],
    hb⟩

end TcpConnection

namespace ConnCtx

open OutputStream (WriteResult)
open TcpConnection (Quiet)

variable {x y : ConnCtx} {tid : Tid} {message : StdString} {n : ℤ} {ret : Bool}

/-! ### Member functions on a channel without interest -/

variable (hx : x.conn.channel.events = Channel.kNoneEvent)

include hx

theorem assertInLoopThread_quiet : (x.assertInLoopThread tid).Ends (fun y => x = y)
    fun _ y => x.conn.Quiet y.conn :=
  .check (fun _ => rfl) fun _ => .refl hx

theorem isWriting_of_none : x.conn.channel.isWriting = false := by
  rw [Channel.isWriting, hx]; exact Bitmask.test_zero _

theorem handleClose_quiet : (x.handleClose tid ret).Ends (fun y => x.conn.Quiet y.conn)
    fun _ y => x.conn.Quiet y.conn := by
  refine (assertInLoopThread_quiet hx).bind ?_
  rintro _ rfl
  refine (Outcome.Ends.check (P := fun y => x = y) (fun _ => rfl) fun _ => .refl hx).bind ?_
  rintro _ rfl
  exact .disableAll ret rfl rfl rfl

theorem connectDestoryed_quiet : (x.connectDestoryed tid ret).Ends (fun y => x.conn.Quiet y.conn)
    fun _ y => x.conn.Quiet y.conn := by
  refine (assertInLoopThread_quiet hx).bind ?_
  rintro _ rfl
  refine (Outcome.Ends.check (P := fun y => x = y) (fun _ => rfl) fun _ => .refl hx).bind ?_
  rintro _ rfl
  exact .disableAll ret rfl rfl rfl

theorem removeChannel_quiet : (x.removeChannel ret).Ends (fun y => x.conn.Quiet y.conn)
    fun _ y => x.conn.Quiet y.conn := by
  have h : (x.conn.channel.remove ret).Ends
      (fun c => c.events = Channel.kNoneEvent ∧
        (x.conn.channel.registeredInEpoller = false → c.registeredInEpoller = false))
      fun _ c => c.events = Channel.kNoneEvent ∧
        (x.conn.channel.registeredInEpoller = false → c.registeredInEpoller = false) := by
    refine (Outcome.Ends.check (P := fun c => x.conn.channel = c) (fun _ => rfl)
      fun _ => ⟨hx, id⟩).bind ?_
    rintro _ rfl
    refine (Outcome.Ends.check (P := fun c => x.conn.channel = c) (fun _ => rfl)
      fun _ => ⟨hx, id⟩).bind ?_
    rintro _ rfl
    split_ifs
    · exact ⟨hx, fun _ => rfl⟩
    · exact ⟨hx, id⟩
  exact h.zoom (fun c hc => ⟨rfl, hc.1, hc.2, rfl⟩) fun _ c hc => ⟨rfl, hc.1, hc.2, rfl⟩

theorem shutdownInLoop_quiet : (x.shutdownInLoop tid).Ends (fun y => x.conn.Quiet y.conn)
    fun _ y => x.conn.Quiet y.conn := by
  refine (assertInLoopThread_quiet hx).bind ?_
  rintro _ rfl
  split_ifs
  · exact ⟨rfl, hx, id, rfl⟩
  · exact .refl hx

theorem handleWrite_quiet : (x.handleWrite tid n ret).Ends (fun y => x.conn.Quiet y.conn)
    fun _ y => x.conn.Quiet y.conn := by
  refine (assertInLoopThread_quiet hx).bind ?_
  rintro _ rfl
  rw [isWriting_of_none hx]
  exact .refl hx

theorem handleRead_quiet {received : Option Bytes} :
    (x.handleRead tid received ret).Ends (fun y => x.conn.Quiet y.conn)
      fun _ y => x.conn.Quiet y.conn := by
  have hread : ((x.conn.inputBuffer.readFd received).zoom x.setInputBuffer).Ends
      (fun y => ∃ b, y = x.setInputBuffer b) fun _ y => x.conn.Quiet y.conn := by
    cases x.conn.inputBuffer.readFd received with
    | ok b => exact ⟨b, rfl⟩
    | fault e b => exact ⟨rfl, hx, id, rfl⟩
  refine hread.bind ?_
  rintro _ ⟨b, rfl⟩
  have hb : (x.setInputBuffer b).conn.channel.events = Channel.kNoneEvent := hx
  have hq : ∀ {z : ConnCtx}, (x.setInputBuffer b).conn.Quiet z.conn → x.conn.Quiet z.conn :=
    fun hz => ⟨hz.sent, hz.events, hz.registered, hz.outputBuffer⟩
  match received with
  | none => exact hq (.refl hb)
  | some [] => exact (handleClose_quiet hb).mono (fun _ => hq) fun _ _ => hq
  | some (_ :: _) => exact hq (.refl hb)

/-- The empty message is passed on without a trace. -/
theorem sendInLoop_quiet (hm : message.bytes = []) :
    (x.sendInLoop tid message n ret).Ends (fun y => x.conn.Quiet y.conn)
      fun _ y => x.conn.Quiet y.conn := by
  have hsize : ∀ k, ¬k < message.size := by simp [CharVector.size, hm]
  by_cases htid : x.conn.loop.isInLoopThread tid = true
  · rw [sendInLoop_eq htid]
    dsimp only
    rw [if_neg (hsize _)]
    split_ifs
    · refine ⟨?_, ?_, ?_, ?_⟩ <;> rw [writeDirect_conn]
      · simp [Socket.write, hm]
      · exact hx
      · exact id
    · exact .refl hx
  · rw [sendInLoop, assertInLoopThread, Outcome.check_neg (by simpa using htid)]
    exact .refl hx

end ConnCtx

namespace ConnSystem

open TcpConnection (Quiet)

variable {s u : ConnSystem}

/-! ### The law and the condition -/

/-- **The law.** After `handleClose` a step writes nothing and leaves no interest; after
`connectDestoryed` it does not register the channel. -/
def StaysQuiet (s : ConnSystem) (_ : ConnAction) (u : ConnSystem) : Prop :=
  (0 < s.closeCalls → u.conn.socket.sent = s.conn.socket.sent ∧
    u.conn.channel.events = Channel.kNoneEvent) ∧
  (s.destroyed = true → s.conn.channel.registeredInEpoller = false →
    u.conn.channel.registeredInEpoller = false)

/-- The bytes that a step passes to `sendInLoop`. -/
def sends (s : ConnSystem) : ConnAction → Bytes
  | .proceed t _ _ =>
      match s.pc t with
      | .sendFound p => if s.conn.loop.isInLoopThread t then p.2.bytes else []
      | _ => []
  | .call _ _ =>
      match s.batch with
      | ⟨.sendInLoop message, _⟩ :: _ => message.bytes
      | _ => []
  | _ => []

/-- The condition: after `handleClose` no message that is not empty is passed to `sendInLoop`. -/
def SendsNothing (s : ConnSystem) (a : ConnAction) : Prop := 0 < s.closeCalls → s.sends a = []

/-- The loop is on its way to destroy the connection. -/
def Destroying (s : ConnSystem) : Prop :=
  (∃ task ∈ s.batch ++ s.pendingFunctors, task.functor = .connectDestoryed) ∨
    .removeChannel ∈ s.todo ∨ s.destroyed = true

/-- The invariant: a closed connection has no interest, and only a closed one is destroyed. -/
structure Closing (s : ConnSystem) : Prop where
  wf : s.conn.outputBuffer.WF
  events : 0 < s.closeCalls → s.conn.channel.events = Channel.kNoneEvent
  destroying : s.Destroying → 0 < s.closeCalls

variable {k : Option ℕ} {x : ConnCtx} {o : Result ConnCtx}

/-- A call keeps the invariant if it leaves a closed connection without interest. -/
theorem Closing.absorb (hwf : x.conn.outputBuffer.WF)
    (hevents : 0 < s.closeCalls ∨ .close ∈ x.calls → x.conn.channel.events = Channel.kNoneEvent)
    (hqueued : .connectDestoryed ∉ x.queued) (hd : s.Destroying → 0 < s.closeCalls) :
    (s.absorb k x).Closing := by
  refine ⟨by rw [absorb_conn]; exact hwf, fun h => ?_, fun h => ?_⟩
  · rw [absorb_closeCalls] at h
    rw [absorb_conn]
    refine hevents ?_
    split_ifs at h with hc
    · exact .inr hc
    · exact .inl h
  · rw [absorb_closeCalls]
    split_ifs with hc
    · omega
    · refine hd ?_
      unfold ConnSystem.absorb at h
      rw [if_neg hc] at h
      refine h.imp_left fun ⟨task, hmem, hf⟩ => ⟨task, ?_, hf⟩
      simp only [adopt, List.mem_append, List.mem_map] at hmem ⊢
      rcases hmem with hmem | hmem | ⟨f, hf', rfl⟩
      · exact .inl hmem
      · exact .inr hmem
      · exact absurd (hf ▸ hf') hqueued

/-! ### Steps of a live connection -/

/-- A step of a connection that is not closed keeps the invariant. -/
theorem Closing.step_open {a : ConnAction} (hs : s.Closing) (hopen : s.closeCalls = 0)
    (h : Step s a u) (hf : u.failed = none) : u.Closing := by
  have hnd : ¬s.Destroying := fun hd => by have := hs.destroying hd; omega
  -- every call of a handler or a functor ends here: what it does is its effect
  have hcall : ∀ {s' : ConnSystem} {k : Option ℕ} {o : Result ConnCtx},
      s'.closeCalls = 0 → ¬s'.Destroying →
        (∀ y, o = .ok y → ∃ closes, ConnCtx.Effect s.conn closes y) →
      s'.after k o = some u →
      u.Closing := by
    intro s' k o hopen' hnd' heffect hu
    obtain ⟨x, rfl, rfl⟩ := after_ok hu hf
    obtain ⟨closes, hx⟩ := heffect x rfl
    exact .absorb (hx.wf hs.wf) (fun h => hx.events (hx.close_iff.1 (h.resolve_left (by omega))))
      hx.queued fun hd => absurd hd hnd'
  cases h with
  | sendFound hpc hstate => exact ⟨hs.wf, hs.events, hs.destroying⟩
  | sendRefused => exact hs
  | sendConnected hpc hn hu =>
    exact hcall (by exact hopen) (by exact hnd)
      (fun y hy => ⟨_, ConnCtx.sendConnected_effect hy⟩) hu
  | sendReturn hpc => exact ⟨hs.wf, hs.events, hs.destroying⟩
  | shutdownBegin => exact ⟨hs.wf, hs.events, hs.destroying⟩
  | shutdownTest hpc => exact ⟨hs.wf, hs.events, hs.destroying⟩
  | shutdownStore hpc => exact ⟨hs.wf, hs.events, hs.destroying⟩
  | runShutdown hpc hu =>
    exact hcall (by exact hopen) (by exact hnd)
      (fun y hy => ⟨_, ConnCtx.runShutdownInLoop_effect hy⟩) hu
  | event htodo hbatch hreg =>
    refine ⟨hs.wf, hs.events, fun hd => ?_⟩
    rcases hd with hd | hd | hd
    · exact hs.destroying (.inl hd)
    · simp at hd
    · exact hs.destroying (.inr (.inr hd))
  | @handler received n ret h todo u htodo hu =>
    have hnd' : ¬{ s with todo := todo }.Destroying := by
      rintro (hd | hd | hd)
      · exact hnd (.inl hd)
      · exact hnd (.inr (.inl (by rw [htodo]; exact List.mem_cons_of_mem _ hd)))
      · exact hnd (.inr (.inr hd))
    cases h with
    | close =>
      exact hcall (by exact hopen) hnd' (fun y hy => ⟨_, ConnCtx.handleClose_effect hy⟩) hu
    | error =>
      exact hcall (by exact hopen) hnd' (fun y hy => ⟨_, ConnCtx.handleError_effect hy⟩) hu
    | read =>
      exact hcall (by exact hopen) hnd' (fun y hy => ⟨_, ConnCtx.handleRead_effect hy⟩) hu
    | write =>
      simp only [handle] at hu
      split_ifs at hu with hn
      exact hcall (by exact hopen) hnd' (fun y hy => ⟨_, ConnCtx.handleWrite_effect hn hy⟩) hu
  | removeChannel htodo hu =>
    -- `removeChannel` is called only for a connection that is being destroyed
    exact absurd (.inr (.inl (by rw [htodo]; exact List.mem_cons_self))) hnd
  | swap htodo hbatch =>
    refine ⟨hs.wf, hs.events, fun hd => hs.destroying ?_⟩
    simpa [Destroying, hbatch] using hd
  | @task n ret task batch u htodo hbatch hu =>
    have hnd' : ∀ {passed}, ¬{ s with batch := batch, passed := passed }.Destroying := by
      rintro passed (⟨task', hmem, hf⟩ | hd | hd)
      · refine hnd (.inl ⟨task', ?_, hf⟩)
        rw [hbatch]
        exact List.mem_cons_of_mem _ hmem
      · exact hnd (.inr (.inl hd))
      · exact hnd (.inr (.inr hd))
    unfold runTask at hu
    split at hu
    · split_ifs at hu
      exact hcall (by exact hopen) (by exact hnd')
        (fun y hy => ⟨_, ConnCtx.sendInLoop_effect hy⟩) hu
    · exact hcall (by exact hopen) (by exact hnd')
        (fun y hy => ⟨_, ConnCtx.shutdownInLoop_effect hy⟩) hu
    · cases hu
      exact ⟨hs.wf, hs.events, fun hd => absurd hd hnd'⟩
    -- and so is `connectDestoryed`
    · exact absurd (.inl ⟨task, by rw [hbatch]; exact List.mem_cons_self, ‹_›⟩) hnd
  | setWriteCompleteCallback => exact ⟨hs.wf, hs.events, hs.destroying⟩
  | inputBuffer => exact ⟨hs.wf, hs.events, hs.destroying⟩
  | detach => exact ⟨hs.wf, hs.events, hs.destroying⟩

/-! ### Steps of a closed connection -/

/-- A quiet call. -/
theorem after_quiet (ho : o.Ends (fun x => s.conn.Quiet x.conn) fun _ x => s.conn.Quiet x.conn)
    {s' : ConnSystem} (hc : s'.closeCalls = s.closeCalls) (h : s'.after k o = some u) :
    s.conn.Quiet u.conn ∧ s.closeCalls ≤ u.closeCalls := by
  refine ⟨?_, hc ▸ after_closeCalls h⟩
  rw [after_conn h]
  exact Outcome.Ends.state (P := fun x : ConnCtx => s.conn.Quiet x.conn) ho

/-- A step of a connection without interest that passes nothing to `sendInLoop` is quiet. -/
theorem step_quiet {a : ConnAction} (he : s.conn.channel.events = Channel.kNoneEvent)
    (hsends : s.sends a = []) (h : Step s a u) :
    s.conn.Quiet u.conn ∧ s.closeCalls ≤ u.closeCalls := by
  have hx : s.conn.enter.conn.channel.events = Channel.kNoneEvent := he
  have hrefl : s.conn.Quiet s.conn := .refl he
  cases h with
  | sendFound hpc hstate => exact ⟨hrefl, le_rfl⟩
  | sendRefused => exact ⟨hrefl, le_rfl⟩
  | @sendConnected t n ret p u hpc hn hu =>
    refine after_quiet ?_ (by rfl) hu
    unfold ConnCtx.sendConnected
    split_ifs with hin
    -- the call is made here, so there are no bytes to pass on
    · have hin' : s.conn.loop.isInLoopThread t = true := hin
      have hm : p.2.bytes = [] := by simpa [sends, hpc, hin'] using hsends
      exact ConnCtx.sendInLoop_quiet hx hm
    · exact hrefl
  | sendReturn hpc => exact ⟨hrefl, le_rfl⟩
  | shutdownBegin => exact ⟨hrefl, le_rfl⟩
  | shutdownTest hpc => exact ⟨hrefl, le_rfl⟩
  | shutdownStore hpc => exact ⟨⟨rfl, he, id, rfl⟩, le_rfl⟩
  | runShutdown hpc hu =>
    refine after_quiet ?_ (by rfl) hu
    unfold ConnCtx.runShutdownInLoop
    split_ifs
    · exact ConnCtx.shutdownInLoop_quiet hx
    · exact hrefl
  | event htodo hbatch hreg => exact ⟨hrefl, le_rfl⟩
  | @handler received n ret h todo u htodo hu =>
    cases h with
    | close => exact after_quiet (ConnCtx.handleClose_quiet hx) (by rfl) hu
    | error => exact after_quiet (o := s.conn.enter.handleError) hrefl (by rfl) hu
    | read => exact after_quiet (ConnCtx.handleRead_quiet hx) (by rfl) hu
    | write =>
      simp only [handle] at hu
      split_ifs at hu
      exact after_quiet (ConnCtx.handleWrite_quiet hx) (by rfl) hu
  | removeChannel htodo hu => exact after_quiet (ConnCtx.removeChannel_quiet hx) (by rfl) hu
  | swap htodo hbatch => exact ⟨hrefl, le_rfl⟩
  | @task n ret task batch u htodo hbatch hu =>
    unfold runTask at hu
    split at hu
    · split_ifs at hu
      have hm : (‹StdString› : StdString).bytes = [] := by
        obtain ⟨f, ticket⟩ := task
        simp only at *
        subst_vars
        simpa [sends, hbatch] using hsends
      exact after_quiet (ConnCtx.sendInLoop_quiet hx hm) (by rfl) hu
    · exact after_quiet (ConnCtx.shutdownInLoop_quiet hx) (by rfl) hu
    · cases hu
      exact ⟨hrefl, le_rfl⟩
    · exact after_quiet (ConnCtx.connectDestoryed_quiet hx) (by rfl) hu
  | setWriteCompleteCallback => exact ⟨⟨rfl, he, id, rfl⟩, le_rfl⟩
  | inputBuffer => exact ⟨⟨rfl, he, id, rfl⟩, le_rfl⟩
  | detach => exact ⟨hrefl, le_rfl⟩

/-- A message that is not empty leaves a trace. -/
theorem sendInLoop_loud {s' : ConnSystem} {t : Tid} {message : StdString} {n : ℤ} {ret : Bool}
    (hwf : s.conn.outputBuffer.WF) (hm : message.bytes ≠ [])
    (h : s'.after k (s.conn.enter.sendInLoop t message n ret) = some u) :
    u.conn.socket.sent ≠ s.conn.socket.sent ∨ u.conn.channel.events ≠ Channel.kNoneEvent := by
  by_cases htid : s.conn.loop.isInLoopThread t = true
  · have hspec : (s.conn.enter.sendInLoop t message n ret).Ends
        (fun y => y.conn.outputBuffer.WF ∧ (message.bytes ≠ [] →
          y.conn.socket.sent ≠ s.conn.socket.sent ∨ y.conn.channel.isWriting = true))
        (fun e _ => e = .lengthError) := ConnCtx.sendInLoop_wf hwf htid
    cases ho : s.conn.enter.sendInLoop t message n ret with
    | ok y =>
      rw [ho] at h hspec
      rw [after_conn h]
      exact (hspec.2 hm).imp_right Channel.ne_none_of_isWriting
    | fault e y =>
      rw [ho] at h hspec
      obtain rfl : e = .lengthError := hspec
      cases h
  · have hout : s.conn.enter.conn.loop.isInLoopThread t = false := Bool.eq_false_iff.2 htid
    rw [ConnCtx.sendInLoop, ConnCtx.assertInLoopThread, Outcome.check_neg hout] at h
    cases h

/-- A step that passes a message to `sendInLoop` is not quiet. -/
theorem step_loud {a : ConnAction} (hwf : s.conn.outputBuffer.WF) (hsends : s.sends a ≠ [])
    (h : Step s a u) :
    u.conn.socket.sent ≠ s.conn.socket.sent ∨ u.conn.channel.events ≠ Channel.kNoneEvent := by
  cases h with
  | @sendConnected t n ret p u hpc hn hu =>
    simp only [sends, hpc] at hsends
    split_ifs at hsends with hin
    · unfold ConnCtx.sendConnected at hu
      have hin' : s.conn.enter.conn.loop.isInLoopThread t = true := hin
      rw [if_pos hin'] at hu
      exact sendInLoop_loud hwf hsends hu
    · exact absurd rfl hsends
  | @task n ret task batch u htodo hbatch hu =>
    obtain ⟨f, ticket⟩ := task
    cases f with
    | sendInLoop message =>
      simp only [sends, hbatch] at hsends
      simp only [runTask] at hu
      split_ifs at hu
      exact sendInLoop_loud hwf hsends hu
    | _ => simp [sends, hbatch] at hsends
  | sendReturn hpc => simp [sends, hpc] at hsends
  | shutdownTest hpc => simp [sends, hpc] at hsends
  | shutdownStore hpc => simp [sends, hpc] at hsends
  | runShutdown hpc hu => simp [sends, hpc] at hsends
  | _ => exact absurd rfl hsends

/-! ### Runs -/

theorem Closing.of_init (h : connections.init s) : s.Closing := by
  obtain ⟨conn, owner, hconn, rfl⟩ := h
  refine ⟨hconn.synced.wf, fun h => absurd h (lt_irrefl 0), ?_⟩
  simp [Destroying, new]

/-- On the steps of the invariant the law is the condition. -/
theorem Closing.staysQuiet_iff {a : ConnAction} (hs : s.Closing) (h : s.next a = some u) :
    s.StaysQuiet a u ↔ s.SendsNothing a := by
  obtain ⟨-, hstep⟩ := next_step h
  constructor
  · intro hlaw hclosed
    by_contra hne
    rcases step_loud hs.wf hne hstep with hl | hl
    · exact hl (hlaw.1 hclosed).1
    · exact hl (hlaw.1 hclosed).2
  · intro hcond
    refine ⟨fun hclosed => ?_, fun hd hreg => ?_⟩
    · obtain ⟨hq, -⟩ := step_quiet (hs.events hclosed) (hcond hclosed) hstep
      exact ⟨hq.sent, hq.events⟩
    · have hclosed := hs.destroying (.inr (.inr hd))
      exact (step_quiet (hs.events hclosed) (hcond hclosed) hstep).1.registered hreg

theorem Closing.step {a : ConnAction} (hs : s.failed = none → s.Closing) (hc : s.SendsNothing a)
    (h : s.next a = some u) : u.failed = none → u.Closing := by
  intro hf
  obtain ⟨hfs, hstep⟩ := next_step h
  have hs := hs hfs
  rcases Nat.eq_zero_or_pos s.closeCalls with hopen | hclosed
  · exact hs.step_open hopen hstep hf
  · obtain ⟨hq, hle⟩ := step_quiet (hs.events hclosed) (hc hclosed) hstep
    exact ⟨hq.outputBuffer ▸ hs.wf, fun _ => hq.events, fun _ => hclosed.trans_le hle⟩

end ConnSystem

/-- **When a closed connection stays quiet.** In a run every step after `handleClose` writes nothing
and leaves the interest of the channel empty, and none after `connectDestoryed` registers it,
exactly if no step after `handleClose` passes a message that is not empty to `sendInLoop`. -/
theorem closed_stays_quiet_iff {s t : ConnSystem} {run : List (Transition ConnSystem ConnAction)}
    (h0 : connections.init s) (h : connections.Steps s run t) :
    (∀ e ∈ run, e.source.StaysQuiet e.action e.target) ↔
      ∀ e ∈ run, e.source.SendsNothing e.action :=
  h.forall_iff (I := fun s => s.failed = none → s.Closing) (fun _ => .of_init h0)
    (fun _ _ _ hs hn => (hs (ConnSystem.next_step hn).1).staysQuiet_iff hn)
    fun _ _ _ hs hc hn => ConnSystem.Closing.step hs hc hn

/-- The peer closes and nobody sends. -/
theorem closed_stays_quiet_after_eof :
    ∃ run t, connections.Steps (.new .sample .server) run t ∧
      run.map Transition.action =
        [.event (EPOLLIN ||| EPOLLRDHUP), .work (some []) 0 true, .swap] ∧
      ∀ e ∈ run, e.source.StaysQuiet e.action e.target := by
  obtain ⟨t, ht⟩ := Option.isSome_iff_exists.1 (by decide +kernel :
    (connections.run (.new .sample .server)
      [.event (EPOLLIN ||| EPOLLRDHUP), .work (some []) 0 true, .swap]).isSome = true)
  obtain ⟨run, hrun, hmap⟩ := LTS.exists_steps_of_run ht
  refine ⟨run, t, hrun, hmap, (closed_stays_quiet_iff (sample_init .server) hrun).2 ?_⟩
  intro e he _
  have hmem := List.mem_map_of_mem (f := Transition.action) he
  simp only [hmap, List.mem_cons, List.not_mem_nil, or_false] at hmem
  rcases hmem with h | h | h <;> rw [h] <;> rfl

/-- Thread 2 finds `kConnected`, the peer closes, thread 2 pushes its message behind
`connectDestoryed`, and the connection is destroyed. -/
def lateSend : List ConnAction :=
  [.callSend 2 .bell, .event (EPOLLIN ||| EPOLLRDHUP), .work (some []) 0 true,
    .proceed 2 0 true, .swap, .call 0 true, .work none 0 true]

/-- After that the `sendInLoop` asks for write events and registers the removed channel again. -/
theorem late_send_registers_again : ∃ s u, connections.Reachable s ∧
    connections.next s (.call 0 true) = some u ∧ ¬s.StaysQuiet (.call 0 true) u := by
  obtain ⟨s, hs⟩ := Option.isSome_iff_exists.1 (by decide +kernel :
    (connections.run (.new .sample .server) lateSend).isSome = true)
  have hsource : ((connections.run (.new .sample .server) lateSend).map fun s =>
      (s.destroyed, s.conn.channel.registeredInEpoller)) = some (true, false) := by decide +kernel
  have htarget : (((connections.run (.new .sample .server) lateSend).bind fun s =>
      connections.next s (.call 0 true)).map fun u => u.conn.channel.registeredInEpoller) =
      some true := by decide +kernel
  rw [hs] at hsource htarget
  obtain ⟨u, hu, hreg⟩ := Option.map_eq_some_iff.1 htarget
  obtain ⟨hd, hr⟩ := Prod.mk.inj (Option.some.inj hsource)
  refine ⟨s, u, .of_run (.init (sample_init .server)) _ hs, hu, fun hlaw => ?_⟩
  rw [hlaw.2 hd hr] at hreg
  cases hreg

end Jiangbo
