import LearnForCpp.Reactor.CloseOnce
import LearnForCpp.Reactor.SendQueue

/-!
# Shutting down after the last message

A `shutdown()` in another thread queues `shutdownInLoop` behind the messages that were sent before
it, and `shutdownInLoop` waits for the write events of what is still in `outputBuffer_`.  Two paths
look only at the channel and not at the queue: `shutdown()` in the loop thread, and `handleWrite`
when it drains the buffer after `state_` has become `kDisconnecting`.  On both the socket can be
half-closed while the functor of an earlier message is still waiting.

`graceful_shutdown_iff` says that these are the only ones: a run without `handleClose` loses no
message exactly if none of its steps half-closes the socket in front of such a functor.
-/

namespace Jiangbo

open OutputStream (WriteResult)

namespace ConnSystem

variable {s u : ConnSystem} {a : ConnAction} {k : Option ℕ} {x : ConnCtx} {o : Result ConnCtx}

/-- The callers, the queue and the messages that left it. -/
def sendQueue (s : ConnSystem) : SendQueue where
  connected := s.conn.state = .kConnected
  passed := s.passed
  queue := s.batch ++ s.pendingFunctors
  pc := s.pc
  nextTicket := s.nextTicket
  returned := s.returned
  must := s.must

/-! ### The law and the condition -/

/-- The message is in the socket with all before it. -/
def Written (s : ConnSystem) (p : Ticket) : Prop :=
  ∃ q, q ++ [p] <+: s.passed ∧ ((q ++ [p]).flatMap fun p => p.2.bytes) <+: s.conn.socket.sent

/-- **The law.** When `shutdownWrite()` is executed, every message whose `send()` returned before
the `shutdown()` began has been written. -/
def Graceful (s : ConnSystem) (_ : ConnAction) (u : ConnSystem) : Prop :=
  u.conn.socket.shutdowns ≠ s.conn.socket.shutdowns →
    ∀ p ∈ u.must, p.2.bytes ≠ [] → u.Written p

/-- The step executes `shutdownWrite()`: `shutdown()` in the loop thread, a `handleWrite` that
drains the buffer, or a `shutdownInLoop` functor. -/
def halfCloses (s : ConnSystem) : ConnAction → Bool
  | .proceed t _ _ =>
      s.pc t = .shutdownSet ∧ s.conn.loop.isInLoopThread t = true ∧
        s.conn.channel.isWriting = false
  | .work _ n _ =>
      s.todo.head? = some (.handler .write) ∧ s.conn.state = .kDisconnecting ∧
        s.conn.channel.isWriting = true ∧ n = s.conn.outputBuffer.readableBytes
  | .call _ _ =>
      (s.batch.head?.map Task.functor) = some .shutdownInLoop ∧
        s.conn.channel.isWriting = false
  | _ => false

/-- The step does not come from the queue. -/
def immediate : ConnAction → Bool
  | .call _ _ => false
  | _ => true

/-- The condition: a half-close that does not come from the queue finds none of the messages there
that are to be written before it. -/
def InOrder (s : ConnSystem) (a : ConnAction) : Prop :=
  s.halfCloses a = true → immediate a = true →
    ∀ p ∈ s.must, p.2.bytes ≠ [] → p ∉ s.sendQueue.waiting

instance (s : ConnSystem) (a : ConnAction) : Decidable (s.InOrder a) :=
  inferInstanceAs (Decidable (_ → _ → ∀ p ∈ s.must, p.2.bytes ≠ [] → p ∉ s.sendQueue.waiting))

/-! ### The stream of a live connection -/

/-- The invariant of a connection that is not closed. -/
structure Flowing (s : ConnSystem) : Prop where
  synced : s.conn.Synced
  stream : s.conn.socket.sent ++ s.conn.outputBuffer.content =
    s.passed.flatMap fun p => p.2.bytes
  live : s.conn.state ≠ .kDisConnected
  todo : .removeChannel ∉ s.todo
  tasks : ∀ task ∈ s.batch ++ s.pendingFunctors, task.functor ≠ .connectDestoryed ∧
    ∀ message, task.functor = .sendInLoop message → task.ticket ≠ none

/-- What a step of a live connection does to the messages and to the socket. -/
structure Advance (s : ConnSystem) (a : ConnAction) (u : ConnSystem) : Prop where
  flowing : u.failed = none → u.Flowing
  queue : u.failed = none → SendQueue.Step s.sendQueue u.sendQueue
  shutdowns : u.conn.socket.shutdowns =
    s.conn.socket.shutdowns + if s.halfCloses a then 1 else 0
  returns : s.halfCloses a = true → u.failed = none ∧ u.conn.outputBuffer.content = [] ∧
    u.must = s.must ∧ (if immediate a then u.sendQueue.waiting = s.sendQueue.waiting
      else ∃ task, task.functor = .shutdownInLoop ∧
        s.sendQueue.queue = task :: u.sendQueue.queue)

/-- Without a rest the written messages are those that were passed on. -/
theorem Flowing.written_iff (hu : u.Flowing) (hrest : u.conn.outputBuffer.content = [])
    {p : Ticket} : u.Written p ↔ p ∈ u.passed := by
  have hsent : u.conn.socket.sent = u.passed.flatMap fun p => p.2.bytes := by
    rw [← hu.stream, hrest, List.append_nil]
  constructor
  · rintro ⟨q, hq, -⟩
    exact hq.subset (by simp)
  · intro hp
    obtain ⟨q, r, hqr⟩ := List.append_of_mem hp
    have hpre : q ++ [p] <+: u.passed := ⟨r, by rw [hqr, List.append_assoc]; rfl⟩
    refine ⟨q, hpre, ?_⟩
    rw [hsent]
    obtain ⟨r', hr'⟩ := hpre
    exact ⟨r'.flatMap fun p => p.2.bytes, by rw [← hr', ← List.flatMap_append]⟩

theorem mem_waiting {q : SendQueue} {p : Ticket} : p ∈ q.waiting ↔ p.task ∈ q.queue := by
  simp only [SendQueue.waiting, List.mem_filterMap]
  constructor
  · rintro ⟨task, hmem, hm⟩
    obtain ⟨functor, ticket⟩ := task
    cases functor <;> cases ticket <;> simp [Task.message] at hm
    subst hm
    exact hmem
  · exact fun h => ⟨p.task, h, rfl⟩

/-- On the steps of the invariant the law is the condition. -/
theorem Advance.graceful_iff (h : Advance s a u) (hs : s.sendQueue.Ordered) :
    s.Graceful a u ↔ s.InOrder a := by
  have hshut := h.shutdowns
  by_cases hc : s.halfCloses a = true
  swap
  · rw [if_neg hc, Nat.add_zero] at hshut
    exact iff_of_true (fun hne => absurd hshut hne) fun h' => absurd h' hc
  rw [if_pos hc] at hshut
  obtain ⟨hf, hrest, hmust, hqueue⟩ := h.returns hc
  have hflow := h.flowing hf
  have hu := hs.step (h.queue hf)
  have hne : u.conn.socket.shutdowns ≠ s.conn.socket.shutdowns := by omega
  have hplace : ∀ p ∈ u.must, p ∈ u.passed ∨ p ∈ u.sendQueue.waiting := fun p hp =>
    List.mem_append.1 (hu.returned (hu.must.1 hp))
  constructor
  · intro hlaw _ himm p hp hbytes hwait
    rw [if_pos himm] at hqueue
    rw [← hqueue] at hwait
    have hpassed := (hflow.written_iff hrest).1 (hlaw hne p (hmust ▸ hp) hbytes)
    exact List.disjoint_of_nodup_append hu.nodup hpassed hwait
  · intro hcond _ p hp hbytes
    rw [hflow.written_iff hrest]
    refine (hplace p hp).resolve_right fun hwait => ?_
    split_ifs at hqueue with himm
    · rw [hqueue] at hwait
      exact hcond hc himm p (hmust ▸ hp) hbytes hwait
    · obtain ⟨task, hfun, hq⟩ := hqueue
      have hahead := hs.must.2
      rw [hq] at hahead
      exact (List.pairwise_cons.1 hahead).1 _ (mem_waiting.1 hwait) hfun p
        (show p ∈ s.must from hmust ▸ hp) rfl

/-! ### Calls that fail no assertion -/

/-- A call that fails no assertion returns. -/
theorem after_returns (ho : o.Faults fun e _ => ∀ a, e ≠ .assertion a)
    (h : s.after k o = some u) : ∃ x, o = .ok x ∧ u = s.absorb k x := by
  rcases after_eq_some h with h | ⟨a, x, hx, -⟩
  · exact h
  · exact absurd rfl (ho.of_fault hx a)

theorem absorb_eq_adopt (hc : .close ∉ x.calls) : s.absorb k x = s.adopt k x := if_neg hc

end ConnSystem

namespace ConnCtx

variable {c : TcpConnection} {tid : Tid} {message : StdString} {n : ℤ} {ret : Bool}

theorem assertInLoopThread_returns :
    (c.enter.assertInLoopThread tid).Faults fun e _ => ∀ a, e ≠ .assertion a :=
  .check fun _ => nofun

theorem shutdownInLoop_returns :
    (c.enter.shutdownInLoop tid).Faults fun e _ => ∀ a, e ≠ .assertion a := by
  refine .bind assertInLoopThread_returns fun _ _ => ?_
  split_ifs <;> exact .ok _

theorem runShutdownInLoop_returns :
    (c.enter.runShutdownInLoop tid).Faults fun e _ => ∀ a, e ≠ .assertion a := by
  unfold runShutdownInLoop
  split_ifs
  · exact shutdownInLoop_returns
  · exact .ok _

theorem sendInLoop_returns (hwf : c.outputBuffer.WF) :
    (c.enter.sendInLoop tid message n ret).Faults fun e _ => ∀ a, e ≠ .assertion a := by
  by_cases htid : c.enter.conn.loop.isInLoopThread tid = true
  · exact (sendInLoop_wf hwf htid).mono (fun _ _ => trivial) fun e _ he a => by simp [he]
  · rw [sendInLoop, assertInLoopThread, Outcome.check_neg (Bool.eq_false_iff.2 htid)]
    intro a
    simp

theorem sendConnected_returns (hwf : c.outputBuffer.WF) :
    (c.enter.sendConnected tid message n ret).Faults fun e _ => ∀ a, e ≠ .assertion a := by
  unfold sendConnected
  split_ifs
  · exact sendInLoop_returns hwf
  · exact .ok _

theorem handleWrite_returns (hwf : c.outputBuffer.WF)
    (hn : WriteResult c.outputBuffer.readableBytes n) :
    (c.enter.handleWrite tid n ret).Faults fun e _ => ∀ a, e ≠ .assertion a := by
  refine .bind assertInLoopThread_returns fun x hx => ?_
  obtain ⟨-, rfl⟩ := assertInLoopThread_eq_ok.1 hx
  dsimp only
  split_ifs with hw hpos
  · have hle : n.toNat ≤ c.outputBuffer.readableBytes := by
      have := hn.2
      omega
    obtain ⟨b, hb, -⟩ := Buffer.retrieve_spec hwf hle
    refine .bind ?_ fun z _ => ?_
    · rw [show (c.enter.write c.enter.conn.outputBuffer.content n).conn.outputBuffer.retrieve
        n.toNat = .ok b from hb]
      exact .ok _
    · split_ifs
      · exact .bind (.check fun _ => nofun) fun _ _ => by split_ifs <;> exact .ok _
      · exact .ok _
      · exact .ok _
  · exact .ok _
  · exact .ok _

/-- A read that is not the end of the stream leaves the socket alone, however it ends. -/
theorem handleRead_socket {received : Option Bytes} (hr : received ≠ some []) :
    (c.enter.handleRead tid received ret).state.conn.socket = c.socket := by
  simp only [handleRead]
  cases c.enter.conn.inputBuffer.readFd received with
  | fault e b => rfl
  | ok b =>
    cases received with
    | none => rfl
    | some data =>
      cases data with
      | nil => exact absurd rfl hr
      | cons byte data => rfl

end ConnCtx

namespace ConnSystem

open ConnCtx (Effect StreamStep)

variable {s u : ConnSystem} {a : ConnAction} {k : Option ℕ} {x : ConnCtx} {o : Result ConnCtx}

/-! ### Steps -/

/-- A functor that a live connection may queue with the ticket `k`. -/
def MayQueue (k : Option ℕ) (f : Functor) : Prop :=
  f ≠ .connectDestoryed ∧ ∀ message, f = .sendInLoop message → k ≠ none

theorem Flowing.adopt (hsynced : x.conn.Synced)
    (hstream : x.conn.socket.sent ++ x.rest = s.passed.flatMap fun p => p.2.bytes)
    (hlive : x.conn.state ≠ .kDisConnected) (htodo : .removeChannel ∉ s.todo)
    (htasks : ∀ task ∈ s.batch ++ s.pendingFunctors, MayQueue task.ticket task.functor)
    (hqueued : ∀ f ∈ x.queued, MayQueue k f) : (s.adopt k x).Flowing := by
  refine ⟨hsynced, hstream, hlive, htodo, fun task ht => ?_⟩
  rw [ConnSystem.adopt, ← List.append_assoc] at ht
  rcases List.mem_append.1 ht with ht | ht
  · exact htasks task ht
  · obtain ⟨f, hf, rfl⟩ := List.mem_map.1 ht
    exact hqueued f hf

/-- What a step on the stream queues. -/
theorem streamStep_queued {c : TcpConnection} {m : Bytes} {j : ℕ}
    (h : StreamStep m j c.enter x) : x.queued = [] ∨ x.queued = [.writeComplete] := by
  rw [h.queued]
  split_ifs
  · exact .inr rfl
  · exact .inl rfl

theorem mayQueue_of_streamStep {c : TcpConnection} {m : Bytes} {j : ℕ}
    (h : StreamStep m j c.enter x) : ∀ f ∈ x.queued, MayQueue k f := by
  intro f hf
  rcases streamStep_queued h with hq | hq
  · rw [hq] at hf; cases hf
  · rw [hq] at hf
    obtain rfl := List.mem_singleton.1 hf
    exact ⟨nofun, nofun⟩

/-- A step that leaves the socket alone. -/
theorem Advance.of_quiet (hflow : u.failed = none → u.Flowing)
    (hqueue : u.failed = none → SendQueue.Step s.sendQueue u.sendQueue)
    (hshut : u.conn.socket.shutdowns = s.conn.socket.shutdowns) (hh : s.halfCloses a = false) :
    Advance s a u where
  flowing := hflow
  queue := hqueue
  shutdowns := by rw [hshut, hh]; rfl
  returns h := by rw [hh] at h; cases h

theorem Flowing.not_mem_todo {w : LoopWork} {todo : List LoopWork} (hs : s.Flowing)
    (htodo : s.todo = w :: todo) : .removeChannel ∉ todo := fun h =>
  hs.todo (by rw [htodo]; exact List.mem_cons_of_mem _ h)

theorem adopt_sendQueue (hstate : x.conn.state = s.conn.state) : (s.adopt k x).sendQueue =
    { s.sendQueue with queue := s.sendQueue.queue ++ x.queued.map fun f => ⟨f, k⟩ } := by
  simp [sendQueue, ConnSystem.adopt, hstate]

theorem adopt_sendQueue_nil (hstate : x.conn.state = s.conn.state) (hq : x.queued = []) :
    (s.adopt k x).sendQueue = s.sendQueue := by
  rw [adopt_sendQueue hstate, hq, List.map_nil, List.append_nil]

theorem Advance.sendConnected {t : Tid} {n : ℤ} {ret : Bool} {p : Ticket} (hs : s.Flowing)
    (hpc : s.pc t = .sendFound p)
    (h : ({ s with passed := if s.conn.loop.isInLoopThread t then s.passed ++ [p] else s.passed
      }.setPc t (.sendReturning p)).after (some p.1)
        (s.conn.enter.sendConnected t p.2 n ret) = some u) : Advance s (.proceed t n ret) u := by
  obtain ⟨x, hx, rfl⟩ := after_returns (ConnCtx.sendConnected_returns hs.synced.wf) h
  have heffect := ConnCtx.sendConnected_effect hx
  rw [absorb_eq_adopt heffect.close_iff.1]
  have hh : s.halfCloses (.proceed t n ret) = false := by simp [halfCloses, hpc]
  have hlive : x.conn.state ≠ .kDisConnected := by rw [heffect.state]; exact hs.live
  rcases ConnCtx.sendConnected_eq_ok hx with ⟨hin, hx⟩ | ⟨hout, rfl⟩
  · -- in the loop thread the message goes past the queue
    have hin' : s.conn.loop.isInLoopThread t = true := hin
    obtain ⟨hstep, hsocket⟩ := ConnCtx.sendInLoop_synced hs.synced hx
    rw [if_pos hin']
    refine .of_quiet (fun _ => .adopt hstep.synced ?_ hlive hs.todo hs.tasks
      (mayQueue_of_streamStep hstep)) (fun _ => ?_) (congrArg Socket.shutdowns hsocket) hh
    · rw [hstep.stream]
      change s.conn.socket.sent ++ s.conn.outputBuffer.content ++ p.2.bytes = _
      rw [hs.stream]
      simp [setPc]
    · rw [adopt_sendQueue_nil (by exact heffect.state) hstep.queued_eq]
      exact .pass hpc
  · -- in another thread its functor is pushed
    have hout' : ¬s.conn.loop.isInLoopThread t = true := by
      rw [show s.conn.loop.isInLoopThread t = false from hout]
      decide
    rw [if_neg hout']
    refine .of_quiet (fun _ => .adopt ⟨hs.synced.wf, hs.synced.isWriting_iff⟩ hs.stream hlive
      hs.todo hs.tasks fun f hf => ?_) (fun _ => ?_) rfl hh
    · obtain rfl : f = .sendInLoop p.2 := by
        simpa [ConnCtx.queueInLoop, TcpConnection.enter] using hf
      exact ⟨by simp, by simp⟩
    · rw [adopt_sendQueue (by exact heffect.state)]
      exact .push hpc

theorem shutdownInLoop_shutdowns {t : Tid} (h : s.conn.enter.shutdownInLoop t = .ok x) :
    x.conn.socket.shutdowns =
      s.conn.socket.shutdowns + if !s.conn.channel.isWriting then 1 else 0 := by
  obtain ⟨socket, rfl, -, hshut⟩ := ConnCtx.shutdownInLoop_eq_ok h
  refine hshut.trans ?_
  change _ + (if s.conn.channel.isWriting then 0 else 1) = _
  cases s.conn.channel.isWriting <;> rfl

/-- The socket is half-closed only when there is no rest. -/
theorem shutdownInLoop_rest {t : Tid} (hs : s.conn.Synced)
    (h : s.conn.enter.shutdownInLoop t = .ok x) (hw : s.conn.channel.isWriting = false) :
    x.conn.outputBuffer.content = [] := by
  obtain ⟨socket, rfl, -, -⟩ := ConnCtx.shutdownInLoop_eq_ok h
  by_contra hne
  rw [hs.isWriting_iff.2 hne] at hw
  cases hw

theorem Advance.runShutdown {t : Tid} {n : ℤ} {ret : Bool} (hs : s.Flowing) (hf : s.failed = none)
    (hpc : s.pc t = .shutdownSet)
    (h : (s.setPc t .idle).after none (s.conn.enter.runShutdownInLoop t) = some u) :
    Advance s (.proceed t n ret) u := by
  obtain ⟨x, hx, rfl⟩ := after_returns ConnCtx.runShutdownInLoop_returns h
  have heffect := ConnCtx.runShutdownInLoop_effect hx
  rw [absorb_eq_adopt heffect.close_iff.1]
  have hlive : x.conn.state ≠ .kDisConnected := by rw [heffect.state]; exact hs.live
  rcases ConnCtx.runShutdownInLoop_eq_ok hx with ⟨hin, hx⟩ | ⟨hout, rfl⟩
  · -- in the loop thread the socket is half-closed unless the channel writes
    have hin' : s.conn.loop.isInLoopThread t = true := hin
    have hstep := ConnCtx.shutdownInLoop_synced hs.synced hx
    have hh : s.halfCloses (.proceed t n ret) = !s.conn.channel.isWriting := by
      simp [halfCloses, hpc, hin']
    have hq := adopt_sendQueue_nil (s := s.setPc t .idle) (k := none) (by exact heffect.state)
      hstep.queued_eq
    refine ⟨fun _ => .adopt hstep.synced ?_ hlive hs.todo hs.tasks (mayQueue_of_streamStep hstep),
      fun _ => ?_, ?_, fun hc => ⟨hf, ?_, rfl, ?_⟩⟩
    · rw [hstep.stream, List.append_nil]
      exact hs.stream
    · rw [hq]
      exact .direct hpc
    · rw [hh]
      exact shutdownInLoop_shutdowns hx
    · rw [hh, Bool.not_eq_true'] at hc
      exact shutdownInLoop_rest hs.synced hx hc
    · rw [hq]
      rfl
  · -- in another thread the functor is pushed
    have hout' : s.conn.loop.isInLoopThread t = false := hout
    refine .of_quiet (fun _ => .adopt ⟨hs.synced.wf, hs.synced.isWriting_iff⟩ hs.stream hlive
      hs.todo hs.tasks fun f hf => ?_) (fun _ => ?_) rfl (by simp [halfCloses, hout'])
    · obtain rfl : f = .shutdownInLoop := by
        simpa [ConnCtx.queueInLoop, TcpConnection.enter] using hf
      exact ⟨by simp, by simp⟩
    · rw [adopt_sendQueue (by exact heffect.state)]
      exact .request hpc

/-- The last byte leaves the buffer exactly if all of the rest is taken. -/
theorem drained_iff {c : TcpConnection} {n : ℤ} (hs : c.Synced)
    (hn : n ≤ c.outputBuffer.content.length) (h : StreamStep [] n.toNat c.enter x) :
    c.enter.Drained x ↔ c.channel.isWriting = true ∧ n = c.outputBuffer.content.length := by
  have hrest : x.rest = c.outputBuffer.content.drop n.toNat := by
    rw [h.rest, List.append_nil]
    rfl
  rw [ConnCtx.Drained, hrest, hs.isWriting_iff]
  refine and_congr_right fun hne => ?_
  have hpos := List.length_pos_iff.2 (show c.outputBuffer.content ≠ [] from hne)
  rw [List.drop_eq_nil_iff]
  omega

/-- A handler that does not report the end of the stream. -/
theorem Advance.handler {received : Option Bytes} {n : ℤ} {ret : Bool} {handler : Handler}
    {todo : List LoopWork} (hs : s.Flowing) (hf : s.failed = none)
    (hopen : s.endsStream (.work received n ret) = false)
    (htodo : s.todo = .handler handler :: todo)
    (h : { s with todo := todo }.handle received n ret handler = some u) :
    Advance s (.work received n ret) u := by
  have htodo' := hs.not_mem_todo htodo
  have hh : handler ≠ .write → s.halfCloses (.work received n ret) = false := fun hne => by
    simp [halfCloses, htodo, hne]
  simp only [endsStream, htodo] at hopen
  -- the handlers of an open stream: only `handleWrite` may half-close
  cases handler with
  | close => simp [hs.live] at hopen
  | error =>
    obtain rfl : u = { s with todo := todo }.adopt none s.conn.enter := by
      rw [← absorb_eq_adopt List.not_mem_nil]
      exact (Option.some.inj h).symm
    refine .of_quiet (fun _ => .adopt hs.synced hs.stream hs.live htodo' hs.tasks
      (by simp [TcpConnection.enter])) (fun _ => ?_) rfl (hh (by simp))
    rw [adopt_sendQueue_nil rfl rfl]
    exact .stay
  | read =>
    -- an empty read is the end of the stream
    have hr : received ≠ some [] := fun hr => by simp [hs.live, hr] at hopen
    have hsocket : (s.conn.enter.handleRead s.tid received ret).state.conn.socket =
        s.conn.socket := ConnCtx.handleRead_socket hr
    have hshut : u.conn.socket.shutdowns = s.conn.socket.shutdowns := by
      rw [after_conn h]
      exact congrArg Socket.shutdowns hsocket
    have hstep : u.failed = none → u.Flowing ∧ SendQueue.Step s.sendQueue u.sendQueue := by
      intro hfu
      obtain ⟨x, hx, rfl⟩ := after_ok h hfu
      have heffect := ConnCtx.handleRead_effect hx
      rw [absorb_eq_adopt (fun hc => hr (heffect.close_iff.1 hc))]
      obtain ⟨b, ⟨-, rfl⟩ | ⟨hr', -⟩ | ⟨_, _, -, rfl⟩⟩ := ConnCtx.handleRead_eq_ok hx
      · refine ⟨.adopt ⟨hs.synced.wf, hs.synced.isWriting_iff⟩ hs.stream hs.live htodo' hs.tasks
          (by simp [ConnCtx.setInputBuffer, TcpConnection.enter]), ?_⟩
        rw [adopt_sendQueue_nil rfl rfl]
        exact .stay
      · exact absurd hr' hr
      · refine ⟨.adopt ⟨hs.synced.wf, hs.synced.isWriting_iff⟩ hs.stream hs.live htodo' hs.tasks
          (by simp [ConnCtx.call, ConnCtx.setInputBuffer, TcpConnection.enter]), ?_⟩
        rw [adopt_sendQueue_nil rfl rfl]
        exact .stay
    exact .of_quiet (fun hfu => (hstep hfu).1) (fun hfu => (hstep hfu).2) hshut (hh (by simp))
  | write =>
    simp only [handle] at h
    split_ifs at h with hn
    obtain ⟨x, hx, rfl⟩ := after_returns (ConnCtx.handleWrite_returns hs.synced.wf hn) h
    have heffect := ConnCtx.handleWrite_effect hn hx
    have hn' : n ≤ s.conn.outputBuffer.content.length := by
      rw [hs.synced.wf.content_length]; exact hn.2
    obtain ⟨hstep, hstate, hshut⟩ := ConnCtx.handleWrite_synced hs.synced hn' hx
    rw [absorb_eq_adopt heffect.close_iff.1]
    -- the buffer is empty after this write, and a `shutdown` waits for that
    have hiff : (s.conn.enter.Drained x ∧ s.conn.state = .kDisconnecting) ↔
        s.halfCloses (.work received n ret) = true := by
      rw [drained_iff hs.synced hn' hstep]
      simp [halfCloses, htodo, and_comm, hs.synced.wf.content_length]
    refine ⟨fun _ => .adopt hstep.synced ?_ (by rw [hstate]; exact hs.live) htodo' hs.tasks
      (mayQueue_of_streamStep hstep), fun _ => ?_, ?_, fun hc => ⟨hf, ?_, rfl, ?_⟩⟩
    · rw [hstep.stream, List.append_nil]
      exact hs.stream
    · rw [adopt_sendQueue (by exact hstate)]
      rcases streamStep_queued hstep with hq | hq <;> rw [hq]
      · rw [List.map_nil, List.append_nil]
        exact .stay
      · exact .complete
    · rw [← if_congr hiff rfl rfl]
      exact hshut
    · exact (hiff.2 hc).1.2
    · rw [if_pos (by rfl), adopt_sendQueue (by exact hstate)]
      rcases streamStep_queued hstep with hq | hq <;> rw [hq]
      · rw [List.map_nil, List.append_nil]
        rfl
      · simp [SendQueue.waiting, List.filterMap_append, Task.message, sendQueue]

/-- A functor of the batch. -/
theorem Advance.task {n : ℤ} {ret : Bool} {task : Task} {batch : List Task} (hs : s.Flowing)
    (hf : s.failed = none) (hbatch : s.batch = task :: batch)
    (h : { s with batch := batch }.runTask n ret task = some u) :
    Advance s (.call n ret) u := by
  have hqueue : s.sendQueue.queue = task :: (batch ++ s.pendingFunctors) := by
    rw [sendQueue, hbatch]; rfl
  have hmem : ∀ {t}, t ∈ batch ++ s.pendingFunctors → t ∈ s.batch ++ s.pendingFunctors := by
    intro t ht
    rw [hbatch]
    exact List.mem_cons_of_mem _ ht
  have htasks := fun t ht => hs.tasks t (hmem ht)
  obtain ⟨htask, hticket⟩ := hs.tasks task (by rw [hbatch]; exact List.mem_cons_self)
  have hpop := SendQueue.Step.pop hqueue
  have hpop' : task.message = none → SendQueue.Step s.sendQueue
      { s with batch := batch }.sendQueue := fun hm => by
    rw [hm, Option.toList_none, List.append_nil] at hpop
    exact hpop
  obtain ⟨functor, ticket⟩ := task
  have hh : functor ≠ .shutdownInLoop → s.halfCloses (.call n ret) = false := fun hne => by
    simp [halfCloses, hbatch, hne]
  cases functor with
  | sendInLoop message =>
    -- the message leaves the queue and stands at the end of the stream
    obtain ⟨k, rfl⟩ := Option.ne_none_iff_exists'.1 (hticket message rfl)
    simp only [runTask] at h
    split_ifs at h
    obtain ⟨x, hx, rfl⟩ := after_returns (ConnCtx.sendInLoop_returns hs.synced.wf) h
    have heffect := ConnCtx.sendInLoop_effect hx
    obtain ⟨hstep, hsocket⟩ := ConnCtx.sendInLoop_synced hs.synced hx
    rw [absorb_eq_adopt heffect.close_iff.1]
    refine .of_quiet (fun _ => .adopt hstep.synced ?_ (by rw [heffect.state]; exact hs.live) hs.todo
      htasks (mayQueue_of_streamStep hstep)) (fun _ => ?_) (congrArg Socket.shutdowns hsocket)
      (hh (by simp))
    · rw [hstep.stream]
      change s.conn.socket.sent ++ s.conn.outputBuffer.content ++ message.bytes = _
      rw [hs.stream]
      simp
    · rw [adopt_sendQueue_nil (by exact heffect.state) hstep.queued_eq]
      exact hpop
  | shutdownInLoop =>
    obtain ⟨x, hx, rfl⟩ := after_returns ConnCtx.shutdownInLoop_returns h
    have heffect := ConnCtx.shutdownInLoop_effect hx
    have hstep := ConnCtx.shutdownInLoop_synced hs.synced hx
    -- the half-close is now, or `handleWrite` makes it up
    have hh' : s.halfCloses (.call n ret) = !s.conn.channel.isWriting := by
      simp [halfCloses, hbatch]
    have hq := adopt_sendQueue_nil (s := { s with batch := batch }) (k := none)
      (by exact heffect.state) hstep.queued_eq
    rw [absorb_eq_adopt heffect.close_iff.1]
    refine ⟨fun _ => .adopt hstep.synced ?_ (by rw [heffect.state]; exact hs.live) hs.todo htasks
      (mayQueue_of_streamStep hstep), fun _ => ?_, ?_, fun hc => ⟨hf, ?_, rfl, ?_⟩⟩
    · rw [hstep.stream, List.append_nil]
      exact hs.stream
    · rw [hq]
      exact hpop' rfl
    · rw [hh']
      exact shutdownInLoop_shutdowns hx
    · rw [hh', Bool.not_eq_true'] at hc
      exact shutdownInLoop_rest hs.synced hx hc
    · rw [if_neg (by exact Bool.false_ne_true), hq]
      exact ⟨_, rfl, hqueue⟩
  | writeComplete =>
    obtain rfl : u = { s with batch := batch } := (Option.some.inj h).symm
    exact .of_quiet (fun _ => ⟨hs.synced, hs.stream, hs.live, hs.todo, htasks⟩)
      (fun _ => hpop' rfl) rfl (hh (by simp))
  | connectDestoryed => exact absurd rfl htask

/-- **Steps** of a connection that is not closed. -/
theorem Flowing.step (hs : s.Flowing) (hf : s.failed = none) (hopen : s.endsStream a = false)
    (h : Step s a u) : Advance s a u := by
  cases h with
  | sendFound hpc hstate =>
    exact .of_quiet (fun _ => ⟨hs.synced, hs.stream, hs.live, hs.todo, hs.tasks⟩)
      (fun _ => .find hpc (decide_eq_true hstate)) rfl rfl
  | sendRefused => exact .of_quiet (fun _ => hs) (fun _ => .stay) rfl rfl
  | sendConnected hpc hn hu => exact .sendConnected hs hpc hu
  | sendReturn hpc =>
    exact .of_quiet (fun _ => ⟨hs.synced, hs.stream, hs.live, hs.todo, hs.tasks⟩)
      (fun _ => .sendReturn hpc) rfl (by simp [halfCloses, hpc])
  | shutdownBegin =>
    exact .of_quiet (fun _ => ⟨hs.synced, hs.stream, hs.live, hs.todo, hs.tasks⟩)
      (fun _ => .begin) rfl rfl
  | @shutdownTest t n ret before hpc =>
    refine .of_quiet (fun _ => ⟨hs.synced, hs.stream, hs.live, hs.todo, hs.tasks⟩)
      (fun _ => ?_) rfl (by simp [halfCloses, hpc])
    have htest := SendQueue.Step.test (s := s.sendQueue) hpc
    rw [if_congr (show s.sendQueue.connected = true ↔ s.conn.state = .kConnected from
      decide_eq_true_iff) rfl rfl] at htest
    exact htest
  | @shutdownStore t n ret before hpc =>
    refine .of_quiet (fun _ => ⟨⟨hs.synced.wf, hs.synced.isWriting_iff⟩, hs.stream, nofun, hs.todo,
      hs.tasks⟩) (fun _ => ?_) rfl (by simp [halfCloses, hpc])
    exact SendQueue.Step.store (s := s.sendQueue) hpc
  | runShutdown hpc hu => exact .runShutdown hs hf hpc hu
  | event htodo hbatch hreg =>
    exact .of_quiet (fun _ => ⟨hs.synced, hs.stream, hs.live, by simp, hs.tasks⟩)
      (fun _ => .stay) rfl rfl
  | handler htodo hu => exact .handler hs hf hopen htodo hu
  | removeChannel htodo hu => exact absurd (by rw [htodo]; exact List.mem_cons_self) hs.todo
  | swap htodo hbatch =>
    have hq : { s with batch := s.pendingFunctors, pendingFunctors := [] }.sendQueue =
        s.sendQueue := by
      simp [sendQueue, hbatch]
    refine .of_quiet (fun _ => ⟨hs.synced, hs.stream, hs.live, hs.todo, ?_⟩)
      (fun _ => by rw [hq]; exact .stay) rfl rfl
    simpa [hbatch] using hs.tasks
  | task htodo hbatch hu => exact .task hs hf hbatch hu
  | setWriteCompleteCallback =>
    exact .of_quiet (fun _ => ⟨⟨hs.synced.wf, hs.synced.isWriting_iff⟩, hs.stream, hs.live, hs.todo,
      hs.tasks⟩) (fun _ => .stay) rfl rfl
  | inputBuffer =>
    exact .of_quiet (fun _ => ⟨⟨hs.synced.wf, hs.synced.isWriting_iff⟩, hs.stream, hs.live, hs.todo,
      hs.tasks⟩) (fun _ => .stay) rfl rfl
  | detach =>
    exact .of_quiet (fun _ => ⟨hs.synced, hs.stream, hs.live, hs.todo, hs.tasks⟩)
      (fun _ => .stay) rfl rfl

/-! ### Runs -/

/-- The stream and the messages of a connection in which nothing has failed. -/
def Shipping (s : ConnSystem) : Prop := s.failed = none → s.Flowing ∧ s.sendQueue.Ordered

theorem Shipping.of_init (h : connections.init s) : s.Shipping := by
  intro _
  obtain ⟨conn, owner, hconn, rfl⟩ := h
  have hsynced := hconn.synced
  obtain ⟨loop, name, sockfd, localAddr, peerAddr, storage, callback, ret, rfl⟩ := hconn.eq
  refine ⟨⟨hsynced, ?_, by simp [new], List.not_mem_nil, by simp [new]⟩, .empty _⟩
  simp only [new, TcpConnection.new, Buffer.new_content, List.append_nil, List.flatMap_nil]

end ConnSystem

/-- The runs without `handleClose`. -/
def openConnections : LTS ConnSystem ConnAction :=
  connections.restrict fun s a => s.endsStream a = false

/-- **When a shutdown is graceful.** In a run without `handleClose` every `shutdownWrite()` comes
after all messages whose `send()` had returned before the `shutdown()` began, exactly if no
half-close that does not come from the queue finds one of them waiting there. -/
theorem graceful_shutdown_iff {s t : ConnSystem} {run : List (Transition ConnSystem ConnAction)}
    (h0 : connections.init s)
    (h : openConnections.Steps s run t) :
    (∀ e ∈ run, e.source.Graceful e.action e.target) ↔
      ∀ e ∈ run, e.source.InOrder e.action := by
  have hstep : ∀ {s a u}, ConnSystem.Shipping s →
      openConnections.next s a = some u →
      ConnSystem.Advance s a u ∧ s.sendQueue.Ordered := by
    intro s a u hs hn
    obtain ⟨hopen, hn⟩ := LTS.restrict_next.1 hn
    obtain ⟨hf, hstep⟩ := ConnSystem.next_step hn
    exact ⟨(hs hf).1.step hf hopen hstep, (hs hf).2⟩
  refine h.forall_iff (I := ConnSystem.Shipping) (.of_init h0) (fun s a u hs hn => ?_)
    fun s a u hs _ hn hf => ?_
  · obtain ⟨hadv, hord⟩ := hstep hs hn
    exact hadv.graceful_iff hord
  · obtain ⟨hadv, hord⟩ := hstep hs hn
    exact ⟨hadv.flowing hf, hord.step (hadv.queue hf)⟩

/-- Thread 2 sends and shuts down; the loop runs both functors and writes the message. -/
def sendAndShutdown : List ConnAction :=
  [.callSend 2 .bell, .proceed 2 0 true, .proceed 2 0 true, .callShutdown 2,
    .proceed 2 0 true, .proceed 2 0 true, .proceed 2 0 true, .swap, .call 0 true, .call 0 true,
    .event EPOLLOUT, .work none 1 true]

theorem graceful_shutdown_of_one_thread : ∃ run t,
    openConnections.Steps (.new .sample .server) run t ∧
      run.map Transition.action = sendAndShutdown ∧ t.conn.socket.shutdowns = 1 ∧
        ∀ e ∈ run, e.source.Graceful e.action e.target := by
  obtain ⟨t, ht, hshut⟩ := Option.map_eq_some_iff.1 (by decide +kernel :
    (((openConnections.restrict ConnSystem.InOrder).run (.new .sample .server)
      sendAndShutdown).map fun t => t.conn.socket.shutdowns) = some 1)
  obtain ⟨run, hrun, hmap⟩ := LTS.exists_steps_of_run ht
  obtain ⟨hsteps, hcond⟩ := hrun.of_restrict
  exact ⟨run, t, hsteps, hmap, hshut,
    (graceful_shutdown_iff (sample_init .server) hsteps).2 hcond⟩

/-- Thread 2 sends and returns, then the loop thread shuts down. -/
def shutdownOvertakes : List ConnAction :=
  [.callSend 2 .bell, .proceed 2 0 true, .proceed 2 0 true, .callShutdown 1,
    .proceed 1 0 true, .proceed 1 0 true]

/-- The loop thread half-closes the socket while the message waits in the queue. -/
theorem shutdown_overtakes_message : ∃ s u, openConnections.Reachable s ∧
    openConnections.next s (.proceed 1 0 true) = some u ∧
      ¬s.Graceful (.proceed 1 0 true) u := by
  obtain ⟨s, hs⟩ := Option.isSome_iff_exists.1 (by decide +kernel :
    (openConnections.run (.new .sample .server) shutdownOvertakes).isSome = true)
  have hsource : ((openConnections.run (.new .sample .server) shutdownOvertakes).map fun s =>
      s.conn.socket.shutdowns) = some 0 := by decide +kernel
  have htarget : (((openConnections.run (.new .sample .server) shutdownOvertakes).bind fun s =>
      openConnections.next s (.proceed 1 0 true)).map fun u =>
        (u.conn.socket.shutdowns, u.must, u.passed)) =
      some (1, [(0, .bell)], []) := by decide +kernel
  rw [hs] at hsource htarget
  obtain ⟨u, hu, hend⟩ := Option.map_eq_some_iff.1 htarget
  obtain ⟨hshut, hmust, hpassed⟩ : u.conn.socket.shutdowns = 1 ∧
      u.must = [(0, .bell)] ∧ u.passed = [] := by simpa using hend
  refine ⟨s, u, .of_run (.init (sample_init .server)) _ hs, hu, fun hlaw => ?_⟩
  have hzero : s.conn.socket.shutdowns = 0 := Option.some.inj hsource
  have hne : u.conn.socket.shutdowns ≠ s.conn.socket.shutdowns := by
    rw [hshut, hzero]
    decide
  obtain ⟨q, hq, -⟩ := hlaw hne (0, .bell) (by rw [hmust]; simp) (by simp [CharVector.bell])
  rw [hpassed, List.prefix_nil] at hq
  simp at hq

end Jiangbo
