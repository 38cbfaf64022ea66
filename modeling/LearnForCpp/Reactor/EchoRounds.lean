import LearnForCpp.Reactor.EchoServer

/-!
# The rounds of the echo server

`loop()` of `reactor/EventLoop.cc` goes round: `epoll_wait`, the handlers, the functors.
`doPendingFunctions` swaps the queue out, so that a functor which is queued by another one waits for
the next round.

`echo_server_rounds` says that a round ends, whatever the clients do, and `echo_server_drains` that
nothing which has arrived is stuck in the server, as long as `epoll_ctl` does not fail: the kernel
then watches every channel in the epoll set for its `events_` (`EpollSystem.Consistent.mask`).
-/

namespace Jiangbo

open Bitmask

/-- The return of `epoll_wait`. -/
def ServerAction.isPoll : ServerAction → Bool
  | .poll _ => true
  | _ => false

/-- What `epoll_wait` reports of a connection is what its channel asked for, errors and hang-ups. -/
def Active.Watched (server : TcpServer) : Active → Prop
  | acceptor => True
  | conn c revents => ∀ r ∈ server.conns[c]?, r.conn.channel.Reports revents

instance (server : TcpServer) : (x : Active) → Decidable (x.Watched server)
  | .acceptor => inferInstanceAs (Decidable True)
  | .conn c revents => inferInstanceAs
      (Decidable (∀ r ∈ server.conns[c]?, r.conn.channel.Reports revents))

/-- Every `epoll_ctl` of the step succeeds, that of a new connection included, and the kernel
watches the channels for their `events_`. -/
def ServerSystem.Watched (s : ServerSystem) : ServerAction → Prop
  | .poll active => ∀ x ∈ active, x.Watched s.server
  | .work accepted _ _ ret => ret = true ∧ ∀ a ∈ accepted, a.ret = true
  | .user _ _ _ ret | .call _ ret => ret = true
  | .swap | .finish => True

instance (s : ServerSystem) : (a : ServerAction) → Decidable (s.Watched a)
  | .poll active => inferInstanceAs (Decidable (∀ x ∈ active, x.Watched s.server))
  | .work _ _ _ _ => inferInstanceAs (Decidable (_ ∧ _))
  | .user _ _ _ _ | .call _ _ => inferInstanceAs (Decidable (_ = _))
  | .swap | .finish => inferInstanceAs (Decidable True)

/-- The runs of an echo server in which every `epoll_ctl` succeeds. -/
def watchedEchoServers : LTS EchoServer ServerAction :=
  echoServers.restrict fun s a => s.system.Watched a

/-- A channel that is interested in writing may be told that it can. -/
theorem Channel.reports_out {c : Channel} (h : c.isWriting = true) : c.Reports EPOLLOUT := by
  have hbits : ∀ i, EPOLLOUT.getLsbD i = true → i = 2 := by
    intro i hi
    have hlt := BitVec.lt_of_getLsbD hi
    interval_cases i <;> simp_all [EPOLLOUT]
  have hevents : test c.events EPOLLOUT = true := h
  refine ⟨and_eq_of_test (fun i j hi hj => (hbits i hi).trans (hbits j hj).symm) ?_, by decide⟩
  simp [hevents]

namespace ConnCtx

variable {c : TcpConnection} {y : ConnCtx} {tid : Tid} {message : StdString} {n : ℤ} {ret : Bool}

/-! ### What a call queues -/

/-- The functors that a call makes its loop queue, that of `removeConnectionInLoop` included. -/
def functors (y : ConnCtx) : ℕ := y.queued.length + y.calls.count .close

theorem queueWriteComplete_functors (y : ConnCtx) :
    y.queueWriteComplete.functors ≤ y.functors + 1 := by
  unfold queueWriteComplete
  split_ifs
  · simp [functors, queueInLoop]
    omega
  · exact Nat.le_succ _

theorem handleWrite_functors (h : c.enter.handleWrite tid n ret = .ok y) : y.functors ≤ 1 := by
  have hdrain : ∀ b, ((c.enter.flush n b).drain ret).functors ≤ 1 := fun b =>
    queueWriteComplete_functors _
  rcases handleWrite_eq_ok h with ⟨-, rfl⟩ | ⟨-, -, b, -, ⟨-, rfl⟩ | ⟨-, -, hy⟩ | ⟨-, -, rfl⟩⟩
  · exact Nat.zero_le _
  · exact Nat.zero_le _
  · rw [shutdownInLoop, Outcome.bind_eq_ok] at hy
    obtain ⟨x, hx, hy⟩ := hy
    obtain ⟨-, rfl⟩ := assertInLoopThread_eq_ok.1 hx
    split_ifs at hy
    · rw [← Outcome.ok.inj hy]
      exact hdrain b
    · rw [← Outcome.ok.inj hy]
      exact hdrain b
  · exact hdrain b

theorem handleRead_functors {received : Option Bytes}
    (h : c.enter.handleRead tid received ret = .ok y) :
    y.functors = if received = some [] then 1 else 0 := by
  obtain ⟨b, -, ⟨heof, rfl⟩ | ⟨hne, -, hqueued, hclose⟩⟩ := handleRead_readFd h
  · rw [if_pos heof]
    rfl
  · rw [if_neg hne, functors, hqueued, List.count_eq_zero.2 hclose]
    rfl

theorem writeDirect_functors : (c.enter.writeDirect message n).functors ≤ 1 := by
  rw [writeDirect]
  split_ifs
  · exact queueWriteComplete_functors _
  · exact Nat.zero_le _

theorem sendInLoop_functors (h : c.enter.sendInLoop tid message n ret = .ok y) :
    y.functors ≤ 1 := by
  rw [sendInLoop_eq (sendInLoop_inLoopThread h)] at h
  dsimp only at h
  generalize (!c.enter.conn.channel.isWriting && c.enter.conn.outputBuffer.readableBytes != 0) =
    direct at h
  have hx : (if direct = true then c.enter.writeDirect message n else c.enter).functors ≤ 1 := by
    split_ifs
    · exact writeDirect_functors
    · exact Nat.zero_le _
  generalize (if direct = true then c.enter.writeDirect message n else c.enter) = x at h hx
  generalize (if direct = true ∧ 0 ≤ n then n else 0) = nwrote at h
  split_ifs at h
  · simp only [Outcome.bind_eq_ok, Outcome.zoom_eq_ok] at h
    obtain ⟨_, ⟨b, -, rfl⟩, h⟩ := h
    split_ifs at h
    · rw [← Outcome.ok.inj h]
      exact hx
    · rw [← Outcome.ok.inj h]
      exact hx
  · rw [← Outcome.ok.inj h]
    exact hx

theorem send_functors (h : c.enter.send tid message n ret = .ok y) : y.functors ≤ 1 := by
  rw [send] at h
  split_ifs at h
  · rcases sendConnected_eq_ok h with ⟨-, hy⟩ | ⟨-, rfl⟩
    · exact sendInLoop_functors hy
    · exact le_rfl
  · rw [← Outcome.ok.inj h]
    exact Nat.zero_le _

theorem handleClose_functors (h : c.enter.handleClose tid ret = .ok y) : y.functors = 1 := by
  rw [(handleClose_eq_ok h).2]
  rfl

theorem removeChannel_functors (h : c.enter.removeChannel ret = .ok y) : y.functors = 0 := by
  obtain ⟨d, -, rfl⟩ := Outcome.zoom_eq_ok.1 h
  rfl

/-! ### Calls that return -/

/-- A write of nothing. -/
theorem exists_handleWrite_zero (hloop : c.loop.isInLoopThread tid = true) :
    ∃ y, c.enter.handleWrite tid 0 ret = .ok y := by
  rw [handleWrite, assertInLoopThread_ok hloop, Outcome.bind_ok]
  dsimp only
  split_ifs with hw hpos
  · cases hpos
  · exact ⟨_, rfl⟩
  · exact ⟨_, rfl⟩

/-- A write that takes the whole output buffer. -/
theorem exists_handleWrite_all (hloop : c.loop.isInLoopThread tid = true)
    (hw : c.channel.isWriting = true) (hwf : c.outputBuffer.WF) (hstate : c.state = .kConnected)
    (hne : c.outputBuffer.content ≠ []) :
    ∃ y, c.enter.handleWrite tid c.outputBuffer.readableBytes ret = .ok y ∧
      y.conn.outputBuffer.content = [] := by
  have hpos : 0 < c.outputBuffer.readableBytes :=
    Nat.pos_of_ne_zero fun h0 => hne (hwf.readableBytes_eq_zero.1 h0)
  obtain ⟨b, hb, hafter⟩ := Buffer.retrieve_spec hwf le_rfl
  have hcontent : b.content = [] := by
    rw [hafter.content_eq, ← hwf.content_length, List.drop_length]
  have hzero : b.readableBytes = 0 := hafter.wf.readableBytes_eq_zero.2 hcontent
  refine ⟨(c.enter.flush c.outputBuffer.readableBytes b).drain ret, ?_, ?_⟩
  · have hw' : c.enter.conn.channel.isWriting = true := hw
    rw [handleWrite, assertInLoopThread_ok hloop, Outcome.bind_ok]
    dsimp only
    rw [if_pos hw', if_pos (by exact_mod_cast hpos), Int.toNat_natCast,
      show (c.enter.write _ _).conn.outputBuffer = c.outputBuffer from rfl, hb, Outcome.zoom_ok,
      Outcome.bind_ok]
    refine (if_pos hzero).trans ((if_neg ?_).trans rfl)
    rw [queueWriteComplete_conn]
    show ¬c.state = .kDisconnecting
    rw [hstate]
    simp
  · rw [drain_conn]
    exact hcontent

/-- `connectDestoryed` of a live connection. -/
theorem exists_connectDestoryed (hloop : c.loop.isInLoopThread tid = true) (hlive : c.Live) :
    ∃ y, c.enter.connectDestoryed tid ret = .ok y := by
  have hstate : c.enter.conn.state = .kConnected ∨ c.enter.conn.state = .kDisconnecting := hlive
  rw [connectDestoryed, assertInLoopThread_ok hloop, Outcome.bind_ok,
    Outcome.check_pos (decide_eq_true hstate), Outcome.bind_ok]
  exact ⟨_, rfl⟩

end ConnCtx

namespace ServerSystem

variable {s t u v : ServerSystem} {c k l : ℕ} {o : Result ConnCtx} {n : ℤ} {ret : Bool}

/-! ### The length of a round -/

/-- A bound on the steps until the loop is in `epoll_wait` again.  Each functor has at most the end
of `connectDestoryed` to follow it, and each handler queues at most one functor. -/
def roundLength (s : ServerSystem) : ℕ :=
  match s.phase with
  | .polling => 0
  | .handling => 3 * s.todo.length + 2 * s.pendingFunctors.length + 2
  | .running => s.todo.length + 2 * s.batch.length + 1

/-- A step that stays where it is and queues at most `k` functors. -/
structure Queues (k : ℕ) (s u : ServerSystem) : Prop where
  phase : u.phase = s.phase
  todo : u.todo = s.todo
  batch : u.batch = s.batch
  pending : u.pendingFunctors.length ≤ s.pendingFunctors.length + k
  conns : s.server.conns.length ≤ u.server.conns.length

theorem Queues.trans (h : Queues k s t) (h' : Queues l t u) : Queues (k + l) s u where
  phase := h'.phase.trans h.phase
  todo := h'.todo.trans h.todo
  batch := h'.batch.trans h.batch
  pending := by
    have := h.pending
    have := h'.pending
    omega
  conns := h.conns.trans h'.conns

theorem Queues.mono (h : Queues k s u) (hle : k ≤ l) : Queues l s u :=
  ⟨h.phase, h.todo, h.batch, h.pending.trans (Nat.add_le_add_left hle _), h.conns⟩

theorem adopt_queues (s : ServerSystem) (c : ℕ) (x : ConnCtx) :
    Queues x.queued.length s (s.adopt c x) :=
  ⟨rfl, rfl, rfl, by simp [adopt], by simp [adopt, TcpServer.adopt]⟩

theorem absorb_queues (s : ServerSystem) (c : ℕ) (x : ConnCtx) :
    Queues x.functors s (s.absorb c x) := by
  unfold absorb
  split_ifs with hclose
  · refine (adopt_queues s c x).trans ?_
    have hpos : 1 ≤ x.calls.count .close := List.count_pos_iff.2 hclose
    unfold removeConnectionInLoop
    split_ifs
    · exact ⟨rfl, rfl, rfl, by simp; omega, le_rfl⟩
    · exact ⟨rfl, rfl, rfl, Nat.le_add_right _ _, le_rfl⟩
  · exact (adopt_queues s c x).mono (Nat.le_add_right _ _)

/-- A call that has not aborted. -/
theorem after_queues (ho : ∀ y, o = .ok y → y.functors ≤ k) (h : s.after c o = some u)
    (hu : u.failed = none) : Queues k s u := by
  rcases after_eq_some h with ⟨x, hx, rfl⟩ | ⟨a, x, -, rfl⟩
  · exact (absorb_queues s c x).mono (ho x hx)
  · cases hu

/-- A piece of work that queues at most one functor brings the end of the round nearer. -/
theorem Queues.roundLength_lt {w : ServerWork} {todo : List ServerWork}
    (hphase : s.phase ≠ .polling) (htodo : s.todo = w :: todo)
    (h : Queues 1 { s with todo := todo } u) :
    u.roundLength < s.roundLength := by
  have hpending := h.pending
  have hlen : u.todo.length < s.todo.length := by simp [h.todo, htodo]
  rw [roundLength, roundLength, h.phase, h.batch]
  cases hp : s.phase with
  | polling => exact absurd hp hphase
  | handling => dsimp only at hpending ⊢; omega
  | running => dsimp only; omega

/-! ### Work -/

theorem accept_queues {accepted : Option Accepted} (h : s.accept accepted = some u)
    (hu : u.failed = none) : Queues 0 s u := by
  unfold accept at h
  split at h
  · rw [← Option.some.inj h]
    exact ⟨rfl, rfl, rfl, le_rfl, le_rfl⟩
  · split at h
    · rename_i a server hserver
      obtain ⟨-, -, rfl⟩ := TcpServer.newConnection_eq_ok hserver
      rw [← Option.some.inj h]
      exact ⟨rfl, rfl, rfl, le_rfl, by simp⟩
    · rw [← Option.some.inj h] at hu
      cases hu
    · cases h

theorem handle_queues {conn : TcpConnection} {received : Option Bytes} {handler : Handler}
    (h : s.handle c conn received n ret handler = some u) (hu : u.failed = none) :
    Queues 1 s u := by
  cases handler with
  | close => exact after_queues (fun y hy => (ConnCtx.handleClose_functors hy).le) h hu
  | error =>
    refine after_queues (o := conn.enter.handleError) (fun y hy => ?_) h hu
    rw [← Outcome.ok.inj hy]
    exact Nat.zero_le _
  | read =>
    refine after_queues (fun y hy => ?_) h hu
    rw [ConnCtx.handleRead_functors hy]
    split_ifs <;> omega
  | write =>
    rw [handle] at h
    split_ifs at h
    exact after_queues (fun y hy => ConnCtx.handleWrite_functors hy) h hu

/-- A read that invokes `messageCallback_` queues nothing. -/
theorem handle_read_queues {conn : TcpConnection} {data : Bytes} (hdata : data ≠ [])
    (h : s.handle c conn (some data) n ret .read = some u) (hu : u.failed = none) :
    Queues 0 s u := by
  refine after_queues (fun y hy => ?_) h hu
  rw [ConnCtx.handleRead_functors hy, if_neg (by simpa using hdata)]

theorem onMessage_queues (hs : s.failed = none) (h : s.onMessage c n ret = some u)
    (hu : u.failed = none) : Queues 1 s u := by
  rw [onMessage, hs, if_neg (by simp)] at h
  obtain ⟨r, -, h⟩ := Option.bind_eq_some_iff.1 h
  obtain ⟨v, hv, h⟩ := Option.bind_eq_some_iff.1 h
  rw [ServerSystem.next, hs, if_neg (by simp)] at hv
  split_ifs at hv
  obtain ⟨r', -, hv⟩ := Option.bind_eq_some_iff.1 hv
  have hkept : Queues 0 s v := by
    rw [← Option.some.inj hv]
    exact adopt_queues s c (TcpConnection.enter _)
  have hvf : v.failed = none := by
    rw [← Option.some.inj hv]
    exact hs
  rw [ServerSystem.next, hvf, if_neg (by simp)] at h
  split_ifs at h
  obtain ⟨r', -, h⟩ := Option.bind_eq_some_iff.1 h
  rw [user] at h
  split_ifs at h
  exact hkept.trans (after_queues (fun y hy => ConnCtx.send_functors hy) h hu)

/-! ### Functors -/

/-- A functor leaves no work but the end of `connectDestoryed`. -/
theorem runTask_stays {conn : TcpConnection} {f : Functor}
    (h : s.runTask c conn n ret f = some u) (hu : u.failed = none) :
    u.phase = s.phase ∧ u.batch = s.batch ∧ (u.todo = s.todo ∨ u.todo = [.removeChannel c]) ∧
      s.server.conns.length ≤ u.server.conns.length := by
  have hstays : ∀ {v : ServerSystem} {o : Result ConnCtx}, v.after c o = some u →
      u.phase = v.phase ∧ u.batch = v.batch ∧ u.todo = v.todo ∧
        v.server.conns.length ≤ u.server.conns.length := by
    intro v o h
    rcases after_eq_some h with ⟨x, -, rfl⟩ | ⟨a, x, -, rfl⟩
    · have hq := absorb_queues v c x
      exact ⟨hq.phase, hq.batch, hq.todo, hq.conns⟩
    · cases hu
  cases f with
  | sendInLoop message =>
    rw [runTask] at h
    split_ifs at h
    obtain ⟨h1, h2, h3, h4⟩ := hstays h
    exact ⟨h1, h2, .inl h3, h4⟩
  | shutdownInLoop =>
    obtain ⟨h1, h2, h3, h4⟩ := hstays h
    exact ⟨h1, h2, .inl h3, h4⟩
  | writeComplete =>
    obtain rfl := Option.some.inj h
    exact ⟨rfl, rfl, .inl rfl, le_rfl⟩
  | connectDestoryed =>
    obtain ⟨h1, h2, h3, h4⟩ := hstays h
    exact ⟨h1, h2, .inr h3, by rwa [List.length_modify] at h4⟩

/-! ### Steps that go on -/

/-- Connection number `c` is open, and `epoll_ctl` has added its descriptor. -/
def Serves (s : ServerSystem) (c : ℕ) : Prop :=
  ∃ r, s.server.conns[c]? = some r ∧ r.closed = false ∧
    r.conn.channel.registeredInEpoller = true

/-- A step of one connection that closes none. -/
theorem Serves.modify {d : ℕ} {r' : ConnRecord} {f : ConnRecord → ConnRecord} (h : s.Serves c)
    (hd : s.server.conns[d]? = some r') (hu : u.server.conns = s.server.conns.modify d f)
    (hf : r'.closed = false → r'.conn.channel.registeredInEpoller = true →
      (f r').closed = false ∧ (f r').conn.channel.registeredInEpoller = true) : u.Serves c := by
  obtain ⟨r, hr, hopen, hreg⟩ := h
  by_cases hcd : d = c
  · subst hcd
    obtain rfl : r' = r := Option.some.inj (hd.symm.trans hr)
    exact ⟨f r', by rw [hu, List.getElem?_modify_eq, hr]; rfl, hf hopen hreg⟩
  · exact ⟨r, by rw [hu, List.getElem?_modify_ne _ _ hcd, hr], hopen, hreg⟩

/-- A handler of an open or closed connection, when there is nothing to read or to write. -/
theorem Inv.exists_handle {d : ℕ} {r : ConnRecord} {handler : Handler} (hs : s.Inv)
    (hd : s.server.conns[d]? = some r) (hlive : r.conn.Live) (hclose : handler ≠ .close) :
    ∃ v, s.handle d r.conn none 0 true handler = some v ∧ ∀ c, s.Serves c → v.Serves c := by
  have hloop := (hs.record d r hd).loop
  obtain ⟨y, hy, hq⟩ : ∃ y, s.handle d r.conn none 0 true handler = some (s.absorb d y) ∧
      ConnCtx.Quiet r.conn y := by
    cases handler with
    | close => exact absurd rfl hclose
    | error => exact ⟨_, rfl, ConnCtx.handleError_unnoticed rfl⟩
    | read =>
      have hne : (none : Option Bytes) ≠ some [] := by simp
      have hread : r.conn.enter.handleRead s.tid none true =
          .ok (r.conn.enter.setInputBuffer r.conn.inputBuffer) := rfl
      exact ⟨_, congrArg (s.after d) hread, ConnCtx.handleRead_unnoticed hne hread⟩
    | write =>
      obtain ⟨y, hy⟩ : ∃ y, r.conn.enter.handleWrite s.tid 0 true = .ok y :=
        ConnCtx.exists_handleWrite_zero hloop
      refine ⟨y, ?_, ConnCtx.handleWrite_unnoticed hlive hy⟩
      rw [ServerSystem.handle, if_pos (by constructor <;> omega), hy]
      rfl
  refine ⟨_, hy, fun c hserves => hserves.modify hd (absorb_quiet_conns hq) fun hopen hreg => ?_⟩
  exact ⟨hopen, hq.registered hreg⟩

/-- The channels to be removed are those of connections. -/
def Removes (s : ServerSystem) : Prop := ∀ c, .removeChannel c ∈ s.todo → c < s.server.conns.length

/-- The next piece of work, when the kernel has nothing. -/
theorem Inv.exists_work {w : ServerWork} {todo : List ServerWork} (hs : s.Inv)
    (hremoves : s.Removes) (htodo : s.todo = w :: todo) :
    ∃ v, s.work none none 0 true = some v ∧ ∀ c, s.Serves c → v.Serves c := by
  rw [work, htodo]
  cases w with
  | accept => exact ⟨_, rfl, fun _ hserves => hserves⟩
  | handler d h =>
    have hphase := hs.handling htodo (by simp)
    obtain ⟨hclose, r, hd, hdestroyed, -⟩ :=
      ((phaseInv_handling hphase).1 hs.phase).2.1 (.handler d h) (htodo ▸ List.mem_cons_self)
    have hlive := (hs.record d r hd).live hdestroyed
    obtain ⟨v, hv, hkept⟩ := (hs.pop htodo hphase).exists_handle hd hlive hclose
    exact ⟨v, Option.bind_eq_some_iff.2 ⟨r, hd, hv⟩, hkept⟩
  | removeChannel d =>
    have hin : .removeChannel d ∈ s.todo := htodo ▸ List.mem_cons_self
    obtain ⟨r, hd⟩ : ∃ r, s.server.conns[d]? = some r :=
      ⟨_, List.getElem?_eq_getElem (hremoves d hin)⟩
    obtain ⟨hclosed, -, -, hevents, -, hreg⟩ := hs.removable hin hd
    obtain ⟨v, hv⟩ : ∃ v, { s with todo := todo }.after d (r.conn.enter.removeChannel true) =
        some v := by
      rw [ConnCtx.removeChannel, show r.conn.enter.conn.channel = r.conn.channel from rfl,
        Channel.remove_eq true hevents hreg]
      exact ⟨_, rfl⟩
    refine ⟨v, Option.bind_eq_some_iff.2 ⟨_, hd, hv⟩, fun c hserves => ?_⟩
    obtain rfl := removeChannel_after hd hevents hreg hv
    refine hserves.modify hd rfl fun hopen _ => ?_
    cases hclosed.symm.trans hopen

/-- The next functor. -/
theorem Inv.exists_runTask {task : ServerTask} {batch : List ServerTask} (hs : s.Inv)
    (hbatch : s.batch = task :: batch) :
    ∃ r v, s.server.conns[task.conn]? = some r ∧
      { s with batch := batch }.runTask task.conn r.conn 0 true task.functor = some v ∧
      ∀ c, s.Serves c → v.Serves c := by
  obtain ⟨d, f⟩ := task
  obtain ⟨hlt, hf⟩ := hs.tasks ⟨d, f⟩ (by simp [hbatch])
  obtain ⟨r, hd⟩ : ∃ r, s.server.conns[d]? = some r := ⟨_, List.getElem?_eq_getElem hlt⟩
  rcases hf with hf | hf
  · obtain rfl : f = .connectDestoryed := hf
    obtain ⟨hclosed, hlive⟩ := hs.destroying hbatch hd
    obtain ⟨y, hy⟩ : ∃ y, r.conn.enter.connectDestoryed s.tid true = .ok y :=
      ConnCtx.exists_connectDestoryed (hs.record d r hd).loop hlive
    obtain ⟨v, hv⟩ : ∃ v, { s with batch := batch }.runTask d r.conn 0 true .connectDestoryed =
        some v := by
      rw [runTask]
      exact ⟨_, congrArg (after d _) hy⟩
    refine ⟨r, v, hd, hv, fun c hserves => ?_⟩
    obtain rfl := runTask_destroy hd hlive hv
    refine hserves.modify hd rfl fun hopen _ => ?_
    cases hclosed.symm.trans hopen
  · obtain rfl : f = .writeComplete := hf
    exact ⟨r, _, hd, rfl, fun _ hserves => hserves⟩

end ServerSystem

namespace EchoServer

variable {s t : EchoServer} {a : ServerAction} {v : ServerSystem} {n : ℤ} {ret : Bool}

/-! ### Rounds -/

/-- A piece of work queues at most one functor. -/
theorem work_queues {accepted : Option Accepted} {received : Option Bytes}
    (hv : s.system.work accepted received n ret = some v) (hf : v.failed = none) :
    ∃ w todo, s.system.todo = w :: todo ∧
      ServerSystem.Queues 1 { s.system with todo := todo } v := by
  unfold ServerSystem.work at hv
  split at hv
  · cases hv
  · rename_i todo htodo
    exact ⟨_, todo, htodo, (ServerSystem.accept_queues hv hf).mono zero_le_one⟩
  · rename_i c handler todo htodo
    obtain ⟨r, -, hv⟩ := Option.bind_eq_some_iff.1 hv
    exact ⟨_, todo, htodo, ServerSystem.handle_queues hv hf⟩
  · rename_i c todo htodo
    obtain ⟨r, -, hv⟩ := Option.bind_eq_some_iff.1 hv
    refine ⟨_, todo, htodo, ServerSystem.after_queues (fun y hy => ?_) hv hf⟩
    rw [ConnCtx.removeChannel_functors hy]
    exact zero_le_one

/-- So does a read with `onMessage` in it. -/
theorem message_queues {accepted : Option Accepted} {received : Option Bytes} {c : ℕ}
    {data : Bytes} {u : ServerSystem} (hdata : s.system.delivers received = some (c, data))
    (hv : s.system.work accepted received n ret = some v) (hu : v.onMessage c n ret = some u)
    (hf : u.failed = none) :
    ∃ w todo, s.system.todo = w :: todo ∧
      ServerSystem.Queues 1 { s.system with todo := todo } u := by
  obtain ⟨⟨todo, htodo⟩, rfl, hne⟩ := ServerSystem.delivers_eq_some hdata
  have hvf : v.failed = none := by
    cases hvf : v.failed with
    | none => rfl
    | some b =>
      rw [ServerSystem.onMessage, hvf, if_pos (by simp)] at hu
      rw [← Option.some.inj hu, hvf] at hf
      cases hf
  rw [ServerSystem.work, htodo] at hv
  obtain ⟨r, -, hv⟩ := Option.bind_eq_some_iff.1 hv
  exact ⟨_, todo, htodo, (ServerSystem.handle_read_queues hne hv hvf).trans
    (ServerSystem.onMessage_queues hvf hu hf)⟩

/-- In `epoll_wait` there is no work. -/
theorem Inv.not_polling {w : ServerWork} {todo : List ServerWork} (hs : s.Inv)
    (htodo : s.system.todo = w :: todo) : s.system.phase ≠ .polling := by
  intro hphase
  have hnil := ((ServerSystem.phaseInv_polling hphase).1 hs.server.phase).1
  rw [htodo] at hnil
  cases hnil

/-- Each step of a round brings its end nearer. -/
theorem Inv.roundLength_lt (hs : s.Inv) (ha : a.isPoll = false) (h : s.next a = some t) :
    t.system.roundLength < s.system.roundLength := by
  have hf := (hs.step h).server.failed
  cases next_moves hs.server.failed h with
  | poll => cases ha
  | work hregular hdata hwork =>
    obtain ⟨w, todo, htodo, hqueues⟩ := work_queues hwork hf
    exact hqueues.roundLength_lt (hs.not_polling htodo) htodo
  | message hdata hfits hwork hmessage =>
    obtain ⟨w, todo, htodo, hqueues⟩ := message_queues hdata hwork hmessage hf
    exact hqueues.roundLength_lt (hs.not_polling htodo) htodo
  | swap hphase htodo => simp [ServerSystem.roundLength, hphase, htodo]
  | @call n ret task batch r v hphase htodo hbatch hr hcall =>
    obtain ⟨h1, h2, h3, -⟩ := ServerSystem.runTask_stays hcall hf
    have hlen : v.todo.length ≤ 1 := by
      rcases h3 with h3 | h3
      · rw [h3, htodo]
        exact Nat.zero_le _
      · rw [h3, List.length_singleton]
    rw [ServerSystem.roundLength, ServerSystem.roundLength, h1, h2]
    simp only [hphase, hbatch, htodo, List.length_nil, List.length_cons]
    omega
  | finish hphase htodo hbatch => simp [ServerSystem.roundLength, hphase]

/-- Every step keeps the channels to be removed among those of the connections. -/
theorem Inv.removes_step (hs : s.Inv) (hremoves : s.system.Removes) (h : s.next a = some t) :
    t.system.Removes := by
  have hf := (hs.step h).server.failed
  -- what a piece of work leaves was to be done before
  have hpop : ∀ {w todo} {u : ServerSystem}, s.system.todo = w :: todo →
      ServerSystem.Queues 1 { s.system with todo := todo } u → u.Removes := by
    intro w todo u htodo hqueues c hc
    rw [hqueues.todo] at hc
    exact (hremoves c (htodo ▸ List.mem_cons_of_mem w hc)).trans_le hqueues.conns
  cases next_moves hs.server.failed h with
  | poll =>
    intro c hc
    obtain ⟨x, -, hx⟩ := List.mem_flatMap.1 hc
    cases x <;> simp [Active.works] at hx
  | work hregular hdata hwork =>
    obtain ⟨w, todo, htodo, hqueues⟩ := work_queues hwork hf
    exact hpop htodo hqueues
  | message hdata hfits hwork hmessage =>
    obtain ⟨w, todo, htodo, hqueues⟩ := message_queues hdata hwork hmessage hf
    exact hpop htodo hqueues
  | swap => exact hremoves
  | call hphase htodo hbatch hr hcall =>
    obtain ⟨-, -, h3, h4⟩ := ServerSystem.runTask_stays hcall hf
    intro c hc
    rcases h3 with h3 | h3
    · simp only [h3, htodo, List.not_mem_nil] at hc
    · simp only [h3, List.mem_singleton, ServerWork.removeChannel.injEq] at hc
      rw [hc]
      exact (List.getElem?_eq_some_iff.1 hr).1.trans_le h4
  | finish => exact hremoves

theorem inv_of_reachable (h : echoServers.Reachable s) : s.Inv ∧ s.system.Removes := by
  refine h.invariant (I := fun s : EchoServer => s.Inv ∧ s.system.Removes)
    (fun s h0 => ⟨.of_init h0, ?_⟩) fun s a t hs hn => ⟨hs.1.step hn, hs.1.removes_step hs.2 hn⟩
  obtain ⟨⟨loop, name, numThreads, threads, server, -, hsystem⟩, -⟩ := h0
  intro c hc
  rw [hsystem] at hc
  cases hc

/-! ### The end of a round -/

theorem delivers_none (s : ServerSystem) : s.delivers none = none := by
  unfold ServerSystem.delivers
  split
  · rename_i hdata
    cases hdata
  · rfl

/-- A step of the loop in which `messageCallback_` is not invoked. -/
theorem next_eq (hregular : s.system.Regular a) (huser : ∀ c op n ret, a ≠ .user c op n ret)
    (hdata : ∀ accepted received n ret, a = .work accepted received n ret → received = none)
    (hv : s.system.next a = some v) : s.next a = some { s with system := v } := by
  have hfits : s.system.Fits a := by
    cases a with
    | work accepted received n ret =>
      obtain rfl := hdata _ _ _ _ rfl
      intro p hp
      rw [delivers_none] at hp
      cases hp
    | _ => trivial
  unfold EchoServer.next
  rw [if_pos ⟨hregular, hfits⟩]
  cases a with
  | user c op n ret => exact absurd rfl (huser c op n ret)
  | work accepted received n ret =>
    obtain rfl := hdata _ _ _ _ rfl
    simp only [hv, Option.bind_some, delivers_none]
  | _ => simp only [hv, Option.map_some]

/-- The loop goes on until it is in `epoll_wait`, whatever the clients do. -/
theorem Inv.goes_on (hs : s.Inv) (hremoves : s.system.Removes)
    (hphase : s.system.phase ≠ .polling) :
    ∃ a t, s.next a = some t ∧ a.isPoll = false ∧ s.system.Watched a ∧ t.received = s.received ∧
      ∀ c, s.system.Serves c → t.system.Serves c := by
  obtain ⟨a, v, hregular, huser, hdata, ha, hwatched, hv, hkept⟩ : ∃ a v, s.system.Regular a ∧
      (∀ c op n ret, a ≠ .user c op n ret) ∧
      (∀ accepted received n ret, a = .work accepted received n ret → received = none) ∧
      a.isPoll = false ∧ s.system.Watched a ∧ s.system.next a = some v ∧
      ∀ c, s.system.Serves c → v.Serves c := by
    have hrun : ¬s.system.failed.isSome = true := by simp [hs.server.failed]
    cases htodo : s.system.todo with
    | cons w todo =>
      obtain ⟨v, hv, hkept⟩ := hs.server.exists_work hremoves htodo
      refine ⟨.work none none 0 true, v, fun h => (by cases h), by simp, by simp, rfl,
        ⟨rfl, by simp⟩, ?_, hkept⟩
      rw [ServerSystem.next, if_neg hrun]
      exact hv
    | nil =>
      cases hp : s.system.phase with
      | polling => exact absurd hp hphase
      | handling =>
        have hswap : s.system.phase = .handling ∧ s.system.todo = [] := ⟨hp, htodo⟩
        refine ⟨.swap, { s.system with
          phase := .running
          batch := s.system.pendingFunctors
          pendingFunctors := [] }, trivial, by simp, by simp, rfl, trivial, ?_,
          fun _ hserves => hserves⟩
        rw [ServerSystem.next, if_neg hrun]
        exact if_pos hswap
      | running =>
        cases hbatch : s.system.batch with
        | nil =>
          have hfinish : s.system.phase = .running ∧ s.system.todo = [] ∧ s.system.batch = [] :=
            ⟨hp, htodo, hbatch⟩
          refine ⟨.finish, { s.system with phase := .polling }, trivial, by simp, by simp, rfl,
            trivial, ?_, fun _ hserves => hserves⟩
          rw [ServerSystem.next, if_neg hrun]
          exact if_pos hfinish
        | cons task batch =>
          obtain ⟨r, v, hr, hv, hkept⟩ := hs.server.exists_runTask hbatch
          refine ⟨.call 0 true, v, trivial, by simp, by simp, rfl, rfl, ?_, hkept⟩
          simp only [hp, htodo] at hv
          simp only [ServerSystem.next, if_neg hrun, hp, htodo, hbatch]
          exact Option.bind_eq_some_iff.2 ⟨r, hr, hv⟩
  exact ⟨a, _, next_eq hregular huser hdata hv, ha, hwatched, rfl, hkept⟩

theorem next_watched (ha : s.system.Watched a) (h : s.next a = some t) :
    watchedEchoServers.next s a = some t := LTS.restrict_next.2 ⟨ha, h⟩

/-- `epoll_wait` may report `EPOLLOUT` alone. -/
theorem Inv.next_poll {c : ℕ} {r : ConnRecord} (hs : s.Inv) (hphase : s.system.phase = .polling)
    (hr : s.system.server.conns[c]? = some r) (hreg : r.conn.channel.registeredInEpoller = true) :
    s.next (.poll [.conn c EPOLLOUT]) = some { s with system := { s.system with
      phase := .handling
      todo := [.handler c .write] } } := by
  refine next_eq ?_ (by simp) (by simp) ?_
  · intro x hx
    rw [List.mem_singleton.1 hx]
    rfl
  · rw [ServerSystem.next, if_neg (by simp [hs.server.failed])]
    refine if_pos ⟨hphase, List.nodup_singleton c, fun d hd => ?_⟩
    obtain rfl : d = c := by simpa [Active.conn?] using hd
    exact ⟨r, hr, hreg⟩

/-- The write that follows. -/
theorem Inv.next_write {c : ℕ} {r : ConnRecord} {y : ConnCtx} (hs : s.Inv)
    (hr : s.system.server.conns[c]? = some r)
    (hn : OutputStream.WriteResult r.conn.outputBuffer.readableBytes n)
    (hy : r.conn.enter.handleWrite s.system.tid n true = .ok y) :
    EchoServer.next { s with system := { s.system with
        phase := .handling
        todo := [.handler c .write] } } (.work none none n true) =
      some ⟨({ s.system with phase := .handling, todo := [] }).absorb c y, s.received⟩ := by
  refine next_eq (fun h => by cases h) (by simp) (by simp) ?_
  rw [ServerSystem.next, if_neg (by simp [hs.server.failed])]
  refine Option.bind_eq_some_iff.2 ⟨r, hr, ?_⟩
  rw [ServerSystem.handle, if_pos hn]
  exact congrArg (ServerSystem.after c _) hy

/-- A connection in `epoll_wait` gets rid of its output buffer with one write. -/
theorem Inv.drain {c : ℕ} (hs : s.Inv) (hphase : s.system.phase = .polling)
    (hserves : s.system.Serves c) :
    ∃ as t r, watchedEchoServers.run s as = some t ∧ t.received = s.received ∧
      t.system.server.conns[c]? = some r ∧ r.closed = false ∧
      r.conn.socket.sent = s.received c := by
  obtain ⟨r, hr, hopen, hreg⟩ := hserves
  have hecho := hs.echoes c r hr
  by_cases hne : r.conn.outputBuffer.content = []
  · refine ⟨[], s, r, rfl, rfl, hr, hopen, ?_⟩
    have hall := hecho.answered hopen
    rwa [hne, List.append_nil] at hall
  obtain ⟨y, hy, hempty⟩ : ∃ y, r.conn.enter.handleWrite s.system.tid
      r.conn.outputBuffer.readableBytes true = .ok y ∧ y.conn.outputBuffer.content = [] :=
    ConnCtx.exists_handleWrite_all (hs.server.record c r hr).loop ((hecho.writing hopen).2 hne)
      hecho.output (hecho.connected hopen) hne
  have hpoll := hs.next_poll hphase hr hreg
  have hwrite := hs.next_write hr (by constructor <;> omega) hy
  have hconn : (({ s.system with phase := .handling, todo := [] }).absorb c y).server.conns[c]? =
      some { r with conn := y.conn } := by
    have hq := ConnCtx.handleWrite_unnoticed (.inl (hecho.connected hopen)) hy
    rw [ServerSystem.absorb_quiet_conns hq, List.getElem?_modify_eq]
    exact congrArg (Option.map _) hr
  -- the invariant says that what is not buffered has left
  have hall := (((hs.step hpoll).step hwrite).echoes c _ hconn).answered hopen
  rw [hempty, List.append_nil] at hall
  have hreports : s.system.Watched (.poll [.conn c EPOLLOUT]) := by
    intro x hx
    rw [List.mem_singleton.1 hx]
    intro r' hr'
    obtain rfl : r = r' := Option.some.inj (hr.symm.trans hr')
    exact Channel.reports_out ((hecho.writing hopen).2 hne)
  have hboth : watchedEchoServers.run s [.poll [.conn c EPOLLOUT],
      .work none none r.conn.outputBuffer.readableBytes true] =
        some ⟨({ s.system with phase := .handling, todo := [] }).absorb c y, s.received⟩ := by
    rw [LTS.run, next_watched hreports hpoll, Option.bind_some, LTS.run,
      next_watched (by exact ⟨rfl, by simp⟩) hwrite, Option.bind_some, LTS.run]
  exact ⟨_, _, _, hboth, rfl, hconn, hopen, hall⟩

end EchoServer

/-- **Rounds end.** From every state of a run the loop is back in `epoll_wait` after a bounded
number of steps, whatever arrives and whatever the functors queue; until then it can go on. -/
theorem echo_server_rounds {s t : EchoServer} {as : List ServerAction}
    (h : echoServers.Reachable s) (has : ∀ a ∈ as, a.isPoll = false)
    (hrun : echoServers.run s as = some t) :
    as.length + t.system.roundLength ≤ s.system.roundLength ∧
      (t.system.phase ≠ .polling → ∃ a u, t.next a = some u ∧ a.isPoll = false) := by
  refine ⟨LTS.run_length_le (I := EchoServer.Inv) (C := fun a => a.isPoll = false)
    (m := fun s => s.system.roundLength) (fun _ _ _ hs ha hn =>
      ⟨hs.step hn, hs.roundLength_lt ha hn⟩) (EchoServer.inv_of_reachable h).1 has hrun, ?_⟩
  intro hphase
  obtain ⟨ht, hremoves⟩ := EchoServer.inv_of_reachable (.of_run h as hrun)
  obtain ⟨a, u, hn, ha, -⟩ := ht.goes_on hremoves hphase
  exact ⟨a, u, hn, ha⟩

/-- The round in which the first of two clients is accepted. -/
theorem echo_server_rounds_accepted : ∃ s t : EchoServer, echoServers.Reachable s ∧
    echoServers.run s [.work (some (socketSeven ⟨0, 0⟩)) none 0 true, .swap, .finish] = some t ∧
      3 + t.system.roundLength ≤ s.system.roundLength := by
  have hinit : echoServers.init
      ⟨.new (.listening ⟨1⟩ "0.0.0.0:80" 0 fun _ => 0), fun _ => []⟩ :=
    ⟨⟨⟨1⟩, "0.0.0.0:80", 0, fun _ => 0, _, TcpServer.start_eq _ _ _ _, rfl⟩, rfl⟩
  obtain ⟨t, ht⟩ := Option.isSome_iff_exists.1 (by decide +kernel :
    (echoServers.run ⟨.new (.listening ⟨1⟩ "0.0.0.0:80" 0 fun _ => 0), fun _ => []⟩
      (twoClients.take 4)).isSome = true)
  obtain ⟨s, hs, ht⟩ := Option.bind_eq_some_iff.1 ht
  have hreach : echoServers.Reachable s := .step _ (.init hinit) hs
  exact ⟨s, t, hreach, ht, (echo_server_rounds hreach (by decide) ht).1⟩

/-- **Nothing is stuck.** From every state of a run in which each `epoll_ctl` has succeeded, and for
every open connection whose descriptor is in the epoll set, such a run can go on so that all that
has arrived on the connection leaves its socket. -/
theorem echo_server_drains {s : EchoServer} {c : ℕ} (h : watchedEchoServers.Reachable s)
    (hserves : s.system.Serves c) :
    ∃ as t r, watchedEchoServers.run s as = some t ∧ t.received = s.received ∧
      t.system.server.conns[c]? = some r ∧ r.closed = false ∧
      r.conn.socket.sent = s.received c := by
  obtain ⟨hs, hremoves⟩ := EchoServer.inv_of_reachable h.of_restrict
  -- the round is run to its end
  obtain ⟨as, t, hrun, ⟨ht, -, hreceived, hkept⟩, hphase⟩ : ∃ as t,
      watchedEchoServers.run s as = some t ∧
      (t.Inv ∧ t.system.Removes ∧ t.received = s.received ∧ t.system.Serves c) ∧
      t.system.phase = .polling := by
    refine LTS.exists_run (m := fun t => t.system.roundLength) ?_ ⟨hs, hremoves, rfl, hserves⟩
    rintro u ⟨hu, hremoves, hreceived, hkept⟩ hphase
    obtain ⟨a, v, hn, ha, hwatched, hsame, hopen⟩ := hu.goes_on hremoves hphase
    exact ⟨a, v, EchoServer.next_watched hwatched hn, ⟨hu.step hn, hu.removes_step hremoves hn,
      hsame.trans hreceived, hopen c hkept⟩, hu.roundLength_lt ha hn⟩
  -- the next one begins with the write
  obtain ⟨bs, u, r, hrun', hreceived', hr, hopen, hsent⟩ := ht.drain hphase hkept
  refine ⟨as ++ bs, u, r, ?_, hreceived'.trans hreceived, hr, hopen, ?_⟩
  · rw [LTS.run_append, hrun, Option.bind_some, hrun']
  · rw [hsent, hreceived]

/-- The third byte of the first client can still come back. -/
theorem echo_server_drains_two_clients : ∃ (s t : EchoServer) (as : List ServerAction)
    (r r' : ConnRecord), s.system.server.conns[0]? = some r ∧ r.conn.socket.sent = [1, 2] ∧
      watchedEchoServers.run s as = some t ∧ t.system.server.conns[0]? = some r' ∧
      r'.conn.socket.sent = [1, 2, 3] := by
  obtain ⟨s, hs, hrun⟩ := Option.map_eq_some_iff.1 (by decide +kernel :
    ((watchedEchoServers.run ⟨.new (.listening ⟨1⟩ "0.0.0.0:80" 0 fun _ => 0), fun _ => []⟩
      twoClients).map fun s => ((s.system.server.conns[0]?).map fun r =>
        (r.conn.socket.sent, r.closed, r.conn.channel.registeredInEpoller), s.received 0)) =
        some (some ([1, 2], false, true), [1, 2, 3]))
  obtain ⟨hconn, hreceived⟩ := Prod.mk.inj hrun
  obtain ⟨r, hr, hfields⟩ := Option.map_eq_some_iff.1 hconn
  obtain ⟨hsent, hopen, hreg⟩ := Prod.mk.inj hfields |>.imp id Prod.mk.inj
  have hinit : echoServers.init
      ⟨.new (.listening ⟨1⟩ "0.0.0.0:80" 0 fun _ => 0), fun _ => []⟩ :=
    ⟨⟨⟨1⟩, "0.0.0.0:80", 0, fun _ => 0, _, TcpServer.start_eq _ _ _ _, rfl⟩, rfl⟩
  obtain ⟨as, t, r', hrun', -, hr', -, hsent'⟩ :=
    echo_server_drains (LTS.Reachable.of_run (.init hinit) _ hs) ⟨r, hr, hopen, hreg⟩
  exact ⟨s, t, as, r, r', hr, hsent, hrun', hr', hsent'.trans hreceived⟩

end Jiangbo
