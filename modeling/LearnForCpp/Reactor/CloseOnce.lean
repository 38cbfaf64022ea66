import LearnForCpp.Reactor.ConnSystem

/-!
# How often a connection is closed

`handleClose` is reached from the close branch of `Channel::handleEvent` and from `handleRead` at
the end of the stream, and it leaves `state_` alone, so nothing stops a second call.  One mask is
enough: with `EPOLLRDHUP` and without `EPOLLIN` both branches are taken, and `readFd` returns 0.

`endsStream` marks the dispatched handlers that report the end of the stream while the connection
is not disconnected.  Each of them invokes `closeCallback_`, and `closed_once_iff` says that the
connection is closed once, destroyed once and its owner's assertions hold exactly if the run has at
most one.
-/

namespace Jiangbo

/-- The assertions about a connection that is closed, removed and destroyed once. -/
def Fault.ofClosing : Fault → Bool
  | .assertion .handleCloseState => true
  | .assertion .removeConnectionErased => true
  | .assertion .removeConnectionCurrent => true
  | .assertion .connectDestoryedState => true
  | _ => false

/-! ### Faults of the calls -/

namespace Buffer

variable {b : Buffer}

theorem retrieve_faults {len : ℕ} : (b.retrieve len).Faults fun e _ => e.ofClosing = false :=
  .bind (.check fun _ => rfl) fun _ _ => .ok _

theorem store_faults {data : Bytes} : (b.store data).Faults fun e _ => e.ofClosing = false :=
  .bind (.check fun _ => rfl) fun _ _ => .ok _

theorem makeSpace_faults {len : ℕ} : (b.makeSpace len).Faults fun e _ => e.ofClosing = false := by
  unfold makeSpace
  split_ifs
  · split
    · exact .ok _
    · rfl
  · refine .bind (.check fun _ => rfl) fun _ _ => ?_
    exact .bind (.check fun _ => rfl) fun _ _ => .check fun _ => rfl

theorem append_faults {data : Bytes} : (b.append data).Faults fun e _ => e.ofClosing = false := by
  refine .bind (.bind ?_ fun _ _ => .check fun _ => rfl) fun _ _ =>
    .bind store_faults fun _ _ => .ok _
  split_ifs
  · exact makeSpace_faults
  · exact .ok _

/-- The read that reports the end of the stream fails no assertion. -/
theorem readFd_nil_faults : (b.readFd (some [])).Faults fun e _ => e = .outOfBounds := by
  refine .bind (.bind (.check fun _ => rfl) fun _ _ => .ok _) fun b' _ => ?_
  rw [List.length_nil, if_pos (Nat.zero_le _)]
  exact .ok _

theorem readFd_faults {received : Option Bytes} : (b.readFd received).Faults fun e _ =>
    e.ofClosing = false ∧ (received = some [] → e = .outOfBounds) := by
  match received with
  | none => exact .ok _
  | some [] => exact readFd_nil_faults.mono fun e _ he => ⟨he ▸ rfl, fun _ => he⟩
  | some (_ :: _) =>
    refine .mono (.bind store_faults fun b' _ => ?_) fun e _ he => ⟨he, nofun⟩
    split_ifs
    · exact .ok _
    · exact append_faults

end Buffer

namespace ConnCtx

variable {c : TcpConnection} {tid : Tid} {message : StdString} {n : ℤ} {ret : Bool}

/-- A fault in a call on `c` that has nothing to do with its removal; it is the assertion of
`handleClose` only if `c` is not connected. -/
structure Harmless (c : TcpConnection) (e : Fault) (x : ConnCtx) : Prop where
  state : x.conn.state = c.state
  queued : .connectDestoryed ∉ x.queued
  calls : .close ∉ x.calls
  fault : e.ofClosing = false ∨ e = .assertion .handleCloseState ∧
    ¬(c.state = .kConnected ∨ c.state = .kDisconnecting)

theorem enter_harmless {e : Fault} (he : e.ofClosing = false) : Harmless c e c.enter :=
  ⟨rfl, List.not_mem_nil, List.not_mem_nil, .inl he⟩

theorem assertInLoopThread_faults : (c.enter.assertInLoopThread tid).Faults (Harmless c) :=
  .check fun _ => enter_harmless rfl

theorem sendInLoop_faults : (c.enter.sendInLoop tid message n ret).Faults (Harmless c) := by
  by_cases htid : c.enter.conn.loop.isInLoopThread tid = true
  · rw [sendInLoop_eq htid]
    dsimp only
    generalize (!c.enter.conn.channel.isWriting && c.enter.conn.outputBuffer.readableBytes != 0) =
      direct
    have h1 : SendStep message ret c.enter
        (if direct = true then c.enter.writeDirect message n else c.enter) := by
      split_ifs
      · exact writeDirect_step _ message n
      · exact .refl message ret _
    generalize (if direct = true then c.enter.writeDirect message n else c.enter) = z at h1 ⊢
    generalize (if direct = true ∧ 0 ≤ n then n else 0).toNat = nwrote
    split_ifs
    · refine .bind (Buffer.append_faults.zoom fun e b he => ⟨h1.state, fun hq => ?_, ?_, .inl he⟩)
        fun _ _ => .ok _
      · rcases h1.queued _ hq with hq | hq
        · cases hq
        · cases hq
      · rw [show (z.setOutputBuffer b).calls = [] from h1.calls]
        exact List.not_mem_nil
    · exact .ok _
  · rw [sendInLoop, assertInLoopThread, Outcome.check_neg (Bool.eq_false_iff.2 htid)]
    exact enter_harmless rfl

theorem sendConnected_faults : (c.enter.sendConnected tid message n ret).Faults (Harmless c) := by
  unfold sendConnected
  split_ifs
  · exact sendInLoop_faults
  · exact .ok _

theorem shutdownInLoop_faults : (c.enter.shutdownInLoop tid).Faults (Harmless c) := by
  refine .bind assertInLoopThread_faults fun _ _ => ?_
  split_ifs <;> exact .ok _

theorem runShutdownInLoop_faults : (c.enter.runShutdownInLoop tid).Faults (Harmless c) := by
  unfold runShutdownInLoop
  split_ifs
  · exact shutdownInLoop_faults
  · exact .ok _

/-- `handleClose` fails its assertion only on a connection that is not connected. -/
theorem handleClose_faults : (c.enter.handleClose tid ret).Faults fun e x =>
    Harmless c e x ∧
      (e = .notInLoopThread ∨ ¬(c.state = .kConnected ∨ c.state = .kDisconnecting)) := by
  refine .bind (.check fun _ => ⟨enter_harmless rfl, .inl rfl⟩) fun x hx => ?_
  obtain ⟨-, rfl⟩ := assertInLoopThread_eq_ok.1 hx
  refine .bind (.check fun h => ?_) fun _ _ => .ok _
  have hstate : ¬(c.state = .kConnected ∨ c.state = .kDisconnecting) := of_decide_eq_false h
  exact ⟨⟨rfl, List.not_mem_nil, List.not_mem_nil, .inr ⟨rfl, hstate⟩⟩, .inr hstate⟩

theorem handleRead_faults {received : Option Bytes} :
    (c.enter.handleRead tid received ret).Faults fun e x =>
      Harmless c e x ∧ (received = some [] → e = .outOfBounds ∨ e = .notInLoopThread ∨
        ¬(c.state = .kConnected ∨ c.state = .kDisconnecting)) := by
  refine .bind (Buffer.readFd_faults.zoom fun e b he => ⟨⟨rfl, List.not_mem_nil,
    List.not_mem_nil, .inl he.1⟩, fun hr => .inl (he.2 hr)⟩) fun x hx => ?_
  obtain ⟨b, -, rfl⟩ := Outcome.zoom_eq_ok.1 hx
  match received with
  | none => exact .ok _
  | some [] =>
    refine (handleClose_faults (c := { c with inputBuffer := b })).mono fun e x h => ?_
    exact ⟨⟨h.1.state, h.1.queued, h.1.calls, h.1.fault⟩, fun _ => .inr h.2⟩
  | some (_ :: _) => exact .ok _

theorem handleWrite_faults : (c.enter.handleWrite tid n ret).Faults (Harmless c) := by
  refine .bind assertInLoopThread_faults fun x hx => ?_
  obtain ⟨-, rfl⟩ := assertInLoopThread_eq_ok.1 hx
  dsimp only
  split_ifs with hw hpos
  · refine .bind (Buffer.retrieve_faults.zoom fun e b he =>
      ⟨rfl, List.not_mem_nil, List.not_mem_nil, .inl he⟩) fun z hz => ?_
    obtain ⟨b, -, rfl⟩ := Outcome.zoom_eq_ok.1 hz
    split_ifs
    · refine .bind (.check fun _ => ⟨?_, fun hq => ?_, ?_, .inl rfl⟩) fun _ _ => ?_
      · rw [queueWriteComplete_conn]; rfl
      · rcases drain_queued (x := c.enter.flush n b) hq with hq | hq
        · cases hq
        · cases hq
      · rw [queueWriteComplete_calls]; exact List.not_mem_nil
      · split_ifs <;> exact .ok _
    · exact .ok _
    · exact .ok _
  · exact .ok _
  · exact .ok _

theorem removeChannel_faults : (c.enter.removeChannel ret).Faults (Harmless c) := by
  have h : (c.channel.remove ret).Faults fun e _ => e.ofClosing = false :=
    .bind (.check fun _ => rfl) fun _ _ => .bind (.check fun _ => rfl) fun _ _ => .ok _
  exact h.zoom fun _ _ he => ⟨rfl, List.not_mem_nil, List.not_mem_nil, .inl he⟩

/-- `connectDestoryed` fails its assertion only on a connection that is not connected. -/
theorem connectDestoryed_faults : (c.enter.connectDestoryed tid ret).Faults fun e x =>
    x = c.enter ∧ (e = .notInLoopThread ∨ e = .assertion .connectDestoryedState ∧
      ¬(c.state = .kConnected ∨ c.state = .kDisconnecting)) := by
  refine .bind (.check fun _ => ⟨rfl, .inl rfl⟩) fun x hx => ?_
  obtain ⟨-, rfl⟩ := assertInLoopThread_eq_ok.1 hx
  exact .bind (.check fun h => ⟨rfl, .inr ⟨rfl, of_decide_eq_false h⟩⟩) fun _ _ => .ok _

end ConnCtx

namespace ConnSystem

open ConnCtx (Effect Harmless)

variable {s u : ConnSystem} {k : Option ℕ} {x : ConnCtx} {o : Result ConnCtx}

/-- The step dispatches a handler that reports the end of the stream while the connection is not
disconnected: the close branch of `handleEvent`, or a read that returns 0. -/
def endsStream (s : ConnSystem) : ConnAction → Bool
  | .work received _ _ =>
      match s.todo with
      | .handler .close :: _ => s.conn.state ≠ .kDisConnected
      | .handler .read :: _ => s.conn.state ≠ .kDisConnected ∧ received = some []
      | _ => false
  | _ => false

/-- The `connectDestoryed` functors not yet called. -/
def destroysQueued (s : ConnSystem) : ℕ :=
  (s.batch ++ s.pendingFunctors).countP fun task => task.functor = .connectDestoryed

/-- The bookkeeping of an owner: every `connectDestoryed` comes from a call of `closeCallback_`, and
an assertion about the removal fails only from the second call on. -/
structure Ledger (s : ConnSystem) : Prop where
  established : s.conn.state ≠ .kConnecting
  state : s.conn.state = .kDisConnected → 0 < s.destroyCalls
  destroys : s.destroyCalls + s.destroysQueued ≤ s.closeCalls
  tracked : s.closeCalls = 0 → s.tracked = true
  removal : s.failed = some .removeConnectionErased ∨ s.failed = some .removeConnectionCurrent →
    2 ≤ s.closeCalls
  destroyed : s.failed = some .connectDestoryedState → 2 ≤ s.destroyCalls

/-! ### What a call does to the ledger -/

theorem destroysQueued_push (s : ConnSystem) (ticket : Option ℕ) :
    (s.push ⟨.connectDestoryed, ticket⟩).destroysQueued = s.destroysQueued + 1 := by
  simp [destroysQueued, push, ← List.append_assoc, List.countP_append]

/-- A call of `closeCallback_`. -/
theorem Ledger.closeCallback (hs : s.Ledger) (hf : s.failed = none) : s.closeCallback.Ledger := by
  have hd := hs.destroys
  -- the callback of an owner that knows the connection
  have hpush : ∀ {tracked : Bool}, ({ s with closeCalls := s.closeCalls + 1, tracked := tracked
      }.push ⟨.connectDestoryed, none⟩).Ledger := by
    intro tracked
    refine ⟨hs.established, hs.state, ?_, nofun, fun h => ?_, fun h => ?_⟩
    · rw [destroysQueued_push]
      change s.destroyCalls + (s.destroysQueued + 1) ≤ s.closeCalls + 1
      omega
    · simp [push, hf] at h
    · simp [push, hf] at h
  -- the callback of an owner that has removed it before
  have hfail : ∀ {a : Assertion}, a ≠ .connectDestoryedState → s.tracked ≠ true →
      { s with closeCalls := s.closeCalls + 1, failed := some a }.Ledger := by
    intro a ha ht
    have hpos : s.closeCalls ≠ 0 := fun h0 => ht (hs.tracked h0)
    refine ⟨hs.established, hs.state, ?_, nofun, fun _ => ?_, fun h => ?_⟩
    · exact hd.trans (Nat.le_succ _)
    · simp only
      omega
    · exact absurd (Option.some.inj h) ha
  unfold ConnSystem.closeCallback
  dsimp only
  split
  · split_ifs with ht
    · exact hpush
    · exact hfail nofun ht
  · split_ifs with ht
    · exact hpush
    · exact hfail nofun ht
  · exact hpush

/-- The connection after a call, before its owner is told. -/
theorem Ledger.adopt (hs : s.Ledger) (hstate : x.conn.state = s.conn.state)
    (hqueued : .connectDestoryed ∉ x.queued) : (s.adopt k x).Ledger := by
  have h0 : (x.queued.map fun f => (⟨f, k⟩ : Task)).countP
      (fun task => task.functor = .connectDestoryed) = 0 := by
    rw [List.countP_eq_zero]
    intro task hmem
    obtain ⟨f, hf, rfl⟩ := List.mem_map.1 hmem
    exact fun h => hqueued (of_decide_eq_true h ▸ hf)
  have hq : (s.adopt k x).destroysQueued = s.destroysQueued := by
    simp only [destroysQueued, ConnSystem.adopt, List.countP_append, h0, Nat.add_zero]
  exact ⟨by rw [ConnSystem.adopt, hstate]; exact hs.established,
    by rw [ConnSystem.adopt, hstate]; exact hs.state, by rw [hq]; exact hs.destroys, hs.tracked,
    hs.removal, hs.destroyed⟩

/-- A call that returns. -/
theorem Ledger.absorb {closes : Prop} (hs : s.Ledger) (hf : s.failed = none)
    (hx : Effect s.conn closes x) : (s.absorb k x).Ledger := by
  unfold ConnSystem.absorb
  split_ifs
  · exact (hs.adopt hx.state hx.queued).closeCallback hf
  · exact hs.adopt hx.state hx.queued

/-- A call that fails an assertion of its own. -/
theorem Ledger.fail {a : Assertion} (hs : s.Ledger) (hx : Harmless s.conn (.assertion a) x) :
    { s.absorb k x with failed := some a }.Ledger := by
  have hf : ∀ b, (.assertion b : Fault).ofClosing = true → b ≠ .handleCloseState → a ≠ b := by
    rintro b hb hne rfl
    rcases hx.fault with h | h
    · rw [hb] at h
      cases h
    · exact hne (Fault.assertion.inj h.1)
  unfold ConnSystem.absorb
  rw [if_neg hx.calls]
  obtain ⟨h1, h2, h3, h4, -, -⟩ := hs.adopt (k := k) hx.state hx.queued
  refine ⟨h1, h2, h3, h4, ?_, ?_⟩
  · rintro (h | h)
    · exact absurd (Option.some.inj h) (hf _ rfl nofun)
    · exact absurd (Option.some.inj h) (hf _ rfl nofun)
  · exact fun h => absurd (Option.some.inj h) (hf _ rfl nofun)

/-- A call, with its number of calls of `closeCallback_`. -/
theorem Ledger.after (hs : s.Ledger) (closes : Bool) (hf : s.failed = none)
    (hok : ∀ y, o = .ok y → Effect s.conn (closes = true) y)
    (hfault : o.Faults fun e x => Harmless s.conn e x ∧
      (closes = true → ∀ a, e ≠ .assertion a)) (h : s.after k o = some u) :
    u.Ledger ∧ u.closeCalls = s.closeCalls + if closes then 1 else 0 := by
  rcases after_eq_some h with ⟨x, rfl, rfl⟩ | ⟨a, x, rfl, rfl⟩
  · have hx := hok x rfl
    refine ⟨hs.absorb hf hx, ?_⟩
    rw [absorb_closeCalls]
    simp only [hx.close_iff]
  · obtain ⟨hx, hc⟩ := hfault.of_fault rfl
    refine ⟨hs.fail hx, ?_⟩
    simp only [absorb_closeCalls, if_neg hx.calls, if_neg fun h => hc h a rfl]

/-! ### Steps -/

/-- The state of a connection that can be closed, as the assertion of `handleClose` has it. -/
theorem Ledger.state_iff (hs : s.Ledger) :
    (s.conn.state = .kConnected ∨ s.conn.state = .kDisconnecting) ↔
      s.conn.state ≠ .kDisConnected := by
  have := hs.established
  cases h : s.conn.state <;> simp_all

/-- A handler. -/
theorem Ledger.handle {received : Option Bytes} {n : ℤ} {ret : Bool} {handler : Handler}
    {todo : List LoopWork} (hs : s.Ledger) (hf : s.failed = none)
    (htodo : s.todo = .handler handler :: todo)
    (h : { s with todo := todo }.handle received n ret handler = some u) :
    u.Ledger ∧ u.closeCalls = s.closeCalls +
      if s.endsStream (.work received n ret) then 1 else 0 := by
  have hs' : { s with todo := todo }.Ledger :=
    ⟨hs.established, hs.state, hs.destroys, hs.tracked, hs.removal, hs.destroyed⟩
  simp only [endsStream, htodo]
  cases handler with
  | close =>
    refine hs'.after _ hf (fun y hy => ?_) ?_ h
    · have hstate := hs.state_iff.1 (ConnCtx.handleClose_eq_ok hy).1
      simpa [hstate] using ConnCtx.handleClose_effect hy
    · refine ConnCtx.handleClose_faults.mono fun e x he => ⟨he.1, fun hc a ha => ?_⟩
      rcases he.2 with h0 | h0
      · rw [h0] at ha; cases ha
      · exact h0 (hs.state_iff.2 (by simpa using hc))
  | error =>
    refine hs'.after false hf (fun y hy => ?_) (.ok _) h
    simpa using ConnCtx.handleError_effect hy
  | read =>
    refine hs'.after _ hf (fun y hy => ?_) ?_ h
    · have hiff : (s.conn.state ≠ .kDisConnected ∧ received = some []) ↔ received = some [] := by
        refine ⟨And.right, fun hr => ⟨?_, hr⟩⟩
        obtain ⟨b, ⟨hn, -⟩ | ⟨-, hc⟩ | ⟨_, _, hn, -⟩⟩ := ConnCtx.handleRead_eq_ok hy
        · rw [hn] at hr; cases hr
        · exact hs.state_iff.1 (ConnCtx.handleClose_eq_ok hc).1
        · rw [hn] at hr; cases hr
      simpa only [decide_eq_true_eq, hiff] using ConnCtx.handleRead_effect hy
    · refine ConnCtx.handleRead_faults.mono fun e x he => ⟨he.1, fun hc a ha => ?_⟩
      simp only [decide_eq_true_eq] at hc
      rcases he.2 hc.2 with h0 | h0 | h0
      · rw [h0] at ha; cases ha
      · rw [h0] at ha; cases ha
      · exact h0 (hs.state_iff.2 hc.1)
  | write =>
    simp only [ConnSystem.handle] at h
    split_ifs at h with hn
    refine hs'.after false hf (fun y hy => ?_) ?_ h
    · simpa using ConnCtx.handleWrite_effect hn hy
    · exact ConnCtx.handleWrite_faults.mono fun e x he => ⟨he, nofun⟩

/-- A call of `connectDestoryed`, paid for by a call of `closeCallback_`. -/
theorem Ledger.connectDestoryed {t : Tid} {ret : Bool} {todo : List LoopWork} (hs : s.Ledger)
    (batch : List Task) (hf : s.failed = none)
    (hd : s.destroyCalls + 1 + { s with batch := batch }.destroysQueued ≤ s.closeCalls)
    (h : { s with batch := batch, todo := todo, destroyCalls := s.destroyCalls + 1 }.after none
      (s.conn.enter.connectDestoryed t ret) = some u) :
    u.Ledger ∧ u.closeCalls = s.closeCalls := by
  have hcalled : ∀ {state : StateE}, state ≠ .kConnecting → { s with
      conn := { s.conn with state := state }
      batch := batch
      todo := todo
      destroyCalls := s.destroyCalls + 1 }.Ledger := fun hstate =>
    ⟨hstate, fun _ => Nat.succ_pos _, hd, hs.tracked, hs.removal, fun h => by simp [hf] at h⟩
  rcases after_eq_some h with ⟨x, hx, rfl⟩ | ⟨a, x, hx, rfl⟩
  · have heffect := ConnCtx.connectDestoryed_effect hx
    have hdone := hcalled (by decide : StateE.kDisConnected ≠ .kConnecting)
    refine ⟨hdone.absorb hf heffect, ?_⟩
    rw [absorb_closeCalls, if_neg heffect.close_iff.1, Nat.add_zero]
  · obtain ⟨rfl, he⟩ := ConnCtx.connectDestoryed_faults.of_fault hx
    rcases he with he | ⟨he, hstate⟩
    · cases he
    obtain rfl : a = .connectDestoryedState := Fault.assertion.inj he
    have hpos := hs.state (by
      by_contra hne
      exact hstate (hs.state_iff.2 hne))
    obtain ⟨h1, h2, h3, h4, -, -⟩ := hcalled hs.established
    refine ⟨⟨h1, h2, ?_, h4, ?_, fun _ => ?_⟩, rfl⟩
    · simpa [destroysQueued, ConnSystem.absorb, ConnSystem.adopt, TcpConnection.enter] using h3
    · rintro (h0 | h0) <;> cases h0
    · exact Nat.succ_le_succ hpos

/-- A functor of the batch. -/
theorem Ledger.runTask {n : ℤ} {ret : Bool} {task : Task} {batch : List Task} (hs : s.Ledger)
    (hf : s.failed = none) (hbatch : s.batch = task :: batch)
    (h : { s with batch := batch }.runTask n ret task = some u) :
    u.Ledger ∧ u.closeCalls = s.closeCalls := by
  have hq : s.destroysQueued = { s with batch := batch }.destroysQueued +
      if task.functor = .connectDestoryed then 1 else 0 := by
    simp only [destroysQueued, hbatch, List.cons_append, List.countP_cons, decide_eq_true_eq]
  have hd := hs.destroys
  have hle : { s with batch := batch }.Ledger :=
    ⟨hs.established, hs.state, by simp only; omega, hs.tracked, hs.removal, hs.destroyed⟩
  unfold ConnSystem.runTask at h
  split at h
  · split_ifs at h
    refine Ledger.after (s := { s with batch := batch, passed := _ }) ?_ false hf
      (fun y hy => by simpa using ConnCtx.sendInLoop_effect hy)
      (ConnCtx.sendInLoop_faults.mono fun e x he => ⟨he, nofun⟩) h
    exact ⟨hle.established, hle.state, hle.destroys, hle.tracked, hle.removal, hle.destroyed⟩
  · exact hle.after false hf (fun y hy => by simpa using ConnCtx.shutdownInLoop_effect hy)
      (ConnCtx.shutdownInLoop_faults.mono fun e x he => ⟨he, nofun⟩) h
  · cases h
    exact ⟨hle, rfl⟩
  · rename_i hfun
    rw [if_pos hfun] at hq
    exact hs.connectDestoryed batch hf (by omega) h

/-- **Steps.** A step keeps the ledger, and invokes `closeCallback_` exactly if it reports the end
of the stream. -/
theorem Ledger.step {a : ConnAction} (hs : s.Ledger) (hf : s.failed = none) (h : Step s a u) :
    u.Ledger ∧ u.closeCalls = s.closeCalls + if s.endsStream a then 1 else 0 := by
  cases h with
  | sendFound hpc hstate =>
    exact ⟨⟨hs.established, hs.state, hs.destroys, hs.tracked, hs.removal, hs.destroyed⟩, rfl⟩
  | sendRefused => exact ⟨hs, rfl⟩
  | sendConnected hpc hn hu =>
    refine Ledger.after (s := ConnSystem.setPc { s with passed := _ } _ _) ?_ false hf
      (fun y hy => by simpa using ConnCtx.sendConnected_effect hy)
      (ConnCtx.sendConnected_faults.mono fun e x he => ⟨he, nofun⟩) hu
    exact ⟨hs.established, hs.state, hs.destroys, hs.tracked, hs.removal, hs.destroyed⟩
  | sendReturn hpc =>
    exact ⟨⟨hs.established, hs.state, hs.destroys, hs.tracked, hs.removal, hs.destroyed⟩, rfl⟩
  | shutdownBegin =>
    exact ⟨⟨hs.established, hs.state, hs.destroys, hs.tracked, hs.removal, hs.destroyed⟩, rfl⟩
  | shutdownTest hpc =>
    exact ⟨⟨hs.established, hs.state, hs.destroys, hs.tracked, hs.removal, hs.destroyed⟩, rfl⟩
  | shutdownStore hpc =>
    exact ⟨⟨nofun, nofun, hs.destroys, hs.tracked, hs.removal, hs.destroyed⟩, rfl⟩
  | runShutdown hpc hu =>
    refine Ledger.after (s := s.setPc _ _) ?_ false hf
      (fun y hy => by simpa using ConnCtx.runShutdownInLoop_effect hy)
      (ConnCtx.runShutdownInLoop_faults.mono fun e x he => ⟨he, nofun⟩) hu
    exact ⟨hs.established, hs.state, hs.destroys, hs.tracked, hs.removal, hs.destroyed⟩
  | event htodo hbatch hreg =>
    exact ⟨⟨hs.established, hs.state, hs.destroys, hs.tracked, hs.removal, hs.destroyed⟩, rfl⟩
  | handler htodo hu => exact hs.handle hf htodo hu
  | removeChannel htodo hu =>
    simp only [endsStream, htodo]
    refine Ledger.after (s := { s with todo := _, destroyed := true }) ?_ false hf
      (fun y hy => by simpa using ConnCtx.removeChannel_effect hy)
      (ConnCtx.removeChannel_faults.mono fun e x he => ⟨he, nofun⟩) hu
    exact ⟨hs.established, hs.state, hs.destroys, hs.tracked, hs.removal, hs.destroyed⟩
  | swap htodo hbatch =>
    refine ⟨⟨hs.established, hs.state, ?_, hs.tracked, hs.removal, hs.destroyed⟩, rfl⟩
    simpa [destroysQueued, hbatch] using hs.destroys
  | task htodo hbatch hu => exact hs.runTask hf hbatch hu
  | setWriteCompleteCallback =>
    exact ⟨⟨hs.established, hs.state, hs.destroys, hs.tracked, hs.removal, hs.destroyed⟩, rfl⟩
  | inputBuffer =>
    exact ⟨⟨hs.established, hs.state, hs.destroys, hs.tracked, hs.removal, hs.destroyed⟩, rfl⟩
  | detach =>
    exact ⟨⟨hs.established, hs.state, hs.destroys, hs.tracked, hs.removal, hs.destroyed⟩, rfl⟩

/-! ### Runs -/

theorem Ledger.of_init (h : connections.init s) : s.Ledger := by
  obtain ⟨conn, owner, hconn, rfl⟩ := h
  obtain ⟨loop, name, sockfd, localAddr, peerAddr, storage, callback, ret, rfl⟩ := hconn.eq
  exact ⟨nofun, nofun, le_rfl, fun _ => rfl, by simp [new], nofun⟩

/-- A run invokes `closeCallback_` once for each step that reports the end of the stream. -/
theorem Ledger.run {t : ConnSystem} {run : List (Transition ConnSystem ConnAction)}
    (hs : s.Ledger) (h : connections.Steps s run t) :
    t.Ledger ∧ t.closeCalls = s.closeCalls + run.countP fun e => e.source.endsStream e.action := by
  induction h with
  | nil => exact ⟨hs, rfl⟩
  | cons hn _ ih =>
    obtain ⟨hf, hstep⟩ := next_step hn
    obtain ⟨hu, hcalls⟩ := hs.step hf hstep
    obtain ⟨ht, hrun⟩ := ih hu
    refine ⟨ht, ?_⟩
    rw [hrun, hcalls, List.countP_cons, Nat.add_assoc, Nat.add_comm (ite _ _ _)]

/-- What closing once means: one call of `closeCallback_`, one of `connectDestoryed`, and no failed
assertion of theirs. -/
def ClosedOnce (s : ConnSystem) : Prop :=
  s.closeCalls ≤ 1 ∧ s.destroyCalls ≤ 1 ∧ s.failed ≠ some .removeConnectionErased ∧
    s.failed ≠ some .removeConnectionCurrent ∧ s.failed ≠ some .connectDestoryedState

instance (s : ConnSystem) : Decidable s.ClosedOnce := inferInstanceAs (Decidable (_ ∧ _))

theorem Ledger.closedOnce_iff (hs : s.Ledger) : s.ClosedOnce ↔ s.closeCalls ≤ 1 := by
  refine ⟨And.left, fun h => ⟨h, ?_, fun hf => ?_, fun hf => ?_, fun hf => ?_⟩⟩
  · have := hs.destroys
    omega
  · have := hs.removal (.inl hf)
    omega
  · have := hs.removal (.inr hf)
    omega
  · have := hs.destroyed hf
    have := hs.destroys
    omega

end ConnSystem

/-- **When a connection is closed once.** A run of an established connection invokes
`closeCallback_` and `connectDestoryed` at most once and fails none of their owners' assertions
exactly if at most one of its steps reports the end of the stream. -/
theorem closed_once_iff {s t : ConnSystem} {run : List (Transition ConnSystem ConnAction)}
    (h0 : connections.init s) (h : connections.Steps s run t) :
    t.ClosedOnce ↔ (run.countP fun e => e.source.endsStream e.action) ≤ 1 := by
  obtain ⟨ht, hcalls⟩ := (ConnSystem.Ledger.of_init h0).run h
  have hzero : s.closeCalls = 0 := by
    obtain ⟨conn, owner, -, rfl⟩ := h0
    rfl
  rw [ht.closedOnce_iff, hcalls, hzero, Nat.zero_add]

/-- The peer closes, the connection is closed and destroyed. -/
def closeAndDestroy : List ConnAction :=
  [.event (EPOLLIN ||| EPOLLRDHUP), .work (some []) 0 true, .swap, .call 0 true, .work none 0 true]

theorem closed_once_after_eof : ∃ run t, connections.Steps (.new .sample .server) run t ∧
    run.map Transition.action = closeAndDestroy ∧ t.ClosedOnce ∧
      (run.countP fun e => e.source.endsStream e.action) ≤ 1 := by
  obtain ⟨t, ht, honce⟩ := Option.map_eq_some_iff.1 (by decide +kernel :
    ((connections.run (.new .sample .server) closeAndDestroy).map fun t =>
      decide t.ClosedOnce) = some true)
  have honce := of_decide_eq_true honce
  obtain ⟨run, hrun, hmap⟩ := LTS.exists_steps_of_run ht
  exact ⟨run, t, hrun, hmap, honce, (closed_once_iff (sample_init .server) hrun).1 honce⟩

/-- One event with `EPOLLRDHUP` alone, and a read that returns 0. -/
def closeTwice : List ConnAction :=
  [.event EPOLLRDHUP, .work none 0 true, .work (some []) 0 true]

/-- The close branch and the read of one event both run `handleClose`: the second erases nothing. -/
theorem closed_twice_in_one_event : ∃ t, connections.Reachable t ∧ t.closeCalls = 2 ∧
    t.failed = some .removeConnectionErased ∧ ¬t.ClosedOnce := by
  obtain ⟨t, ht, hend⟩ := Option.map_eq_some_iff.1 (by decide +kernel :
    ((connections.run (.new .sample .server) closeTwice).map fun t =>
      (t.closeCalls, t.failed)) = some (2, some .removeConnectionErased))
  obtain ⟨hcalls, hfailed⟩ := Prod.mk.inj hend
  exact ⟨t, .of_run (.init (sample_init .server)) _ ht, hcalls, hfailed, fun h => h.2.2.1 hfailed⟩

end Jiangbo
