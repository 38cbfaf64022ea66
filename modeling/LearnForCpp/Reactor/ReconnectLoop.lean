import LearnForCpp.Reactor.ClientOrder

/-!
# The reconnect loop of a client

A client whose `connect()` is called once has no two connections, restarts for each one that closes
with `retry_` and `connect_` set, and runs into no assertion, exactly as long as no retry timer
opens an attempt while the channel of the one before waits for its `resetChannel`.
-/

namespace Jiangbo

/-- Nothing has been started. -/
structure ConnectorSystem.Idle (c : ConnectorSystem) : Prop where
  state : c.ctx.connector.state = .kDisconnected
  channel : c.ctx.connector.channel = none
  timers : c.retryTimers = []

namespace ClientSystem

variable {s t : ClientSystem} {a : ClientAction} {d : Dial} {now : ℤ}

/-- `connect()` has not been called before. -/
def ConnectsOnce (s : ClientSystem) : ClientAction → Prop
  | .connect _ _ _ => s.connects = 0
  | _ => True

instance (s : ClientSystem) : (a : ClientAction) → Decidable (s.ConnectsOnce a)
  | .connect .. => inferInstanceAs (Decidable (_ = _))
  | .disconnect | .stop | .enableRetry | .close .. | .loop _ => inferInstanceAs (Decidable True)

/-- A client in good order whose `connect()` is called once: nothing has been started before the
call has got to `startInLoop`. -/
structure Once (s : ClientSystem) : Prop where
  inv : s.Inv
  connects : s.connects ≤ 1
  queued : s.connector.tasks.count .startInLoop ≤ s.connects
  idle : s.connects = 0 ∨ .startInLoop ∈ s.connector.tasks → s.connector.Idle

theorem new_once : new.Once := by
  refine ⟨new_inv, Nat.zero_le 1, Nat.zero_le 0, fun _ => ⟨rfl, rfl, rfl⟩⟩

/-- A retry timer opens an attempt only when no `resetChannel` is queued. -/
def ExpireAllowed (s : ClientSystem) : ClientAction → Prop
  | .loop (.expire d _) =>
      s.connector.ctx.connector.connect = true → d.errno.dialClass = .connecting →
        .resetChannel ∉ s.connector.tasks
  | _ => True

instance (s : ClientSystem) : (a : ClientAction) → Decidable (s.ExpireAllowed a)
  | .loop (.expire ..) => inferInstanceAs (Decidable (_ → _ → _))
  | .connect .. | .disconnect | .stop | .enableRetry | .close .. | .loop (.start ..)
  | .loop (.restart ..) | .loop .stop | .loop (.poll ..) | .loop (.event ..)
  | .loop (.handleRead ..) | .loop .reset | .loop .swap | .loop (.call ..) | .loop .finish =>
    inferInstanceAs (Decidable True)

theorem mayStart_of_idle (h : s.connector.Idle) {c : Connector} (hstate : c.state = .kDisconnected)
    (hchannel : c.channel = none) : s.MayStart c d :=
  ⟨hstate, fun _ => .inl h.timers, fun _ _ => hchannel⟩

theorem Once.orderly (hs : s.Once) (honce : s.ConnectsOnce a) (ha : s.ExpireAllowed a)
    (h : s.next a = some t) : s.Orderly a := by
  obtain ⟨-, hmoves⟩ := next_moves h
  cases hmoves with
  | connect hc he =>
    intro _
    have hidle := hs.idle (.inl honce)
    exact mayStart_of_idle hidle hidle.state hidle.channel
  | loop hloop hc he =>
    obtain ⟨-, hmoves⟩ := ConnectorSystem.next_moves hc
    cases hmoves with
    | call hp hafter =>
      intro hhead
      have hmem : .startInLoop ∈ s.connector.tasks :=
        List.mem_append_left _ (List.mem_of_mem_head? hhead)
      have hidle := hs.idle (.inr hmem)
      exact mayStart_of_idle hidle hidle.state hidle.channel
    | expire hp hafter =>
      intro hconnect hclass
      exact (hs.inv.channel_eq_none_iff (hs.inv.popTimer hp).2.1).2 (ha hconnect hclass)
    | _ => trivial
  | _ => trivial

/-- A step that neither calls `connect()` nor the functor that it has queued. -/
theorem Once.congr (hs : s.Once) (ht : t.Inv) (hconnects : t.connects = s.connects)
    (htasks : t.connector.tasks.count .startInLoop = s.connector.tasks.count .startInLoop)
    (hidle : s.connector.Idle → t.connector.Idle) : t.Once := by
  refine ⟨ht, ?_, ?_, ?_⟩
  · rw [hconnects]
    exact hs.connects
  · rw [htasks, hconnects]
    exact hs.queued
  · rw [hconnects, ← List.count_pos_iff, htasks, List.count_pos_iff]
    exact fun h => hidle (hs.idle h)

/-- A step after which the functor is no longer queued. -/
theorem Once.started (ht : t.Inv) (hconnects : t.connects = 1)
    (htasks : t.connector.tasks.count .startInLoop = 0) : t.Once := by
  refine ⟨ht, hconnects.le, by omega, fun h => ?_⟩
  rw [hconnects, ← List.count_pos_iff, htasks] at h
  omega

/-- An attempt that has been reported, a retry timer or a connection has been started. -/
theorem Inv.not_idle (hs : s.Inv)
    (h : s.connector.phase.attempt.isSome = true ∨ s.connector.retryTimers ≠ [] ∨ s.alive ≠ []) :
    ¬s.connector.Idle := by
  rintro ⟨hstate, -, htimers⟩
  obtain ⟨-, halive, hattempt⟩ := hs.disconnected hstate
  rcases h with h | h | h
  · simp [hattempt] at h
  · exact h htimers
  · exact h halive

/-- The functors that the events of an attempt queue. -/
theorem handleEvent_tasks {c : ConnectorSystem} {u : ConnectorSystem} {channel : Channel}
    (hchannel : u.ctx.connector.channel = some channel) (hreg : channel.registeredInEpoller = true)
    (hstate : u.ctx.connector.state = .kConnecting) {err : ℤ} {selfConnect : Bool}
    {revents : EventMask} (h : u.after (u.ctx.handleEvent err selfConnect now revents) = some c) :
    c.tasks.count .startInLoop = u.tasks.count .startInLoop := by
  rcases ConnectorCtx.handleEvent_cases (n := now) hchannel hreg hstate err selfConnect revents
    with he | he | ⟨-, he⟩ | ⟨-, he⟩
  · rw [he] at h
    cases h
    rfl
  · obtain ⟨delay, hretry⟩ := ConnectorCtx.retry_eq (x := u.ctx.ended channel) (n := now)
      channel.fd
    rw [he, hretry] at h
    cases h
    simp [ConnectorSystem.tasks, ConnectorCtx.ended]
  · rw [he] at h
    cases h
    simp [ConnectorSystem.tasks, ConnectorCtx.ended, ConnectorCtx.setState]
  · rw [he] at h
    cases h
    simp [ConnectorSystem.tasks, ConnectorCtx.ended, ConnectorCtx.setState, ConnectorCtx.closefd]

/-- What `startInLoop` leaves of the functors. -/
theorem startInLoop_tasks {c u : ConnectorSystem} (hc : c.failed = none)
    (h : u.after (u.ctx.startInLoop d now) = some c) : c.tasks = u.tasks := by
  rcases ConnectorSystem.after_cases h with ⟨x, hx, rfl⟩ | hfailed
  · rw [ConnectorSystem.tasks, (ConnectorCtx.startInLoop_keeps hx).1]
    rfl
  · simp [hc] at hfailed

/-- A step of the loop. -/
theorem Once.loop {a : ConnectorAction} {c : ConnectorSystem} (hs : s.Once) (ht : t.Inv)
    (hloop : a.isLoop = true) (hc : s.connector.next a = some c) (he : t = { s.adopt c with
      active := if s.connector.phase = .polling then s.alive else s.active }) : t.Once := by
  obtain ⟨client, alive, hadopt⟩ := adopt_fields (s := s) c
  rw [hadopt] at he
  subst he
  have hct := ht.failed
  obtain ⟨-, hmoves⟩ := ConnectorSystem.next_moves hc
  cases hmoves with
  | start => cases hloop
  | restart => cases hloop
  | stop => cases hloop
  | poll hp _ he =>
    subst he
    refine hs.congr ht rfl ?_ fun hidle => ⟨hidle.state, hidle.channel, ?_⟩
    · simp [ConnectorSystem.tasks, hp, ConnectorPhase.functions]
    · simpa [ConnectorSystem.retryTimers, hp, ConnectorPhase.due] using hidle.timers
  | @event err selfConnect now revents timerfd hp hafter =>
    have hattempting := hs.inv.attempt (by rw [hp]; rfl)
    -- only an attempt has a channel in `epoll`, so the connector is not idle
    obtain ⟨channel, hchannel, hreg⟩ := Connector.attempting_iff.1 hattempting
    refine hs.congr ht rfl ?_ fun hidle => absurd hidle (hs.inv.not_idle (.inl (by rw [hp]; rfl)))
    have htasks := handleEvent_tasks
      (u := { s.connector with phase := .handling none timerfd }) hchannel hreg
      (hs.inv.sound.state.1 hattempting) hafter
    simpa [ConnectorSystem.tasks, hp, ConnectorPhase.functions] using htasks
  | handleRead hp hdue he =>
    subst he
    refine hs.congr ht rfl ?_ fun hidle => ⟨hidle.state, hidle.channel, ?_⟩
    · simp [ConnectorSystem.tasks, hp, ConnectorPhase.functions]
    -- no timer waits, so none is due
    · have htimers : s.connector.ctx.timers = [] := by
        simpa [ConnectorSystem.retryTimers, hp, ConnectorPhase.due] using hidle.timers
      rw [htimers] at hdue
      simp [ConnectorSystem.retryTimers, ConnectorPhase.due, htimers, List.perm_nil.1 hdue]
  | expire hp hafter =>
    -- the timer that fires was there, so the connector was not idle
    have htimers : s.connector.retryTimers ≠ [] := by
      simp [ConnectorSystem.retryTimers, hp, ConnectorPhase.due]
    refine hs.congr ht rfl ?_ fun hidle => absurd hidle.timers htimers
    show c.tasks.count .startInLoop = _
    rw [startInLoop_tasks hct hafter]
    simp [ConnectorSystem.tasks, hp, ConnectorPhase.functions]
  | reset hp he =>
    subst he
    refine hs.congr ht rfl ?_ fun hidle => ⟨hidle.state, hidle.channel, ?_⟩
    · simp [ConnectorSystem.tasks, hp, ConnectorPhase.functions]
    · simpa [ConnectorSystem.retryTimers, hp, ConnectorPhase.due] using hidle.timers
  | swap hp he =>
    subst he
    refine hs.congr ht rfl ?_ fun hidle => ⟨hidle.state, hidle.channel, ?_⟩
    · simp [ConnectorSystem.tasks, hp, ConnectorPhase.functions]
    · simpa [ConnectorSystem.retryTimers, hp, ConnectorPhase.due] using hidle.timers
  | @call d now task functions hp hafter =>
    cases task with
    | resetChannel =>
      cases hafter
      refine hs.congr ht rfl ?_ fun hidle => ⟨hidle.state, rfl, ?_⟩
      · simp [ConnectorSystem.tasks, hp, ConnectorPhase.functions, ConnectorCtx.resetChannel]
      · simpa [ConnectorSystem.retryTimers, hp, ConnectorPhase.due, ConnectorCtx.resetChannel]
          using hidle.timers
    | startInLoop =>
      -- the one `startInLoop` there is leaves the batch
      have hcount : s.connector.tasks.count .startInLoop =
          (functions ++ s.connector.ctx.pendingFunctors).count .startInLoop + 1 := by
        rw [ConnectorSystem.tasks, hp]
        exact List.count_cons_self
      have hqueued := hs.queued
      have hconnects := hs.connects
      rw [hcount] at hqueued
      refine Once.started ht (show s.connects = 1 by omega) ?_
      show c.tasks.count .startInLoop = 0
      rw [startInLoop_tasks hct hafter]
      show (functions ++ s.connector.ctx.pendingFunctors).count .startInLoop = 0
      omega
    | connectDestoryed conn =>
      cases hafter
      refine hs.congr ht rfl ?_ fun hidle => ⟨hidle.state, hidle.channel, ?_⟩
      · simp [ConnectorSystem.tasks, hp, ConnectorPhase.functions]
      · simpa [ConnectorSystem.retryTimers, hp, ConnectorPhase.due] using hidle.timers
  | finish hp he =>
    subst he
    refine hs.congr ht rfl ?_ fun hidle => ⟨hidle.state, hidle.channel, ?_⟩
    · simp [ConnectorSystem.tasks, hp, ConnectorPhase.functions]
    · simpa [ConnectorSystem.retryTimers, hp, ConnectorPhase.due] using hidle.timers

/-- The `closeCallback_` of a connection. -/
theorem Once.close {conn : ℤ} (hs : s.Once) (ht : t.Inv) (halive : conn ∈ s.alive)
    (h : s.removeConnection conn d now = some t) : t.Once := by
  have hidle (hidle : s.connector.Idle) : t.connector.Idle :=
    absurd hidle (hs.inv.not_idle (.inr (.inr (List.ne_nil_of_mem halive))))
  have hforget : (s.forget conn).connector.tasks.count .startInLoop =
      s.connector.tasks.count .startInLoop := by
    simp [ConnectorSystem.tasks, forget, ConnectorCtx.queueInLoop]
  rcases removeConnection_cases h with ⟨-, -, -, c, hc, rfl⟩ | ⟨-, -, rfl⟩ | ⟨-, rfl⟩
  · obtain ⟨-, hmoves⟩ := ConnectorSystem.next_moves hc
    cases hmoves with
    | restart hp hafter =>
      have htasks := startInLoop_tasks
        (u := { (s.forget conn).connector with ctx := (s.forget conn).connector.ctx.reinit })
        ht.failed hafter
      refine hs.congr ht rfl ?_ hidle
      show c.tasks.count .startInLoop = _
      rw [htasks]
      exact hforget
  · exact hs.congr ht rfl hforget hidle
  · exact hs.congr ht rfl rfl hidle

/-- `connect()`. -/
theorem Once.connect {inLoop : Bool} {c : ConnectorSystem} (hs : s.Once) (ht : t.Inv)
    (hconnects : s.connects = 0) (hc : s.connector.next (.start inLoop d now) = some c)
    (he : t = { s with connector := c, client.connect := true, connects := s.connects + 1 }) :
    t.Once := by
  subst he
  have hqueued := hs.queued
  rw [hconnects] at hqueued
  obtain ⟨-, hmoves⟩ := ConnectorSystem.next_moves hc
  cases hmoves with
  | start hafter =>
    cases inLoop with
    | true =>
      have htasks := startInLoop_tasks
        (u := { s.connector with ctx.connector.connect := true }) ht.failed hafter
      refine Once.started ht (show s.connects + 1 = 1 by omega) ?_
      show c.tasks.count .startInLoop = 0
      rw [htasks]
      exact Nat.le_zero.1 hqueued
    | false =>
      cases hafter
      have hidle := hs.idle (.inl hconnects)
      refine ⟨ht, ?_, ?_, fun _ => ⟨hidle.state, hidle.channel, hidle.timers⟩⟩
      · show s.connects + 1 ≤ 1
        omega
      · show (s.connector.phase.functions ++
          (s.connector.ctx.pendingFunctors ++ [ConnectorTask.startInLoop])).count
            ConnectorTask.startInLoop ≤ s.connects + 1
        rw [← List.append_assoc, List.count_append]
        simpa [ConnectorSystem.tasks, hconnects] using hqueued

/-- **Steps in good order** keep a client whose `connect()` is called once so. -/
theorem Once.step (hs : s.Once) (honce : s.ConnectsOnce a) (ha : s.ExpireAllowed a)
    (h : s.next a = some t) : t.Once := by
  have ht := hs.inv.step (hs.orderly honce ha h) h
  obtain ⟨-, hmoves⟩ := next_moves h
  cases hmoves with
  | connect hc he => exact hs.connect ht honce hc he
  | disconnect he =>
    subst he
    exact hs.congr ht rfl rfl id
  | stop hc he =>
    subst he
    obtain ⟨-, hmoves⟩ := ConnectorSystem.next_moves hc
    cases hmoves with
    | stop he =>
      subst he
      exact hs.congr ht rfl rfl fun hidle => ⟨hidle.state, hidle.channel, hidle.timers⟩
  | enableRetry he =>
    subst he
    exact hs.congr ht rfl rfl id
  | close _ _ halive hremove => exact hs.close ht halive hremove
  | loop hloop hc he => exact hs.loop ht hloop hc he

/-! ### The reconnect loop -/

/-- The calls of `restart()` that a step should make. -/
def restartsDue (s : ClientSystem) : ClientAction → ℕ
  | .close _ _ _ => if s.client.retry ∧ s.client.connect then 1 else 0
  | _ => 0

/-- What a step keeps: no assertion fails; `connection_` is the one connection whose
`closeCallback_` has not been called, or null if there is none; and `restart()` is called when a
connection closes with `retry_` and `connect_` set, and only then. -/
def KeepsConnection (s : ClientSystem) (a : ClientAction) (t : ClientSystem) : Prop :=
  t.connector.failed = none ∧ t.alive = t.client.connection.toList ∧
    t.restarts = s.restarts + s.restartsDue a

/-- The calls of `restart()`. -/
theorem restarts_eq (h : s.next a = some t) (ht : t.connector.failed = none) :
    t.restarts = s.restarts + s.restartsDue a := by
  obtain ⟨-, hmoves⟩ := next_moves h
  cases hmoves with
  | @loop a c hloop hc he =>
    obtain ⟨client, alive, hadopt⟩ := adopt_fields (s := s) c
    rw [he, hadopt]
    rfl
  | close _ _ _ hremove =>
    rcases removeConnection_cases hremove with ⟨-, h1, h2, c, hc, rfl⟩ | ⟨-, hretry, rfl⟩ | ⟨-, rfl⟩
    · simp [forget, restartsDue, h1, h2]
    · rw [restartsDue, if_neg hretry]
      rfl
    · cases ht
  | connect _ he =>
    subst he
    rfl
  | disconnect he =>
    subst he
    rfl
  | stop _ he =>
    subst he
    rfl
  | enableRetry he =>
    subst he
    rfl

/-- A retry timer that opens an attempt in the way of a channel fails. -/
theorem Inv.expire_fails (hs : s.Inv) (h : s.next (.loop (.expire d now)) = some t)
    (hconnect : s.connector.ctx.connector.connect = true) (hclass : d.errno.dialClass = .connecting)
    (htasks : .resetChannel ∈ s.connector.tasks) :
    t.connector.failed = some .connectingChannel := by
  obtain ⟨-, hmoves⟩ := next_moves h
  cases hmoves with
  | @loop _ c hloop hc he =>
    subst he
    show (s.adopt c).connector.failed = _
    rw [adopt_connector]
    obtain ⟨-, hmoves⟩ := ConnectorSystem.next_moves hc
    cases hmoves with
    | expire hp hafter =>
      have hstate := (hs.popTimer hp).2.1
      have hchannel : s.connector.ctx.connector.channel ≠ none := fun h =>
        (hs.channel_eq_none_iff hstate).1 h htasks
      cases d with
      | noSocket => cases hclass
      | connect errno =>
        obtain ⟨y, hy⟩ := ConnectorCtx.connecting_fault
          (x := { s.connector.ctx with
            sockets.created := s.connector.ctx.sockets.created + 1 }) hchannel
          s.connector.ctx.sockets.created
        rw [ConnectorCtx.startInLoop_eq hstate, if_pos hconnect] at hafter
        simp only [ConnectorCtx.connect, ConnectorCtx.createNonblockingOrDie, hclass] at hafter
        rw [hy] at hafter
        cases hafter
        rfl

theorem Once.keepsConnection_iff (hs : s.Once) (honce : s.ConnectsOnce a)
    (h : s.next a = some t) : s.KeepsConnection a t ↔ s.ExpireAllowed a := by
  constructor
  · rintro ⟨hfailed, -, -⟩
    cases a with
    | loop a =>
      cases a with
      | expire d now =>
        intro hconnect hclass htasks
        rw [hs.inv.expire_fails h hconnect hclass htasks] at hfailed
        cases hfailed
      | _ => trivial
    | _ => trivial
  · intro ha
    have ht := hs.inv.step (hs.orderly honce ha h) h
    exact ⟨ht.failed, ht.connection, restarts_eq h ht.failed⟩

end ClientSystem

/-- The runs of a client whose `connect()` is called at most once. -/
def reconnectSystems : LTS ClientSystem ClientAction :=
  clientSystems.restrict ClientSystem.ConnectsOnce

/-- **The reconnect loop.** In every run in which `connect()` is called at most once, no assertion
fails, `connection_` is the one connection that has not closed, and `restart()` is called for the
connections that close with `retry_` and `connect_` set, exactly if no retry timer opens an attempt
while a `resetChannel` is queued. -/
theorem keeps_connection_iff {s₀ s : ClientSystem}
    {run : List (Transition ClientSystem ClientAction)} (h₀ : reconnectSystems.init s₀)
    (hrun : reconnectSystems.Steps s₀ run s) :
    (∀ e ∈ run, e.source.KeepsConnection e.action e.target) ↔
      ∀ e ∈ run, e.source.ExpireAllowed e.action := by
  have hs : s₀.Once := h₀ ▸ ClientSystem.new_once
  refine hrun.forall_iff hs (fun _ _ _ hi hn => ?_) fun _ _ _ hi ha hn => ?_
  · obtain ⟨honce, hn⟩ := LTS.restrict_next.1 hn
    exact hi.keepsConnection_iff honce hn
  · obtain ⟨honce, hn⟩ := LTS.restrict_next.1 hn
    exact hi.step honce ha hn

/-- A connection that closes and is restarted, and a `disconnect()` before the next one closes. -/
theorem keeps_connection_twice : ∃ (s : ClientSystem) (run : List _),
    reconnectSystems.Steps .new run s ∧ s.connector.ctx.sockets.handed = [0, 2] ∧
      s.restarts = 1 ∧ ∀ e ∈ run, e.source.KeepsConnection e.action e.target := by
  let acts : List ClientAction :=
    [.enableRetry, .connect true (.connect .ok) 0, .loop .swap, .loop .finish,
      .loop (.poll (some EPOLLOUT) false), .loop (.event 0 false 0), .loop .swap,
      .loop (.call .noSocket 0), .loop .finish, .loop (.poll none false),
      .close 0 (.connect .ECONNREFUSED) 0, .loop .swap, .loop (.call .noSocket 0), .loop .finish,
      .loop (.poll none true), .loop (.handleRead 500000 [500000]),
      .loop (.expire (.connect .EINPROGRESS) 500000), .loop .reset, .loop .swap, .loop .finish,
      .loop (.poll (some EPOLLOUT) false), .loop (.event 0 false 600000), .loop .swap,
      .loop (.call .noSocket 600000), .loop .finish, .loop (.poll none false), .disconnect,
      .close 2 .noSocket 700000]
  obtain ⟨s, hs, hend⟩ := Option.map_eq_some_iff.1 (by decide +kernel :
    (((reconnectSystems.restrict ClientSystem.ExpireAllowed).run .new acts).map fun s =>
      (s.connector.ctx.sockets.handed, s.restarts)) = some ([0, 2], 1))
  simp only [Prod.mk.injEq] at hend
  obtain ⟨run, hrun, -⟩ := LTS.exists_steps_of_run hs
  obtain ⟨hrun, hallowed⟩ := hrun.of_restrict
  exact ⟨s, run, hrun, hend.1, hend.2, (keeps_connection_iff rfl hrun).2 hallowed⟩

/-- A handler that takes longer than the back-off: the retry timer expires in the batch in which the
attempt failed. -/
theorem retry_before_reset : ∃ (s : ClientSystem) (run : List _),
    reconnectSystems.Steps .new run s ∧ run.map Transition.action =
      [.connect true (.connect .EINPROGRESS) 0, .loop .swap, .loop .finish,
        .loop (.poll (some EPOLLERR) true), .loop (.event 0 false 0),
        .loop (.handleRead 600000 [500000]), .loop (.expire (.connect .EINPROGRESS) 600000)] ∧
      s.connector.failed = some .connectingChannel := by
  let acts : List ClientAction :=
    [.connect true (.connect .EINPROGRESS) 0, .loop .swap, .loop .finish,
      .loop (.poll (some EPOLLERR) true), .loop (.event 0 false 0),
      .loop (.handleRead 600000 [500000]), .loop (.expire (.connect .EINPROGRESS) 600000)]
  obtain ⟨s, hs, hend⟩ := Option.map_eq_some_iff.1 (by decide +kernel :
    (reconnectSystems.run .new acts).map (fun s => s.connector.failed) =
      some (some .connectingChannel))
  obtain ⟨run, hrun, hmap⟩ := LTS.exists_steps_of_run hs
  exact ⟨s, run, hrun, hmap, hend⟩

end Jiangbo
