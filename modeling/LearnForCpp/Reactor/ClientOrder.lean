import LearnForCpp.Reactor.ClientSystem

/-!
# A client in good order

A client has at most one of an attempt in progress, a retry timer and a connection, as long as
`connect()` finds nothing left of an earlier one and no retry timer expires before the functor that
was to reset the channel of the attempt it repeats.  `Inv` is what the steps keep then.
-/

namespace Jiangbo

namespace ConnectorCtx

variable {x : ConnectorCtx} {functions : List ConnectorTask} {d : Dial} {now : ℤ}

/-- **A start.** In the state `kDisconnected`, and without a channel in the way, `startInLoop` does
nothing but spend a socket, or sets a retry timer, or opens an attempt. -/
theorem startInLoop_cases {n : ℤ} (h : x.Sound functions)
    (hstate : x.connector.state = .kDisconnected)
    (hchannel : x.connector.connect = true → d.errno.dialClass = .connecting →
      x.connector.channel = none) :
    ∃ y, x.startInLoop d n = .ok y ∧ y.Sound functions ∧
      y.connector.connect = x.connector.connect ∧ y.sockets.handed = x.sockets.handed ∧
      y.pendingFunctors = x.pendingFunctors ∧
      ((x.connector.connect = false ∨ d.errno.dialClass = .close) ∧
          y.connector.channel = x.connector.channel ∧ y.connector.state = .kDisconnected ∧
          y.timers = x.timers ∨
        x.connector.connect = true ∧ d.errno.dialClass = .retry ∧
          y.connector.channel = x.connector.channel ∧ y.connector.state = .kDisconnected ∧
          (∃ i, y.timers = x.timers ++ [i]) ∨
        x.connector.connect = true ∧ d.errno.dialClass = .connecting ∧
          y.connector.attempting = true ∧ y.timers = x.timers) := by
  have hends := h.startInLoop (d := d) (n := n)
  rw [startInLoop_eq hstate] at hends ⊢
  cases hconnect : x.connector.connect with
  | false =>
    exact ⟨x, rfl, h, hconnect, rfl, rfl, .inl ⟨.inl rfl, rfl, hstate, rfl⟩⟩
  | true =>
    rw [hconnect, if_pos rfl] at hends
    rw [if_pos rfl]
    cases d with
    | noSocket =>
      exact ⟨_, rfl, hends, hconnect, rfl, rfl, .inl ⟨.inr rfl, rfl, hstate, rfl⟩⟩
    | connect errno =>
      simp only [ConnectorCtx.connect, createNonblockingOrDie] at hends ⊢
      cases hclass : (Dial.connect errno).errno.dialClass with
      | connecting =>
        rw [hclass] at hends
        have hnone := hchannel hconnect hclass
        have heq := connecting_eq (x := { x with sockets.created := x.sockets.created + 1 }) hnone
          x.sockets.created
        dsimp only at hends ⊢
        rw [heq] at hends
        exact ⟨_, heq, hends, hconnect, rfl, rfl, .inr (.inr ⟨trivial, rfl, rfl, rfl⟩)⟩
      | retry =>
        rw [hclass] at hends
        obtain ⟨delay, hretry⟩ := retry_eq (n := n)
          (x := { x with sockets.created := x.sockets.created + 1 }) x.sockets.created
        dsimp only at hends ⊢
        rw [hretry] at hends
        refine ⟨_, congrArg Outcome.ok hretry, hends, hconnect, rfl, rfl,
          .inr (.inl ⟨trivial, rfl, rfl, rfl, ?_⟩)⟩
        exact ⟨_, congrArg (x.timers ++ ·) (if_pos hconnect)⟩
      | close =>
        rw [hclass] at hends
        exact ⟨_, rfl, hends, hconnect, rfl, rfl, .inl ⟨.inr rfl, rfl, hstate, rfl⟩⟩

end ConnectorCtx

namespace ClientSystem

/-- What a client in good order keeps: it has at most one of an attempt, a retry timer and a
connection; a timer goes with the state `kDisconnected` and a connection with `kConnected`.  An
attempt that has been reported is still in progress, a connection that has been reported has no
channel of an attempt beside it, and `resetChannel` is queued by handlers alone. -/
structure Inv (s : ClientSystem) : Prop where
  failed : s.connector.failed = none
  sound : s.connector.ctx.Sound s.connector.phase.functions
  one : s.connector.ctx.connector.attempting.toNat + s.connector.retryTimers.length +
    s.alive.length ≤ 1
  timers : s.connector.retryTimers ≠ [] → s.connector.ctx.connector.state = .kDisconnected
  alive : s.alive ≠ [] → s.connector.ctx.connector.state = .kConnected
  connection : s.alive = s.client.connection.toList
  attempt : s.connector.phase.attempt.isSome = true → s.connector.ctx.connector.attempting = true
  active : ∀ conn ∈ s.active, conn ∈ s.alive → s.connector.ctx.connector.channel = none
  handed : ∀ conn ∈ s.active ++ s.alive, conn ∈ s.connector.ctx.sockets.handed
  reset : s.connector.phase.handled = true →
    .resetChannel ∉ s.connector.ctx.pendingFunctors

variable {s t : ClientSystem} {d : Dial} {now : ℤ}

theorem new_inv : new.Inv := by
  refine ⟨rfl, ConnectorCtx.new_sound, by decide, by simp [new, ConnectorSystem.new,
    ConnectorSystem.retryTimers, ConnectorPhase.due], by simp [new], rfl, by simp [new,
    ConnectorSystem.new, ConnectorPhase.attempt], by simp [new], by simp [new], by simp [new,
    ConnectorSystem.new]⟩

/-- In the state `kDisconnected` there is neither an attempt nor a connection. -/
theorem Inv.disconnected (hs : s.Inv) (hstate : s.connector.ctx.connector.state = .kDisconnected) :
    s.connector.ctx.connector.attempting = false ∧ s.alive = [] ∧
      s.connector.phase.attempt = none := by
  have hattempting : s.connector.ctx.connector.attempting = false := by
    by_contra h
    have := hs.sound.state.1 (by simpa using h)
    rw [hstate] at this
    cases this
  refine ⟨hattempting, ?_, ?_⟩
  · by_contra h
    have := hs.alive h
    rw [hstate] at this
    cases this
  · cases hp : s.connector.phase.attempt with
    | none => rfl
    | some r =>
      have := hs.attempt (by rw [hp]; rfl)
      rw [hattempting] at this
      cases this

/-- In the state `kDisconnected` a channel is one that waits for its `resetChannel`. -/
theorem Inv.channel_eq_none_iff (hs : s.Inv)
    (hstate : s.connector.ctx.connector.state = .kDisconnected) :
    s.connector.ctx.connector.channel = none ↔ .resetChannel ∉ s.connector.tasks := by
  have hattempting := (hs.disconnected hstate).1
  rw [Connector.channel_eq_none_iff, ConnectorSystem.tasks, ← List.count_eq_zero, hs.sound.reset,
    Bool.toNat_eq_zero]
  exact and_iff_right hattempting

/-- A change of the flags and of functors other than `resetChannel`. -/
theorem Inv.congr {u : ClientSystem} (hs : s.Inv) (hfailed : u.connector.failed = none)
    (hphase : u.connector.phase = s.connector.phase)
    (hchannel : u.connector.ctx.connector.channel = s.connector.ctx.connector.channel)
    (hstate : u.connector.ctx.connector.state = s.connector.ctx.connector.state)
    (htimers : u.connector.ctx.timers = s.connector.ctx.timers)
    (hsockets : u.connector.ctx.sockets = s.connector.ctx.sockets)
    (htasks : u.connector.ctx.pendingFunctors.count .resetChannel =
      s.connector.ctx.pendingFunctors.count .resetChannel)
    (halive : u.alive = s.alive) (hactive : u.active = s.active)
    (hconnection : u.client.connection = s.client.connection) : u.Inv := by
  have hattempting : u.connector.ctx.connector.attempting =
      s.connector.ctx.connector.attempting := by
    rw [Connector.attempting, hchannel]
    rfl
  have hretry : u.connector.retryTimers = s.connector.retryTimers := by
    rw [ConnectorSystem.retryTimers, hphase, htimers]
    rfl
  constructor
  · exact hfailed
  · rw [hphase]
    exact hs.sound.congr hchannel hstate hsockets htasks
  · rw [hattempting, hretry, halive]
    exact hs.one
  · rw [hretry, hstate]
    exact hs.timers
  · rw [halive, hstate]
    exact hs.alive
  · rw [halive, hconnection]
    exact hs.connection
  · rw [hphase, hattempting]
    exact hs.attempt
  · rw [hactive, halive, hchannel]
    exact hs.active
  · rw [hactive, halive, hsockets]
    exact hs.handed
  · rw [hphase]
    intro hp
    rw [← List.count_eq_zero, htasks, List.count_eq_zero]
    exact hs.reset hp

/-- **A start in good order.** In the state `kDisconnected`, `startInLoop` keeps the order when no
retry timer is left or the new socket is closed at once, and no channel is in its way. -/
theorem Inv.start {n : ℤ} (hs : s.Inv) (hstate : s.connector.ctx.connector.state = .kDisconnected)
    (htimers : s.connector.ctx.connector.connect = true →
      s.connector.retryTimers = [] ∨ d.errno.dialClass = .close)
    (hchannel : s.connector.ctx.connector.connect = true → d.errno.dialClass = .connecting →
      s.connector.ctx.connector.channel = none) :
    ∃ y, s.connector.ctx.startInLoop d n = .ok y ∧
      { s with connector.ctx := y }.Inv ∧ y.sockets.handed = s.connector.ctx.sockets.handed := by
  obtain ⟨hattempting, halive, hattempt⟩ := hs.disconnected hstate
  obtain ⟨y, hy, hsound, hconnect, hhanded, htasks, hcases⟩ :=
    ConnectorCtx.startInLoop_cases (d := d) (n := n) hs.sound hstate hchannel
  have hone := hs.one
  rw [hattempting, halive] at hone
  refine ⟨y, hy, ⟨hs.failed, hsound, ?_, ?_, ?_, hs.connection, ?_, ?_, ?_, ?_⟩, hhanded⟩
  · -- one of an attempt, a timer and a connection
    rw [ConnectorSystem.retryTimers, List.length_append] at hone ⊢
    simp only [halive]
    rcases hcases with ⟨-, hc, -, ht⟩ | ⟨hc1, hc2, hc, -, i, ht⟩ | ⟨hc1, hc2, hc, ht⟩
    · have hatt : y.connector.attempting = false := by
        rw [Connector.attempting, hc]
        exact hattempting
      simpa only [hatt, ht] using hone
    · have hatt : y.connector.attempting = false := by
        rw [Connector.attempting, hc]
        exact hattempting
      have hnil := (htimers hc1).resolve_right (by simp [hc2])
      rw [ConnectorSystem.retryTimers, List.append_eq_nil_iff] at hnil
      simp [hatt, ht, hnil]
    · have hnil := (htimers hc1).resolve_right (by simp [hc2])
      rw [ConnectorSystem.retryTimers, List.append_eq_nil_iff] at hnil
      simp [hc, ht, hnil]
  · intro hne
    rcases hcases with ⟨-, -, hst, -⟩ | ⟨-, -, -, hst, -⟩ | ⟨hc1, hc2, -, ht⟩
    · exact hst
    · exact hst
    · have hnil := (htimers hc1).resolve_right (by simp [hc2])
      rw [ConnectorSystem.retryTimers, List.append_eq_nil_iff] at hnil
      simp [ConnectorSystem.retryTimers, ht, hnil] at hne
  · intro hne
    exact absurd halive hne
  · intro hsome
    simp [hattempt] at hsome
  · intro conn _ hmem
    simp [halive] at hmem
  · rw [hhanded]
    exact hs.handed
  · rw [htasks]
    exact hs.reset

/-! ### The steps of the loop -/

/-- The return of `epoll_wait`. -/
theorem Inv.poll {attempt : Option EventMask} {timerfd : Bool} (hs : s.Inv)
    (hp : s.connector.phase = .polling)
    (ha : attempt.isSome = true → s.connector.ctx.connector.attempting = true) :
    { s with
      connector.phase := .handling attempt timerfd
      active := s.alive }.Inv := by
  have hsound := hs.sound
  have hone := hs.one
  have htimers := hs.timers
  have hnone := List.count_eq_zero.2 (hs.reset (by rw [hp]; rfl))
  rw [ConnectorSystem.retryTimers] at hone htimers
  rw [hp] at hsound hone htimers
  refine ⟨hs.failed, hsound, hone, htimers, hs.alive, hs.connection, ha, fun conn hmem _ => ?_,
    fun conn hmem => ?_, fun h => by cases h⟩
  · -- a connection goes with `kConnected`, and the functors have all been called
    have hstate := hs.alive (List.ne_nil_of_mem hmem)
    have hclosing := hsound.reset
    rw [ConnectorPhase.functions, List.nil_append, hnone] at hclosing
    refine Connector.channel_eq_none_iff.2 ⟨?_, ?_⟩
    · by_contra h
      have := hsound.state.1 (by simpa using h)
      rw [hstate] at this
      cases this
    · cases hc : s.connector.ctx.connector.closing with
      | false => rfl
      | true => simp [hc] at hclosing
  · rw [List.mem_append, or_self] at hmem
    exact hs.handed conn (List.mem_append_right _ hmem)

/-- The socket of an attempt has not been handed over. -/
theorem held_not_handed {x : ConnectorCtx} {functions : List ConnectorTask} {channel : Channel}
    (h : x.Sound functions) (hchannel : x.connector.channel = some channel)
    (hreg : channel.registeredInEpoller = true) : channel.fd ∉ x.sockets.handed := by
  have hheld : x.connector.held = [channel.fd] := by simp [Connector.held, hchannel, hreg]
  obtain ⟨i, hi⟩ := Int.eq_ofNat_of_zero_le (h.nonneg channel.fd (by simp [hheld]))
  have hcount := h.sockets i
  rw [hheld, ← hi, List.count_singleton_self] at hcount
  rw [← List.count_eq_zero]
  split_ifs at hcount
  · omega
  · omega

/-- The attempt has ended without a connection: what the client looks like among the handlers. -/
theorem Inv.ended {y : ConnectorCtx} {timerfd : Bool} (hs : s.Inv) (halive : s.alive = [])
    (hsound : y.Sound []) (hattempting : y.connector.attempting = false)
    (htimers : y.timers.length ≤ 1)
    (hstate : y.timers ≠ [] → y.connector.state = .kDisconnected)
    (hhanded : y.sockets.handed = s.connector.ctx.sockets.handed) :
    { s with connector := { s.connector with
      ctx := y
      phase := .handling none timerfd } }.Inv := by
  refine ⟨hs.failed, hsound, ?_, hstate, fun h => absurd halive h, hs.connection,
    (fun h => by cases h), fun conn _ hmem => ?_, ?_, (fun h => by cases h)⟩
  · show y.connector.attempting.toNat + y.timers.length + s.alive.length ≤ 1
    rw [hattempting, halive]
    simpa using htimers
  · simp [halive] at hmem
  · show ∀ conn ∈ s.active ++ s.alive, conn ∈ y.sockets.handed
    rw [hhanded]
    exact hs.handed

/-- The events of the attempt. -/
theorem Inv.event {c : ConnectorSystem} {revents : EventMask} {timerfd : Bool} (hs : s.Inv)
    (hp : s.connector.phase = .handling (some revents) timerfd) (err : ℤ) (selfConnect : Bool)
    (h : { s.connector with phase := .handling none timerfd }.after
      (s.connector.ctx.handleEvent err selfConnect now revents) = some c) :
    (s.adopt c).Inv := by
  have hattempting := hs.attempt (by rw [hp]; rfl)
  have hone := hs.one
  rw [hattempting, Bool.toNat_true, ConnectorSystem.retryTimers, hp, List.length_append] at hone
  -- the attempt is the one there may be: no timer and no connection beside it
  have htimers : s.connector.ctx.timers = [] := List.eq_nil_of_length_eq_zero (by omega)
  have halive : s.alive = [] := List.eq_nil_of_length_eq_zero (by omega)
  obtain ⟨channel, hchannel, hreg⟩ := Connector.attempting_iff.1 hattempting
  have hsound := hs.sound
  rw [hp] at hsound
  have hfresh := held_not_handed hsound hchannel hreg
  have hends := hsound.handleEvent (n := now) err selfConnect revents
  rcases ConnectorCtx.handleEvent_cases (n := now) hchannel hreg (hsound.state.1 hattempting) err
    selfConnect revents with he | he | ⟨hconnect, he⟩ | ⟨hconnect, he⟩
  · -- the attempt goes on
    rw [he] at h
    cases h
    rw [adopt_eq]
    · refine ⟨hs.failed, hsound, ?_, ?_, hs.alive, hs.connection, (fun h => by cases h), hs.active,
        hs.handed, (fun h => by cases h)⟩
      · simp [ConnectorSystem.retryTimers, ConnectorPhase.due, htimers, halive, hattempting]
      · simp [ConnectorSystem.retryTimers, ConnectorPhase.due, htimers]
    · rfl
  · -- it ends with `retry`
    rw [he] at h hends
    cases h
    obtain ⟨delay, hretry⟩ := ConnectorCtx.retry_eq (x := s.connector.ctx.ended channel)
      (n := now) channel.fd
    rw [hretry] at hends ⊢
    rw [adopt_eq]
    · refine hs.ended halive hends rfl ?_ (fun _ => rfl) rfl
      show (s.connector.ctx.timers ++ if _ then _ else _).length ≤ 1
      rw [htimers]
      split_ifs <;> simp
    · rfl
  · -- the socket is handed over
    rw [he] at h hends
    cases h
    rw [adopt_handed rfl]
    refine
      { failed := hs.failed, sound := hends, one := ?one, timers := ?timers, alive := fun _ => rfl,
        connection := ?connection, attempt := (fun h => by cases h), active := ?active,
        handed := ?handed, reset := (fun h => by cases h) }
    case one =>
      show 0 + s.connector.ctx.timers.length + (s.alive ++ [channel.fd]).length ≤ 1
      rw [htimers, halive]
      simp
    case timers =>
      show s.connector.ctx.timers ≠ [] → _
      simp [htimers]
    case connection =>
      show s.alive ++ [channel.fd] = [channel.fd]
      rw [halive, List.nil_append]
    case active =>
      intro conn hactive hmem
      have hmem : conn ∈ s.alive ++ [channel.fd] := hmem
      rw [halive, List.nil_append, List.mem_singleton] at hmem
      subst hmem
      exact absurd (hs.handed _ (List.mem_append_left _ hactive)) hfresh
    case handed =>
      show ∀ conn ∈ s.active ++ (s.alive ++ [channel.fd]),
        conn ∈ s.connector.ctx.sockets.handed ++ [channel.fd]
      intro conn hmem
      rw [← List.append_assoc, List.mem_append] at hmem
      rcases hmem with hmem | hmem
      · exact List.mem_append_left _ (hs.handed conn hmem)
      · exact List.mem_append_right _ hmem
  · -- the connector was stopped
    rw [he] at h hends
    cases h
    rw [adopt_eq]
    · refine hs.ended halive hends rfl ?_ (fun hne => absurd htimers hne) rfl
      show s.connector.ctx.timers.length ≤ 1
      rw [htimers]
      exact Nat.zero_le 1
    · rfl

/-- `TimerQueue::handleRead` loses no timer. -/
theorem length_due_append {timers due : List ℤ} (h : due.Perm (timers.filter (· ≤ now))) :
    (due ++ timers.filter (now < ·)).length = timers.length := by
  have hsplit := List.length_eq_length_filter_add (l := timers) (f := fun i => decide (i ≤ now))
  simp only [← decide_not, not_le] at hsplit
  rw [List.length_append, h.length_eq, hsplit]

/-- `TimerQueue::handleRead` takes the due timers out of the queue. -/
theorem Inv.handleRead {due : List ℤ} {attempt : Option EventMask} (hs : s.Inv)
    (hp : s.connector.phase = .handling attempt true)
    (hdue : due.Perm (s.connector.ctx.timers.filter (· ≤ now))) :
    { s with connector := { s.connector with
      ctx.timers := s.connector.ctx.timers.filter (now < ·)
      phase := .expiring due attempt } }.Inv := by
  have hlength := length_due_append hdue
  have hsound := hs.sound
  have hone := hs.one
  have htimers := hs.timers
  rw [ConnectorSystem.retryTimers, hp] at hone htimers
  rw [hp] at hsound
  refine ⟨hs.failed, hsound.congr rfl rfl rfl rfl, ?_, ?_, hs.alive, hs.connection, ?_, hs.active,
    hs.handed, fun h => by cases h⟩
  · show _ + (due ++ s.connector.ctx.timers.filter (now < ·)).length + _ ≤ 1
    rw [hlength]
    exact hone
  · show due ++ s.connector.ctx.timers.filter (now < ·) ≠ [] → _
    intro hne
    refine htimers ?_
    rw [← List.length_pos_iff] at hne ⊢
    rw [hlength] at hne
    exact hne
  · have := hs.attempt
    rw [hp] at this
    exact this

/-- A due timer is taken off the list. -/
theorem Inv.popTimer {i : ℤ} {due : List ℤ} {attempt : Option EventMask} (hs : s.Inv)
    (hp : s.connector.phase = .expiring (i :: due) attempt) :
    { s with connector.phase := .expiring due attempt }.Inv ∧
      s.connector.ctx.connector.state = .kDisconnected ∧ due = [] ∧
      s.connector.ctx.timers = [] := by
  have hsound := hs.sound
  have hone := hs.one
  have hattempt := hs.attempt
  have hstate := hs.timers (by rw [ConnectorSystem.retryTimers, hp]; simp [ConnectorPhase.due])
  rw [ConnectorSystem.retryTimers, hp, ConnectorPhase.due, List.cons_append,
    List.length_cons, List.length_append] at hone
  rw [hp] at hsound hattempt
  have hdue : due = [] := List.eq_nil_of_length_eq_zero (by omega)
  have htimers : s.connector.ctx.timers = [] := List.eq_nil_of_length_eq_zero (by omega)
  refine ⟨⟨hs.failed, hsound, ?_, fun _ => hstate, hs.alive, hs.connection, hattempt, hs.active,
    hs.handed, fun h => by cases h⟩, hstate, hdue, htimers⟩
  show s.connector.ctx.connector.attempting.toNat + (due ++ s.connector.ctx.timers).length +
    s.alive.length ≤ 1
  rw [List.length_append]
  omega

/-- A step to another phase, with the same timers and functors. -/
theorem Inv.phase {phase : ConnectorPhase} (hs : s.Inv)
    (hfunctions : phase.functions = s.connector.phase.functions)
    (hdue : phase.due = s.connector.phase.due)
    (hattempt : phase.attempt = s.connector.phase.attempt)
    (hhandled : phase.handled = true → s.connector.phase.handled = true) :
    { s with connector.phase := phase }.Inv := by
  refine
    { failed := hs.failed, sound := ?sound, one := ?one, timers := ?timers, alive := hs.alive,
      connection := hs.connection, attempt := ?attempt, active := hs.active, handed := hs.handed,
      reset := ?reset }
  case sound =>
    show s.connector.ctx.Sound phase.functions
    rw [hfunctions]
    exact hs.sound
  case one =>
    show _ + (phase.due ++ _).length + _ ≤ 1
    rw [hdue]
    exact hs.one
  case timers =>
    show phase.due ++ _ ≠ [] → _
    rw [hdue]
    exact hs.timers
  case attempt =>
    show phase.attempt.isSome = true → _
    rw [hattempt]
    exact hs.attempt
  case reset =>
    exact fun h => hs.reset (hhandled h)

/-- The swap of `doPendingFunctions`. -/
theorem Inv.swap (hs : s.Inv) (hp : s.connector.phase = .handling none false) :
    { s with connector := { s.connector with
      ctx.pendingFunctors := []
      phase := .running s.connector.ctx.pendingFunctors } }.Inv := by
  have hsound := hs.sound
  have hone := hs.one
  have htimers := hs.timers
  rw [ConnectorSystem.retryTimers, hp] at hone htimers
  rw [hp] at hsound
  refine ⟨hs.failed, ⟨hsound.sockets, hsound.state, ?_, hsound.nonneg⟩, hone, htimers, hs.alive,
    hs.connection, (fun h => by cases h), hs.active, hs.handed, fun _ => List.not_mem_nil⟩
  rw [List.append_nil]
  exact hsound.reset

/-- A functor other than `resetChannel` is taken off the batch. -/
theorem Inv.popTask {task : ConnectorTask} {functions : List ConnectorTask} (hs : s.Inv)
    (hp : s.connector.phase = .running (task :: functions)) (hne : task ≠ .resetChannel) :
    { s with connector.phase := .running functions }.Inv := by
  have hsound := hs.sound
  have hone := hs.one
  have htimers := hs.timers
  rw [ConnectorSystem.retryTimers, hp] at hone htimers
  rw [hp] at hsound
  exact ⟨hs.failed, hsound.tail hne, hone, htimers, hs.alive, hs.connection,
    (fun h => by cases h), hs.active, hs.handed, fun _ => hs.reset (by rw [hp]; rfl)⟩

/-- `resetChannel`. -/
theorem Inv.resetChannel {functions : List ConnectorTask} (hs : s.Inv)
    (hp : s.connector.phase = .running (.resetChannel :: functions)) :
    { s with connector := { s.connector with
      ctx := s.connector.ctx.resetChannel
      phase := .running functions } }.Inv := by
  have hsound := hs.sound
  have hone := hs.one
  have htimers := hs.timers
  rw [ConnectorSystem.retryTimers, hp] at hone htimers
  rw [hp] at hsound
  obtain ⟨hattempting, hreset⟩ := hsound.resetChannel
  rw [hattempting] at hone
  exact ⟨hs.failed, hreset, hone, htimers, hs.alive, hs.connection, (fun h => by cases h),
    fun _ _ _ => rfl, hs.handed, fun _ => hs.reset (by rw [hp]; rfl)⟩

theorem Inv.after_start {c : ConnectorSystem} (hs : s.Inv)
    (hstate : s.connector.ctx.connector.state = .kDisconnected)
    (htimers : s.connector.ctx.connector.connect = true →
      s.connector.retryTimers = [] ∨ d.errno.dialClass = .close)
    (hchannel : s.connector.ctx.connector.connect = true → d.errno.dialClass = .connecting →
      s.connector.ctx.connector.channel = none)
    (h : s.connector.after (s.connector.ctx.startInLoop d now) = some c) :
    { s with connector := c }.Inv ∧
      c.ctx.sockets.handed = s.connector.ctx.sockets.handed := by
  obtain ⟨y, hy, hinv, hhanded⟩ := hs.start (d := d) (n := now) hstate htimers hchannel
  rw [hy] at h
  cases h
  exact ⟨hinv, hhanded⟩

/-! ### Steps in good order -/

/-- `startInLoop` may be entered: in the state `kDisconnected`; unless the connector was stopped,
with no retry timer left, or with a new socket that is closed at once; and with no channel in the
way of a new one. -/
def MayStart (s : ClientSystem) (c : Connector) (d : Dial) : Prop :=
  c.state = .kDisconnected ∧
  (c.connect = true → s.connector.retryTimers = [] ∨ d.errno.dialClass = .close) ∧
  (c.connect = true → d.errno.dialClass = .connecting → c.channel = none)

/-- Calls of `connect()` may start an attempt when they get to it, and a retry timer that opens one
finds no channel. -/
def Orderly (s : ClientSystem) : ClientAction → Prop
  | .connect inLoop d _ =>
      inLoop = true → s.MayStart { s.connector.ctx.connector with connect := true } d
  | .loop (.call d _) =>
      s.connector.phase.functions.head? = some .startInLoop → s.MayStart s.connector.ctx.connector d
  | .loop (.expire d _) =>
      s.connector.ctx.connector.connect = true → d.errno.dialClass = .connecting →
        s.connector.ctx.connector.channel = none
  | _ => True

/-- A step of the loop. -/
theorem Inv.loop {a : ConnectorAction} {c : ConnectorSystem} (hs : s.Inv)
    (ha : s.Orderly (.loop a)) (hloop : a.isLoop = true) (hc : s.connector.next a = some c) :
    { s.adopt c with
      active := if s.connector.phase = ConnectorPhase.polling then s.alive else s.active }.Inv := by
  -- outside `epoll_wait` the reported connections stay
  have hsame (hinv : (s.adopt c).Inv) (hp : s.connector.phase ≠ .polling) :
      { s.adopt c with
        active := if s.connector.phase = ConnectorPhase.polling then s.alive
          else s.active }.Inv := by
    have hactive : (s.adopt c).active = s.active := by
      obtain ⟨client, alive, hadopt⟩ := adopt_fields (s := s) c
      rw [hadopt]
    rw [if_neg hp, ← hactive]
    exact hinv
  obtain ⟨-, hmoves⟩ := ConnectorSystem.next_moves hc
  cases hmoves with
  | start => cases hloop
  | restart => cases hloop
  | stop => cases hloop
  | poll hp hattempt he =>
    subst he
    rw [if_pos hp, adopt_eq]
    · exact hs.poll hp hattempt
    · rfl
  | event hp hafter => exact hsame (hs.event hp _ _ hafter) (by simp [hp])
  | handleRead hp hdue he =>
    subst he
    refine hsame ?_ (by simp [hp])
    rw [adopt_eq]
    · exact hs.handleRead hp hdue
    · rfl
  | expire hp hafter =>
    -- the timer that has fired opens the next attempt
    obtain ⟨hinv, hstate, rfl, htimers⟩ := hs.popTimer hp
    obtain ⟨hinv, hhanded⟩ := hinv.after_start hstate
      (fun _ => .inl (by simp [ConnectorSystem.retryTimers, ConnectorPhase.due, htimers])) ha hafter
    refine hsame ?_ (by simp [hp])
    rw [adopt_eq (s := s) hhanded]
    exact hinv
  | reset hp he =>
    subst he
    refine hsame ?_ (by simp [hp])
    rw [adopt_eq]
    · exact hs.phase (by rw [hp]; rfl) (by rw [hp]; rfl) (by rw [hp]; rfl) (fun h => by cases h)
    · rfl
  | swap hp he =>
    subst he
    refine hsame ?_ (by simp [hp])
    rw [adopt_eq]
    · exact hs.swap hp
    · rfl
  | @call d now task functions hp hafter =>
    refine hsame ?_ (by simp [hp])
    cases task with
    | resetChannel =>
      cases hafter
      rw [adopt_eq]
      · exact hs.resetChannel hp
      · rfl
    | startInLoop =>
      -- so does a functor, if the state it finds is an orderly one
      have hstart := ha (by rw [hp]; rfl)
      obtain ⟨hstate, htimers, hchannel⟩ := hstart
      rw [ConnectorSystem.retryTimers, hp] at htimers
      obtain ⟨hinv, hhanded⟩ := (hs.popTask hp (by simp)).after_start hstate htimers hchannel hafter
      rw [adopt_eq (s := s) hhanded]
      exact hinv
    | connectDestoryed conn =>
      cases hafter
      rw [adopt_eq]
      · exact hs.popTask hp (by simp)
      · rfl
  | finish hp he =>
    subst he
    refine hsame ?_ (by simp [hp])
    rw [adopt_eq]
    · exact hs.phase (by rw [hp]; rfl) (by rw [hp]; rfl) (by rw [hp]; rfl) (by rw [hp]; exact id)
    · rfl

/-- `connect()`. -/
theorem Inv.connect {inLoop : Bool} {c : ConnectorSystem} (hs : s.Inv)
    (ha : s.Orderly (.connect inLoop d now))
    (h : s.connector.next (.start inLoop d now) = some c) :
    { s with connector := c, client.connect := true, connects := s.connects + 1 }.Inv := by
  have hu : { s with
      connector.ctx.connector.connect := true
      client.connect := true
      connects := s.connects + 1 }.Inv :=
    hs.congr hs.failed rfl rfl rfl rfl rfl rfl rfl rfl rfl
  obtain ⟨-, hmoves⟩ := ConnectorSystem.next_moves h
  cases hmoves with
  | start hafter =>
    cases inLoop with
    | true =>
      obtain ⟨hstate, htimers, hchannel⟩ := ha rfl
      exact (hu.after_start hstate htimers hchannel hafter).1
    | false =>
      cases hafter
      exact hs.congr hs.failed rfl rfl rfl rfl rfl (by simp [ConnectorCtx.queueInLoop]) rfl rfl rfl

/-- `stop()`. -/
theorem Inv.stop {c : ConnectorSystem} (hs : s.Inv) (h : s.connector.next .stop = some c) :
    { s with connector := c, client.connect := false }.Inv := by
  obtain ⟨-, hmoves⟩ := ConnectorSystem.next_moves h
  cases hmoves with
  | stop he =>
    subst he
    exact hs.congr hs.failed rfl rfl rfl rfl rfl rfl rfl rfl rfl

/-- A connection that is closed leaves nothing behind but the state of the connector. -/
theorem Inv.forget {conn : ℤ} (hs : s.Inv) (hactive : conn ∈ s.active) (halive : conn ∈ s.alive) :
    s.client.connection = some conn ∧ (s.forget conn).Inv ∧ (s.forget conn).alive = [] ∧
      s.connector.ctx.connector.channel = none ∧ s.connector.retryTimers = [] := by
  have hconnection : s.client.connection = some conn := by
    have := hs.connection ▸ halive
    exact Option.mem_toList.1 this
  have halive' : s.alive = [conn] := by rw [hs.connection, hconnection, Option.toList_some]
  have hchannel := hs.active conn hactive halive
  have hone := hs.one
  rw [halive', List.length_singleton] at hone
  have htimers : s.connector.retryTimers = [] := List.eq_nil_of_length_eq_zero (by omega)
  have hnil : s.alive.erase conn = [] := by rw [halive', List.erase_cons_head]
  refine ⟨hconnection, ⟨hs.failed, ?_, ?_, hs.timers, ?_, ?_, hs.attempt, ?_, ?_, ?_⟩, hnil,
    hchannel, htimers⟩
  · exact hs.sound.congr rfl rfl rfl (by simp [ClientSystem.forget, ConnectorCtx.queueInLoop])
  · show s.connector.ctx.connector.attempting.toNat + s.connector.retryTimers.length +
      (s.alive.erase conn).length ≤ 1
    rw [hnil, List.length_nil]
    omega
  · exact fun h => absurd hnil h
  · exact hnil
  · exact fun _ _ _ => hchannel
  · intro fd hmem
    rcases List.mem_append.1 hmem with hmem | hmem
    · exact hs.handed fd (List.mem_append_left _ hmem)
    · exact hs.handed fd (List.mem_append_right _ (List.mem_of_mem_erase hmem))
  · intro hp
    have := hs.reset hp
    simpa [ClientSystem.forget, ConnectorCtx.queueInLoop] using this

/-- `restart` starts from `kDisconnected`, and nothing is left of the attempt before. -/
theorem Inv.reinit {conn : ℤ} (hs : s.Inv) (hactive : conn ∈ s.active) (halive : conn ∈ s.alive) :
    { s.forget conn with
      connector.ctx := (s.forget conn).connector.ctx.reinit
      restarts := (s.forget conn).restarts + 1 }.Inv := by
  obtain ⟨-, hforget, hnil, hchannel, -⟩ := hs.forget hactive halive
  have hattempting := (Connector.channel_eq_none_iff.1 hchannel).1
  refine ⟨hs.failed, ⟨hforget.sound.sockets, ?_, hforget.sound.reset, hforget.sound.nonneg⟩,
    hforget.one, fun _ => rfl, fun h => absurd hnil h, hforget.connection, hforget.attempt,
    hforget.active, hforget.handed, hforget.reset⟩
  show s.connector.ctx.connector.attempting = true ↔ _
  rw [hattempting]
  simp [ConnectorCtx.reinit]

/-- The `closeCallback_` of a connection. -/
theorem Inv.close {conn : ℤ} (hs : s.Inv) (hactive : conn ∈ s.active) (halive : conn ∈ s.alive)
    (h : s.removeConnection conn d now = some t) : t.Inv := by
  obtain ⟨hconnection, hforget, hnil, hchannel, htimers⟩ := hs.forget hactive halive
  rcases removeConnection_cases h with ⟨-, -, -, c, hc, rfl⟩ | ⟨-, -, rfl⟩ | ⟨hne, -⟩
  · obtain ⟨-, hmoves⟩ := ConnectorSystem.next_moves hc
    cases hmoves with
    | restart hp hafter =>
      exact ((hs.reinit hactive halive).after_start rfl (fun _ => .inl htimers)
        (fun _ _ => hchannel) hafter).1
  · exact hforget
  · exact absurd hconnection hne

/-- **Steps in good order** keep the order. -/
theorem Inv.step {a : ClientAction} (hs : s.Inv) (ha : s.Orderly a) (h : s.next a = some t) :
    t.Inv := by
  obtain ⟨-, hmoves⟩ := next_moves h
  cases hmoves with
  | connect hc he =>
    subst he
    exact hs.connect ha hc
  | disconnect he =>
    subst he
    exact hs.congr hs.failed rfl rfl rfl rfl rfl rfl rfl rfl rfl
  | stop hc he =>
    subst he
    exact hs.stop hc
  | enableRetry he =>
    subst he
    exact hs.congr hs.failed rfl rfl rfl rfl rfl rfl rfl rfl rfl
  | close _ hactive halive hremove => exact hs.close hactive halive hremove
  | loop hloop hc he =>
    subst he
    exact hs.loop ha hloop hc

/-! ### Room for an attempt -/

/-- There is room for another attempt.  When a call of `connect()` gets to `startInLoop`, at once or
as a functor, it finds the state `kDisconnected`, no `resetChannel` queued, and, unless the
connector was stopped again, no retry timer, or its new socket is closed at once.  A retry timer
that expires finds no `resetChannel` queued. -/
def FindsRoom (s : ClientSystem) : ClientAction → Prop
  | .connect inLoop d _ => inLoop = true →
      s.connector.ctx.connector.state = .kDisconnected ∧ .resetChannel ∉ s.connector.tasks ∧
        (s.connector.retryTimers = [] ∨ d.errno.dialClass = .close)
  | .loop (.call d _) => s.connector.phase.functions.head? = some .startInLoop →
      s.connector.ctx.connector.state = .kDisconnected ∧ .resetChannel ∉ s.connector.tasks ∧
        (s.connector.ctx.connector.connect = true →
          s.connector.retryTimers = [] ∨ d.errno.dialClass = .close)
  | .loop (.expire _ _) => .resetChannel ∉ s.connector.tasks
  | _ => True

theorem FindsRoom.orderly {a : ClientAction} (hs : s.Inv) (ha : s.FindsRoom a)
    (h : s.next a = some t) : s.Orderly a := by
  obtain ⟨-, hmoves⟩ := next_moves h
  cases hmoves with
  | connect hc he =>
    intro hin
    obtain ⟨hstate, htasks, htimers⟩ := ha hin
    exact ⟨hstate, fun _ => htimers, fun _ _ => (hs.channel_eq_none_iff hstate).2 htasks⟩
  | loop hloop hc he =>
    obtain ⟨-, hmoves⟩ := ConnectorSystem.next_moves hc
    cases hmoves with
    | call hp hafter =>
      intro hhead
      obtain ⟨hstate, htasks, htimers⟩ := ha hhead
      exact ⟨hstate, htimers, fun _ _ => (hs.channel_eq_none_iff hstate).2 htasks⟩
    | expire hp hafter =>
      exact fun _ _ => (hs.channel_eq_none_iff (hs.popTimer hp).2.1).2 ha
    | _ => trivial
  | _ => trivial

end ClientSystem

end Jiangbo
