import LearnForCpp.Lib.History
import LearnForCpp.Reactor.ClientOrder

/-!
# A client and the order of its steps

What has become of the attempts of a client can be told from the order of its steps: which attempt
was opened and how it ended, which retry timer was set and has expired, which `resetChannel` was
queued and has run.  `Tracks` says how the state of the connector follows from it.
-/

namespace Jiangbo

/-- A call of a client, or a step of its loop. -/
abbrev ClientEvent := Transition ClientSystem ClientAction

/-- How `socket` and `connect` end, where `startInLoop` is entered. -/
def ClientAction.dial : ClientAction → Dial
  | .connect _ d _ | .close _ d _ | .loop (.expire d _) | .loop (.call d _) => d
  | .disconnect | .stop | .enableRetry | .loop _ => .noSocket

namespace ClientEvent

/-- The loop calls the functor. -/
def Calls (task : ConnectorTask) (e : ClientEvent) : Prop :=
  (match e.action with | .loop (.call _ _) => true | _ => false) = true ∧
    e.source.connector.phase.functions.head? = some task

instance (task : ConnectorTask) : DecidablePred (Calls task) :=
  fun _ => inferInstanceAs (Decidable (_ ∧ _))

/-- A call of `connect()` gets to `startInLoop`, at once or as a functor. -/
def Connects (e : ClientEvent) : Prop :=
  (match e.action with | .connect inLoop _ _ => inLoop | _ => false) = true ∨ Calls .startInLoop e

instance : DecidablePred Connects := fun _ => inferInstanceAs (Decidable (_ ∨ _))

/-- The callback of a retry timer. -/
def Expires (e : ClientEvent) : Prop :=
  (match e.action with | .loop (.expire _ _) => true | _ => false) = true

instance : DecidablePred Expires := fun _ => inferInstanceAs (Decidable (_ = _))

/-- A connection is closed, and the client calls `restart()`. -/
def Restarts (e : ClientEvent) : Prop :=
  (match e.action with | .close _ _ _ => true | _ => false) = true ∧
    e.source.client.retry = true ∧ e.source.client.connect = true

instance : DecidablePred Restarts := fun _ => inferInstanceAs (Decidable (_ ∧ _))

/-- What `connect` says, where `startInLoop` is entered by a connector that is not stopped. -/
def dials (e : ClientEvent) : Option DialClass :=
  ((e.source.entry e.action).filter Connector.connect).map fun _ => e.action.dial.errno.dialClass

/-- `startInLoop` opens an attempt. -/
def Opens (e : ClientEvent) : Prop := e.dials = some .connecting

instance : DecidablePred Opens := fun _ => inferInstanceAs (Decidable (_ = _))

/-- The events of an attempt, when they end it: whether it is connected. -/
def attemptEnd (e : ClientEvent) : Option Bool :=
  match e.action with
  | .loop (.event err selfConnect _) =>
      e.source.connector.phase.attempt.bind (ConnectorCtx.outcome err selfConnect)
  | _ => none

/-- An attempt ends, and its `resetChannel` is queued. -/
def Ends (e : ClientEvent) : Prop := e.attemptEnd.isSome = true

instance : DecidablePred Ends := fun _ => inferInstanceAs (Decidable (_ = _))

/-- An attempt ends without a connection. -/
def Fails (e : ClientEvent) : Prop := e.attemptEnd = some false

instance : DecidablePred Fails := fun _ => inferInstanceAs (Decidable (_ = _))

/-- A retry timer is set: `connect` fails, or the attempt does before it is stopped. -/
def SetsTimer (e : ClientEvent) : Prop :=
  e.dials = some .retry ∨ Fails e ∧ e.source.connector.ctx.connector.connect = true

instance : DecidablePred SetsTimer := fun _ => inferInstanceAs (Decidable (_ ∨ _))

variable (past : List ClientEvent)

/-- An attempt was opened, and since then it has not failed and there was no `restart()`. -/
def Occupied : Prop := Since Opens (fun e => Fails e ∨ Restarts e) past

instance : Decidable (Occupied past) := Since.decidable _ _ past

/-- An attempt has ended, and its `resetChannel` has not been called. -/
def Closing : Prop := Since Ends (Calls .resetChannel) past

instance : Decidable (Closing past) := Since.decidable _ _ past

/-- A retry timer was set, and has not expired. -/
def TimerLeft : Prop := Since SetsTimer Expires past

instance : Decidable (TimerLeft past) := Since.decidable _ _ past

end ClientEvent

open ClientEvent

/-- What the state after a step says of the step. -/
structure ClientEvent.Effect (e : ClientEvent) : Prop where
  state : e.target.connector.ctx.connector.state ≠ .kDisconnected ↔
    Opens e ∨ ¬(Fails e ∨ Restarts e) ∧ e.source.connector.ctx.connector.state ≠ .kDisconnected
  tasks : .resetChannel ∈ e.target.connector.tasks ↔
    Ends e ∨ ¬Calls .resetChannel e ∧ .resetChannel ∈ e.source.connector.tasks
  timers : e.target.connector.retryTimers ≠ [] ↔
    SetsTimer e ∨ ¬Expires e ∧ e.source.connector.retryTimers ≠ []

namespace ClientSystem

variable {s t u : ClientSystem} {a : ClientAction} {d : Dial} {now : ℤ}

/-! ### The effect of a step -/

/-- A step that is none of them. -/
theorem effect_of_frame (hdials : ClientEvent.dials ⟨s, a, t⟩ = none)
    (hend : ClientEvent.attemptEnd ⟨s, a, t⟩ = none) (hrestart : ¬Restarts ⟨s, a, t⟩)
    (hreset : ¬Calls .resetChannel ⟨s, a, t⟩) (hexpire : ¬Expires ⟨s, a, t⟩)
    (hstate : t.connector.ctx.connector.state = s.connector.ctx.connector.state)
    (htasks : .resetChannel ∈ t.connector.tasks ↔ .resetChannel ∈ s.connector.tasks)
    (htimers : t.connector.retryTimers ≠ [] ↔ s.connector.retryTimers ≠ []) :
    ClientEvent.Effect ⟨s, a, t⟩ := by
  constructor
  · simp [Opens, Fails, hdials, hend, hrestart, hstate]
  · simp [Ends, hend, hreset, htasks]
  · simpa [SetsTimer, Fails, hdials, hend, hexpire] using htimers

/-- A step of the loop to another phase, with the same timers and functors. -/
theorem effect_of_phase {a : ConnectorAction} {phase : ConnectorPhase}
    (htarget : t.connector = { s.connector with phase := phase })
    (hfunctions : phase.functions = s.connector.phase.functions)
    (hdue : phase.due = s.connector.phase.due)
    (hdials : ClientEvent.dials ⟨s, .loop a, t⟩ = none)
    (hend : ClientEvent.attemptEnd ⟨s, .loop a, t⟩ = none)
    (hreset : ¬Calls .resetChannel ⟨s, .loop a, t⟩) (hexpire : ¬Expires ⟨s, .loop a, t⟩) :
    ClientEvent.Effect ⟨s, .loop a, t⟩ := by
  refine effect_of_frame hdials hend (by simp [Restarts]) hreset hexpire ?_ ?_ ?_ <;> rw [htarget]
  · rw [ConnectorSystem.tasks, ConnectorSystem.tasks, hfunctions]
  · rw [ConnectorSystem.retryTimers, ConnectorSystem.retryTimers, hdue]

/-- The end of a `startInLoop` that finds the state `kDisconnected` and no channel in its way. -/
theorem Inv.started {c : ConnectorSystem} (hu : u.Inv)
    (hstate : u.connector.ctx.connector.state = .kDisconnected)
    (hchannel : u.connector.ctx.connector.channel = none)
    (h : u.connector.after (u.connector.ctx.startInLoop d now) = some c) :
    (c.ctx.connector.state ≠ .kDisconnected ↔
      u.connector.ctx.connector.connect = true ∧ d.errno.dialClass = .connecting) ∧
    c.tasks = u.connector.tasks ∧
    (c.retryTimers ≠ [] ↔ (u.connector.ctx.connector.connect = true ∧
      d.errno.dialClass = .retry) ∨ u.connector.retryTimers ≠ []) := by
  obtain ⟨y, hy, hsound, -, -, htasks, hcases⟩ :=
    ConnectorCtx.startInLoop_cases (d := d) (n := now) hu.sound hstate fun _ _ => hchannel
  rw [hy] at h
  cases h
  refine ⟨?_, by simp [ConnectorSystem.tasks, htasks], ?_⟩
  · rcases hcases with ⟨hc | hc, -, hs, -⟩ | ⟨-, hc, -, hs, -⟩ | ⟨hc, hc', hatt, -⟩
    · simp [hs, hc]
    · simp [hs, hc]
    · simp [hs, hc]
    · simp [hsound.state.1 hatt, hc, hc']
  · rcases hcases with ⟨hc | hc, -, -, ht⟩ | ⟨hc, hc', -, -, i, ht⟩ | ⟨-, hc, -, ht⟩
    · simp [ConnectorSystem.retryTimers, ht, hc]
    · simp [ConnectorSystem.retryTimers, ht, hc]
    · simp [ConnectorSystem.retryTimers, ht, hc, hc']
    · simp [ConnectorSystem.retryTimers, ht, hc]

/-- A step that enters `startInLoop`. -/
theorem Inv.effect_started {c : ConnectorSystem} (hu : u.Inv)
    (hstate : u.connector.ctx.connector.state = .kDisconnected)
    (hchannel : u.connector.ctx.connector.channel = none)
    (h : u.connector.after (u.connector.ctx.startInLoop d now) = some c)
    (htarget : t.connector = c)
    (hdials : ClientEvent.dials ⟨s, a, t⟩ =
      if u.connector.ctx.connector.connect then some d.errno.dialClass else none)
    (hend : ClientEvent.attemptEnd ⟨s, a, t⟩ = none)
    (hbefore : s.connector.ctx.connector.state = .kDisconnected ∨ Restarts ⟨s, a, t⟩)
    (hreset : ¬Calls .resetChannel ⟨s, a, t⟩)
    (htasks : .resetChannel ∈ u.connector.tasks ↔ .resetChannel ∈ s.connector.tasks)
    (htimers : u.connector.retryTimers ≠ [] ↔
      ¬Expires ⟨s, a, t⟩ ∧ s.connector.retryTimers ≠ []) :
    ClientEvent.Effect ⟨s, a, t⟩ := by
  obtain ⟨h1, h2, h3⟩ := hu.started hstate hchannel h
  have hdial : ∀ k, ClientEvent.dials ⟨s, a, t⟩ = some k ↔
      u.connector.ctx.connector.connect = true ∧ d.errno.dialClass = k := by
    intro k
    rw [hdials]
    split_ifs with hconnect <;> simp [hconnect]
  constructor
  · show t.connector.ctx.connector.state ≠ _ ↔ _
    rw [htarget, h1, Opens, hdial]
    refine (or_iff_left ?_).symm
    rintro ⟨hrestart, hne⟩
    rcases hbefore with hs | hs
    · exact hne hs
    · exact hrestart (.inr hs)
  · show .resetChannel ∈ t.connector.tasks ↔ _
    rw [htarget, h2, htasks]
    simp [Ends, hend, hreset]
  · show t.connector.retryTimers ≠ [] ↔ _
    rw [htarget, h3, htimers, SetsTimer, hdial]
    simp [Fails, hend]

/-- The events of the attempt. -/
theorem Inv.effect_event {c : ConnectorSystem} {revents : EventMask} {timerfd : Bool} (hs : s.Inv)
    (hp : s.connector.phase = .handling (some revents) timerfd) (err : ℤ) (selfConnect : Bool)
    (h : { s.connector with phase := .handling none timerfd }.after
      (s.connector.ctx.handleEvent err selfConnect now revents) = some c)
    (htarget : t.connector = c) :
    ClientEvent.Effect ⟨s, .loop (.event err selfConnect now), t⟩ := by
  have hattempting := hs.attempt (by rw [hp]; rfl)
  have hone := hs.one
  rw [hattempting, Bool.toNat_true, ConnectorSystem.retryTimers, hp, List.length_append] at hone
  -- the attempt is the one there may be
  have htimers : s.connector.ctx.timers = [] := List.eq_nil_of_length_eq_zero (by omega)
  obtain ⟨channel, hchannel, hreg⟩ := Connector.attempting_iff.1 hattempting
  have hstate := hs.sound.state.1 hattempting
  have hend : ClientEvent.attemptEnd ⟨s, .loop (.event err selfConnect now), t⟩ =
      ConnectorCtx.outcome err selfConnect revents := by
    simp [ClientEvent.attemptEnd, hp, ConnectorPhase.attempt]
  have hdials : ClientEvent.dials ⟨s, .loop (.event err selfConnect now), t⟩ = none := rfl
  rcases ConnectorCtx.handleEvent_outcome (n := now) hchannel hreg hstate err selfConnect
    revents with ⟨ho, he⟩ | ⟨ho, he⟩ | ⟨ho, hconnect, he⟩ | ⟨ho, hconnect, he⟩ <;>
    rw [ho] at hend <;> rw [he] at h <;> cases h
  · -- the attempt goes on
    refine effect_of_frame hdials hend (by simp [Restarts]) (by simp [Calls]) (by simp [Expires])
      ?_ ?_ ?_ <;> rw [htarget]
    · simp [ConnectorSystem.tasks, ConnectorPhase.functions, hp]
    · simp [ConnectorSystem.retryTimers, ConnectorPhase.due, hp]
  · obtain ⟨delay, hretry⟩ := ConnectorCtx.retry_eq (x := s.connector.ctx.ended channel)
      (n := now) channel.fd
    rw [hretry] at htarget
    constructor
    · simp [htarget, Opens, Fails, hdials, hend]
    · simp [htarget, Ends, hend, ConnectorSystem.tasks, ConnectorCtx.ended]
    · cases hconnect : s.connector.ctx.connector.connect <;>
        simp [htarget, SetsTimer, Fails, Expires, hdials, hend, ConnectorSystem.retryTimers,
          ConnectorCtx.ended, ConnectorPhase.due, hp, htimers, hconnect]
  · constructor
    · simp [htarget, Opens, Fails, Restarts, hend, hdials, hstate, ConnectorCtx.setState]
    · simp [htarget, Ends, hend, ConnectorSystem.tasks, ConnectorCtx.ended, ConnectorCtx.setState]
    · simp [htarget, SetsTimer, Fails, Expires, hdials, hend, ConnectorSystem.retryTimers,
        ConnectorCtx.ended, ConnectorCtx.setState, ConnectorPhase.due, hp, htimers]
  · constructor
    · simp [htarget, Opens, Fails, Restarts, hend, hdials, hstate, ConnectorCtx.setState,
        ConnectorCtx.closefd]
    · simp [htarget, Ends, hend, ConnectorSystem.tasks, ConnectorCtx.ended, ConnectorCtx.setState,
        ConnectorCtx.closefd]
    · simp [htarget, SetsTimer, Fails, Expires, hdials, hend, ConnectorSystem.retryTimers,
        ConnectorCtx.ended, ConnectorCtx.setState, ConnectorCtx.closefd, ConnectorPhase.due, hp,
        htimers]

/-- A step of the loop. -/
theorem Inv.effect_loop {a : ConnectorAction} {c : ConnectorSystem} (hs : s.Inv)
    (ha : s.FindsRoom (.loop a)) (hloop : a.isLoop = true) (hc : s.connector.next a = some c)
    (htarget : t.connector = c) : ClientEvent.Effect ⟨s, .loop a, t⟩ := by
  obtain ⟨-, hmoves⟩ := ConnectorSystem.next_moves hc
  cases hmoves with
  | start => cases hloop
  | restart => cases hloop
  | stop => cases hloop
  | poll hp _ he =>
    subst he
    exact effect_of_phase htarget (by rw [hp]; rfl) (by rw [hp]; rfl) rfl rfl (by simp [Calls])
      (by simp [Expires])
  | event hp hafter => exact hs.effect_event hp _ _ hafter htarget
  | @handleRead now due attempt hp hdue he =>
    subst he
    refine effect_of_frame rfl rfl (by simp [Restarts]) (by simp [Calls]) (by simp [Expires])
      ?_ ?_ ?_ <;> rw [htarget]
    · simp [ConnectorSystem.tasks, ConnectorPhase.functions, hp]
    · rw [← List.length_pos_iff, ← List.length_pos_iff, ConnectorSystem.retryTimers,
        ConnectorSystem.retryTimers, hp]
      exact iff_of_eq (congrArg (0 < ·) (length_due_append hdue))
  | @expire d now i due attempt hp hafter =>
    obtain ⟨hinv, hstate, rfl, htimers⟩ := hs.popTimer hp
    refine hinv.effect_started hstate ((hs.channel_eq_none_iff hstate).2 ha) hafter htarget ?_ rfl
      (.inl hstate) (by simp [Calls]) ?_ ?_
    · simp [ClientEvent.dials, entry, ClientAction.dial, Option.filter]
    · simp [ConnectorSystem.tasks, ConnectorPhase.functions, hp]
    · simp [ConnectorSystem.retryTimers, ConnectorPhase.due, Expires, htimers]
  | reset hp he =>
    subst he
    exact effect_of_phase htarget (by rw [hp]; rfl) (by rw [hp]; rfl) rfl rfl (by simp [Calls])
      (by simp [Expires])
  | swap hp he =>
    subst he
    refine effect_of_frame rfl rfl (by simp [Restarts]) (by simp [Calls]) (by simp [Expires])
      ?_ ?_ ?_ <;> rw [htarget]
    · simp [ConnectorSystem.tasks, ConnectorPhase.functions, hp]
    · simp [ConnectorSystem.retryTimers, ConnectorPhase.due, hp]
  | @call d now task functions hp hafter =>
    cases task with
    | resetChannel =>
      cases hafter
      obtain ⟨-, hsound⟩ := (hp ▸ hs.sound : s.connector.ctx.Sound _).resetChannel
      have hcount : (functions ++ s.connector.ctx.resetChannel.pendingFunctors).count
        .resetChannel = 0 := hsound.reset
      have hcalls : Calls .resetChannel ⟨s, .loop (.call d now), t⟩ := by
        simp [Calls, hp, ConnectorPhase.functions]
      have hdials : ClientEvent.dials ⟨s, .loop (.call d now), t⟩ = none := by
        simp [ClientEvent.dials, entry, hp, ConnectorPhase.functions]
      constructor
      · simp [Opens, Fails, ClientEvent.attemptEnd, Restarts, hdials, htarget,
          ConnectorCtx.resetChannel]
      · simpa [Ends, ClientEvent.attemptEnd, hcalls, htarget, ConnectorSystem.tasks,
          ConnectorPhase.functions] using List.count_eq_zero.1 hcount
      · simp [SetsTimer, Fails, ClientEvent.attemptEnd, Expires, hdials, htarget,
          ConnectorSystem.retryTimers, ConnectorPhase.due, ConnectorCtx.resetChannel, hp]
    | startInLoop =>
      obtain ⟨hstate, htasks, -⟩ := ha (by rw [hp]; rfl)
      refine (hs.popTask hp (by simp)).effect_started hstate
        ((hs.channel_eq_none_iff hstate).2 htasks) hafter htarget ?_ rfl (.inl hstate) ?_ ?_ ?_
      · simp [ClientEvent.dials, entry, ClientAction.dial, Option.filter, hp,
          ConnectorPhase.functions]
      · simp [Calls, hp, ConnectorPhase.functions]
      · simp [ConnectorSystem.tasks, ConnectorPhase.functions, hp]
      · simp [ConnectorSystem.retryTimers, ConnectorPhase.due, Expires, hp]
    | connectDestoryed conn =>
      cases hafter
      refine effect_of_frame ?_ rfl (by simp [Restarts])
        (by simp [Calls, hp, ConnectorPhase.functions]) (by simp [Expires]) ?_ ?_ ?_
      · simp [ClientEvent.dials, entry, hp, ConnectorPhase.functions]
      all_goals rw [htarget]
      · simp [ConnectorSystem.tasks, ConnectorPhase.functions, hp]
      · simp [ConnectorSystem.retryTimers, ConnectorPhase.due, hp]
  | finish hp he =>
    subst he
    exact effect_of_phase htarget (by rw [hp]; rfl) (by rw [hp]; rfl) rfl rfl (by simp [Calls])
      (by simp [Expires])

/-- `connect()`. -/
theorem Inv.effect_connect {inLoop : Bool} {c : ConnectorSystem} (hs : s.Inv)
    (ha : s.FindsRoom (.connect inLoop d now))
    (h : s.connector.next (.start inLoop d now) = some c) (htarget : t.connector = c) :
    ClientEvent.Effect ⟨s, .connect inLoop d now, t⟩ := by
  have hu : { s with
      connector.ctx.connector.connect := true
      client.connect := true
      connects := s.connects + 1 }.Inv :=
    hs.congr hs.failed rfl rfl rfl rfl rfl rfl rfl rfl rfl
  obtain ⟨-, hmoves⟩ := ConnectorSystem.next_moves h
  cases hmoves with
  | start hafter =>
    cases inLoop with
    | true =>
      obtain ⟨hstate, htasks, -⟩ := ha rfl
      refine hu.effect_started hstate ((hs.channel_eq_none_iff hstate).2 htasks) hafter htarget ?_
        rfl (.inl hstate) (by simp [Calls]) Iff.rfl ?_
      · simp [ClientEvent.dials, entry, ClientAction.dial]
      · simp [Expires, ConnectorSystem.retryTimers]
    | false =>
      cases hafter
      refine effect_of_frame ?_ rfl (by simp [Restarts]) (by simp [Calls]) (by simp [Expires])
        ?_ ?_ ?_
      · simp [ClientEvent.dials, entry]
      all_goals rw [htarget]
      · simp [ConnectorCtx.queueInLoop]
      · simp [ConnectorSystem.tasks, ConnectorCtx.queueInLoop]
      · simp [ConnectorSystem.retryTimers, ConnectorCtx.queueInLoop]

/-- The `closeCallback_` of a connection. -/
theorem Inv.effect_close {conn : ℤ} (hs : s.Inv) (hactive : conn ∈ s.active)
    (halive : conn ∈ s.alive) (h : s.removeConnection conn d now = some t) :
    ClientEvent.Effect ⟨s, .close conn d now, t⟩ := by
  obtain ⟨hconnection, hforget, -, hchannel, -⟩ := hs.forget hactive halive
  have htasks : .resetChannel ∈ (s.forget conn).connector.tasks ↔
      .resetChannel ∈ s.connector.tasks := by
    simp [ClientSystem.forget, ConnectorSystem.tasks, ConnectorCtx.queueInLoop]
  rcases removeConnection_cases h with ⟨-, hretry, hconnect, c, hc, rfl⟩ | ⟨-, hretry, rfl⟩ |
    ⟨hne, -⟩
  · obtain ⟨-, hmoves⟩ := ConnectorSystem.next_moves hc
    cases hmoves with
    | restart hp hafter =>
      refine (hs.reinit hactive halive).effect_started rfl hchannel hafter rfl ?_ rfl
        (.inr ⟨rfl, hretry, hconnect⟩) (by simp [Calls]) htasks ?_
      · simp [ClientEvent.dials, entry, hretry, hconnect, ClientAction.dial, ConnectorCtx.reinit]
      · simp [Expires, ClientSystem.forget, ConnectorSystem.retryTimers, ConnectorCtx.reinit,
          ConnectorCtx.queueInLoop]
  · refine effect_of_frame ?_ rfl ?_ (by simp [Calls]) (by simp [Expires]) rfl htasks Iff.rfl
    · simp only [ClientEvent.dials, entry, if_neg hretry, Option.filter_none, Option.map_none]
    · rintro ⟨-, hretry'⟩
      exact hretry hretry'
  · exact absurd hconnection hne

/-- **The effect of a step** that finds room for an attempt. -/
theorem Inv.effect (hs : s.Inv) (ha : s.FindsRoom a) (h : s.next a = some t) :
    ClientEvent.Effect ⟨s, a, t⟩ := by
  obtain ⟨-, hmoves⟩ := next_moves h
  cases hmoves with
  | connect hc he =>
    subst he
    exact hs.effect_connect ha hc rfl
  | disconnect he =>
    subst he
    exact effect_of_frame rfl rfl (by simp [Restarts]) (by simp [Calls]) (by simp [Expires]) rfl
      Iff.rfl Iff.rfl
  | stop hc he =>
    subst he
    obtain ⟨-, hmoves⟩ := ConnectorSystem.next_moves hc
    cases hmoves with
    | stop he =>
      subst he
      exact effect_of_frame rfl rfl (by simp [Restarts]) (by simp [Calls]) (by simp [Expires]) rfl
        Iff.rfl Iff.rfl
  | enableRetry he =>
    subst he
    exact effect_of_frame rfl rfl (by simp [Restarts]) (by simp [Calls]) (by simp [Expires]) rfl
      Iff.rfl Iff.rfl
  | close _ hactive halive hremove => exact hs.effect_close hactive halive hremove
  | loop hloop hc he =>
    subst he
    exact hs.effect_loop ha hloop hc (adopt_connector _)

/-! ### What the order of the steps says of the state -/

/-- The state of the connector, told from the order of the steps. -/
structure Tracks (past : List ClientEvent) (s : ClientSystem) : Prop extends s.Inv where
  occupied : s.connector.ctx.connector.state ≠ .kDisconnected ↔ Occupied past
  closing : .resetChannel ∈ s.connector.tasks ↔ Closing past
  timer : s.connector.retryTimers ≠ [] ↔ TimerLeft past

variable {past : List ClientEvent}

theorem new_tracks : new.Tracks [] where
  toInv := new_inv
  occupied := by simp [new, ConnectorSystem.new, Connector.new, Occupied]
  closing := by simp [new, ConnectorSystem.new, ConnectorSystem.tasks, ConnectorPhase.functions,
    Closing]
  timer := by simp [new, ConnectorSystem.new, ConnectorSystem.retryTimers, ConnectorPhase.due,
    TimerLeft]

theorem Tracks.step (hs : s.Tracks past) (ha : s.FindsRoom a) (h : s.next a = some t) :
    t.Tracks (⟨s, a, t⟩ :: past) := by
  have he := hs.toInv.effect ha h
  refine ⟨hs.toInv.step (ha.orderly hs.toInv h) h, ?_, ?_, ?_⟩
  · rw [Occupied, since_cons, ← Occupied, ← hs.occupied]
    exact he.state
  · rw [Closing, since_cons, ← Closing, ← hs.closing]
    exact he.tasks
  · rw [TimerLeft, since_cons, ← TimerLeft, ← hs.timer]
    exact he.timers

end ClientSystem

end Jiangbo
