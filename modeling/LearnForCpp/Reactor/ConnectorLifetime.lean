import LearnForCpp.Reactor.ClientSystem

/-!
# How long a connector exists

`~TcpClient` of `reactor/TcpClient.cc`, in the loop thread, over `ClientSystem`.  The client holds
the only long-lived reference to its connector.  With a connection, the connector is deleted
together with the client; without one, it is stopped, and a timer of one second holds a reference
until `TimerQueue::reset` deletes the timer.  What the loop and the connector's own channel hold of
the connector are plain pointers.

A client can be destroyed inside the connection callback of a new connection, which is the last
thing that the events of the attempt do.
-/

namespace Jiangbo

/-- A client, its connector and its loop, with what exists of them. -/
structure ClientLife where
  system : ClientSystem
  /-- The client has not been destroyed. -/
  client : Bool
  /-- The connector has not been deleted. -/
  connector : Bool
  /-- The expiration of the timer that holds the connector. -/
  keepAlive : Option ℤ
  /-- That timer is among those of the present `TimerQueue::handleRead`. -/
  expired : Bool
  /-- A callback has been called on a connector that is gone. -/
  misused : Bool
  deriving DecidableEq

/-- A step of the client and its loop, or `~TcpClient`. -/
inductive LifeAction
  | use (a : ClientAction)
  | destroy (now : ℤ)
  deriving DecidableEq

/-- The step calls a function that was bound to the connector. -/
def ClientSystem.callsConnector (s : ClientSystem) : ClientAction → Bool
  | .loop (.event _ _ _) | .loop (.expire _ _) => true
  | .loop (.call _ _) =>
      match s.connector.phase.functions.head? with
      | some .startInLoop | some .resetChannel => true
      | some (.connectDestoryed _) | none => false
  | _ => false

namespace ClientLife

/-- A client that has just been constructed. -/
def new : ClientLife := ⟨.new, true, true, none, false, false⟩

/-- `~Connector`. -/
def deleteConnector (s : ClientLife) : ClientLife :=
  { s with
    connector := false
    system.connector.failed :=
      if s.system.connector.ctx.connector.channel.isNone then s.system.connector.failed
      else some .dtorChannel }

/-- A step of the client, or of the loop alone once the client is gone.  The `closeCallback_` of a
connection is then `detail::removeConnection`. -/
def step (s : ClientLife) (a : ClientAction) : Option ClientSystem :=
  if s.client then s.system.next a
  else
    match a with
    | .close conn _ _ =>
        if s.system.connector.failed = none ∧ s.system.connector.phase.isHandling ∧
          conn ∈ s.system.active ∧ conn ∈ s.system.alive then some (s.system.forget conn)
        else none
    | .loop a => s.system.next (.loop a)
    | .connect _ _ _ | .disconnect | .stop | .enableRetry => none

/-- What happens to the timer that holds the connector. -/
def expire (s : ClientLife) : ClientAction → ClientLife
  | .loop (.handleRead now _) =>
      if s.keepAlive.any (· ≤ now) then { s with keepAlive := none, expired := true } else s
  | .loop .reset => if s.expired then { s with expired := false }.deleteConnector else s
  | _ => s

/-- One step. -/
def next (s : ClientLife) (a : LifeAction) : Option ClientLife :=
  if s.misused ∨ s.system.connector.failed.isSome then none
  else
    match a with
    | .use a => (s.step a).map fun t =>
        { s with
          system := t
          misused := !s.connector && s.system.callsConnector a }.expire a
    | .destroy now =>
        if s.client ∧ s.system.connector.phase ≠ .polling then
          if s.system.client.connection.isSome then some { s with client := false }.deleteConnector
          else
            some { s with
              client := false
              system.connector.ctx := s.system.connector.ctx.stop
              keepAlive := some (now + 1000000) }
        else none

end ClientLife

/-- The runs of a client that may be destroyed. -/
def clientLives : LTS ClientLife LifeAction where
  init s := s = .new
  next := ClientLife.next

/-- Nothing is left that could call the connector: no channel, no retry timer and no functor. -/
structure ConnectorSystem.AtRest (c : ConnectorSystem) : Prop where
  channel : c.ctx.connector.channel = none
  timers : c.retryTimers = []
  start : .startInLoop ∉ c.tasks
  reset : .resetChannel ∉ c.tasks

instance (c : ConnectorSystem) : Decidable c.AtRest :=
  decidable_of_iff (c.ctx.connector.channel = none ∧ c.retryTimers = [] ∧
      .startInLoop ∉ c.tasks ∧ .resetChannel ∉ c.tasks)
    ⟨fun h => ⟨h.1, h.2.1, h.2.2.1, h.2.2.2⟩, fun h => ⟨h.channel, h.timers, h.start, h.reset⟩⟩

/-- No functor of the connector is called at rest. -/
theorem ConnectorSystem.AtRest.calls {c : ConnectorSystem} (hc : c.AtRest) {task : ConnectorTask}
    {functions : List ConnectorTask} (hp : c.phase = .running (task :: functions)) :
    ∃ conn, task = .connectDestoryed conn := by
  have hmem : task ∈ c.tasks := by
    rw [ConnectorSystem.tasks, hp]
    exact List.mem_append_left _ List.mem_cons_self
  cases task with
  | resetChannel => exact absurd hmem hc.reset
  | startInLoop => exact absurd hmem hc.start
  | connectDestoryed conn => exact ⟨conn, rfl⟩

theorem ConnectorSystem.AtRest.forget {v : ClientSystem} (hv : v.connector.AtRest) (conn : ℤ) :
    (v.forget conn).connector.AtRest := by
  obtain ⟨hchannel, htimers, hstart, hreset⟩ := hv
  refine ⟨hchannel, htimers, ?_, ?_⟩
  · simpa [ConnectorSystem.tasks, ClientSystem.forget, ConnectorCtx.queueInLoop] using hstart
  · simpa [ConnectorSystem.tasks, ClientSystem.forget, ConnectorCtx.queueInLoop] using hreset

/-- A reported attempt has a channel. -/
def ConnectorSystem.Reported (c : ConnectorSystem) : Prop :=
  c.failed = none → c.phase.attempt.isSome = true → c.ctx.connector.channel ≠ none

/-- A start returns with the channel of an attempt that has been reported. -/
theorem ConnectorSystem.Reported.startInLoop {c u v : ConnectorSystem} {d : Dial} {now : ℤ}
    (hc : c.Reported) (hfailed : c.failed = none)
    (hchannel : u.ctx.connector.channel = c.ctx.connector.channel)
    (hattempt : u.phase.attempt = c.phase.attempt)
    (h : u.after (u.ctx.startInLoop d now) = some v) : v.Reported := by
  intro hv hsome
  rcases after_cases h with ⟨x, hx, rfl⟩ | hfailed'
  · have hsome : u.phase.attempt.isSome = true := hsome
    have hne := hc hfailed (hattempt ▸ hsome)
    rw [← hchannel] at hne
    show x.connector.channel ≠ none
    rw [(ConnectorCtx.startInLoop_keeps hx).2 hne]
    exact hne
  · simp [hv] at hfailed'

theorem ConnectorSystem.Reported.next {c u : ConnectorSystem} {a : ConnectorAction}
    (hc : c.Reported) (h : c.next a = some u) : u.Reported := by
  obtain ⟨hfailed, hmoves⟩ := next_moves h
  cases hmoves with
  | @start inLoop d now hafter =>
    cases inLoop with
    | true =>
      exact hc.startInLoop (u := { c with ctx.connector.connect := true }) hfailed rfl rfl hafter
    | false =>
      cases hafter
      exact hc
  | restart hp hafter =>
    exact hc.startInLoop (u := { c with ctx := c.ctx.reinit }) hfailed rfl rfl hafter
  | stop he =>
    subst he
    exact hc
  | poll hp hattempt he =>
    subst he
    intro _ hsome
    obtain ⟨channel, hchannel, -⟩ := Connector.attempting_iff.1 (hattempt hsome)
    show c.ctx.connector.channel ≠ none
    simp [hchannel]
  | event hp hafter =>
    intro hu hsome
    rcases after_cases hafter with ⟨x, hx, rfl⟩ | hfailed'
    · cases hsome
    · simp [hu] at hfailed'
  | handleRead hp hdue he =>
    subst he
    intro _ hsome
    exact hc hfailed (by rw [hp]; exact hsome)
  | @expire d now i due attempt hp hafter =>
    exact hc.startInLoop (u := { c with phase := .expiring due attempt }) hfailed rfl
      (by rw [hp]; rfl) hafter
  | reset hp he =>
    subst he
    intro _ hsome
    exact hc hfailed (by rw [hp]; exact hsome)
  | swap hp he =>
    subst he
    intro _ hsome
    cases hsome
  | call hp hafter =>
    intro hu hsome
    rcases after_cases hafter with ⟨x, hx, rfl⟩ | hfailed'
    · cases hsome
    · simp [hu] at hfailed'
  | finish hp he =>
    subst he
    intro _ hsome
    cases hsome

theorem ClientSystem.reported_next {s t : ClientSystem} {a : ClientAction}
    (hs : s.connector.Reported) (h : s.next a = some t) : t.connector.Reported := by
  obtain ⟨-, hmoves⟩ := next_moves h
  cases hmoves with
  | connect hc he =>
    subst he
    exact hs.next hc
  | disconnect he =>
    subst he
    exact hs
  | stop hc he =>
    subst he
    exact hs.next hc
  | enableRetry he =>
    subst he
    exact hs
  | close _ _ _ hremove =>
    rcases removeConnection_cases hremove with ⟨-, -, -, c, hc, rfl⟩ | ⟨-, -, rfl⟩ | ⟨-, rfl⟩
    · exact ConnectorSystem.Reported.next (c := (s.forget _).connector) hs hc
    · exact hs
    · intro hf
      cases hf
  | @loop a c _ hc he =>
    subst he
    obtain ⟨client, alive, hadopt⟩ := adopt_fields (s := s) c
    rw [hadopt]
    exact hs.next hc

namespace ClientLife

/-- No callback has been called on a connector that is gone, and `~Connector` found no channel. -/
def Safe (s : ClientLife) : Prop :=
  s.misused = false ∧ s.system.connector.failed ≠ some .dtorChannel

/-- A step that deletes the connector does so for good: whatever follows is safe. -/
def DeletesSafely (s : ClientLife) (_ : LifeAction) (t : ClientLife) : Prop :=
  s.connector = true → t.connector = false →
    ∀ u, clientLives.Leads (fun _ => True) t u → u.Safe

/-- A client with a connection is destroyed, and the timer that holds the connector of one without
is deleted, when the connector is at rest. -/
def DestroyAllowed (s : ClientLife) : LifeAction → Prop
  | .destroy _ => s.system.client.connection.isSome = true → s.system.connector.AtRest
  | .use (.loop .reset) => s.expired = true → s.system.connector.AtRest
  | _ => True

instance (s : ClientLife) : (a : LifeAction) → Decidable (s.DestroyAllowed a)
  | .destroy _ | .use (.loop .reset) => inferInstanceAs (Decidable (_ → _))
  | .use (.connect ..) | .use .disconnect | .use .stop | .use .enableRetry | .use (.close ..)
  | .use (.loop (.start ..)) | .use (.loop (.restart ..)) | .use (.loop .stop)
  | .use (.loop (.poll ..)) | .use (.loop (.event ..)) | .use (.loop (.handleRead ..))
  | .use (.loop (.expire ..)) | .use (.loop .swap) | .use (.loop (.call ..))
  | .use (.loop .finish) => inferInstanceAs (Decidable True)

variable {s t : ClientLife} {a : LifeAction}

/-! ### A connector that exists -/

/-- The connector exists, and nothing of its client is missing unless the client is gone. -/
structure Living (s : ClientLife) : Prop where
  connector : s.connector = true
  misused : s.misused = false
  reported : s.system.connector.Reported
  client : s.client = true → s.keepAlive = none ∧ s.expired = false
  expired : s.expired = true → s.keepAlive = none

/-- The connector is gone, and its client too. -/
structure Gone (s : ClientLife) : Prop where
  connector : s.connector = false
  client : s.client = false
  keepAlive : s.keepAlive = none
  expired : s.expired = false
  misused : s.misused = false
  failed : s.system.connector.failed = none

/-- A connector that is gone and had been at rest. -/
structure Dead (s : ClientLife) : Prop extends Gone s where
  rest : s.system.connector.AtRest
  attempt : s.system.connector.phase.attempt = none

theorem new_living : new.Living :=
  ⟨rfl, rfl, (fun _ h => by cases h), (fun _ => ⟨rfl, rfl⟩), fun h => by cases h⟩

/-- What a step of the client or of the loop leaves behind, before the timer is looked at. -/
theorem next_use {a : ClientAction} (h : s.next (.use a) = some t) :
    s.misused = false ∧ s.system.connector.failed = none ∧ ∃ u, s.step a = some u ∧
      t = { s with
        system := u
        misused := !s.connector && s.system.callsConnector a }.expire a := by
  unfold next at h
  by_cases hs : s.misused = true ∨ s.system.connector.failed.isSome = true
  · rw [if_pos hs] at h
    cases h
  · rw [if_neg hs] at h
    rw [not_or] at hs
    obtain ⟨u, hu, rfl⟩ := Option.map_eq_some_iff.1 h
    exact ⟨by simpa using hs.1, by simpa using hs.2, u, hu, rfl⟩

theorem next_destroy {now : ℤ} (h : s.next (.destroy now) = some t) :
    s.misused = false ∧ s.system.connector.failed = none ∧ s.client = true ∧
      (s.system.client.connection.isSome = true ∧ t = { s with client := false }.deleteConnector ∨
        s.system.client.connection.isSome = false ∧ t = { s with
          client := false
          system.connector.ctx := s.system.connector.ctx.stop
          keepAlive := some (now + 1000000) }) := by
  unfold next at h
  by_cases hs : s.misused = true ∨ s.system.connector.failed.isSome = true
  · rw [if_pos hs] at h
    cases h
  · rw [if_neg hs] at h
    rw [not_or] at hs
    dsimp only at h
    by_cases hclient : s.client = true ∧ s.system.connector.phase ≠ .polling
    · rw [if_pos hclient] at h
      refine ⟨by simpa using hs.1, by simpa using hs.2, hclient.1, ?_⟩
      cases hconn : s.system.client.connection.isSome with
      | true =>
        rw [hconn, if_pos rfl] at h
        cases h
        exact .inl ⟨rfl, rfl⟩
      | false =>
        rw [hconn, if_neg Bool.false_ne_true] at h
        cases h
        exact .inr ⟨rfl, rfl⟩
    · rw [if_neg hclient] at h
      cases h

theorem step_reported {a : ClientAction} {u : ClientSystem} (hs : s.system.connector.Reported)
    (h : s.step a = some u) : u.connector.Reported := by
  unfold step at h
  cases hclient : s.client with
  | true =>
    rw [hclient, if_pos rfl] at h
    exact ClientSystem.reported_next hs h
  | false =>
    rw [hclient, if_neg Bool.false_ne_true] at h
    cases a with
    | close conn d now =>
      dsimp only at h
      split_ifs at h
      cases h
      exact hs
    | loop a => exact ClientSystem.reported_next hs h
    | _ => cases h

theorem step_loop (a : ConnectorAction) : s.step (.loop a) = s.system.next (.loop a) := by
  unfold step
  split_ifs <;> rfl

/-- `~Connector` finds no channel in a connector at rest. -/
theorem deleteConnector_eq (h : s.system.connector.ctx.connector.channel = none) :
    s.deleteConnector = { s with connector := false } := by
  simp [deleteConnector, h]

/-- The step deletes the connector. -/
def Deletes (s : ClientLife) : LifeAction → Prop
  | .destroy _ => s.system.client.connection.isSome = true
  | .use (.loop .reset) => s.expired = true
  | .use _ => False

/-- A step either deletes the connector, as it was before, or leaves it alone. -/
theorem Living.next_cases (hs : s.Living) (h : s.next a = some t) :
    ¬s.Deletes a ∧ t.Living ∨
      s.Deletes a ∧ ∃ u : ClientLife, t = u.deleteConnector ∧ u.client = false ∧
        u.keepAlive = none ∧ u.expired = false ∧ u.misused = false ∧
        u.system.connector.failed = none ∧
        u.system.connector.ctx = s.system.connector.ctx ∧
        u.system.connector.tasks = s.system.connector.tasks ∧
        u.system.connector.retryTimers = s.system.connector.retryTimers ∧
        u.system.connector.phase.attempt = s.system.connector.phase.attempt := by
  cases a with
  | destroy now =>
    obtain ⟨hmisused, hfailed, hclient, ⟨hconn, rfl⟩ | ⟨hconn, rfl⟩⟩ := next_destroy h
    -- the client has a connection, so nothing else refers to the connector
    · obtain ⟨hkeep, hexpired⟩ := hs.client hclient
      exact .inr ⟨hconn, _, rfl, rfl, hkeep, hexpired, hmisused, hfailed, rfl, rfl, rfl, rfl⟩
    -- it has none: a timer refers to the connector for another second
    · refine .inl ⟨?_, hs.connector, hmisused, hs.reported, (fun h => by cases h), fun h => ?_⟩
      · simp [Deletes, hconn]
      · have hexpired : s.expired = true := h
        rw [(hs.client hclient).2] at hexpired
        cases hexpired
  | use a =>
    obtain ⟨hmisused, hfailed, u, hu, rfl⟩ := next_use h
    have hreported := step_reported hs.reported hu
    have hplain : { s with
        system := u
        misused := !s.connector && s.system.callsConnector a }.Living :=
      ⟨hs.connector, by simp [hs.connector], hreported, hs.client, hs.expired⟩
    cases a with
    | loop a =>
      cases a with
      | handleRead now due =>
        refine .inl ⟨id, ?_⟩
        unfold expire
        dsimp only
        by_cases hdue : s.keepAlive.any (· ≤ now) = true
        · rw [if_pos hdue]
          refine ⟨hplain.connector, hplain.misused, hreported, fun hclient => ?_, fun _ => rfl⟩
          -- while the client is there no such timer is set
          rw [(hs.client hclient).1] at hdue
          cases hdue
        · rw [if_neg hdue]
          exact hplain
      | reset =>
        unfold expire
        dsimp only
        by_cases hexpired : s.expired = true
        · -- the timer goes, and the last reference with it
          rw [if_pos hexpired]
          have hclient : s.client = false := by
            by_contra hclient
            rw [(hs.client (by simpa using hclient)).2] at hexpired
            cases hexpired
          refine .inr ⟨hexpired, _, rfl, hclient, hs.expired hexpired, rfl, hplain.misused, ?_⟩
          rw [step_loop] at hu
          obtain ⟨-, hmoves⟩ := ClientSystem.next_moves hu
          cases hmoves with
          | @loop a c _ hc he =>
            subst he
            obtain ⟨client, alive, hadopt⟩ := ClientSystem.adopt_fields (s := s.system) c
            rw [hadopt]
            obtain ⟨-, hmoves⟩ := ConnectorSystem.next_moves hc
            cases hmoves with
            | reset hp he =>
              subst he
              refine ⟨hfailed, rfl, ?_, ?_, ?_⟩
              · simp [ConnectorSystem.tasks, hp, ConnectorPhase.functions]
              · simp [ConnectorSystem.retryTimers, hp, ConnectorPhase.due]
              · simp [hp, ConnectorPhase.attempt]
        · rw [if_neg hexpired]
          exact .inl ⟨hexpired, hplain⟩
      | _ => exact .inl ⟨id, hplain⟩
    | _ => exact .inl ⟨id, hplain⟩

/-! ### A connector that is gone -/

/-- A connector that was at rest when it went is dead. -/
theorem deleteConnector_dead {u : ClientLife} (hclient : u.client = false)
    (hkeep : u.keepAlive = none) (hexpired : u.expired = false) (hmisused : u.misused = false)
    (hfailed : u.system.connector.failed = none) (hrest : u.system.connector.AtRest)
    (hattempt : u.system.connector.phase.attempt = none) : u.deleteConnector.Dead := by
  rw [deleteConnector_eq hrest.channel]
  exact ⟨⟨rfl, hclient, hkeep, hexpired, hmisused, hfailed⟩, hrest, hattempt⟩

/-- A step of the loop keeps a connector at rest, and calls none of its functions. -/
theorem atRest_loop {v w : ClientSystem} {a : ConnectorAction} (hc : v.connector.AtRest)
    (hattempt : v.connector.phase.attempt = none) (h : v.next (.loop a) = some w) :
    v.callsConnector (.loop a) = false ∧ w.connector.AtRest ∧
      w.connector.phase.attempt = none ∧ w.connector.failed = none := by
  obtain ⟨hfailed, hmoves⟩ := ClientSystem.next_moves h
  cases hmoves with
  | @loop a c hloop hn he =>
    obtain ⟨client, alive, hadopt⟩ := ClientSystem.adopt_fields (s := v) c
    rw [hadopt] at he
    subst he
    show _ ∧ c.AtRest ∧ c.phase.attempt = none ∧ c.failed = none
    obtain ⟨hchannel, htimers, hstart, hreset⟩ := hc
    obtain ⟨-, hmoves⟩ := ConnectorSystem.next_moves hn
    cases hmoves with
    | start => cases hloop
    | restart => cases hloop
    | stop => cases hloop
    | @poll attempt timerfd hp ha he =>
      subst he
      have hnone : attempt = none := by
        by_contra hne
        obtain ⟨channel, h, -⟩ := Connector.attempting_iff.1 (ha (Option.isSome_iff_ne_none.2 hne))
        rw [hchannel] at h
        cases h
      rw [ConnectorSystem.retryTimers, hp] at htimers
      rw [ConnectorSystem.tasks, hp] at hstart hreset
      exact ⟨rfl, ⟨hchannel, htimers, hstart, hreset⟩, hnone, hfailed⟩
    | event hp hafter =>
      rw [hp] at hattempt
      cases hattempt
    | handleRead hp hdue he =>
      subst he
      rw [ConnectorSystem.retryTimers, hp] at htimers
      rw [ConnectorSystem.tasks, hp] at hstart hreset
      rw [hp] at hattempt
      have hnil : v.connector.ctx.timers = [] := htimers
      rw [hnil, List.filter_nil] at hdue
      refine ⟨rfl, ⟨hchannel, ?_, hstart, hreset⟩, hattempt, hfailed⟩
      simp [ConnectorSystem.retryTimers, ConnectorPhase.due, hdue.eq_nil, hnil]
    | expire hp hafter =>
      simp [ConnectorSystem.retryTimers, hp, ConnectorPhase.due] at htimers
    | reset hp he =>
      subst he
      rw [ConnectorSystem.retryTimers, hp] at htimers
      rw [ConnectorSystem.tasks, hp] at hstart hreset
      rw [hp] at hattempt
      exact ⟨rfl, ⟨hchannel, htimers, hstart, hreset⟩, hattempt, hfailed⟩
    | swap hp he =>
      subst he
      rw [ConnectorSystem.retryTimers, hp] at htimers
      rw [ConnectorSystem.tasks, hp] at hstart hreset
      refine ⟨rfl, ⟨hchannel, htimers, ?_, ?_⟩, rfl, hfailed⟩
      · simpa [ConnectorSystem.tasks, ConnectorPhase.functions] using hstart
      · simpa [ConnectorSystem.tasks, ConnectorPhase.functions] using hreset
    | @call d now task functions hp hafter =>
      obtain ⟨conn, rfl⟩ := ConnectorSystem.AtRest.calls ⟨hchannel, htimers, hstart, hreset⟩ hp
      cases hafter
      rw [ConnectorSystem.retryTimers, hp] at htimers
      rw [ConnectorSystem.tasks, hp] at hstart hreset
      refine ⟨?_, ⟨hchannel, htimers, fun h => hstart ?_, fun h => hreset ?_⟩, rfl, hfailed⟩
      · simp [ClientSystem.callsConnector, hp, ConnectorPhase.functions]
      · exact List.mem_cons_of_mem _ h
      · exact List.mem_cons_of_mem _ h
    | finish hp he =>
      subst he
      rw [ConnectorSystem.retryTimers, hp] at htimers
      rw [ConnectorSystem.tasks, hp] at hstart hreset
      exact ⟨rfl, ⟨hchannel, htimers, hstart, hreset⟩, rfl, hfailed⟩

/-- **The dead stay dead.** -/
theorem Dead.step (hs : s.Dead) (h : s.next a = some t) : t.Dead := by
  cases a with
  | destroy now =>
    obtain ⟨-, -, hclient, -⟩ := next_destroy h
    rw [hs.client] at hclient
    cases hclient
  | use a =>
    obtain ⟨-, -, u, hu, rfl⟩ := next_use h
    cases a with
    | loop a =>
      rw [step_loop] at hu
      obtain ⟨hcalls, hrest, hattempt, hfailed⟩ := atRest_loop hs.rest hs.attempt hu
      have hexpire : ({ s with
          system := u
          misused := !s.connector && s.system.callsConnector (.loop a) } : ClientLife).expire
            (.loop a) = { s with system := u, misused := false } := by
        rw [hcalls, Bool.and_false]
        cases a with
        | handleRead now due => simp [expire, hs.keepAlive]
        | reset => simp [expire, hs.expired]
        | _ => rfl
      rw [hexpire]
      exact ⟨⟨hs.connector, hs.client, hs.keepAlive, hs.expired, rfl, hfailed⟩, hrest, hattempt⟩
    | close conn d now =>
      unfold ClientLife.step at hu
      rw [hs.client, if_neg Bool.false_ne_true] at hu
      dsimp only at hu
      split_ifs at hu
      cases hu
      exact ⟨⟨hs.connector, hs.client, hs.keepAlive, hs.expired, Bool.and_false _, hs.failed⟩,
        hs.rest.forget conn, hs.attempt⟩
    | _ =>
      unfold ClientLife.step at hu
      rw [hs.client, if_neg Bool.false_ne_true] at hu
      cases hu

theorem Dead.safe (hs : s.Dead) : s.Safe := ⟨hs.misused, by simp [hs.failed]⟩

theorem Dead.leads (hs : s.Dead) (h : clientLives.Leads (fun _ => True) s t) : t.Safe := by
  obtain ⟨run, hrun, -⟩ := h.exists_steps
  exact (hrun.invariant (I := Dead) (C := fun _ => True) hs (by simp)
    fun _ _ _ hs _ hn => hs.step hn).safe

/-! ### A connector that is gone too early -/

/-- Some run leads to a misuse. -/
def Doomed (s : ClientLife) : Prop := ∃ u, clientLives.Leads (fun _ => True) s u ∧ ¬u.Safe

theorem leads_next (h : s.next a = some t) : clientLives.Leads (fun _ => True) s t :=
  .single (a := a) trivial h

/-- A step of the loop without the connector. -/
theorem Gone.next_loop {a : ConnectorAction} {c : ConnectorSystem} (hs : s.Gone)
    (hloop : a.isLoop = true) (hc : s.system.connector.next a = some c) :
    ∃ t, s.next (.use (.loop a)) = some t ∧ t.system.connector = c ∧
      t.misused = s.system.callsConnector (.loop a) ∧
      (t.misused = false → c.failed = none → t.Gone) := by
  obtain ⟨hconnector, hclient, hkeep, hexpired, hmisused, hfailed⟩ := hs
  have hstep : s.step (.loop a) = some { s.system.adopt c with
      active := if s.system.connector.phase = .polling then s.system.alive
        else s.system.active } := by
    rw [step_loop, ClientSystem.next, if_neg (by simp [hfailed])]
    dsimp only
    rw [if_pos hloop, hc, Option.map_some]
  have hnext : s.next (.use (.loop a)) = some { s with
      system := { s.system.adopt c with
        active := if s.system.connector.phase = .polling then s.system.alive else s.system.active }
      misused := s.system.callsConnector (.loop a) } := by
    rw [next, if_neg (by simp [hfailed, hmisused])]
    dsimp only
    rw [hstep, Option.map_some, hconnector, Bool.not_false, Bool.true_and]
    cases a with
    | handleRead now due => simp [expire, hkeep]
    | reset => simp [expire, hexpired]
    | _ => rfl
  refine ⟨_, hnext, ClientSystem.adopt_connector c, rfl, fun hm hf => ?_⟩
  exact ⟨hconnector, hclient, hkeep, hexpired, hm,
    (congrArg ConnectorSystem.failed (ClientSystem.adopt_connector c)).trans hf⟩

/-- A step that calls the connector. -/
theorem Gone.doomed_of_call {a : ConnectorAction} {c : ConnectorSystem} (hs : s.Gone)
    (hloop : a.isLoop = true) (hc : s.system.connector.next a = some c)
    (hcalls : s.system.callsConnector (.loop a) = true) : s.Doomed := by
  obtain ⟨t, ht, -, hmisused, -⟩ := hs.next_loop hloop hc
  refine ⟨t, leads_next ht, fun hsafe => ?_⟩
  have hnot := hsafe.1
  rw [hmisused, hcalls] at hnot
  cases hnot

/-- A step that does not. -/
theorem Gone.doomed_of_next {a : ConnectorAction} {c : ConnectorSystem} (hs : s.Gone)
    (hloop : a.isLoop = true) (hc : s.system.connector.next a = some c)
    (hcalls : s.system.callsConnector (.loop a) = false) (hfailed : c.failed = none)
    (hdoomed : ∀ t : ClientLife, t.Gone → t.system.connector = c → t.Doomed) : s.Doomed := by
  obtain ⟨t, ht, hconnector, hmisused, hgone⟩ := hs.next_loop hloop hc
  obtain ⟨u, hu, hunsafe⟩ := hdoomed t (hgone (hmisused.trans hcalls) hfailed) hconnector
  exact ⟨u, (leads_next ht).trans hu, hunsafe⟩

/-- Without a socket, `startInLoop` returns or fails its assertion. -/
theorem exists_after_startInLoop (c : ConnectorSystem) :
    ∃ u, c.after (c.ctx.startInLoop .noSocket 0) = some u := by
  by_cases hstate : c.ctx.connector.state = .kDisconnected
  · rw [ConnectorCtx.startInLoop_eq hstate]
    split_ifs
    · exact ⟨_, rfl⟩
    · exact ⟨_, rfl⟩
  · rw [ConnectorCtx.startInLoop_fault hstate]
    exact ⟨_, rfl⟩

/-- A functor of the connector is on its way. -/
def Bound (functions : List ConnectorTask) : Prop :=
  .startInLoop ∈ functions ∨ .resetChannel ∈ functions

/-- **The functors are called.** -/
theorem Gone.doomed_of_running {functions : List ConnectorTask} (hs : s.Gone)
    (hp : s.system.connector.phase = .running functions) (hbound : Bound functions) :
    s.Doomed := by
  induction functions generalizing s with
  | nil => simp [Bound] at hbound
  | cons task functions ih =>
    cases task with
    | resetChannel =>
      refine hs.doomed_of_call (a := .call .noSocket 0) (c := { s.system.connector with
        ctx := s.system.connector.ctx.resetChannel
        phase := .running functions }) rfl ?_ ?_
      · simp [ConnectorSystem.next, hs.failed, hp, ConnectorSystem.runTask, ConnectorSystem.after]
      · simp [ClientSystem.callsConnector, hp, ConnectorPhase.functions]
    | startInLoop =>
      obtain ⟨c, hc⟩ := exists_after_startInLoop { s.system.connector with
        phase := .running functions }
      refine hs.doomed_of_call (a := .call .noSocket 0) (c := c) rfl ?_ ?_
      · simpa [ConnectorSystem.next, hs.failed, hp, ConnectorSystem.runTask] using hc
      · simp [ClientSystem.callsConnector, hp, ConnectorPhase.functions]
    | connectDestoryed conn =>
      refine hs.doomed_of_next (a := .call .noSocket 0) (c := { s.system.connector with
        phase := .running functions }) rfl ?_ ?_ hs.failed fun t ht he => ?_
      · simp [ConnectorSystem.next, hs.failed, hp, ConnectorSystem.runTask, ConnectorSystem.after]
      · simp [ClientSystem.callsConnector, hp, ConnectorPhase.functions]
      · refine ih ht (by rw [he]) ?_
        simpa [Bound] using hbound

/-- The functors in the queue are called after the next swap. -/
theorem Gone.doomed_of_swap (hs : s.Gone) (hp : s.system.connector.phase = .handling none false)
    (hbound : Bound s.system.connector.ctx.pendingFunctors) : s.Doomed := by
  refine hs.doomed_of_next (a := .swap) (c := { s.system.connector with
    ctx.pendingFunctors := []
    phase := .running s.system.connector.ctx.pendingFunctors }) rfl ?_ rfl hs.failed
    fun t ht he => ht.doomed_of_running (by rw [he]) hbound
  simp [ConnectorSystem.next, hs.failed, hp]

/-- The callbacks of due timers. -/
theorem Gone.doomed_of_expiring {i : ℤ} {l : List ℤ} (hs : s.Gone)
    (hp : s.system.connector.phase = .expiring (i :: l) none) : s.Doomed := by
  obtain ⟨c, hc⟩ := exists_after_startInLoop { s.system.connector with
    phase := .expiring l none }
  refine hs.doomed_of_call (a := .expire .noSocket 0) (c := c) rfl ?_ rfl
  simpa [ConnectorSystem.next, hs.failed, hp] using hc

/-- **The timers expire**, when the timerfd is handled late enough. -/
theorem Gone.doomed_of_timers (hs : s.Gone) (hp : s.system.connector.phase = .handling none true)
    (htimers : s.system.connector.ctx.timers ≠ []) : s.Doomed := by
  obtain ⟨now, hnow⟩ := s.system.connector.ctx.timers.toFinset.exists_le
  have hle : ∀ i ∈ s.system.connector.ctx.timers, i ≤ now := fun i hi =>
    hnow i (List.mem_toFinset.2 hi)
  have hall : s.system.connector.ctx.timers.filter (· ≤ now) = s.system.connector.ctx.timers :=
    List.filter_eq_self.2 fun i hi => decide_eq_true (hle i hi)
  set due := s.system.connector.ctx.timers.mergeSort (· ≤ ·) with hdue
  have hperm : due.Perm s.system.connector.ctx.timers := List.mergeSort_perm _ _
  have hsorted : due.Pairwise (· ≤ ·) := by
    have hpairwise : due.Pairwise fun i j : ℤ => decide (i ≤ j) = true :=
      List.pairwise_mergeSort (by simp; omega) (by simp; omega) s.system.connector.ctx.timers
    simpa using hpairwise
  refine hs.doomed_of_next (a := .handleRead now due) (c := { s.system.connector with
    ctx.timers := s.system.connector.ctx.timers.filter (now < ·)
    phase := .expiring due none }) rfl ?_ rfl hs.failed fun t ht he => ?_
  · simp [ConnectorSystem.next, hs.failed, hp, hall, hperm, hsorted]
  · obtain ⟨i, rest, hcons⟩ := List.exists_cons_of_ne_nil (l := due) fun hnil => htimers (by
      rw [hnil] at hperm
      exact hperm.symm.eq_nil)
    exact ht.doomed_of_expiring (i := i) (l := rest) (by rw [he, ← hcons])

/-- From `epoll_wait` on. -/
theorem Gone.doomed_of_polling (hs : s.Gone) (hp : s.system.connector.phase = .polling)
    (hleft : s.system.connector.ctx.timers ≠ [] ∨ Bound s.system.connector.ctx.pendingFunctors) :
    s.Doomed := by
  by_cases htimers : s.system.connector.ctx.timers = []
  · have hbound := hleft.resolve_left (not_not.2 htimers)
    refine hs.doomed_of_next (a := .poll none false) (c := { s.system.connector with
      phase := .handling none false }) rfl ?_ rfl hs.failed
      fun t ht he => ht.doomed_of_swap (by rw [he]) (by rw [he]; exact hbound)
    simp [ConnectorSystem.next, hs.failed, hp]
  · refine hs.doomed_of_next (a := .poll none true) (c := { s.system.connector with
      phase := .handling none true }) rfl ?_ rfl hs.failed
      fun t ht he => ht.doomed_of_timers (by rw [he]) (by rw [he]; exact htimers)
    simp [ConnectorSystem.next, hs.failed, hp]

/-- From `doPendingFunctions` on. -/
theorem Gone.doomed_of_functions {functions : List ConnectorTask} (hs : s.Gone)
    (hp : s.system.connector.phase = .running functions)
    (hleft : s.system.connector.ctx.timers ≠ [] ∨ Bound functions ∨
      Bound s.system.connector.ctx.pendingFunctors) : s.Doomed := by
  induction functions generalizing s with
  | nil =>
    refine hs.doomed_of_next (a := .finish) (c := { s.system.connector with
      phase := .polling }) rfl ?_ rfl hs.failed fun t ht he => ?_
    · simp [ConnectorSystem.next, hs.failed, hp]
    · refine ht.doomed_of_polling (by rw [he]) ?_
      rw [he]
      simpa [Bound] using hleft
  | cons task functions ih =>
    by_cases hbound : Bound (task :: functions)
    · exact hs.doomed_of_running hp hbound
    · cases task with
      | resetChannel => simp [Bound] at hbound
      | startInLoop => simp [Bound] at hbound
      | connectDestoryed conn =>
        refine hs.doomed_of_next (a := .call .noSocket 0) (c := { s.system.connector with
          phase := .running functions }) rfl ?_ ?_ hs.failed fun t ht he => ?_
        · simp [ConnectorSystem.next, hs.failed, hp, ConnectorSystem.runTask,
            ConnectorSystem.after]
        · simp [ClientSystem.callsConnector, hp, ConnectorPhase.functions]
        · refine ih ht (by rw [he]) ?_
          rw [he]
          rcases hleft with h | h | h
          · exact .inl h
          · exact absurd h hbound
          · exact .inr (.inr h)

/-- From the end of the handlers on. -/
theorem Gone.doomed_of_handled (hs : s.Gone)
    (hp : s.system.connector.phase = .handling none false)
    (hleft : s.system.connector.ctx.timers ≠ [] ∨ Bound s.system.connector.ctx.pendingFunctors) :
    s.Doomed := by
  refine hs.doomed_of_next (a := .swap) (c := { s.system.connector with
    ctx.pendingFunctors := []
    phase := .running s.system.connector.ctx.pendingFunctors }) rfl ?_ rfl hs.failed
    fun t ht he => ht.doomed_of_functions (by rw [he]) (by rw [he]; exact hleft.imp_right .inl)
  simp [ConnectorSystem.next, hs.failed, hp]

/-- From the end of `TimerQueue::handleRead` on. -/
theorem Gone.doomed_of_reset (hs : s.Gone) (hp : s.system.connector.phase = .expiring [] none)
    (hleft : s.system.connector.ctx.timers ≠ [] ∨ Bound s.system.connector.ctx.pendingFunctors) :
    s.Doomed := by
  refine hs.doomed_of_next (a := .reset) (c := { s.system.connector with
    phase := .handling none false }) rfl ?_ rfl hs.failed
    fun t ht he => ht.doomed_of_handled (by rw [he]) (by rw [he]; exact hleft)
  simp [ConnectorSystem.next, hs.failed, hp]

/-- **A connector that is gone too early.** What is left of it is called, whatever the loop does
first. -/
theorem Gone.doomed (hs : s.Gone) (hchannel : s.system.connector.ctx.connector.channel = none)
    (hattempt : s.system.connector.phase.attempt = none) (hrest : ¬s.system.connector.AtRest) :
    s.Doomed := by
  have hleft : s.system.connector.retryTimers ≠ [] ∨ Bound s.system.connector.tasks := by
    by_contra h
    rw [not_or, Bound, not_or, not_not] at h
    exact hrest ⟨hchannel, h.1, h.2.1, h.2.2⟩
  unfold ConnectorSystem.retryTimers ConnectorSystem.tasks at hleft
  cases hp : s.system.connector.phase with
  | handling attempt timerfd =>
    rw [hp] at hleft hattempt
    obtain rfl : attempt = none := hattempt
    cases timerfd with
    | false => exact hs.doomed_of_handled hp hleft
    | true =>
      by_cases htimers : s.system.connector.ctx.timers = []
      · refine hs.doomed_of_next (a := .handleRead 0 []) (c := { s.system.connector with
          ctx.timers := s.system.connector.ctx.timers.filter (0 < ·)
          phase := .expiring [] none }) rfl ?_ rfl hs.failed
          fun t ht he => ht.doomed_of_reset (by rw [he]) (.inr ?_)
        · simp [ConnectorSystem.next, hs.failed, hp, htimers]
        · rw [he]
          exact hleft.resolve_left (not_not.2 htimers)
      · exact hs.doomed_of_timers hp htimers
  | expiring due attempt =>
    rw [hp] at hleft hattempt
    obtain rfl : attempt = none := hattempt
    cases due with
    | nil => exact hs.doomed_of_reset hp hleft
    | cons i due => exact hs.doomed_of_expiring hp
  | running functions =>
    rw [hp] at hleft
    refine hs.doomed_of_functions hp (hleft.imp_right fun h => ?_)
    simpa [Bound, or_or_or_comm, ConnectorPhase.functions] using h
  | polling =>
    rw [hp] at hleft
    exact hs.doomed_of_polling hp hleft

/-! ### The destruction of a client -/

/-- What the run keeps when every deletion is allowed. -/
def Inv (s : ClientLife) : Prop := s.Living ∨ s.Dead

/-- The condition is about the steps that delete the connector. -/
theorem destroyAllowed_iff : s.DestroyAllowed a ↔ (s.Deletes a → s.system.connector.AtRest) := by
  cases a with
  | destroy now => exact Iff.rfl
  | use a =>
    cases a with
    | loop a =>
      cases a with
      | reset => exact Iff.rfl
      | _ => exact ⟨fun _ h => h.elim, fun _ => trivial⟩
    | _ => exact ⟨fun _ h => h.elim, fun _ => trivial⟩

/-- A connector at rest has not reported an attempt. -/
theorem Living.attempt_eq_none (hs : s.Living) (hfailed : s.system.connector.failed = none)
    (hchannel : s.system.connector.ctx.connector.channel = none) :
    s.system.connector.phase.attempt = none := by
  by_contra hne
  exact hs.reported hfailed (Option.isSome_iff_ne_none.2 hne) hchannel

theorem failed_of_next (h : s.next a = some t) : s.system.connector.failed = none := by
  cases a with
  | destroy now => exact (next_destroy h).2.1
  | use a => exact (next_use h).2.1

/-- A deletion at rest leaves a dead connector. -/
theorem Living.dead (hs : s.Living) (h : s.next a = some t) (hdeletes : s.Deletes a)
    (hrest : s.system.connector.AtRest) : t.Dead := by
  rcases hs.next_cases h with ⟨hnot, -⟩ | ⟨-, u, rfl, hclient, hkeep, hexpired, hmisused, hfailed,
    hctx, htasks, htimers, hattempt⟩
  · exact absurd hdeletes hnot
  · refine deleteConnector_dead hclient hkeep hexpired hmisused hfailed ⟨?_, ?_, ?_, ?_⟩ ?_
    · rw [hctx]
      exact hrest.channel
    · rw [htimers]
      exact hrest.timers
    · rw [htasks]
      exact hrest.start
    · rw [htasks]
      exact hrest.reset
    · rw [hattempt]
      exact hs.attempt_eq_none (failed_of_next h) hrest.channel

/-- A deletion that comes too early is doomed. -/
theorem Living.doomed (hs : s.Living) (h : s.next a = some t) (hdeletes : s.Deletes a)
    (hrest : ¬s.system.connector.AtRest) : t.connector = false ∧ t.Doomed := by
  rcases hs.next_cases h with ⟨hnot, -⟩ | ⟨-, u, rfl, hclient, hkeep, hexpired, hmisused, hfailed,
    hctx, htasks, htimers, hattempt⟩
  · exact absurd hdeletes hnot
  refine ⟨rfl, ?_⟩
  by_cases hchannel : u.system.connector.ctx.connector.channel = none
  · rw [deleteConnector_eq hchannel]
    have hgone : ({ u with connector := false } : ClientLife).Gone :=
      ⟨rfl, hclient, hkeep, hexpired, hmisused, hfailed⟩
    refine hgone.doomed hchannel ?_ fun hu => hrest ⟨?_, ?_, ?_, ?_⟩
    · rw [hctx] at hchannel
      exact hattempt.trans (hs.attempt_eq_none (failed_of_next h) hchannel)
    · rw [← hctx]
      exact hchannel
    · rw [← htimers]
      exact hu.timers
    · rw [← htasks]
      exact hu.start
    · rw [← htasks]
      exact hu.reset
  · -- `~Connector` finds a channel
    refine ⟨_, .refl _, fun hsafe => hsafe.2 ?_⟩
    simp [deleteConnector, hchannel]

theorem Inv.step (hs : s.Inv) (ha : s.DestroyAllowed a) (h : s.next a = some t) : t.Inv := by
  rcases hs with hs | hs
  · rcases hs.next_cases h with ⟨-, ht⟩ | ⟨hdeletes, -⟩
    · exact .inl ht
    · exact .inr (hs.dead h hdeletes (destroyAllowed_iff.1 ha hdeletes))
  · exact .inr (hs.step h)

theorem Inv.deletesSafely_iff (hs : s.Inv) (h : s.next a = some t) :
    s.DeletesSafely a t ↔ s.DestroyAllowed a := by
  rw [destroyAllowed_iff]
  rcases hs with hs | hs
  · constructor
    · intro hsafe hdeletes
      by_contra hrest
      obtain ⟨hgone, u, hu, hunsafe⟩ := hs.doomed h hdeletes hrest
      exact hunsafe (hsafe hs.connector hgone u hu)
    · intro ha _ hgone u hu
      rcases hs.next_cases h with ⟨-, ht⟩ | ⟨hdeletes, -⟩
      · rw [ht.connector] at hgone
        cases hgone
      · exact (hs.dead h hdeletes (ha hdeletes)).leads hu
  · refine ⟨fun _ _ => hs.rest, fun _ hconnector => ?_⟩
    rw [hs.connector] at hconnector
    cases hconnector

end ClientLife

/-- **No callback outlives its connector.** In a run from a new client, nothing that follows a
deletion of the connector is a use of it, and `~Connector` finds no channel, exactly if the
connector is at rest whenever a client with a connection is destroyed, and whenever the timer that
holds the connector of one without is deleted. -/
theorem connector_outlives_iff {s t : ClientLife} {run : List (Transition ClientLife LifeAction)}
    (h0 : clientLives.init s) (h : clientLives.Steps s run t) :
    (∀ e ∈ run, e.source.DeletesSafely e.action e.target) ↔
      ∀ e ∈ run, e.source.DestroyAllowed e.action := by
  subst h0
  exact h.forall_iff (I := ClientLife.Inv) (.inl ClientLife.new_living)
    (fun _ _ _ hs hn => hs.deletesSafely_iff hn) fun _ _ _ hs ha hn => hs.step ha hn

/-- A client that is destroyed with an attempt in progress, which is over within the second. -/
theorem connector_outlives_attempt : ∃ (s : ClientLife) (run : List _),
    clientLives.Steps .new run s ∧ s.connector = false ∧
      s.system.connector.ctx.sockets.closed = [0] ∧
      ∀ e ∈ run, e.source.DeletesSafely e.action e.target := by
  let acts : List LifeAction :=
    [.use (.connect true (.connect .EINPROGRESS) 0), .destroy 0, .use (.loop .swap),
      .use (.loop .finish), .use (.loop (.poll (some EPOLLOUT) false)),
      .use (.loop (.event 0 false 500000)), .use (.loop .swap), .use (.loop (.call .noSocket 0)),
      .use (.loop .finish), .use (.loop (.poll none true)), .use (.loop (.handleRead 1000000 [])),
      .use (.loop .reset)]
  obtain ⟨s, hs, hend⟩ := Option.map_eq_some_iff.1 (by decide +kernel :
    (((clientLives.restrict ClientLife.DestroyAllowed).run .new acts).map fun s =>
      (s.connector, s.system.connector.ctx.sockets.closed)) = some (false, [0]))
  simp only [Prod.mk.injEq] at hend
  obtain ⟨run, hrun, -⟩ := LTS.exists_steps_of_run hs
  obtain ⟨hrun, hallowed⟩ := hrun.of_restrict
  exact ⟨s, run, hrun, hend.1, hend.2, (connector_outlives_iff rfl hrun).2 hallowed⟩

/-- A client that is destroyed while a retry timer of two seconds is pending: the timer expires a
second after the connector was deleted. -/
theorem retry_outlives_connector : ∃ (s : ClientLife) (run : List _),
    clientLives.Steps .new run s ∧ s.connector = false ∧ s.misused = true := by
  let acts : List LifeAction :=
    [.use (.connect true (.connect .ECONNREFUSED) 0), .use (.loop .swap), .use (.loop .finish),
      .use (.loop (.poll none true)), .use (.loop (.handleRead 500000 [500000])),
      .use (.loop (.expire (.connect .ECONNREFUSED) 500000)), .use (.loop .reset),
      .use (.loop .swap), .use (.loop .finish), .use (.loop (.poll none true)),
      .use (.loop (.handleRead 1500000 [1500000])),
      .use (.loop (.expire (.connect .ECONNREFUSED) 1500000)), .use (.loop .reset),
      .destroy 1500000, .use (.loop .swap), .use (.loop .finish), .use (.loop (.poll none true)),
      .use (.loop (.handleRead 2500000 [])), .use (.loop .reset), .use (.loop .swap),
      .use (.loop .finish), .use (.loop (.poll none true)),
      .use (.loop (.handleRead 3500000 [3500000])), .use (.loop (.expire .noSocket 3500000))]
  obtain ⟨s, hs, hend⟩ := Option.map_eq_some_iff.1 (by decide +kernel :
    (clientLives.run .new acts).map (fun s => (s.connector, s.misused)) =
      some (false, true))
  simp only [Prod.mk.injEq] at hend
  obtain ⟨run, hrun, -⟩ := LTS.exists_steps_of_run hs
  exact ⟨s, run, hrun, hend.1, hend.2⟩

end Jiangbo
