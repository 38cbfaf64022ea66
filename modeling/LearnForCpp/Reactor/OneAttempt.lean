import LearnForCpp.Reactor.ClientHistory

/-!
# One attempt at a time

A client enters `startInLoop` only where there is room for one more attempt, exactly as long as
every `connect()` comes after the end of the attempts before it, and every retry timer expires after
the functor that was to reset the channel of the attempt it repeats.
-/

namespace Jiangbo

open ClientEvent

namespace ClientSystem

variable {s t : ClientSystem} {d : Dial} {now : ℤ}

/-- At most one of an attempt in progress, a retry timer that will start one, and a connection. -/
def AtMostOne (s : ClientSystem) : Prop :=
  s.connector.ctx.connector.attempting.toNat +
    (if s.connector.ctx.connector.connect then s.connector.retryTimers.length else 0) +
    s.alive.length ≤ 1

/-- A step that enters `startInLoop` finds the state `kDisconnected` and no channel, so that the
assertion holds, and a step leads to at most one attempt. -/
def EntersClean (s : ClientSystem) (a : ClientAction) (t : ClientSystem) : Prop :=
  (∀ c, s.entry a = some c → c.state = .kDisconnected ∧ c.channel = none) ∧
  t.connector.failed ≠ some .startInLoopState ∧ t.AtMostOne

/-- `connect()` is called when no connection is alive and no attempt in progress. -/
def ConnectLegal (s : ClientSystem) : ClientAction → Prop
  | .connect _ _ _ => s.alive = [] ∧ s.connector.ctx.connector.attempting = false
  | _ => True

instance (s : ClientSystem) : (a : ClientAction) → Decidable (s.ConnectLegal a)
  | .connect .. => inferInstanceAs (Decidable (_ ∧ _))
  | .disconnect | .stop | .enableRetry | .close .. | .loop _ => inferInstanceAs (Decidable True)

theorem Inv.atMostOne (hs : s.Inv) : s.AtMostOne := by
  have hone := hs.one
  unfold AtMostOne
  split_ifs
  · exact hone
  · omega

/-- A start beside a retry timer leads to two attempts, unless its socket is closed at once. -/
theorem start_crowded {c u : ConnectorSystem} {functions : List ConnectorTask}
    (hsound : u.ctx.Sound functions) (hstate : u.ctx.connector.state = .kDisconnected)
    (hchannel : u.ctx.connector.channel = none) (hconnect : u.ctx.connector.connect = true)
    (htimers : u.retryTimers ≠ []) (hclass : d.errno.dialClass ≠ .close)
    (h : u.after (u.ctx.startInLoop d now) = some c) : c.ctx.connector.connect = true ∧
      2 ≤ c.ctx.connector.attempting.toNat + c.retryTimers.length := by
  have hpos := List.length_pos_iff.2 htimers
  obtain ⟨y, hy, -, hyconnect, -, -, hcases⟩ := ConnectorCtx.startInLoop_cases (d := d) (n := now)
    hsound hstate fun _ _ => hchannel
  rw [hy] at h
  cases h
  refine ⟨hyconnect.trans hconnect, ?_⟩
  rw [ConnectorSystem.retryTimers, List.length_append] at hpos ⊢
  -- the attempt ends in a retry timer, or it is in progress beside the timer
  rcases hcases with ⟨hc | hc, -⟩ | ⟨-, -, -, -, i, ht⟩ | ⟨-, -, hatt, ht⟩
  · rw [hconnect] at hc
    cases hc
  · exact absurd hc hclass
  · simp only [ht, List.length_append, List.length_singleton]
    omega
  · simp only [ht, hatt, Bool.toNat_true]
    omega

/-- Two attempts, or timers for them, are too many. -/
theorem not_atMostOne (hconnect : s.connector.ctx.connector.connect = true)
    (htwo : 2 ≤ s.connector.ctx.connector.attempting.toNat + s.connector.retryTimers.length) :
    ¬ s.AtMostOne := by
  unfold AtMostOne
  rw [if_pos hconnect]
  omega

/-- A step that enters `startInLoop` cleanly, and leaves at most one attempt, finds room
for it. -/
theorem EntersClean.findsRoom {a : ClientAction} (hs : s.Inv) (h : s.next a = some t)
    (hclean : s.EntersClean a t) : s.FindsRoom a := by
  obtain ⟨hentry, -, hone⟩ := hclean
  obtain ⟨-, hmoves⟩ := next_moves h
  cases hmoves with
  | @connect inLoop d now c hc he =>
    subst he
    intro hin
    subst hin
    obtain ⟨hstate, hchannel⟩ := hentry _ rfl
    refine ⟨hstate, (hs.channel_eq_none_iff hstate).1 hchannel, ?_⟩
    by_contra hcrowd
    rw [not_or] at hcrowd
    obtain ⟨-, hmoves⟩ := ConnectorSystem.next_moves hc
    cases hmoves with
    | start hafter =>
      have hsound : { s.connector.ctx with connector.connect := true }.Sound
        s.connector.phase.functions := hs.sound.congr rfl rfl rfl rfl
      obtain ⟨hconnect, htwo⟩ := start_crowded (u := { s.connector with
        ctx.connector.connect := true }) hsound hstate hchannel rfl hcrowd.1 hcrowd.2 hafter
      exact not_atMostOne hconnect htwo hone
  | @loop a c hloop hc he =>
    subst he
    obtain ⟨-, hmoves⟩ := ConnectorSystem.next_moves hc
    cases hmoves with
    | expire hp hafter =>
      obtain ⟨hstate, hchannel⟩ := hentry _ rfl
      exact (hs.channel_eq_none_iff hstate).1 hchannel
    | @call d now task functions hp hafter =>
      intro hhead
      obtain ⟨hstate, hchannel⟩ := hentry _ (if_pos hhead)
      refine ⟨hstate, (hs.channel_eq_none_iff hstate).1 hchannel, fun hconnect => ?_⟩
      by_contra hcrowd
      rw [not_or] at hcrowd
      rw [hp] at hhead
      obtain rfl : task = .startInLoop := by simpa [ConnectorPhase.functions] using hhead
      have hsound := hs.sound
      rw [hp] at hsound
      have htimers := hcrowd.1
      rw [ConnectorSystem.retryTimers, hp] at htimers
      obtain ⟨hconnect', htwo⟩ := start_crowded (u := { s.connector with
        phase := .running functions }) (hsound.tail (by simp)) hstate hchannel hconnect htimers
        hcrowd.2 hafter
      rw [← adopt_connector (s := s) c] at hconnect' htwo
      exact not_atMostOne hconnect' htwo hone
    | _ => trivial
  | _ => trivial

/-- A step finds and leaves the client clean exactly if it finds room for an attempt. -/
theorem Inv.entersClean_iff {a : ClientAction} (hs : s.Inv) (h : s.next a = some t) :
    s.EntersClean a t ↔ s.FindsRoom a := by
  refine ⟨fun hclean => hclean.findsRoom hs h, fun ha => ?_⟩
  have ht := hs.step (ha.orderly hs h) h
  refine ⟨fun x hx => ?_, by simp [ht.failed], ht.atMostOne⟩
  obtain ⟨-, hmoves⟩ := next_moves h
  cases hmoves with
  | @connect inLoop d now c hc he =>
    cases inLoop with
    | false => cases hx
    | true =>
      cases hx
      obtain ⟨hstate, htasks, -⟩ := ha rfl
      exact ⟨hstate, (hs.channel_eq_none_iff hstate).2 htasks⟩
  | close _ hactive halive hremove =>
    obtain ⟨-, -, -, hchannel, -⟩ := hs.forget hactive halive
    simp only [entry] at hx
    split_ifs at hx
    cases hx
    exact ⟨rfl, hchannel⟩
  | loop hloop hc he =>
    obtain ⟨-, hmoves⟩ := ConnectorSystem.next_moves hc
    cases hmoves with
    | expire hp hafter =>
      cases hx
      have hstate := (hs.popTimer hp).2.1
      exact ⟨hstate, (hs.channel_eq_none_iff hstate).2 ha⟩
    | call hp hafter =>
      simp only [entry] at hx
      split_ifs at hx with hhead
      cases hx
      obtain ⟨hstate, htasks, -⟩ := ha hhead
      exact ⟨hstate, (hs.channel_eq_none_iff hstate).2 htasks⟩
    | _ => cases hx
  | _ => cases hx

end ClientSystem

/-! ### One attempt at a time -/

namespace ClientEvent

/-- When a call of `connect()` gets to `startInLoop`, every attempt opened before has failed or was
followed by `restart()`, the `resetChannel` of every attempt that has ended has run, and every retry
timer that was set has expired, unless the connector was stopped again or the new socket is closed
at once.  When a retry timer expires, the `resetChannel` of the attempt it repeats has run. -/
def ConnectAllowed (past : List ClientEvent) (e : ClientEvent) : Prop :=
  (Connects e → ¬Occupied past ∧ ¬Closing past ∧
    (TimerLeft past → e.dials = none ∨ e.dials = some .close)) ∧
  (Expires e → ¬Closing past)

instance (past : List ClientEvent) (e : ClientEvent) : Decidable (ConnectAllowed past e) :=
  inferInstanceAs (Decidable (_ ∧ _))

end ClientEvent

/-- The order of the steps tells whether there is room for an attempt. -/
theorem ClientSystem.Tracks.findsRoom_iff {past : List ClientEvent} {s t : ClientSystem}
    {a : ClientAction} (hs : s.Tracks past) :
    s.FindsRoom a ↔ ConnectAllowed past ⟨s, a, t⟩ := by
  have hstate : s.connector.ctx.connector.state = .kDisconnected ↔ ¬Occupied past := by
    rw [← hs.occupied, not_not]
  have htasks : .resetChannel ∉ s.connector.tasks ↔ ¬Closing past := not_congr hs.closing
  have htimers : s.connector.retryTimers = [] ↔ ¬TimerLeft past := by rw [← hs.timer, not_not]
  cases a with
  | connect inLoop d now =>
    cases inLoop with
    | false => simp [ClientSystem.FindsRoom, ConnectAllowed, Connects, Calls, Expires]
    | true =>
      have hdials : ClientEvent.dials ⟨s, .connect true d now, t⟩ = some d.errno.dialClass := by
        simp [ClientEvent.dials, ClientSystem.entry, ClientAction.dial]
      simp [ClientSystem.FindsRoom, ConnectAllowed, Connects, Expires, hdials, hstate, htasks,
        htimers, imp_iff_not_or]
  | loop a =>
    cases a with
    | call d now =>
      by_cases hhead : s.connector.phase.functions.head? = some .startInLoop
      · have hdials : ClientEvent.dials ⟨s, .loop (.call d now), t⟩ =
            if s.connector.ctx.connector.connect then some d.errno.dialClass else none := by
          simp [ClientEvent.dials, ClientSystem.entry, ClientAction.dial, hhead, Option.filter]
        cases hconnect : s.connector.ctx.connector.connect <;>
          simp [ClientSystem.FindsRoom, ConnectAllowed, Connects, Calls, Expires, hhead, hdials,
            hstate, htasks, htimers, hconnect, imp_iff_not_or]
      · simp [ClientSystem.FindsRoom, ConnectAllowed, Connects, Calls, Expires, hhead]
    | expire d now =>
      simp [ClientSystem.FindsRoom, ConnectAllowed, Connects, Calls, Expires, htasks]
    | _ => simp [ClientSystem.FindsRoom, ConnectAllowed, Connects, Calls, Expires]
  | _ => simp [ClientSystem.FindsRoom, ConnectAllowed, Connects, Calls, Expires]

/-- **One attempt at a time.** In a run from a new client, every step enters `startInLoop` cleanly
and leaves at most one attempt, exactly if every step is allowed after the steps before it. -/
theorem one_attempt_iff {s t : ClientSystem} {run : List ClientEvent}
    (h0 : clientSystems.init s) (h : clientSystems.Steps s run t) :
    (∀ e ∈ run, e.source.EntersClean e.action e.target) ↔ Along ConnectAllowed [] run := by
  subst h0
  exact h.forall_iff_along (L := fun e => e.source.EntersClean e.action e.target)
    ClientSystem.new_tracks
    (fun _ _ _ _ hs hn => (hs.toInv.entersClean_iff hn).trans hs.findsRoom_iff)
    fun _ _ _ _ hs hc hn => hs.step (hs.findsRoom_iff.2 hc) hn

/-- An attempt that is refused, one after it that is handed over and closed, and one that
`restart` begins. -/
theorem one_attempt_reconnect : ∃ (s : ClientSystem) (run : List _),
    clientSystems.Steps .new run s ∧ s.connector.ctx.connector.attempting = true ∧
      s.restarts = 1 ∧ ∀ e ∈ run, e.source.EntersClean e.action e.target := by
  let acts : List ClientAction :=
    [.enableRetry, .connect false (.connect .EINPROGRESS) 0, .loop .swap,
      .loop (.call (.connect .ECONNREFUSED) 0), .loop .finish, .loop (.poll none true),
      .loop (.handleRead 500000 [500000]), .loop (.expire (.connect .EINPROGRESS) 500000),
      .loop .reset, .loop .swap, .loop .finish, .loop (.poll (some EPOLLOUT) false),
      .loop (.event 0 false 600000), .loop .swap, .loop (.call .noSocket 600000), .loop .finish,
      .loop (.poll none false), .close 1 (.connect .EINPROGRESS) 700000]
  obtain ⟨x, hx, hend⟩ := Option.map_eq_some_iff.1 (by decide +kernel :
    (((clientSystems.recorded ConnectAllowed).run ([], .new) acts).map fun x =>
      (x.2.connector.ctx.connector.attempting, x.2.restarts)) = some (true, 1))
  simp only [Prod.mk.injEq] at hend
  obtain ⟨run, hrun, hallowed⟩ := LTS.exists_along_of_run hx
  exact ⟨x.2, run, hrun, hend.1, hend.2, (one_attempt_iff rfl hrun).2 hallowed⟩

/-- `connect()` after a connection that has closed finds the state `kConnected`. -/
theorem connect_after_close : ∃ (s : ClientSystem) (run : List _),
    clientSystems.Steps .new run s ∧ (∀ e ∈ run, e.source.ConnectLegal e.action) ∧
      s.connector.failed = some .startInLoopState := by
  let acts : List ClientAction :=
    [.connect true (.connect .EINPROGRESS) 0, .loop .swap, .loop .finish,
      .loop (.poll (some EPOLLOUT) false), .loop (.event 0 false 0), .loop .swap,
      .loop (.call .noSocket 0), .loop .finish, .loop (.poll none false), .close 0 .noSocket 0,
      .loop .swap, .loop (.call .noSocket 0), .connect true (.connect .EINPROGRESS) 0]
  obtain ⟨s, hs, hend⟩ := Option.map_eq_some_iff.1 (by decide +kernel :
    (((clientSystems.restrict ClientSystem.ConnectLegal).run .new acts).map fun s =>
      s.connector.failed) = some (some .startInLoopState))
  obtain ⟨run, hrun, -⟩ := LTS.exists_steps_of_run hs
  obtain ⟨hrun, hlegal⟩ := hrun.of_restrict
  exact ⟨s, run, hrun, hlegal, hend⟩

end Jiangbo
