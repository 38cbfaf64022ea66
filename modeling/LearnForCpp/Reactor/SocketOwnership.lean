import LearnForCpp.Reactor.ConnectorSystem

/-!
# Who owns a socket

Between two handlers every socket of a connector belongs to the channel of the attempt in progress,
or it was closed, or it was handed over: each of them once, and only one of them.

`restart` breaks this.  It forgets the state without looking at the attempt, and when the new socket
fails at once the channel of the old one stays registered in the state `kDisconnected`.
`socket_owned_iff` says that nothing else does.
-/

namespace Jiangbo

namespace Connector

variable {c : Connector}

theorem held_of_attempting (h : c.attempting = false) : c.held = [] := by
  unfold attempting at h
  unfold held
  cases hc : c.channel with
  | none => rfl
  | some channel =>
    rw [hc, Option.any_some] at h
    simp [h]

theorem attempting_iff : c.attempting = true ↔
    ∃ channel, c.channel = some channel ∧ channel.registeredInEpoller = true := by
  cases hc : c.channel <;> simp [attempting, hc]

theorem closing_of_attempting (h : c.attempting = true) : c.closing = false := by
  obtain ⟨channel, hc, hreg⟩ := attempting_iff.1 h
  simp [closing, hc, hreg]

theorem channel_eq_none_iff : c.channel = none ↔ c.attempting = false ∧ c.closing = false := by
  unfold attempting closing
  cases c.channel with
  | none => simp
  | some channel => cases h : channel.registeredInEpoller <;> simp [h]

end Connector

namespace ConnectorCtx

/-- The records of a connector agree, when `functions` are called before the pending ones. -/
structure Sound (functions : List ConnectorTask) (x : ConnectorCtx) : Prop where
  sockets : ∀ i : ℕ, x.connector.held.count ↑i + x.sockets.closed.count ↑i +
    x.sockets.handed.count ↑i = if i < x.sockets.created then 1 else 0
  state : x.connector.attempting = true ↔ x.connector.state = .kConnecting
  reset : (functions ++ x.pendingFunctors).count .resetChannel = x.connector.closing.toNat
  nonneg : ∀ fd ∈ x.connector.held, 0 ≤ fd

variable {x : ConnectorCtx} {functions : List ConnectorTask} {d : Dial} {now : ℤ}

theorem new_sound : (⟨.new, ⟨0, [], []⟩, [], []⟩ : ConnectorCtx).Sound [] := by
  constructor
  · intro i
    rfl
  · simp [Connector.new, Connector.attempting]
  · rfl
  · simp [Connector.new, Connector.held]

/-- What does not touch the channel, the state or the sockets. -/
theorem Sound.congr {y : ConnectorCtx} (h : x.Sound functions)
    (hchannel : y.connector.channel = x.connector.channel)
    (hstate : y.connector.state = x.connector.state) (hsockets : y.sockets = x.sockets)
    (htasks : y.pendingFunctors.count .resetChannel = x.pendingFunctors.count .resetChannel) :
    y.Sound functions := by
  have hheld : y.connector.held = x.connector.held := by rw [Connector.held, hchannel]; rfl
  have hattempting : y.connector.attempting = x.connector.attempting := by
    rw [Connector.attempting, hchannel]; rfl
  have hclosing : y.connector.closing = x.connector.closing := by
    rw [Connector.closing, hchannel]; rfl
  constructor
  · rw [hheld, hsockets]
    exact h.sockets
  · rw [hattempting, hstate]
    exact h.state
  · rw [hclosing, ← h.reset, List.count_append, List.count_append, htasks]
  · rw [hheld]
    exact h.nonneg

/-- Whether the socket is the one with this number. -/
theorem count_singleton (n i : ℕ) : [(n : ℤ)].count ↑i = if i = n then 1 else 0 := by
  by_cases h : i = n
  · simp [h]
  · rw [if_neg h, List.count_eq_zero]
    simpa using h

/-- A new attempt. -/
theorem Sound.opened (h : x.Sound functions) (hchannel : x.connector.channel = none) :
    { x with
      sockets.created := x.sockets.created + 1
      connector := { x.connector with
        state := .kConnecting
        channel := some ⟨x.sockets.created, true, true, Channel.kWriteEvent⟩ } }.Sound
      functions := by
  have hnone := Connector.channel_eq_none_iff.1 hchannel
  have hheld := Connector.held_of_attempting hnone.1
  have hreset := h.reset
  rw [hnone.2] at hreset
  constructor
  · intro i
    have hi := h.sockets i
    rw [hheld, List.count_nil] at hi
    show [(x.sockets.created : ℤ)].count ↑i + x.sockets.closed.count ↑i +
      x.sockets.handed.count ↑i = if i < x.sockets.created + 1 then 1 else 0
    rw [count_singleton]
    split_ifs at hi ⊢ <;> omega
  · simp [Connector.attempting]
  · exact hreset
  · simp [Connector.held]

/-- A new socket that is closed at once. -/
theorem Sound.dropped (h : x.Sound functions) :
    { x with
      sockets.created := x.sockets.created + 1
      sockets.closed := x.sockets.closed ++ [(x.sockets.created : ℤ)] }.Sound functions := by
  refine ⟨fun i => ?_, h.state, h.reset, h.nonneg⟩
  have hi := h.sockets i
  show x.connector.held.count ↑i + (x.sockets.closed ++ [(x.sockets.created : ℤ)]).count ↑i +
    x.sockets.handed.count ↑i = if i < x.sockets.created + 1 then 1 else 0
  rw [List.count_append, count_singleton]
  split_ifs at hi ⊢ <;> omega

/-- A `close` of no descriptor. -/
theorem Sound.closed_none (h : x.Sound functions) : (x.closefd (-1)).Sound functions := by
  refine ⟨fun i => ?_, h.state, h.reset, h.nonneg⟩
  have hne : [(-1 : ℤ)].count ↑i = 0 := List.count_eq_zero.2 (by simp)
  show _ + (x.sockets.closed ++ [(-1 : ℤ)]).count ↑i + _ = _
  rw [List.count_append, hne]
  exact h.sockets i

/-- An attempt that has ended: its socket is closed or handed over. -/
theorem Sound.ended {channel : Channel} (closed handed : List ℤ) (state : ConnectorState)
    (h : x.Sound functions) (hchannel : x.connector.channel = some channel)
    (hreg : channel.registeredInEpoller = true) (hstate : state ≠ .kConnecting)
    (hmoved : ∀ i : ℤ, closed.count i + handed.count i = [channel.fd].count i) :
    { (x.ended channel).setState state with
      sockets.closed := x.sockets.closed ++ closed
      sockets.handed := x.sockets.handed ++ handed }.Sound functions := by
  have hattempting : x.connector.attempting = true :=
    Connector.attempting_iff.2 ⟨channel, hchannel, hreg⟩
  have hreset := h.reset
  rw [Connector.closing_of_attempting hattempting, List.count_append] at hreset
  constructor
  · intro i
    have hi := h.sockets i
    have hheld : x.connector.held = [channel.fd] := by simp [Connector.held, hchannel, hreg]
    rw [hheld, ← hmoved] at hi
    show ([] : List ℤ).count ↑i + (x.sockets.closed ++ closed).count ↑i +
      (x.sockets.handed ++ handed).count ↑i = if i < x.sockets.created then 1 else 0
    rw [List.count_nil, List.count_append, List.count_append, ← hi]
    omega
  · simpa [Connector.attempting, ConnectorCtx.ended, setState] using hstate
  · show (functions ++ (x.pendingFunctors ++ [ConnectorTask.resetChannel])).count
      ConnectorTask.resetChannel = 1
    rw [List.count_append, List.count_append, List.count_singleton_self]
    simpa [← Nat.add_assoc] using hreset
  · simp [Connector.held, ConnectorCtx.ended, setState]

/-- An attempt ends with `retry`. -/
theorem Sound.retry_ended {channel : Channel} (h : x.Sound functions)
    (hchannel : x.connector.channel = some channel) (hreg : channel.registeredInEpoller = true) :
    ((x.ended channel).retry channel.fd now).Sound functions := by
  obtain ⟨delay, hretry⟩ := retry_eq (x := x.ended channel) (n := now) channel.fd
  rw [hretry]
  have hended := h.ended [channel.fd] [] .kDisconnected
    hchannel hreg (by decide) (by simp)
  refine hended.congr rfl rfl ?_ rfl
  simp [ConnectorCtx.ended, setState]

/-- The events of an attempt. -/
theorem Sound.handleEvent {n : ℤ} (h : x.Sound functions) (err : ℤ) (selfConnect : Bool)
    (revents : EventMask) :
    (x.handleEvent err selfConnect n revents).Ends (Sound functions) fun _ _ => True := by
  by_cases hattempting : x.connector.attempting = true
  · obtain ⟨channel, hchannel, hreg⟩ := Connector.attempting_iff.1 hattempting
    rcases handleEvent_cases (n := n) hchannel hreg (h.state.1 hattempting) err selfConnect
      revents with he | he | ⟨-, he⟩ | ⟨-, he⟩ <;> rw [he]
    · exact h
    · exact h.retry_ended hchannel hreg
    · have := h.ended [] [channel.fd] .kConnected hchannel hreg
        (by decide) (by simp)
      exact this.congr rfl rfl (by simp [ConnectorCtx.ended, setState]) rfl
    · have := h.ended [channel.fd] [] .kConnected hchannel hreg
        (by decide) (by simp)
      exact this.congr rfl rfl (by simp [ConnectorCtx.ended, setState, closefd]) rfl
  · have hstate : x.connector.state ≠ .kConnecting := fun hs => hattempting (h.state.2 hs)
    rw [handleEvent_eq]
    by_cases h1 : Bitmask.test revents EPOLLERR = true
    · rw [if_pos h1, handleError, Outcome.check_neg (by simpa using hstate)]
      trivial
    · rw [if_neg h1, Outcome.bind_ok]
      split_ifs
      · rw [handleWrite, if_neg hstate]
        exact Outcome.Ends.check (fun _ => h) fun _ => trivial
      · exact h

/-- An attempt is started in the state `kDisconnected`. -/
theorem Sound.connect (h : x.Sound functions) (hstate : x.connector.state = .kDisconnected) :
    (x.connect d now).Ends (Sound functions) fun _ _ => True := by
  cases d with
  | noSocket => exact h.closed_none
  | connect errno =>
    have hdropped := h.dropped
    simp only [ConnectorCtx.connect, createNonblockingOrDie, Dial.errno]
    cases errno.dialClass with
    | connecting =>
      by_cases hchannel : x.connector.channel = none
      · show Outcome.Ends (connecting _ { x with sockets.created := x.sockets.created + 1 }) _ _
        rw [connecting_eq (x := { x with sockets.created := x.sockets.created + 1 }) hchannel]
        exact h.opened hchannel
      · obtain ⟨y, hy⟩ := connecting_fault (x := { x with
          sockets.created := x.sockets.created + 1 }) hchannel x.sockets.created
        show Outcome.Ends (connecting _ { x with sockets.created := x.sockets.created + 1 }) _ _
        rw [hy]
        trivial
    | retry =>
      obtain ⟨delay, hretry⟩ := retry_eq (x := { x with
        sockets.created := x.sockets.created + 1 }) (n := now) x.sockets.created
      show Outcome.Ends (.ok (retry _ now { x with sockets.created := x.sockets.created + 1 })) _ _
      rw [hretry]
      exact hdropped.congr rfl hstate.symm rfl rfl
    | close => exact hdropped

theorem Sound.startInLoop {n : ℤ} (h : x.Sound functions) :
    (x.startInLoop d n).Ends (Sound functions) fun _ _ => True := by
  by_cases hstate : x.connector.state = .kDisconnected
  · rw [startInLoop_eq hstate]
    split_ifs
    · exact h.connect hstate
    · exact h
  · rw [startInLoop_fault hstate]
    trivial

theorem Sound.start {inLoop : Bool} (h : x.Sound functions) :
    (x.start inLoop d now).Ends (Sound functions) fun _ _ => True := by
  have hx : { x with connector.connect := true }.Sound functions := h.congr rfl rfl rfl rfl
  cases inLoop with
  | true => exact hx.startInLoop
  | false =>
    exact h.congr (y := { x with connector.connect := true }.queueInLoop .startInLoop) rfl rfl rfl
      (by simp [queueInLoop])

/-- `restart` without an attempt in progress. -/
theorem Sound.restart (h : x.Sound functions) (hattempting : x.connector.attempting = false) :
    (x.restart d now).Ends (Sound functions) fun _ _ => True := by
  have hreinit : x.reinit.Sound functions := by
    refine ⟨h.sockets, ?_, h.reset, h.nonneg⟩
    show x.connector.attempting = true ↔ ConnectorState.kDisconnected = .kConnecting
    simp [hattempting]
  exact hreinit.startInLoop

/-- Another functor as the next one. -/
theorem Sound.tail {task : ConnectorTask} (h : x.Sound (task :: functions))
    (hne : task ≠ .resetChannel) : x.Sound functions := by
  refine ⟨h.sockets, h.state, ?_, h.nonneg⟩
  have := h.reset
  rwa [List.cons_append, List.count_cons_of_ne hne] at this

/-- `resetChannel` as the next functor: the channel is that of an attempt that has ended. -/
theorem Sound.resetChannel (h : x.Sound (.resetChannel :: functions)) :
    x.connector.attempting = false ∧ x.resetChannel.Sound functions := by
  have hreset := h.reset
  rw [List.cons_append, List.count_cons_self] at hreset
  have hclosing : x.connector.closing = true := by
    cases hc : x.connector.closing with
    | true => rfl
    | false => simp [hc] at hreset
  have hattempting : x.connector.attempting = false := by
    by_contra ha
    rw [Bool.not_eq_false] at ha
    simp [Connector.closing_of_attempting ha] at hclosing
  refine ⟨hattempting, ⟨fun i => ?_, ?_, ?_, by simp [Connector.held, ConnectorCtx.resetChannel]⟩⟩
  · have hi := h.sockets i
    rw [Connector.held_of_attempting hattempting] at hi
    exact hi
  · have hstate := h.state
    rw [hattempting] at hstate
    simpa [ConnectorCtx.resetChannel, Connector.attempting] using hstate
  · rw [hclosing] at hreset
    exact Nat.succ.inj hreset

end ConnectorCtx

namespace ConnectorSystem

variable {s t : ConnectorSystem} {a : ConnectorAction}

/-- Every socket is in one of three situations: held by the channel of the attempt in progress,
closed once, or handed over once; and there is such a channel only in the state `kConnecting`. -/
def Owned (s : ConnectorSystem) : Prop :=
  (∀ i : ℕ, i < s.ctx.sockets.created → s.ctx.connector.held.count ↑i +
    s.ctx.sockets.closed.count ↑i + s.ctx.sockets.handed.count ↑i = 1) ∧
  (s.ctx.connector.attempting = true → s.ctx.connector.state = .kConnecting)

/-- `restart` finds no attempt in progress, or starts one that is in progress at once, which is the
end of the run. -/
def RestartAllowed (s : ConnectorSystem) : ConnectorAction → Prop
  | .restart d _ => s.ctx.connector.attempting = true → d.errno.dialClass = .connecting
  | _ => True

instance (s : ConnectorSystem) : (a : ConnectorAction) → Decidable (s.RestartAllowed a)
  | .restart _ _ => inferInstanceAs (Decidable (_ → _))
  | .start .. | .stop | .poll .. | .event .. | .handleRead .. | .expire .. | .reset | .swap
  | .call .. | .finish => inferInstanceAs (Decidable True)

/-- The records agree until an assertion fails. -/
def Sound (s : ConnectorSystem) : Prop := s.failed = none → s.ctx.Sound s.phase.functions

theorem Sound.owned (hs : s.Sound) (hf : s.failed = none) : s.Owned := by
  refine ⟨fun i hi => ?_, (hs hf).state.1⟩
  have := (hs hf).sockets i
  rwa [if_pos hi] at this

/-- What a call leaves. -/
theorem sound_after {o : Result ConnectorCtx} {functions : List ConnectorTask}
    (ho : o.Ends (ConnectorCtx.Sound functions) fun _ _ => True)
    (hphase : s.phase.functions = functions) (h : s.after o = some t) : t.Sound := by
  intro hf
  rcases after_cases h with ⟨x, rfl, rfl⟩ | hfailed
  · show x.Sound s.phase.functions
    rw [hphase]
    exact ho
  · simp [hf] at hfailed

/-- `restart` in the middle of an attempt, when the new one is in progress at once. -/
theorem restart_fault {d : Dial} (hattempting : s.ctx.connector.attempting = true)
    (hclass : d.errno.dialClass = .connecting) (now : ℤ) :
    ∃ y, s.ctx.restart d now = .fault (.assertion .connectingChannel) y := by
  obtain ⟨channel, hchannel, -⟩ := Connector.attempting_iff.1 hattempting
  have hconnect : s.ctx.restart d now = s.ctx.reinit.connect d now := by
    rw [ConnectorCtx.restart, ConnectorCtx.startInLoop_eq rfl]
    rfl
  rw [hconnect]
  cases d with
  | noSocket => cases hclass
  | connect errno =>
    have hne : s.ctx.connector.channel ≠ none := by simp [hchannel]
    simp only [ConnectorCtx.connect, ConnectorCtx.createNonblockingOrDie]
    rw [hclass]
    exact ConnectorCtx.connecting_fault (x := { s.ctx.reinit with
      sockets.created := s.ctx.reinit.sockets.created + 1 }) hne _

/-- A step that is allowed keeps the records in agreement. -/
theorem Sound.step (hs : s.Sound) (ha : s.RestartAllowed a) (h : s.next a = some t) : t.Sound := by
  obtain ⟨hf, hmoves⟩ := next_moves h
  have hsound := hs hf
  cases hmoves with
  | start hafter => exact sound_after hsound.start rfl hafter
  | @restart d now hp hafter =>
    cases hattempting : s.ctx.connector.attempting with
    | false => exact sound_after (hsound.restart hattempting) rfl hafter
    | true =>
      -- the channel of the attempt in progress is in the way of the new one
      obtain ⟨y, hy⟩ := restart_fault hattempting (ha hattempting) now
      rw [hy] at hafter
      cases hafter
      intro hft
      cases hft
  | stop he =>
    subst he
    exact fun _ => hsound.congr rfl rfl rfl rfl
  | poll hp _ he =>
    subst he
    rw [hp] at hsound
    exact fun _ => hsound
  | event hp hafter =>
    rw [hp] at hsound
    exact sound_after (hsound.handleEvent _ _ _) rfl hafter
  | handleRead hp _ he =>
    subst he
    rw [hp] at hsound
    exact fun _ => hsound.congr rfl rfl rfl rfl
  | expire hp hafter =>
    rw [hp] at hsound
    exact sound_after hsound.startInLoop rfl hafter
  | reset hp he =>
    subst he
    rw [hp] at hsound
    exact fun _ => hsound
  | swap hp he =>
    subst he
    rw [hp] at hsound
    intro _
    refine ⟨hsound.sockets, hsound.state, ?_, hsound.nonneg⟩
    rw [List.append_nil]
    exact hsound.reset
  | @call d now task functions hp hafter =>
    rw [hp] at hsound
    refine sound_after ?_ rfl hafter
    cases task with
    | resetChannel => exact hsound.resetChannel.2
    | startInLoop => exact (hsound.tail (by simp)).startInLoop
    | connectDestoryed conn => exact hsound.tail (by simp)
  | finish hp he =>
    subst he
    rw [hp] at hsound
    exact fun _ => hsound

theorem new_sound : new.Sound := fun _ => ConnectorCtx.new_sound

end ConnectorSystem

end Jiangbo
