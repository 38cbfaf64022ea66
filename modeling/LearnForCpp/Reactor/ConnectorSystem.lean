import LearnForCpp.Lib.Transition
import LearnForCpp.Reactor.Connector

/-!
# A connector and its loop

A `Connector` in the loop that runs it, with `TimerQueue::handleRead` and `doPendingFunctions`.
`poll` is the return of `epoll_wait`: whether the channel of the attempt is active, with its events,
and whether the timerfd is, for a timer of the connector or for any other.  The two are handled in
any order.  A retry timer is due when the clock reading of `handleRead` has reached its expiration,
and the callbacks of the due ones follow one by one.

`start`, `restart` and `stop` are called at any moment, `start` and `stop` from any thread.  User
code in the loop thread runs outside `epoll_wait`, also before `loop()`, which is where a system
begins.
-/

namespace Jiangbo

/-- Where the loop stands. -/
inductive ConnectorPhase
  /-- Among the handlers of the active channels, with those still to be called. -/
  | handling (attempt : Option EventMask) (timerfd : Bool)
  /-- In `TimerQueue::handleRead`, with the expirations of the callbacks still to be called. -/
  | expiring (due : List ℤ) (attempt : Option EventMask)
  /-- In `doPendingFunctions`, with the functors still to be called. -/
  | running (functions : List ConnectorTask)
  /-- In `epoll_wait`. -/
  | polling
  deriving DecidableEq

namespace ConnectorPhase

/-- The due timers whose callbacks have not been called. -/
def due : ConnectorPhase → List ℤ
  | expiring due _ => due
  | handling _ _ | running _ | polling => []

/-- The functors that the swap took out of the queue and that have not been called. -/
def functions : ConnectorPhase → List ConnectorTask
  | running functions => functions
  | handling _ _ | expiring _ _ | polling => []

/-- The events of the attempt, while its channel is among those still to be handled. -/
def attempt : ConnectorPhase → Option EventMask
  | handling attempt _ | expiring _ attempt => attempt
  | running _ | polling => none

/-- The handlers of the active channels have returned. -/
def handled : ConnectorPhase → Bool
  | handling _ _ | expiring _ _ => false
  | running _ | polling => true

end ConnectorPhase

/-- A connector and its loop. -/
structure ConnectorSystem where
  ctx : ConnectorCtx
  phase : ConnectorPhase
  failed : Option Assertion
  deriving DecidableEq

/-- A step of the loop thread, or a call from another one. -/
inductive ConnectorAction
  | start (inLoop : Bool) (d : Dial) (now : ℤ)
  | restart (d : Dial) (now : ℤ)
  | stop
  | poll (attempt : Option EventMask) (timerfd : Bool)
  /-- `handleEvent` of the attempt's channel. -/
  | event (err : ℤ) (selfConnect : Bool) (now : ℤ)
  /-- `TimerQueue::handleRead` up to its loop, with the due timers in their order. -/
  | handleRead (now : ℤ) (due : List ℤ)
  /-- The next callback. -/
  | expire (d : Dial) (now : ℤ)
  /-- The end of `TimerQueue::handleRead`. -/
  | reset
  | swap
  /-- The next functor. -/
  | call (d : Dial) (now : ℤ)
  /-- The return of `doPendingFunctions`. -/
  | finish
  deriving DecidableEq

namespace ConnectorSystem

/-- A connector that has just been constructed. -/
def new : ConnectorSystem where
  ctx := ⟨.new, ⟨0, [], []⟩, [], []⟩
  phase := .handling none false
  failed := none

/-- The state after a call. -/
def after (s : ConnectorSystem) : Result ConnectorCtx → Option ConnectorSystem
  | .ok x => some { s with ctx := x }
  | .fault (.assertion a) x => some { s with ctx := x, failed := some a }
  | .fault _ _ => none

/-- A functor. -/
def runTask (task : ConnectorTask) (d : Dial) (now : ℤ) (x : ConnectorCtx) : Result ConnectorCtx :=
  match task with
  | .resetChannel => .ok x.resetChannel
  | .startInLoop => x.startInLoop d now
  | .connectDestoryed _ => .ok x

/-- One step. -/
def next (s : ConnectorSystem) (a : ConnectorAction) : Option ConnectorSystem :=
  if s.failed.isSome then none
  else
    match a with
    | .start inLoop d now =>
        -- in `epoll_wait` the loop thread calls nothing
        if inLoop = true ∧ s.phase = .polling then none else s.after (s.ctx.start inLoop d now)
    | .restart d now => if s.phase = .polling then none else s.after (s.ctx.restart d now)
    | .stop => some { s with ctx := s.ctx.stop }
    | .poll attempt timerfd =>
        if s.phase = .polling ∧ (attempt.isSome → s.ctx.connector.attempting) then
          some { s with phase := .handling attempt timerfd }
        else none
    | .event err selfConnect now =>
        match s.phase with
        | .handling (some revents) timerfd =>
            { s with phase := .handling none timerfd }.after
              (s.ctx.handleEvent err selfConnect now revents)
        | _ => none
    | .handleRead now due =>
        match s.phase with
        | .handling attempt true =>
            -- timers of one expiration come in the order of their addresses, which is any
            if due.Perm (s.ctx.timers.filter (· ≤ now)) ∧ due.Pairwise (· ≤ ·) then
              some { s with
                ctx.timers := s.ctx.timers.filter (now < ·)
                phase := .expiring due attempt }
            else none
        | _ => none
    | .expire d now =>
        match s.phase with
        | .expiring (_ :: due) attempt =>
            { s with phase := .expiring due attempt }.after (s.ctx.startInLoop d now)
        | _ => none
    | .reset =>
        match s.phase with
        | .expiring [] attempt => some { s with phase := .handling attempt false }
        | _ => none
    | .swap =>
        match s.phase with
        | .handling none false =>
            some { s with ctx.pendingFunctors := [], phase := .running s.ctx.pendingFunctors }
        | _ => none
    | .call d now =>
        match s.phase with
        | .running (task :: functions) =>
            { s with phase := .running functions }.after (runTask task d now s.ctx)
        | _ => none
    | .finish =>
        match s.phase with
        | .running [] => some { s with phase := .polling }
        | _ => none

/-- The functors that are still to be called. -/
def tasks (s : ConnectorSystem) : List ConnectorTask :=
  s.phase.functions ++ s.ctx.pendingFunctors

/-- The retry timers whose callbacks are still to be called. -/
def retryTimers (s : ConnectorSystem) : List ℤ := s.phase.due ++ s.ctx.timers

/-! ### What a step can do -/

variable {s t : ConnectorSystem} {o : Result ConnectorCtx}

/-- A call that returns, or that ends in a failed assertion. -/
theorem after_cases (h : s.after o = some t) :
    (∃ x, o = .ok x ∧ t = { s with ctx := x }) ∨ t.failed.isSome = true := by
  cases o with
  | ok x =>
    cases h
    exact .inl ⟨x, rfl, rfl⟩
  | fault e x =>
    cases e with
    | assertion a =>
      cases h
      exact .inr rfl
    | _ => cases h

/-- The cases of a step, with their guards. -/
inductive Moves (s t : ConnectorSystem) : ConnectorAction → Prop
  | start {inLoop : Bool} {d : Dial} {now : ℤ} :
      s.after (s.ctx.start inLoop d now) = some t → Moves s t (.start inLoop d now)
  | restart {d : Dial} {now : ℤ} : s.phase ≠ .polling →
      s.after (s.ctx.restart d now) = some t → Moves s t (.restart d now)
  | stop : t = { s with ctx := s.ctx.stop } → Moves s t .stop
  | poll {attempt : Option EventMask} {timerfd : Bool} : s.phase = .polling →
      (attempt.isSome = true → s.ctx.connector.attempting = true) →
      t = { s with phase := .handling attempt timerfd } → Moves s t (.poll attempt timerfd)
  | event {err : ℤ} {selfConnect : Bool} {now : ℤ} {revents : EventMask} {timerfd : Bool} :
      s.phase = .handling (some revents) timerfd →
      { s with phase := .handling none timerfd }.after
        (s.ctx.handleEvent err selfConnect now revents) = some t →
      Moves s t (.event err selfConnect now)
  | handleRead {now : ℤ} {due : List ℤ} {attempt : Option EventMask} :
      s.phase = .handling attempt true → due.Perm (s.ctx.timers.filter (· ≤ now)) →
      t = { s with
        ctx.timers := s.ctx.timers.filter (now < ·)
        phase := .expiring due attempt } → Moves s t (.handleRead now due)
  | expire {d : Dial} {now i : ℤ} {due : List ℤ} {attempt : Option EventMask} :
      s.phase = .expiring (i :: due) attempt →
      { s with phase := .expiring due attempt }.after (s.ctx.startInLoop d now) = some t →
      Moves s t (.expire d now)
  | reset {attempt : Option EventMask} : s.phase = .expiring [] attempt →
      t = { s with phase := .handling attempt false } → Moves s t .reset
  | swap : s.phase = .handling none false →
      t = { s with ctx.pendingFunctors := [], phase := .running s.ctx.pendingFunctors } →
      Moves s t .swap
  | call {d : Dial} {now : ℤ} {task : ConnectorTask} {functions : List ConnectorTask} :
      s.phase = .running (task :: functions) →
      { s with phase := .running functions }.after (runTask task d now s.ctx) = some t →
      Moves s t (.call d now)
  | finish : s.phase = .running [] → t = { s with phase := .polling } → Moves s t .finish

/-- What a step can do. -/
theorem next_moves {a : ConnectorAction} (h : s.next a = some t) :
    s.failed = none ∧ s.Moves t a := by
  unfold next at h
  by_cases hf : s.failed.isSome = true
  · rw [if_pos hf] at h
    cases h
  rw [if_neg hf] at h
  refine ⟨by simpa using hf, ?_⟩
  cases a with
  | start inLoop d now =>
    dsimp only at h
    split_ifs at h
    exact .start h
  | restart d now =>
    dsimp only at h
    split_ifs at h with hp
    exact .restart hp h
  | stop =>
    cases h
    exact .stop rfl
  | poll attempt timerfd =>
    dsimp only at h
    split_ifs at h with hp
    cases h
    exact .poll hp.1 hp.2 rfl
  | event err selfConnect now =>
    dsimp only at h
    split at h
    · exact .event ‹_› h
    · cases h
  | handleRead now due =>
    dsimp only at h
    split at h
    · split_ifs at h with hdue
      cases h
      exact .handleRead ‹_› hdue.1 rfl
    · cases h
  | expire d now =>
    dsimp only at h
    split at h
    · exact .expire ‹_› h
    · cases h
  | reset =>
    dsimp only at h
    split at h
    · cases h
      exact .reset ‹_› rfl
    · cases h
  | swap =>
    dsimp only at h
    split at h
    · cases h
      exact .swap ‹_› rfl
    · cases h
  | call d now =>
    dsimp only at h
    split at h
    · exact .call ‹_› h
    · cases h
  | finish =>
    dsimp only at h
    split at h
    · cases h
      exact .finish ‹_› rfl
    · cases h

end ConnectorSystem

/-- The runs of a connector. -/
def connectorSystems : LTS ConnectorSystem ConnectorAction where
  init s := s = .new
  next := ConnectorSystem.next

end Jiangbo
