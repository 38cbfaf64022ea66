import LearnForCpp.Reactor.ConnectorSystem

/-!
# The back-off of a connector

`Connector::retry` waits `retryDelayMs_` and doubles it up to `kMaxRetryDelayMs`; `restart` begins
again, `start` and `stop` do not.  `Backs` says what a function does to the timers and to the delay,
and `connector_backoff` that since the last `restart` the delays of a run are the first terms of
one sequence.
-/

namespace Jiangbo

namespace Connector

/-- The delay after `k` retries. -/
def backoff (k : ℕ) : ℕ := min (kInitRetryDalayMs * 2 ^ k) kMaxRetryDelayMs

theorem backoff_zero : backoff 0 = kInitRetryDalayMs := by decide

theorem backoff_succ (k : ℕ) : backoff (k + 1) = min (backoff k * 2) kMaxRetryDelayMs := by
  simp only [backoff, kInitRetryDalayMs, kMaxRetryDelayMs, pow_succ]
  omega

end Connector

namespace ConnectorCtx

/-- What a call at the clock reading `now` does with the timers: nothing, or one `retry`. -/
inductive Backs (now : ℤ) (x y : ConnectorCtx) : Prop
  | quiet (htimers : y.timers = x.timers)
      (hdelay : y.connector.retryDelayMs = x.connector.retryDelayMs)
  | retry (htimers : y.timers = x.timers ++ [now + x.connector.retryDelayMs * 1000])
      (hdelay : y.connector.retryDelayMs =
        min (x.connector.retryDelayMs * 2) Connector.kMaxRetryDelayMs)

variable {x y : ConnectorCtx} {d : Dial} {now : ℤ}

theorem Backs.refl (x : ConnectorCtx) : Backs now x x := .quiet rfl rfl

/-- What a function does before a call leaves the timers and the delay. -/
theorem Backs.after {z : ConnectorCtx} (h : Backs now z y) (ht : z.timers = x.timers)
    (hd : z.connector.retryDelayMs = x.connector.retryDelayMs) : Backs now x y := by
  cases h with
  | quiet hty hdy => exact .quiet (hty.trans ht) (hdy.trans hd)
  | retry hty hdy => exact .retry (by rw [hty, ht, hd]) (by rw [hdy, hd])

theorem retry_backs (sockfd : ℤ) : Backs now x (x.retry sockfd now) := by
  unfold retry
  dsimp only
  split_ifs
  · exact .retry rfl rfl
  · exact .quiet rfl rfl

theorem connecting_backs (sockfd : ℤ) : Backs now x (x.connecting sockfd).state := by
  unfold connecting
  dsimp only
  rw [Outcome.check]
  split_ifs
  · exact .quiet rfl rfl
  · exact .quiet rfl rfl

theorem connect_backs : Backs now x (x.connect d now).state := by
  have hdial : (x.createNonblockingOrDie d).2.timers = x.timers ∧
      (x.createNonblockingOrDie d).2.connector = x.connector := by
    cases d <;> exact ⟨rfl, rfl⟩
  unfold connect
  dsimp only
  cases d.errno.dialClass with
  | connecting =>
    exact (connecting_backs _).after hdial.1 (congrArg Connector.retryDelayMs hdial.2)
  | retry => exact (retry_backs _).after hdial.1 (congrArg Connector.retryDelayMs hdial.2)
  | close => exact .quiet hdial.1 (congrArg Connector.retryDelayMs hdial.2)

theorem startInLoop_backs : Backs now x (x.startInLoop d now).state := by
  by_cases hstate : x.connector.state = .kDisconnected
  · rw [startInLoop_eq hstate]
    split_ifs
    · exact connect_backs
    · exact .refl x
  · rw [startInLoop_fault hstate]
    exact .refl x

theorem start_backs (inLoop : Bool) : Backs now x (x.start inLoop d now).state := by
  unfold start
  dsimp only
  split_ifs
  · exact startInLoop_backs.after rfl rfl
  · exact .quiet rfl rfl

/-- A channel is removed before the rest of a handler runs. -/
theorem removeAndResetChannel_backs {k : ℤ → ConnectorCtx → Result ConnectorCtx}
    (hk : ∀ sockfd x, Backs now x (k sockfd x).state) :
    Backs now x (x.removeAndResetChannel k).state := by
  unfold removeAndResetChannel
  cases x.connector.channel with
  | none => exact .refl x
  | some channel =>
    dsimp only
    cases (channel.disableAll true).remove true with
    | ok c => exact (hk _ _).after rfl rfl
    | fault e c => exact .quiet rfl rfl

theorem handleWrite_backs (err : ℤ) (selfConnect : Bool) :
    Backs now x (x.handleWrite err selfConnect now).state := by
  unfold handleWrite
  by_cases hstate : x.connector.state = .kConnecting
  · rw [if_pos hstate]
    refine removeAndResetChannel_backs fun sockfd x => ?_
    dsimp only
    split_ifs
    · exact retry_backs sockfd
    · exact retry_backs sockfd
    · exact .quiet rfl rfl
    · exact .quiet rfl rfl
  · rw [if_neg hstate, Outcome.check]
    split_ifs
    · exact .refl x
    · exact .refl x

theorem handleError_backs : Backs now x (x.handleError now).state := by
  unfold handleError
  rw [Outcome.check]
  split_ifs
  · rw [Outcome.bind_ok]
    exact removeAndResetChannel_backs fun sockfd x => retry_backs sockfd
  · exact .refl x

theorem removeAndResetChannel_ok {k : ℤ → ConnectorCtx → Result ConnectorCtx}
    (h : x.removeAndResetChannel k = .ok y) : ∃ sockfd z, k sockfd z = .ok y := by
  unfold removeAndResetChannel at h
  cases hchannel : x.connector.channel with
  | none =>
    rw [hchannel] at h
    cases h
  | some channel =>
    rw [hchannel] at h
    obtain ⟨z, -, hz⟩ := Outcome.bind_eq_ok.1 h
    exact ⟨_, _, hz⟩

theorem handleError_state (h : x.handleError now = .ok y) :
    y.connector.state = .kDisconnected := by
  obtain ⟨z, -, hz⟩ := Outcome.bind_eq_ok.1 h
  obtain ⟨sockfd, w, hw⟩ := removeAndResetChannel_ok hz
  obtain ⟨delay, hretry⟩ := retry_eq (x := w) (n := now) sockfd
  rw [hretry] at hw
  cases hw
  rfl

/-- The two callbacks of an attempt's channel together retry once at most. -/
theorem handleEvent_backs (err : ℤ) (selfConnect : Bool) (revents : EventMask) :
    Backs now x (x.handleEvent err selfConnect now revents).state := by
  rw [handleEvent_eq]
  by_cases herr : Bitmask.test revents EPOLLERR = true
  · have herror : Backs now x (x.handleError now).state := handleError_backs
    rw [if_pos herr]
    cases hy : x.handleError now with
    | ok y =>
      rw [hy] at herror
      rw [Outcome.bind_ok]
      split_ifs
      · rw [handleWrite, if_neg (by simp [handleError_state hy]),
          Outcome.check_pos (by simp [handleError_state hy])]
        exact herror
      · exact herror
    | fault e y =>
      rw [hy] at herror
      exact herror
  · rw [if_neg herr, Outcome.bind_ok]
    split_ifs
    · exact handleWrite_backs err selfConnect
    · exact .refl x

end ConnectorCtx

namespace ConnectorAction

def isRestart : ConnectorAction → Bool
  | restart _ _ => true
  | _ => false

/-- The clock reading of `runAfter`, where a step can come to it. -/
def now : ConnectorAction → ℤ
  | start _ _ now | restart _ now | event _ _ now | expire _ now | call _ now => now
  | stop | poll _ _ | handleRead _ _ | reset | swap | finish => 0

end ConnectorAction

namespace ConnectorSystem

/-- The delays of the timers that a transition sets, in microseconds. -/
def delay (e : Transition ConnectorSystem ConnectorAction) : List ℤ :=
  (e.target.ctx.timers.drop e.source.ctx.timers.length).map (· - e.action.now)

/-- The delays of a run since its last `restart`. -/
def delays (run : List (Transition ConnectorSystem ConnectorAction)) : List ℤ :=
  run.foldl (fun ds e => (if e.action.isRestart then [] else ds) ++ delay e) []

/-- The delays `ds` are the first ones of the back-off, and the next one follows. -/
structure Paced (ds : List ℤ) (x : ConnectorCtx) : Prop where
  delays : ds = (List.range ds.length).map fun k => (Connector.backoff k : ℤ) * 1000
  next : x.connector.retryDelayMs = Connector.backoff ds.length

variable {s t : ConnectorSystem} {a : ConnectorAction} {x y : ConnectorCtx} {ds : List ℤ} {now : ℤ}

theorem after_ctx {o : Result ConnectorCtx} (h : s.after o = some t) : t.ctx = o.state := by
  cases o with
  | ok x => cases h; rfl
  | fault e x =>
    cases e with
    | assertion a => cases h; rfl
    | _ => cases h

theorem Paced.quiet (h : Paced ds x) (htimers : y.timers.length ≤ x.timers.length)
    (hdelay : y.connector.retryDelayMs = x.connector.retryDelayMs) :
    Paced (ds ++ (y.timers.drop x.timers.length).map (· - now)) y := by
  rw [List.drop_eq_nil_of_le htimers, List.map_nil, List.append_nil]
  exact ⟨h.delays, hdelay.trans h.next⟩

theorem Paced.backs (now : ℤ) (h : Paced ds x) (hb : ConnectorCtx.Backs now x y) :
    Paced (ds ++ (y.timers.drop x.timers.length).map (· - now)) y := by
  cases hb with
  | quiet ht hd => exact h.quiet (by rw [ht]) hd
  | retry ht hd =>
    have hset : (y.timers.drop x.timers.length).map (· - now) =
        [(Connector.backoff ds.length : ℤ) * 1000] := by
      rw [ht, List.drop_left, List.map_singleton, h.next]
      simp
    rw [hset]
    refine ⟨?_, ?_⟩
    · rw [List.length_append, List.length_singleton, List.range_succ, List.map_append, ← h.delays]
      rfl
    · rw [hd, h.next, List.length_append, List.length_singleton, Connector.backoff_succ]

theorem runTask_backs (task : ConnectorTask) (d : Dial) (x : ConnectorCtx) :
    ConnectorCtx.Backs now x (runTask task d now x).state := by
  cases task with
  | resetChannel => exact .quiet rfl rfl
  | startInLoop => exact ConnectorCtx.startInLoop_backs
  | connectDestoryed conn => exact .refl x

theorem Paced.step (h : Paced ds s.ctx) (hn : s.next a = some t) :
    Paced ((if a.isRestart then [] else ds) ++ delay ⟨s, a, t⟩) t.ctx := by
  cases (next_moves hn).2 with
  | @start inLoop d now he =>
    refine h.backs now ?_
    rw [after_ctx he]
    exact ConnectorCtx.start_backs inLoop
  | @restart d now hp he =>
    have h0 : Paced [] s.ctx.reinit := ⟨rfl, Connector.backoff_zero.symm⟩
    refine h0.backs now ?_
    rw [after_ctx he]
    exact ConnectorCtx.startInLoop_backs
  | stop ht => exact h.quiet (by rw [ht]; rfl) (by rw [ht]; rfl)
  | poll hp hatt ht => exact h.quiet (by rw [ht]) (by rw [ht])
  | @event err selfConnect now revents timerfd hp he =>
    refine h.backs now ?_
    rw [after_ctx he]
    exact ConnectorCtx.handleEvent_backs err selfConnect revents
  | handleRead hp hdue ht =>
    refine h.quiet ?_ (by rw [ht])
    rw [ht]
    exact List.length_filter_le _ _
  | @expire d now i due attempt hp he =>
    refine h.backs now ?_
    rw [after_ctx he]
    exact ConnectorCtx.startInLoop_backs
  | reset hp ht => exact h.quiet (by rw [ht]) (by rw [ht])
  | swap hp ht => exact h.quiet (by rw [ht]) (by rw [ht])
  | @call d now task functions hp he =>
    refine h.backs now ?_
    rw [after_ctx he]
    exact runTask_backs task d s.ctx
  | finish hp ht => exact h.quiet (by rw [ht]) (by rw [ht])

theorem Paced.steps {run : List (Transition ConnectorSystem ConnectorAction)}
    (hrun : connectorSystems.Steps s run t) (h : Paced ds s.ctx) :
    Paced (run.foldl (fun ds e => (if e.action.isRestart then [] else ds) ++ delay e) ds)
      t.ctx := by
  induction hrun generalizing ds with
  | nil => exact h
  | cons hn _ ih => exact ih (h.step hn)

end ConnectorSystem

/-- **The back-off is exact.** In every run of a connector, with any calls of `start` and `stop` by
any threads, of `restart` in the loop thread, and any results of the attempts: the retry timers set
since the last `restart` have the delays 500, 1000, 2000 and so on milliseconds, in this order, and
30000 from the seventh on. -/
theorem connector_backoff {t : ConnectorSystem}
    {run : List (Transition ConnectorSystem ConnectorAction)}
    (h : connectorSystems.Steps .new run t) :
    ConnectorSystem.delays run = (List.range (ConnectorSystem.delays run).length).map
      fun k => (Connector.backoff k : ℤ) * 1000 :=
  have h0 : ConnectorSystem.Paced [] ConnectorSystem.new.ctx :=
    ⟨rfl, Connector.backoff_zero.symm⟩
  (h0.steps h).delays

/-- Two attempts fail, the second after the timer of the first. -/
def twoRefusals : List ConnectorAction :=
  [.start true (.connect .ECONNREFUSED) 0, .swap, .finish, .poll none true,
    .handleRead 500001 [500000], .expire (.connect .ECONNREFUSED) 500002]

theorem connector_backoff_two_refusals : ∃ t run, connectorSystems.Steps .new run t ∧
    run.map Transition.action = twoRefusals ∧ t.ctx.timers = [500002 + 1000 * 1000] ∧
    ConnectorSystem.delays run = (List.range (ConnectorSystem.delays run).length).map
      fun k => (Connector.backoff k : ℤ) * 1000 := by
  obtain ⟨t, ht, htimers⟩ : ∃ t, connectorSystems.run .new twoRefusals = some t ∧
      t.ctx.timers = [500002 + 1000 * 1000] := Option.map_eq_some_iff.1 (by decide +kernel)
  obtain ⟨run, hrun, hacts⟩ := LTS.exists_steps_of_run ht
  exact ⟨t, run, hrun, hacts, htimers, connector_backoff hrun⟩

end Jiangbo
