import LearnForCpp.Reactor.TimerBatch

/-!
# When a timer fires

`TimerQueue::handleRead` reads the clock once a batch, and `Timer::restart` counts from that
reading.  `Timer.schedule` says at which of the readings a timer fires when nothing but its own
expiration and interval matter.  Over the runs of `timerQueues` it fires at exactly these, whatever
other timers do and wherever `new` puts them: an invariant `Outlook` says of every state what is to
come of a timer.
-/

namespace Jiangbo

namespace Timer

/-- Of the readings of the batches to come, those at which the timer fires. -/
def schedule : Timer → List ℤ → List ℤ
  | _, [] => []
  | t, now :: readings =>
      if t.expiration ≤ now then
        now :: if t.repeats then (t.restart now).schedule readings else []
      else t.schedule readings

/-- Those after the batch at `now`, in which the timer is. -/
def scheduleAfter (now : ℤ) (t : Timer) (readings : List ℤ) : List ℤ :=
  if t.repeats then (t.restart now).schedule readings else []

variable {t : Timer} {now : ℤ} {readings : List ℤ}

theorem schedule_due (h : t.expiration ≤ now) :
    t.schedule (now :: readings) = now :: t.scheduleAfter now readings := if_pos h

theorem schedule_wait (h : now < t.expiration) :
    t.schedule (now :: readings) = t.schedule readings := if_neg h.not_ge

/-- Calls at `readings` are not early: none is before the expiration or less than an interval after
the last one, and there is one at most without an interval. -/
structure Paced (t : Timer) (readings : List ℤ) : Prop where
  first : ∀ now ∈ readings.head?, t.expiration ≤ now
  interval : readings.IsChain fun last now => Timestamp.addTime last t.interval ≤ now
  oneShot : t.repeats = false → readings.length ≤ 1

theorem schedule_paced (t : Timer) (readings : List ℤ) : t.Paced (t.schedule readings) := by
  induction readings generalizing t with
  | nil => exact ⟨by simp [schedule], .nil, fun _ => by simp [schedule]⟩
  | cons now readings ih =>
    rcases le_or_gt t.expiration now with hdue | hwait
    · rw [schedule_due hdue, scheduleAfter]
      split_ifs with hr
      · have hrest := ih (t.restart now)
        refine ⟨by simpa using hdue, hrest.interval.cons fun b hb => ?_, fun h => ?_⟩
        · rw [restart_interval, ← restart_expiration hr]
          exact hrest.first b hb
        · rw [hr] at h
          cases h
      · exact ⟨by simpa using hdue, .singleton now, fun _ => le_rfl⟩
    · rw [schedule_wait hwait]
      exact ih t

theorem Paced.of_isPrefix {calls : List ℤ} (h : t.Paced readings) (hp : calls <+: readings) :
    t.Paced calls where
  first now hnow := by
    obtain ⟨rest, rfl⟩ := hp
    refine h.first now ?_
    cases calls with
    | nil => cases hnow
    | cons => exact hnow
  interval := h.interval.prefix hp
  oneShot hr := hp.length_le.trans (h.oneShot hr)

end Timer

namespace TimerQueue

/-- The reading of the batch that an action begins. -/
def reading : TimerAction → Option ℤ
  | .handleRead now => some now
  | _ => none

/-- The reading of the batch in which a transition calls the callback of timer number `k`. -/
def call (k : ℕ) (e : Transition TimerQueue TimerAction) : Option ℤ :=
  match e.action, e.source.phase with
  | .run, .running now _ (entry :: _) =>
      if e.source.timers.sequenceAt entry.second = some k then some now else none
  | _, _ => none

/-- At which of the readings to come timer number `k` is called. -/
inductive Outlook (s : TimerQueue) (k : ℕ) : (List ℤ → List ℤ) → Prop
  | waiting {e : Entry} {t : Timer} (he : e ∈ s.timerlist) (ht : s.timers.heap e.second = some t)
      (hk : t.sequence = k) : Outlook s k t.schedule
  | due {now : ℤ} {ran rest : List Entry} {e : Entry} {t : Timer}
      (hphase : s.phase = .running now ran rest) (he : e ∈ rest)
      (ht : s.timers.heap e.second = some t) (hk : t.sequence = k) :
      Outlook s k fun readings => now :: t.scheduleAfter now readings
  | called {now : ℤ} {ran rest : List Entry} {e : Entry} {t : Timer}
      (hphase : s.phase = .running now ran rest) (he : e ∈ ran)
      (ht : s.timers.heap e.second = some t) (hk : t.sequence = k) :
      Outlook s k (t.scheduleAfter now)
  | deleted (hlt : k < s.timers.numCreated) (hk : ∀ p, s.timers.sequenceAt p ≠ some k) :
      Outlook s k fun _ => []

variable {s u : TimerQueue} {a : TimerAction} {k : ℕ} {F : List ℤ → List ℤ}

/-! ### The sequence numbers are never reused -/

theorem resetEach_numCreated (now : ℤ) (es : List Entry) (s : TimerQueue) :
    (settle (s.resetEach now es)).timers.numCreated = s.timers.numCreated := by
  induction es generalizing s with
  | nil => rfl
  | cons e es ih =>
    rw [resetEach, deref]
    cases ht : s.timers.heap e.second with
    | none => rfl
    | some t =>
      dsimp only
      split_ifs
      · rw [insert, deref]
        cases (s.timers.set e.second (t.restart now)).heap e.second with
        | none => rfl
        | some t' =>
          dsimp only
          rw [Outcome.check]
          split_ifs
          · exact ih _
          · rfl
      · exact ih _

theorem rearm_numCreated (clock : ℤ) (s : TimerQueue) :
    (s.rearm clock).timers.numCreated = s.timers.numCreated := by
  obtain ⟨timerfd, h⟩ := rearm_eq clock s
  rw [h]

theorem reset_numCreated (es : List Entry) (now clock : ℤ) (s : TimerQueue) :
    (settle (s.reset es now clock)).timers.numCreated = s.timers.numCreated := by
  rw [← resetEach_numCreated now es s, reset]
  cases s.resetEach now es with
  | ok u => exact rearm_numCreated clock u
  | fault e u => rfl

theorem Inv.next_numCreated (hs : s.Inv) (h : s.next a = some u) :
    s.timers.numCreated ≤ u.timers.numCreated := by
  have hstep := next_step h
  cases hs.effect hstep with
  | newTimer => exact Nat.le_succ _
  | @addTimerInLoop p clock t =>
    obtain ⟨timerfd, hu⟩ := inserted_eq p t clock s
    rw [hu]
    exact le_rfl
  | handleRead => exact le_rfl
  | run => exact le_rfl
  | @reset clock now ran v _ _ =>
    generalize v.rearm clock = w at hstep
    cases hstep with | @reset _ now' ran' hphase =>
    exact (reset_numCreated ran' now' clock { s with phase := .idle }).ge

/-! ### What a step leaves of the outlook -/

/-- A step that only adds timers. -/
theorem Outlook.mono (h : Outlook s k F) (hlist : ∀ e ∈ s.timerlist, e ∈ u.timerlist)
    (hphase : u.phase = s.phase)
    (hheap : ∀ e ∈ s.timerlist.toList ++ s.ran ++ s.rest,
      u.timers.heap e.second = s.timers.heap e.second)
    (hdead : k < s.timers.numCreated → ∀ p, u.timers.sequenceAt p = some k →
      s.timers.sequenceAt p = some k)
    (hnum : s.timers.numCreated ≤ u.timers.numCreated) : Outlook u k F := by
  cases h with
  | @waiting e t he ht hk =>
    exact .waiting (hlist e he) ((hheap e (by simp [SortedSet.mem_def.1 he])).trans ht) hk
  | @due now ran rest e t hp he ht hk =>
    refine .due (hphase.trans hp) he ((hheap e ?_).trans ht) hk
    simp [rest_running hp, he]
  | @called now ran rest e t hp he ht hk =>
    refine .called (hphase.trans hp) he ((hheap e ?_).trans ht) hk
    simp [ran_running hp, he]
  | deleted hlt hk => exact .deleted (hlt.trans_le hnum) fun p hp => hk p (hdead hlt p hp)

/-- `addTimer` and `addTimerInLoop`. -/
theorem Outlook.quiet (hs : s.Inv) (h : Outlook s k F) (he : Effect s a u)
    (hn : s.timers.numCreated ≤ u.timers.numCreated)
    (ha : ∀ now clock, a ≠ .handleRead now ∧ a ≠ .run ∧ a ≠ .reset clock) : Outlook u k F := by
  cases he with
  | @newTimer p when interval hfree hp =>
    refine h.mono (fun _ he => he) rfl (fun e he => ?_) (fun hlt q hq => ?_) hn
    · exact Function.update_of_ne (hs.owns.ne_of_free hfree he) _ _
    · by_cases hqp : q = p
      · subst hqp
        rw [Timers.sequenceAt_create_self, Option.some.injEq] at hq
        omega
      · rwa [Timers.sequenceAt_create hqp] at hq
  | @addTimerInLoop p clock t hp ht hne =>
    obtain ⟨timerfd, hu⟩ := inserted_eq p t clock s
    rw [hu] at hn ⊢
    exact h.mono (fun e he => SortedSet.mem_insert.2 (.inr he)) rfl (fun _ _ => rfl)
      (fun _ q hq => hq) hn
  | handleRead => exact absurd rfl (ha _ 0).1
  | run => exact absurd rfl (ha 0 0).2.1
  | reset => exact absurd rfl (ha 0 _).2.2

/-- `handleRead` puts a timer that has expired in the batch. -/
theorem Outlook.handleRead {now : ℤ} (hs : s.Inv) (h : Outlook s k F)
    (hphase : s.phase = .idle) (hlist : ∀ e, e ∈ u.timerlist ↔ e ∈ s.timerlist ∧ now < e.first)
    (hu : u.phase = .running now [] (s.expirated now)) (htimers : u.timers = s.timers) :
    ∃ G, Outlook u k G ∧ ∀ readings, F (now :: readings) = G readings := by
  cases h with
  | @waiting e t he ht hk =>
    obtain ⟨t', ht', hexp, -⟩ := hs.owns.entry e (by simp [SortedSet.mem_def.1 he])
    obtain rfl : t' = t := Option.some.inj (ht'.symm.trans ht)
    rcases le_or_gt t'.expiration now with hdue | hwait
    · refine ⟨_, .due hu ((mem_expirated hs).2 ⟨he, hexp ▸ hdue⟩) (htimers ▸ ht) hk, fun rs => ?_⟩
      exact Timer.schedule_due hdue
    · refine ⟨_, .waiting ((hlist e).2 ⟨he, hexp ▸ hwait⟩) (htimers ▸ ht) hk, fun rs => ?_⟩
      exact Timer.schedule_wait hwait
  | due hp => cases hphase.symm.trans hp
  | called hp => cases hphase.symm.trans hp
  | deleted hlt hk => exact ⟨_, .deleted (htimers ▸ hlt) (htimers ▸ hk), fun _ => rfl⟩

/-- The call of a callback is the one that was due, or that of another timer. -/
theorem Outlook.run {now : ℤ} {ran rest : List Entry} {e : Entry} (hs : s.Inv)
    (h : Outlook s k F) (hphase : s.phase = .running now ran (e :: rest))
    (hu : u.phase = .running now (ran ++ [e]) rest) (hlist : u.timerlist = s.timerlist)
    (hheap : u.timers.heap = s.timers.heap) (hnum : u.timers.numCreated = s.timers.numCreated) :
    ∃ G, Outlook u k G ∧ ∀ readings, F readings =
      (if s.timers.sequenceAt e.second = some k then some now else none).toList ++ G readings := by
  have hnd := (List.nodup_append.1 hs.owns.nodup).1
  rw [ran_running hphase, rest_running hphase] at hnd
  -- another entry is of another timer
  have hother : ∀ {f : Entry} {t : Timer}, f.second ≠ e.second → s.timers.heap f.second = some t →
      t.sequence = k → s.timers.sequenceAt e.second ≠ some k := fun hne ht hk =>
    hs.owns.sequence_ne (hk ▸ Timers.sequenceAt_eq ht) hne.symm
  cases h with
  | @waiting f t hf ht hk =>
    have hne : f.second ≠ e.second := by
      rw [List.map_append, List.nodup_append] at hnd
      refine hnd.2.2 _ (List.mem_map_of_mem ?_) _ (by simp)
      exact List.mem_append_left _ hf
    refine ⟨_, .waiting (hlist ▸ hf) (hheap ▸ ht) hk, fun rs => ?_⟩
    rw [if_neg (hother hne ht hk)]
    rfl
  | @due now' ran' rest' f t hp hf ht hk =>
    obtain ⟨rfl, rfl, rfl⟩ : now' = now ∧ ran' = ran ∧ rest' = e :: rest := by
      simpa using hp.symm.trans hphase
    rcases List.mem_cons.1 hf with rfl | hf
    · refine ⟨_, .called hu (by simp) (hheap ▸ ht) hk, fun rs => ?_⟩
      rw [if_pos (hk ▸ Timers.sequenceAt_eq ht)]
      rfl
    · have hne : f.second ≠ e.second := by
        rw [List.map_append, List.map_cons, List.nodup_append, List.nodup_cons] at hnd
        exact fun hfe => hnd.2.1.1 (hfe ▸ List.mem_map_of_mem hf)
      refine ⟨_, .due hu hf (hheap ▸ ht) hk, fun rs => ?_⟩
      rw [if_neg (hother hne ht hk)]
      rfl
  | @called now' ran' rest' f t hp hf ht hk =>
    obtain ⟨rfl, rfl, rfl⟩ : now' = now ∧ ran' = ran ∧ rest' = e :: rest := by
      simpa using hp.symm.trans hphase
    have hne : f.second ≠ e.second := by
      rw [List.map_append, List.nodup_append] at hnd
      refine hnd.2.2 _ (List.mem_map_of_mem ?_) _ (by simp)
      exact List.mem_append_right _ hf
    refine ⟨_, .called hu (List.mem_append_left _ hf) (hheap ▸ ht) hk, fun rs => ?_⟩
    rw [if_neg (hother hne ht hk)]
    rfl
  | deleted hlt hk =>
    have hk' : ∀ p, u.timers.sequenceAt p ≠ some k := fun p => by
      rw [Timers.sequenceAt, hheap]
      exact hk p
    refine ⟨_, .deleted (hnum ▸ hlt) hk', fun rs => ?_⟩
    rw [if_neg (hk _)]
    rfl

/-- `reset` puts a timer of the batch back, or deletes it. -/
theorem Outlook.reset {now : ℤ} {ran : List Entry} (hs : s.Inv) (h : Outlook s k F)
    (hphase : s.phase = .running now ran []) (hu : ResetTo now ran { s with phase := .idle } u)
    (hnum : s.timers.numCreated ≤ u.timers.numCreated) : Outlook u k F := by
  have hnd := (List.nodup_append.1 hs.owns.nodup).1
  rw [ran_running hphase, rest_running hphase, List.append_nil, List.map_append,
    List.nodup_append] at hnd
  -- `reset` gives no timer a new number
  have hold : ∀ p, u.timers.sequenceAt p = some k → s.timers.sequenceAt p = some k := by
    intro p hp
    by_cases hm : ∃ e ∈ ran, e.second = p
    · obtain ⟨e, he, rfl⟩ := hm
      obtain ⟨t, ht, -⟩ := hs.owns.entry e (by simp [ran_running hphase, he])
      rw [Timers.sequenceAt, hu.batch e he t ht] at hp
      rw [Timers.sequenceAt_eq ht]
      split_ifs at hp
      · exact hp
      · cases hp
    · rw [Timers.sequenceAt, hu.other p fun e he hep => hm ⟨e, he, hep⟩] at hp
      exact hp
  cases h with
  | @waiting e t he ht hk =>
    refine .waiting ((hu.mem e).2 (.inl he)) ((hu.other _ fun f hf hfe => ?_).trans ht) hk
    exact hnd.2.2 _ (List.mem_map_of_mem he) _ (List.mem_map_of_mem hf) hfe.symm
  | @due now' ran' rest' f t hp hf =>
    obtain ⟨-, -, rfl⟩ : now' = now ∧ ran' = ran ∧ rest' = [] := by
      simpa using hp.symm.trans hphase
    cases hf
  | @called now' ran' rest' e t hp he ht hk =>
    obtain ⟨rfl, rfl, rfl⟩ : now' = now ∧ ran' = ran ∧ rest' = [] := by
      simpa using hp.symm.trans hphase
    have hbatch := hu.batch e he t ht
    cases hr : t.repeats with
    | true =>
      rw [if_pos hr] at hbatch
      have hF : t.scheduleAfter now' = (t.restart now').schedule := by
        funext rs
        exact if_pos hr
      rw [hF]
      exact .waiting ((hu.mem _).2 (.inr ⟨e, he, t, ht, hr, rfl⟩)) hbatch hk
    | false =>
      rw [if_neg (by simp [hr])] at hbatch
      have hF : t.scheduleAfter now' = fun _ => [] := by
        funext rs
        exact if_neg (by simp [hr])
      rw [hF]
      refine .deleted (lt_of_lt_of_le ?_ hnum) fun p hp => ?_
      · exact hk ▸ (hs.owns.heap _ t ht).2
      · obtain rfl := hs.owns.inj _ _ k (hold p hp) (hk ▸ Timers.sequenceAt_eq ht)
        rw [Timers.sequenceAt, hbatch] at hp
        cases hp
  | deleted hlt hk => exact .deleted (hlt.trans_le hnum) fun p hp => hk p (hold p hp)

theorem Outlook.of_timers {timerfd : Option Arming} (h : Outlook s k F) :
    Outlook { s with timerfd := timerfd } k F := by
  cases h with
  | waiting he ht hk => exact .waiting he ht hk
  | due hp he ht hk => exact .due hp he ht hk
  | called hp he ht hk => exact .called hp he ht hk
  | deleted hlt hk => exact .deleted hlt hk

/-- What is to come before a step is what the step does and what is to come after it. -/
theorem Outlook.next (hs : s.Inv) (h : Outlook s k F) (hn : s.next a = some u) :
    ∃ G, Outlook u k G ∧ ∀ readings, F ((reading a).toList ++ readings) =
      (call k ⟨s, a, u⟩).toList ++ G readings := by
  have hnum := hs.next_numCreated hn
  have he := hs.effect (next_step hn)
  cases he with
  | newTimer hfree hp =>
    exact ⟨F, h.quiet hs (.newTimer hfree hp) hnum (by simp), fun _ => rfl⟩
  | addTimerInLoop hp ht hne =>
    exact ⟨F, h.quiet hs (.addTimerInLoop hp ht hne) hnum (by simp), fun _ => rfl⟩
  | handleRead hphase => exact h.handleRead hs hphase (fun e => mem_left hs) rfl rfl
  | run hphase ht =>
    obtain ⟨G, hG, hF⟩ := h.run (u := { s with
      phase := _, timers := s.timers.fire _ }) hs hphase rfl rfl rfl rfl
    refine ⟨G, hG, fun rs => ?_⟩
    rw [call, hphase]
    exact hF rs
  | @reset clock now ran v hphase hu =>
    rw [rearm_numCreated] at hnum
    obtain ⟨timerfd, hv⟩ := rearm_eq clock v
    rw [hv]
    refine ⟨F, (h.reset hs hphase hu hnum).of_timers, fun rs => ?_⟩
    rw [call, hphase]
    rfl

/-- The readings of a run. -/
def readings (run : List (Transition TimerQueue TimerAction)) : List ℤ :=
  (run.map Transition.action).filterMap reading

/-- The readings at which a run calls the callback of timer number `k`. -/
def calls (k : ℕ) (run : List (Transition TimerQueue TimerAction)) : List ℤ :=
  run.filterMap (call k)

theorem readings_cons (e : Transition TimerQueue TimerAction)
    (run : List (Transition TimerQueue TimerAction)) :
    readings (e :: run) = (reading e.action).toList ++ readings run := by
  rw [readings, List.map_cons, List.filterMap_cons]
  cases reading e.action <;> rfl

theorem calls_cons (e : Transition TimerQueue TimerAction)
    (run : List (Transition TimerQueue TimerAction)) :
    calls k (e :: run) = (call k e).toList ++ calls k run := by
  rw [calls, List.filterMap_cons]
  cases call k e <;> rfl

theorem Outlook.steps {run : List (Transition TimerQueue TimerAction)}
    (h : timerQueues.Steps s run u) (hs : s.Inv) (hF : Outlook s k F) :
    ∃ G, Outlook u k G ∧ ∀ rs, F (readings run ++ rs) = calls k run ++ G rs := by
  induction h generalizing F with
  | nil s => exact ⟨F, hF, fun _ => rfl⟩
  | cons hn _ ih =>
    obtain ⟨G, hG, h1⟩ := hF.next hs hn
    obtain ⟨H, hH, h2⟩ := ih (hs.next hn).2 hG
    refine ⟨H, hH, fun rs => ?_⟩
    rw [readings_cons, calls_cons, List.append_assoc, h1, h2, List.append_assoc]

/-- Between batches nothing is to come without another reading. -/
theorem Outlook.idle (h : Outlook s k F) (hphase : s.phase = .idle) : F [] = [] := by
  cases h with
  | waiting => rfl
  | due hp => cases hphase.symm.trans hp
  | called hp => cases hphase.symm.trans hp
  | deleted => rfl

/-- `addTimerInLoop` of a timer. -/
theorem Inv.outlook_of_add {p : ℕ} {clock : ℤ} {T : Timer} (hs : s.Inv)
    (hT : s.timers.heap p = some T) (hn : s.next (.addTimerInLoop p clock) = some u) :
    T.sequence ∉ s.timers.fired ∧ Outlook u T.sequence T.schedule := by
  cases hs.effect (next_step hn) with | @addTimerInLoop _ _ t hp ht hne =>
  obtain rfl : t = T := Option.some.inj (ht.symm.trans hT)
  obtain ⟨t', ht', hnew⟩ := hs.owns.handed p hp
  obtain rfl : t' = t := Option.some.inj (ht'.symm.trans ht)
  obtain ⟨timerfd, hu⟩ := inserted_eq p t' clock s
  rw [hu]
  refine ⟨fun hf => hnew (hs.owns.fired _ hf), ?_⟩
  exact .waiting (e := ⟨t'.expiration, p⟩) (SortedSet.mem_insert.2 (.inl rfl)) ht rfl

end TimerQueue

/-- **A timer fires on its own schedule.** From the `addTimerInLoop` of a timer on, whatever other
timers exist, are added or deleted: its callback is called in exactly the batches that its own
expiration and interval single out among the readings of the batches, in the last batch of the run
perhaps not yet; so never early, at least an interval apart, and once if it does not repeat. -/
theorem timer_schedule {s u v : TimerQueue} {p : ℕ} {clock : ℤ} {T : Timer}
    {run : List (Transition TimerQueue TimerAction)} (hs : timerQueues.Reachable s)
    (hT : s.timers.heap p = some T)
    (hadd : timerQueues.next s (.addTimerInLoop p clock) = some u)
    (hrun : timerQueues.Steps u run v) :
    T.sequence ∉ s.timers.fired ∧
      TimerQueue.calls T.sequence run <+: T.schedule (TimerQueue.readings run) ∧
      (v.phase = .idle →
        TimerQueue.calls T.sequence run = T.schedule (TimerQueue.readings run)) ∧
      T.Paced (TimerQueue.calls T.sequence run) := by
  have hi := TimerQueue.inv_of_reachable hs
  change s.next (.addTimerInLoop p clock) = some u at hadd
  obtain ⟨hnew, hF⟩ := hi.outlook_of_add hT hadd
  obtain ⟨G, hG, h⟩ := hF.steps hrun (hi.next hadd).2
  have hsplit := h []
  rw [List.append_nil] at hsplit
  have hprefix : TimerQueue.calls T.sequence run <+: T.schedule (TimerQueue.readings run) :=
    ⟨G [], hsplit.symm⟩
  refine ⟨hnew, hprefix, fun hidle => ?_, (T.schedule_paced _).of_isPrefix hprefix⟩
  rw [hsplit, hG.idle hidle, List.append_nil]

/-- A timer that expires at 10 and repeats every half second, beside a one-shot one. -/
def halfSecond : Timer := ⟨.ofScientific 5 (-1), 10, 1⟩

def beforeHalfSecond : List TimerAction :=
  [.newTimer 64 10 (.ofNat 0), .addTimerInLoop 64 5, .newTimer 32 10 (.ofScientific 5 (-1))]

/-- Three batches, the second of them too early for it; the address of the other is used again. -/
def threeBatches : List TimerAction :=
  [.handleRead 10, .run, .run, .reset 12, .newTimer 64 300000 (.ofNat 0),
    .addTimerInLoop 64 400000, .handleRead 400001, .run, .reset 400002, .handleRead 500010, .run,
    .reset 500011]

theorem timer_schedule_half_second : ∃ s u v run,
    timerQueues.run .new beforeHalfSecond = some s ∧ s.timers.heap 32 = some halfSecond ∧
    timerQueues.next s (.addTimerInLoop 32 5) = some u ∧ timerQueues.Steps u run v ∧
    run.map Transition.action = threeBatches ∧
    TimerQueue.calls halfSecond.sequence run = [10, 500010] := by
  obtain ⟨v, h, hidle⟩ : ∃ v, timerQueues.run .new
      (beforeHalfSecond ++ .addTimerInLoop 32 5 :: threeBatches) = some v ∧ v.phase = .idle :=
    Option.map_eq_some_iff.1 (by decide +kernel)
  rw [LTS.run_append] at h
  obtain ⟨s, hs, h⟩ := Option.bind_eq_some_iff.1 h
  obtain ⟨u, hu, h⟩ := Option.bind_eq_some_iff.1 h
  obtain ⟨run, hrun, hacts⟩ := LTS.exists_steps_of_run h
  have hT : s.timers.heap 32 = some halfSecond := by
    obtain ⟨s', hs', hT⟩ : ∃ s, timerQueues.run .new beforeHalfSecond = some s ∧
        s.timers.heap 32 = some halfSecond :=
      Option.map_eq_some_iff.1 (by decide +kernel)
    exact Option.some.inj (hs.symm.trans hs') ▸ hT
  have hcalls := (timer_schedule (.of_run (.init rfl) beforeHalfSecond hs) hT hu hrun).2.2.1 hidle
  rw [TimerQueue.readings, hacts] at hcalls
  exact ⟨s, u, v, run, hs, hT, hu, hrun, hacts, hcalls.trans (by decide +kernel)⟩

end Jiangbo
