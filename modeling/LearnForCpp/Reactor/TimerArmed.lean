import LearnForCpp.Reactor.TimerBatch

/-!
# A pending timer has an armed timerfd

`addTimerInLoop` sets the timerfd only for a new earliest timer, and `reset` only for a `valid()`
expiration, while `handleRead` consumes what was set before.  What carries over the callbacks is
weaker than being armed: the earliest expiration is positive or the timerfd is armed for it.  Where
it is positive `reset` sets the timerfd, and where it is not a callback has just inserted it, with
the timerfd set by `addTimerInLoop`.
-/

namespace Jiangbo

namespace TimerQueue

/-- The last `resetTimerfd` was for the expiration `when`, and its expiry has not been read. -/
def ArmedFor (s : TimerQueue) (when : ℤ) : Prop :=
  ∃ a, s.timerfd = some a ∧ a.expiration = when ∧ a.consumed = false ∧ a.value.Valid ∧
    a.value.nanoseconds = max (when - a.clock) 100 * 1000

/-- Outside `handleRead` the timerfd is armed for the earliest timer. -/
def Armed (s : TimerQueue) : Prop :=
  s.phase = .idle → ∀ first, s.timerlist.begin = some first → s.ArmedFor first.first

/-- No `now + interval` overflows when the batch is restarted. -/
def IntervalsInRange (s : TimerQueue) : Prop :=
  match s.phase with
  | .idle => True
  | .running now ran _ => ∀ e ∈ ran, ∀ t ∈ s.timers.heap e.second, t.repeats = true →
      InInt64 (now + Timestamp.microSeconds t.interval)

instance (s : TimerQueue) : Decidable s.IntervalsInRange := by
  unfold IntervalsInRange
  split <;> infer_instance

/-- The clock readings of a step are positive, and neither `now + interval` in `restart` nor
`when - now` in `howMachTimeFromNow` overflows, where they are computed. -/
def InRange (s : TimerQueue) (a : TimerAction) : Prop :=
  match a with
  | .newTimer _ _ _ | .run => True
  | .addTimerInLoop p clock => 0 < clock ∧ ∀ t ∈ s.timers.heap p,
      s.earlyestChange t.expiration = true → InInt64 (t.expiration - clock)
  | .handleRead now => 0 < now
  | .reset clock => 0 < clock ∧ s.IntervalsInRange ∧
      ∀ u ∈ s.next (.reset clock), ∀ first ∈ u.timerlist.begin,
        Timestamp.valid first.first = true → InInt64 (first.first - clock)

instance (s : TimerQueue) (a : TimerAction) : Decidable (s.InRange a) := by
  unfold InRange
  split <;> infer_instance

/-- The earliest expiration is positive, or the timerfd is armed for it. -/
def ArmedOrValid (s : TimerQueue) : Prop :=
  ∀ first, s.timerlist.begin = some first → 0 < first.first ∨ s.ArmedFor first.first

/-- What every step keeps. -/
structure ArmedInv (s : TimerQueue) : Prop where
  inv : s.Inv
  /-- Outside a batch only the second holds. -/
  front : ∀ first, s.timerlist.begin = some first →
    s.phase ≠ .idle ∧ 0 < first.first ∨ s.ArmedFor first.first
  /-- A batch was begun by a positive reading. -/
  now_pos : ∀ now ran rest, s.phase = .running now ran rest → 0 < now

variable {s u : TimerQueue} {p : ℕ} {t : Timer} {now clock : ℤ}

theorem armedFor_resetTimerfd {when : ℤ} (h : InInt64 (when - clock)) :
    (s.resetTimerfd when clock).ArmedFor when :=
  have hspec := howMachTimeFromNow_spec h
  ⟨_, rfl, rfl, rfl, hspec.1, hspec.2⟩

/-- An insertion that `insert` does not report leaves the earliest expiration. -/
theorem begin_insert_of_not_earlyest {when : ℤ} (h : s.earlyestChange when = false) {first : Entry}
    (hf : (s.timerlist.insert ⟨when, p⟩).1.begin = some first) :
    ∃ old, s.timerlist.begin = some old ∧ old.first = first.first := by
  cases hb : s.timerlist.begin with
  | none => rw [earlyestChange, hb] at h; cases h
  | some old =>
    rw [earlyestChange, hb, Option.all_some, decide_eq_false_iff_not, not_lt] at h
    refine ⟨old, rfl, ?_⟩
    rw [SortedSet.begin_insert, hb, Option.elim_some, Option.some.injEq] at hf
    rcases min_choice (⟨when, p⟩ : Entry) old with hm | hm
    · refine le_antisymm ?_ ?_
      · rw [← hf, hm]; exact h
      · rw [← hf]; exact Entry.first_le (min_le_right _ _)
    · rw [← hf, hm]

/-- An insertion that `insert` reports puts the new entry in front. -/
theorem begin_insert_of_earlyest {when : ℤ} (h : s.earlyestChange when = true) :
    (s.timerlist.insert ⟨when, p⟩).1.begin = some ⟨when, p⟩ := by
  rw [SortedSet.begin_insert]
  cases hb : s.timerlist.begin with
  | none => rfl
  | some old =>
    rw [earlyestChange, hb, Option.all_some, decide_eq_true_iff] at h
    rw [Option.elim_some, min_eq_left]
    exact (Entry.lt_iff.2 (.inl h)).le

/-- `addTimerInLoop` keeps the timerfd armed for the earliest timer, if it was so before. -/
theorem inserted_armed {Q : ℤ → Prop}
    (h : ∀ first, s.timerlist.begin = some first → Q first.first ∨ s.ArmedFor first.first)
    (hin : s.earlyestChange t.expiration = true → InInt64 (t.expiration - clock)) {first : Entry}
    (hf : (s.inserted p t clock).timerlist.begin = some first) :
    Q first.first ∨ (s.inserted p t clock).ArmedFor first.first := by
  unfold inserted at hf ⊢
  dsimp only at hf ⊢
  split_ifs at hf ⊢ with he
  · have hb : (s.timerlist.insert ⟨t.expiration, p⟩).1.begin = some first := hf
    rw [begin_insert_of_earlyest he, Option.some.injEq] at hb
    rw [← hb]
    exact .inr (armedFor_resetTimerfd (hin he))
  · obtain ⟨old, hold, heq⟩ := begin_insert_of_not_earlyest (by simpa using he) hf
    rw [← heq]
    exact h old hold

/-- After the loop of `reset` the earliest expiration is positive, or it is that of before. -/
theorem ResetTo.armedOrValid {ran : List Entry} (h : ResetTo now ran s u) (hs : s.ArmedOrValid)
    (hnow : 0 < now) (hin : ∀ e ∈ ran, ∀ t, s.timers.heap e.second = some t → t.repeats = true →
      InInt64 (now + Timestamp.microSeconds t.interval)) : u.ArmedOrValid := by
  intro first hf
  rcases (h.mem first).1 (SortedSet.begin_mem hf) with hm | ⟨e, he, t, ht, hr, rfl⟩
  · -- nothing of before is earlier
    obtain ⟨old, hold, hle⟩ := SortedSet.exists_begin hm
    have hge := SortedSet.begin_le hf ((h.mem old).2 (.inl (SortedSet.begin_mem hold)))
    obtain rfl := le_antisymm hge hle
    rcases hs first hold with hpos | ⟨a, ha⟩
    · exact .inl hpos
    · exact .inr ⟨a, h.timerfd ▸ ha.1, ha.2⟩
  · exact .inl (Timer.restart_pos hr hnow (hin e he t ht hr))

/-- `reset` arms the timerfd for the earliest timer if that is positive. -/
theorem rearm_armed (h : s.ArmedOrValid) {first : Entry} (hf : s.timerlist.begin = some first)
    (hin : Timestamp.valid first.first = true → InInt64 (first.first - clock)) :
    (s.rearm clock).ArmedFor first.first := by
  unfold rearm
  dsimp only
  rw [hf, Option.elim_some]
  split_ifs with hv
  · exact armedFor_resetTimerfd (hin hv)
  · exact (h first hf).resolve_left fun hpos => hv (decide_eq_true hpos)

theorem rearm_timerlist (s : TimerQueue) : (s.rearm clock).timerlist = s.timerlist := by
  obtain ⟨timerfd, h⟩ := rearm_eq clock s
  rw [h]

theorem ArmedInv.armedOrValid (hs : s.ArmedInv) : s.ArmedOrValid := fun first hf =>
  (hs.front first hf).imp_left And.right

theorem ArmedInv.armed (hs : s.ArmedInv) : s.Armed := fun hidle first hf =>
  (hs.front first hf).resolve_left fun h => h.1 hidle

/-- **One step.** Within range a step keeps the timerfd armed. -/
theorem ArmedInv.next {a : TimerAction} (hs : s.ArmedInv) (hin : s.InRange a)
    (hn : s.next a = some u) : u.ArmedInv := by
  obtain ⟨he, hu⟩ := hs.inv.next hn
  cases he with
  | newTimer hfree hp => exact ⟨hu, hs.front, hs.now_pos⟩
  | @addTimerInLoop p clock t hp ht hne =>
    obtain ⟨timerfd, heq⟩ := inserted_eq p t clock s
    have hphase : (s.inserted p t clock).phase = s.phase := by rw [heq]
    refine ⟨hu, fun first hf => ?_, fun now ran rest hr => hs.now_pos now ran rest (hphase ▸ hr)⟩
    rw [hphase]
    exact inserted_armed (Q := fun x => s.phase ≠ .idle ∧ 0 < x) hs.front (hin.2 t ht) hf
  | @handleRead now hidle =>
    refine ⟨hu, fun first hf => .inl ⟨nofun, ?_⟩, fun now' ran rest hr => ?_⟩
    · have hnow : 0 < now := hin
      exact hnow.trans ((mem_left hs.inv).1 (SortedSet.begin_mem hf)).2
    · cases hr
      exact hin
  | @run now ran rest e t hphase ht =>
    refine ⟨hu, fun first hf => ?_, fun now' ran' rest' hr => ?_⟩
    · exact (hs.armedOrValid first hf).imp_left fun hpos => ⟨nofun, hpos⟩
    · cases hr
      exact hs.now_pos now ran _ hphase
  | @reset clock now ran v hphase hv =>
    obtain ⟨-, hinterval, hwhen⟩ := hin
    rw [IntervalsInRange, hphase] at hinterval
    have hfront : v.ArmedOrValid :=
      hv.armedOrValid hs.armedOrValid (hs.now_pos now ran [] hphase) hinterval
    refine ⟨hu, fun first hf => ?_, fun now' ran' rest' hr => ?_⟩
    · have hin := hwhen _ hn first hf
      rw [rearm_timerlist] at hf
      exact .inr (rearm_armed hfront hf hin)
    · obtain ⟨timerfd, heq⟩ := rearm_eq clock v
      rw [heq] at hr
      cases hv.phase.symm.trans hr

theorem new_armedInv : (new : TimerQueue).ArmedInv where
  inv := new_inv
  front := fun _ h => nomatch h
  now_pos := fun _ _ _ h => nomatch h

end TimerQueue

/-- **A pending timer has an armed timerfd.** After every run within range, outside `handleRead`
the last `resetTimerfd` was for the earliest timer, with a valid `timespec` of the time that was
left or 100 microseconds, and its expiry has not been read since. -/
theorem timerfd_armed {s : TimerQueue} {run : List (Transition TimerQueue TimerAction)}
    (h : timerQueues.Steps .new run s) (hin : ∀ e ∈ run, e.source.InRange e.action) : s.Armed :=
  (h.invariant (C := fun e => e.source.InRange e.action) (I := TimerQueue.ArmedInv)
    TimerQueue.new_armedInv hin fun _ _ _ hs hC hn => hs.next hC hn).armed

/-- The batch of `threeTimers`, whose first callback adds a timer with a negative timestamp, and a
second one after the clock was set back. -/
def clockSetBack : List TimerAction :=
  threeTimers ++ .handleRead 10 :: (twoCallbacks ++ [.reset 12]) ++ [.handleRead 4, .run, .reset 4]

theorem timerfd_armed_after_clock_set_back : ∃ s run,
    timerQueues.Steps .new run s ∧ run.map Transition.action = clockSetBack ∧
      s.timerlist.toList = [⟨30, 96⟩, ⟨500010, 32⟩] ∧ s.Armed := by
  obtain ⟨s, hs⟩ := Option.isSome_iff_exists.1 (by decide +kernel :
    ((timerQueues.restrict TimerQueue.InRange).run .new clockSetBack).isSome = true)
  have hlist : (((timerQueues.restrict TimerQueue.InRange).run .new clockSetBack).map fun s =>
      s.timerlist.toList) = some [⟨30, 96⟩, ⟨500010, 32⟩] := by decide +kernel
  rw [hs, Option.map_some, Option.some.injEq] at hlist
  obtain ⟨run, hrun, hacts⟩ := LTS.exists_steps_of_run hs
  obtain ⟨hsteps, hin⟩ := hrun.of_restrict
  exact ⟨s, run, hsteps, hacts, hlist, timerfd_armed hsteps hin⟩

end Jiangbo
