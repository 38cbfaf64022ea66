import LearnForCpp.Lib.History
import LearnForCpp.Reactor.EventLoop

/-!
# Sleeping over a pending functor

Whether `queueInLoop` wakes the loop is decided after its push, outside the lock: for the loop
thread always, for another thread only between the two stores to `callingdoPendingFunctions_`.  So
what another thread pushes is late unless it is swapped, or its thread comes to decide in time;
`Late` says so of the order of the steps.  A late functor is slept over unless something else is
about to wake the loop; `Woken` says that of the order of the steps.

`no_lost_wakeup_iff` is about whole runs: no functor is slept over exactly if the loop is woken
whenever another thread pushes while it polls, and whenever it goes on to poll with a late functor.
-/

namespace Jiangbo

/-- A step of an event loop or of a thread that calls it. -/
abbrev LoopEvent (T F : Type*) := Transition (EventLoop T F) (LoopAction T F)

namespace LoopEvent

variable {T F : Type*}

/-- Thread `t`, which is not the loop's, pushes a functor. -/
def Pushes (t : T) (e : LoopEvent T F) : Prop :=
  t ≠ e.source.threadId ∧ ∃ f, e.action = .queueInLoop t f ∨ e.action = .runInLoop t f

/-- Thread `t` comes to the decision whether to wake the loop, and it is the thread of the loop or
comes there between the two stores to `callingdoPendingFunctions_`. -/
def Decides (t : T) (e : LoopEvent T F) : Prop :=
  e.action = .decide t ∧ (t = e.source.threadId ∨ e.source.callingdoPendingFunctions = true)

/-- Thread `t` writes to the eventfd. -/
def Wakes (t : T) (e : LoopEvent T F) : Prop := e.action = .wakeup t

/-- The loop reads the eventfd. -/
def Reads (e : LoopEvent T F) : Prop := e.action = .loop .handleRead

def Swaps (e : LoopEvent T F) : Prop := e.action = .loop .swap

/-- The loop passes `while(!quit_)`. -/
def PassesTest (e : LoopEvent T F) : Prop := e.action = .loop .test ∧ e.source.quit = false

def PollReturns (e : LoopEvent T F) : Prop := ∃ woken, e.action = .loop (.pollReturn woken)

/-- The loop has passed its test, and `epoll_wait` has not returned. -/
def Polls (past : List (LoopEvent T F)) : Prop := Since PassesTest PollReturns past

/-- Another thread has pushed a functor, and neither has the loop swapped since nor has the thread
decided between the two stores to `callingdoPendingFunctions_`. -/
def Late (past : List (LoopEvent T F)) : Prop :=
  ∃ t, Since (Pushes t) (fun e => Swaps e ∨ Decides t e) past

/-- Some thread has written to the eventfd since the loop has read it, or has pushed and decided to
write and has not yet. -/
def Woken (past : List (LoopEvent T F)) : Prop :=
  Since (fun e => ∃ t, Wakes t e) Reads past ∨ ∃ t, Since (Decides t) (Wakes t) past

/-- What keeps the loop from sleeping over a functor: it is woken when another thread pushes while
it polls, and when it goes on to poll after a late push. -/
def Timely (past : List (LoopEvent T F)) (e : LoopEvent T F) : Prop :=
  ((∃ t, Pushes t e) → Polls past → Woken past) ∧ (PassesTest e → Late past → Woken past)

end LoopEvent

/-- The loop is between the return of `epoll_wait` and the swap. -/
def LoopPhase.beforeSwap {F : Type*} : LoopPhase F → Bool
  | handling _ | swapping => true
  | idle | test | polling | running _ => false

namespace EventLoop

variable {T F : Type*} [DecidableEq T] {s s' : EventLoop T F} {a : LoopAction T F} {t : T}

/-- Thread `t` has pushed its functor and will call `wakeup()`. -/
def WillWake (s : EventLoop T F) (t : T) : Prop :=
  s.pc t = .waking ∨
    s.pc t = .pushed ∧ wakeupNeeded (s.isInLoopThread t) s.callingdoPendingFunctions = true

/-- The loop does not sleep over a pending functor: the eventfd is readable, or a thread that has
pushed is still going to make it so. -/
def NoLostWakeup (s : EventLoop T F) : Prop :=
  s.phase.isPolling = true → s.pendingFunctors ≠ [] → 0 < s.eventfd ∨ ∃ t, s.WillWake t

/-- A wakeup is under way: the eventfd is readable, or a thread is in the `wakeup()` of
`queueInLoop`. -/
def WakeupUnderWay (s : EventLoop T F) : Prop := 0 < s.eventfd ∨ ∃ t, s.pc t = .waking

/-! ### What a step can do -/

/-- Every step, with its guard. -/
theorem next_cases (h : s.next a = some s') :
    (∃ t f, (a = .queueInLoop t f ∨ a = .runInLoop t f ∧ t ≠ s.threadId) ∧ s.MayCall t ∧
      s' = s.push t f) ∨
    (∃ f, a = .runInLoop s.threadId f ∧ s' = s) ∨
    (∃ t, a = .decide t ∧ s.pc t = .pushed ∧
      (t = s.threadId ∨ s.callingdoPendingFunctions = true) ∧ s' = s.setPc t .waking) ∨
    (∃ t, a = .decide t ∧ s.pc t = .pushed ∧
      ¬(t = s.threadId ∨ s.callingdoPendingFunctions = true) ∧ s' = s.setPc t .idle) ∨
    (∃ t, a = .wakeup t ∧
      s' = { s.setPc t .idle with eventfd := writeEventfd s.eventfd }) ∨
    (∃ t c, a = .quit t ∧ s.MayCall t ∧ (c = .idle ∨ c = .quitting) ∧
      s' = { s.setPc t c with quit := true }) ∨
    ∃ step, a = .loop step ∧ s.pc s.threadId = .idle ∧ s.loopNext step = some s' := by
  cases a with
  | queueInLoop t f =>
    simp only [EventLoop.next] at h
    split_ifs at h with hm
    cases h
    exact .inl ⟨t, f, .inl rfl, hm, rfl⟩
  | runInLoop t f =>
    simp only [EventLoop.next] at h
    split_ifs at h with hm hl <;> cases h
    · obtain rfl : t = s.threadId := by simpa [isInLoopThread] using hl
      exact .inr (.inl ⟨f, rfl, rfl⟩)
    · exact .inl ⟨t, f, .inr ⟨rfl, by simpa [isInLoopThread] using hl⟩, hm, rfl⟩
  | decide t =>
    simp only [EventLoop.next] at h
    split_ifs at h with hp hw <;> cases h
    · exact .inr (.inr (.inl ⟨t, rfl, hp, by simpa [wakeupNeeded, isInLoopThread] using hw, rfl⟩))
    · exact .inr (.inr (.inr (.inl ⟨t, rfl, hp,
        by simpa [wakeupNeeded, isInLoopThread] using hw, rfl⟩)))
  | wakeup t =>
    simp only [EventLoop.next] at h
    split_ifs at h
    cases h
    exact .inr (.inr (.inr (.inr (.inl ⟨t, rfl, rfl⟩))))
  | quit t =>
    simp only [EventLoop.next] at h
    split_ifs at h with hm hl <;> cases h
    · exact .inr (.inr (.inr (.inr (.inr (.inl ⟨t, _, rfl, hm, .inl rfl, rfl⟩)))))
    · exact .inr (.inr (.inr (.inr (.inr (.inl ⟨t, _, rfl, hm, .inr rfl, rfl⟩)))))
  | loop step =>
    simp only [EventLoop.next] at h
    split_ifs at h with hi
    exact .inr (.inr (.inr (.inr (.inr (.inr ⟨step, rfl, hi, h⟩)))))

/-- While the loop polls, a thread that has yet to decide will not wake it. -/
theorem Inv.willWake_iff (hs : s.Inv) (hp : s.phase.isPolling = true) (t : T) :
    s.WillWake t ↔ s.pc t = .waking := by
  have hidle := hs.loop_idle (isPolling_userCode hp)
  refine ⟨fun h => ?_, .inl⟩
  rcases h with h | ⟨h, hw⟩
  · exact h
  · rw [wakeupNeeded, hs.calling_eq, isPolling_inPending hp, Bool.or_false, isInLoopThread,
      decide_eq_true_eq] at hw
    rw [hw, hidle] at h
    cases h

theorem Inv.noLostWakeup_iff (hs : s.Inv) :
    s.NoLostWakeup ↔ (s.phase.isPolling = true → s.pendingFunctors ≠ [] → s.WakeupUnderWay) := by
  unfold NoLostWakeup WakeupUnderWay
  refine forall_congr' fun hp => ?_
  simp only [hs.willWake_iff hp]

omit [DecidableEq T] in
/-- The loop thread calls in user code only, so the loop is not polling. -/
theorem MayCall.not_polling (hm : s.MayCall s.threadId) : s.phase.isPolling = false := by
  have hu := hm.2 rfl
  by_contra hp
  rw [isPolling_userCode (by simpa using hp)] at hu
  cases hu

theorem writeEventfd_pos (n : ℕ) : 0 < writeEventfd n := by
  unfold writeEventfd
  split_ifs <;> omega

/-- Wakeups go on while a thread that is not in one makes a step. -/
theorem WakeupUnderWay.setPc {c : CallerPc} (h : s.WakeupUnderWay) (ht : s.pc t ≠ .waking) :
    (s.setPc t c).WakeupUnderWay := by
  refine h.imp_right fun ⟨u, hu⟩ => ⟨u, ?_⟩
  have hut : u ≠ t := by
    rintro rfl
    exact ht hu
  simpa [EventLoop.setPc, hut] using hu

/-! ### The state and the order of the steps -/

/-- What the order of the steps so far says of the state. -/
structure Tracks (past : List (LoopEvent T F)) (s : EventLoop T F) : Prop extends s.Inv where
  polls : s.phase.isPolling = true ↔ LoopEvent.Polls past
  written : 0 < s.eventfd ↔ Since (fun e => ∃ t, LoopEvent.Wakes t e) LoopEvent.Reads past
  waking : ∀ t, s.pc t = .waking ↔ Since (LoopEvent.Decides t) (LoopEvent.Wakes t) past
  pending : LoopEvent.Late past → s.pendingFunctors ≠ []
  /-- What is pending for the next round is late, or the loop is woken for it. -/
  inTime : s.phase.beforeSwap = false → s.pendingFunctors ≠ [] →
    LoopEvent.Late past ∨ s.WakeupUnderWay ∨ s.pc s.threadId = .pushed

omit [DecidableEq T] in
theorem new_tracks (t : T) : (new t : EventLoop T F).Tracks [] where
  toInv := new_inv t
  polls := by simp [new, LoopPhase.isPolling, LoopEvent.Polls]
  written := by simp [new]
  waking := by simp [new]
  pending := by simp [LoopEvent.Late]
  inTime := by simp [new]

variable {past : List (LoopEvent T F)}

omit [DecidableEq T] in
theorem Tracks.woken_iff (hs : s.Tracks past) : s.WakeupUnderWay ↔ LoopEvent.Woken past := by
  unfold WakeupUnderWay LoopEvent.Woken
  rw [hs.written]
  simp only [hs.waking]

theorem Tracks.polls_next (hs : s.Tracks past) (h : s.next a = some s') :
    s'.phase.isPolling = true ↔ LoopEvent.Polls (⟨s, a, s'⟩ :: past) := by
  have hpolls := hs.polls
  unfold LoopEvent.Polls at hpolls ⊢
  rw [since_cons]
  rcases next_cases h with ⟨t, f, rfl | ⟨rfl, -⟩, -, rfl⟩ | ⟨f, rfl, rfl⟩ | ⟨t, rfl, -, -, rfl⟩ |
    ⟨t, rfl, -, -, rfl⟩ | ⟨t, rfl, rfl⟩ | ⟨t, c, rfl, -, -, rfl⟩ | ⟨step, rfl, -, h⟩
  case inr.inr.inr.inr.inr.inr =>
    rcases loopNext_cases h with ⟨rfl, hp, rfl⟩ | ⟨rfl, hp, rfl⟩ | ⟨_, rfl, hp, -, rfl⟩ |
      ⟨rfl, hp, rfl⟩ | ⟨rfl, hp, rfl⟩ | ⟨rfl, hp, rfl⟩ | ⟨_, _, rfl, hp, rfl⟩ | ⟨rfl, hp, rfl⟩ <;>
      rw [hp] at hpolls <;> rw [← hpolls] <;>
      simp [LoopEvent.PassesTest, LoopEvent.PollReturns, LoopPhase.isPolling]
    cases s.quit <;> simp
  all_goals
    simpa [LoopEvent.PassesTest, LoopEvent.PollReturns, push, setPc] using hpolls

theorem Tracks.written_next (hs : s.Tracks past) (h : s.next a = some s') :
    0 < s'.eventfd ↔
      Since (fun e => ∃ t, LoopEvent.Wakes t e) LoopEvent.Reads (⟨s, a, s'⟩ :: past) := by
  have hwritten := hs.written
  rw [since_cons]
  rcases next_cases h with ⟨t, f, rfl | ⟨rfl, -⟩, -, rfl⟩ | ⟨f, rfl, rfl⟩ | ⟨t, rfl, -, -, rfl⟩ |
    ⟨t, rfl, -, -, rfl⟩ | ⟨t, rfl, rfl⟩ | ⟨t, c, rfl, -, -, rfl⟩ | ⟨step, rfl, -, h⟩
  case inr.inr.inr.inr.inl => simp [LoopEvent.Wakes, writeEventfd_pos]
  case inr.inr.inr.inr.inr.inr =>
    rcases loopNext_cases h with ⟨rfl, hp, rfl⟩ | ⟨rfl, hp, rfl⟩ | ⟨_, rfl, hp, -, rfl⟩ |
      ⟨rfl, hp, rfl⟩ | ⟨rfl, hp, rfl⟩ | ⟨rfl, hp, rfl⟩ | ⟨_, _, rfl, hp, rfl⟩ | ⟨rfl, hp, rfl⟩ <;>
      simp [LoopEvent.Wakes, LoopEvent.Reads, hwritten]
  all_goals simpa [LoopEvent.Wakes, LoopEvent.Reads, push, setPc] using hwritten

theorem Tracks.waking_next (hs : s.Tracks past) (h : s.next a = some s') (u : T) :
    s'.pc u = .waking ↔
      Since (LoopEvent.Decides u) (LoopEvent.Wakes u) (⟨s, a, s'⟩ :: past) := by
  have hwaking := hs.waking u
  rw [since_cons]
  rcases next_cases h with ⟨t, f, ha, hm, rfl⟩ | ⟨f, rfl, rfl⟩ | ⟨t, rfl, hpc, hw, rfl⟩ |
    ⟨t, rfl, hpc, hw, rfl⟩ | ⟨t, rfl, rfl⟩ | ⟨t, c, rfl, hm, hc, rfl⟩ | ⟨step, rfl, -, h⟩
  case inr.inl => simpa [LoopEvent.Decides, LoopEvent.Wakes] using hwaking
  case inr.inr.inr.inr.inr.inr =>
    have hpc : s'.pc = s.pc := by
      rcases loopNext_cases h with ⟨-, -, rfl⟩ | ⟨-, -, rfl⟩ | ⟨_, -, -, -, rfl⟩ | ⟨-, -, rfl⟩ |
        ⟨-, -, rfl⟩ | ⟨-, -, rfl⟩ | ⟨_, _, -, -, rfl⟩ | ⟨-, -, rfl⟩ <;> rfl
    simpa [LoopEvent.Decides, LoopEvent.Wakes, hpc] using hwaking
  all_goals by_cases hu : u = t
  -- the thread of the step, which is in no `wakeup()` of `queueInLoop` unless it writes
  case pos =>
    subst hu
    rcases ha with rfl | ⟨rfl, -⟩ <;>
      simpa [LoopEvent.Decides, LoopEvent.Wakes, push, setPc, hm.1] using hwaking
  case pos =>
    subst hu
    simp [LoopEvent.Decides, setPc, hw]
  case pos =>
    subst hu
    simpa [LoopEvent.Decides, LoopEvent.Wakes, setPc, hw, hpc] using hwaking
  case pos =>
    subst hu
    simp [LoopEvent.Decides, LoopEvent.Wakes, setPc]
  case pos =>
    subst hu
    rcases hc with rfl | rfl <;>
      simpa [LoopEvent.Decides, LoopEvent.Wakes, setPc, hm.1] using hwaking
  -- the other threads
  case neg =>
    rcases ha with rfl | ⟨rfl, -⟩ <;>
      simpa [LoopEvent.Decides, LoopEvent.Wakes, push, setPc, hu] using hwaking
  all_goals simpa [LoopEvent.Decides, LoopEvent.Wakes, setPc, hu, Ne.symm hu] using hwaking

/-- A late functor is pending. -/
theorem Tracks.pending_next (hs : s.Tracks past) (h : s.next a = some s')
    (hlate : LoopEvent.Late (⟨s, a, s'⟩ :: past)) : s'.pendingFunctors ≠ [] := by
  obtain ⟨u, hu⟩ := hlate
  rw [since_cons] at hu
  have hold : ¬LoopEvent.Pushes u ⟨s, a, s'⟩ → s.pendingFunctors ≠ [] := fun hno =>
    hs.pending ⟨u, (hu.resolve_left hno).2⟩
  rcases next_cases h with ⟨t, f, -, -, rfl⟩ | ⟨f, rfl, rfl⟩ | ⟨t, rfl, -, -, rfl⟩ |
    ⟨t, rfl, -, -, rfl⟩ | ⟨t, rfl, rfl⟩ | ⟨t, c, rfl, -, -, rfl⟩ | ⟨step, rfl, -, h⟩
  case inl => simp [push]
  case inr.inl =>
    refine hold ?_
    rintro ⟨hne, g, hg | hg⟩
    · cases hg
    · cases hg
      exact hne rfl
  case inr.inr.inr.inr.inr.inr =>
    have hpending := hold (by simp [LoopEvent.Pushes])
    rcases loopNext_cases h with ⟨-, -, rfl⟩ | ⟨-, -, rfl⟩ | ⟨_, -, -, -, rfl⟩ | ⟨-, -, rfl⟩ |
      ⟨-, -, rfl⟩ | ⟨rfl, -, rfl⟩ | ⟨_, _, -, -, rfl⟩ | ⟨-, -, rfl⟩
    case inr.inr.inr.inr.inr.inl =>
      rcases hu with hu | ⟨hno, -⟩
      · simp [LoopEvent.Pushes] at hu
      · exact absurd (.inl rfl) hno
    all_goals exact hpending
  all_goals exact hold (by simp [LoopEvent.Pushes])

omit [DecidableEq T] in
theorem late_cons {e : LoopEvent T F} (h : LoopEvent.Late past) (hswap : ¬LoopEvent.Swaps e)
    (hdecide : ∀ t, ¬LoopEvent.Decides t e) : LoopEvent.Late (e :: past) :=
  h.imp fun t ht => ht.cons (not_or_intro hswap (hdecide t))

/-- What is pending for the next round stays late, or the loop is woken for it. -/
theorem Tracks.inTime_next (hs : s.Tracks past) (h : s.next a = some s')
    (hphase : s'.phase.beforeSwap = false) (hne : s'.pendingFunctors ≠ []) :
    LoopEvent.Late (⟨s, a, s'⟩ :: past) ∨ s'.WakeupUnderWay ∨ s'.pc s'.threadId = .pushed := by
  rcases next_cases h with ⟨t, f, ha, hm, rfl⟩ | ⟨f, rfl, rfl⟩ | ⟨t, rfl, hpc, hw, rfl⟩ |
    ⟨t, rfl, hpc, hw, rfl⟩ | ⟨t, rfl, rfl⟩ | ⟨t, c, rfl, hm, -, rfl⟩ | ⟨step, rfl, hidle, h⟩
  · -- a push: of the loop thread, which decides next, or of another thread, which is late
    by_cases ht : t = s.threadId
    · subst ht
      exact .inr (.inr (by simp [push, setPc]))
    · exact .inl ⟨t, since_cons_of_pos ⟨ht, f, ha.imp_right And.left⟩⟩
  · exact (hs.inTime hphase hne).imp_left fun h =>
      late_cons h (by simp [LoopEvent.Swaps]) (by simp [LoopEvent.Decides])
  · -- the decision to wake the loop
    exact .inr (.inl (.inr ⟨t, by simp [setPc]⟩))
  · -- the decision not to: it is another thread's, and what it has pushed is late already
    obtain ⟨hloop, -⟩ := not_or.1 hw
    rcases hs.inTime hphase hne with hlate | hwake | hpushed
    · refine .inl (late_cons hlate (by simp [LoopEvent.Swaps]) ?_)
      rintro u ⟨hu, hdecides⟩
      cases hu
      exact hw hdecides
    · exact .inr (.inl (hwake.setPc (by simp [hpc])))
    · exact .inr (.inr (by simpa [setPc, Ne.symm hloop] using hpushed))
  · exact .inr (.inl (.inl (writeEventfd_pos _)))
  · -- the loop thread is in no call, or another thread calls
    rcases hs.inTime hphase hne with hlate | hwake | hpushed
    · exact .inl (late_cons hlate (by simp [LoopEvent.Swaps]) (by simp [LoopEvent.Decides]))
    · exact .inr (.inl (hwake.setPc (by simp [hm.1])))
    · have ht : t ≠ s.threadId := by
        rintro rfl
        cases hm.1.symm.trans hpushed
      exact .inr (.inr (by simpa [setPc, Ne.symm ht] using hpushed))
  · have hpast : s.phase.beforeSwap = false → s.pendingFunctors ≠ [] → step ≠ .swap →
        LoopEvent.Late (⟨s, .loop step, s'⟩ :: past) ∨ s.WakeupUnderWay := by
      intro hp hne hswap
      rcases hs.inTime hp hne with h | h | h
      · exact .inl (late_cons h (by simpa [LoopEvent.Swaps] using hswap)
          (by simp [LoopEvent.Decides]))
      · exact .inr h
      · rw [hidle] at h
        cases h
    rcases loopNext_cases h with ⟨rfl, hp, rfl⟩ | ⟨rfl, hp, rfl⟩ | ⟨_, rfl, hp, -, rfl⟩ |
      ⟨rfl, hp, rfl⟩ | ⟨rfl, hp, rfl⟩ | ⟨rfl, hp, rfl⟩ | ⟨_, _, rfl, hp, rfl⟩ | ⟨rfl, hp, rfl⟩
    · exact (hpast (by rw [hp]; rfl) hne (by simp)).imp_right .inl
    · exact (hpast (by rw [hp]; rfl) hne (by simp)).imp_right .inl
    -- `epoll_wait` has returned, and what is pending will be swapped
    · cases hphase
    · cases hphase
    · cases hphase
    · exact absurd rfl hne
    · exact (hpast (by rw [hp]; rfl) hne (by simp)).imp_right .inl
    · exact (hpast (by rw [hp]; rfl) hne (by simp)).imp_right .inl

theorem Tracks.next (hs : s.Tracks past) (h : s.next a = some s') :
    s'.Tracks (⟨s, a, s'⟩ :: past) where
  toInv := hs.toInv.next h
  polls := hs.polls_next h
  written := hs.written_next h
  waking := hs.waking_next h
  pending := hs.pending_next h
  inTime := hs.inTime_next h

/-! ### One step -/

/-- A push leaves a functor to wait for. -/
theorem Tracks.noLostWakeup_push (hs : s.Tracks past) (f : F) (hm : s.MayCall t)
    (h : s.next a = some (s.push t f)) :
    (s.push t f).NoLostWakeup ↔ (LoopEvent.Polls past → LoopEvent.Woken past) := by
  rw [(hs.toInv.next h).noLostWakeup_iff, ← hs.polls, ← hs.woken_iff]
  refine forall_congr' fun _ => ?_
  have hne : (s.push t f).pendingFunctors ≠ [] := by simp [push]
  rw [imp_iff_right hne]
  simp only [WakeupUnderWay, push, setPc]
  refine or_congr_right (exists_congr fun u => ?_)
  by_cases hu : u = t
  · subst hu
    simp [hm.1]
  · simp [hu]

/-- The loop goes on to poll: what is pending is late, or the loop is woken for it. -/
theorem Tracks.noLostWakeup_test (hs : s.Tracks past) (hp : s.phase = .test)
    (hidle : s.pc s.threadId = .idle) (h : s.next (.loop .test) = some s') :
    s'.NoLostWakeup ↔ (s.quit = false → LoopEvent.Late past → LoopEvent.Woken past) := by
  obtain rfl : { s with phase := if s.quit then .idle else .polling } = s' := by
    simpa [EventLoop.next, hidle, loopNext, hp] using h
  rw [(hs.toInv.next h).noLostWakeup_iff, ← hs.woken_iff]
  have hlate := hs.pending
  have hinTime := hs.inTime (by rw [hp]; rfl)
  rw [hidle] at hinTime
  cases hq : s.quit with
  | true => simp [LoopPhase.isPolling]
  | false =>
    simp only [WakeupUnderWay, LoopPhase.isPolling, true_imp_iff, if_neg, Bool.false_eq_true,
      not_false_eq_true] at hinTime ⊢
    constructor
    · exact fun h hl => h (hlate hl)
    · intro h hne
      rcases hinTime hne with h' | h' | h'
      · exact h h'
      · exact h'
      · cases h'

/-- **One step.** From a state without a lost wakeup a step loses none exactly when it is timely. -/
theorem Tracks.noLostWakeup_next (hs : s.Tracks past) (hw : s.NoLostWakeup)
    (h : s.next a = some s') : s'.NoLostWakeup ↔ LoopEvent.Timely past ⟨s, a, s'⟩ := by
  have hs' := hs.toInv.next h
  have hgo := hs.toInv.noLostWakeup_iff.1 hw
  have hkeeps : (¬∃ t, LoopEvent.Pushes t ⟨s, a, s'⟩) → ¬LoopEvent.PassesTest ⟨s, a, s'⟩ →
      s'.NoLostWakeup → (s'.NoLostWakeup ↔ LoopEvent.Timely past ⟨s, a, s'⟩) :=
    fun h1 h2 h3 => iff_of_true h3 ⟨fun h => absurd h h1, fun h => absurd h h2⟩
  rcases next_cases h with ⟨t, f, ha, hm, rfl⟩ | ⟨f, rfl, rfl⟩ | ⟨t, rfl, hpc, -, rfl⟩ |
    ⟨t, rfl, hpc, -, rfl⟩ | ⟨t, rfl, rfl⟩ | ⟨t, c, rfl, hm, -, rfl⟩ | ⟨step, rfl, hidle, hstep⟩
  · have htest : ¬LoopEvent.PassesTest ⟨s, a, s.push t f⟩ := by
      rcases ha with rfl | ⟨rfl, -⟩ <;> simp [LoopEvent.PassesTest]
    rw [hs.noLostWakeup_push f hm h, LoopEvent.Timely]
    by_cases ht : t = s.threadId
    · -- the loop thread does not push while it polls
      subst ht
      have hpoll : ¬LoopEvent.Polls past := by
        rw [← hs.polls, hm.not_polling]
        simp
      exact iff_of_true (fun h => absurd h hpoll)
        ⟨fun _ h => absurd h hpoll, fun h => absurd h htest⟩
    · have hpush : ∃ u, LoopEvent.Pushes u ⟨s, a, s.push t f⟩ :=
        ⟨t, ht, f, ha.imp_right And.left⟩
      exact ⟨fun h => ⟨fun _ => h, fun h => absurd h htest⟩, fun h => h.1 hpush⟩
  · refine hkeeps ?_ (by simp [LoopEvent.PassesTest]) hw
    rintro ⟨u, hne, g, hg | hg⟩
    · cases hg
    · cases hg
      exact hne rfl
  · refine hkeeps (by simp [LoopEvent.Pushes]) (by simp [LoopEvent.PassesTest]) ?_
    exact hs'.noLostWakeup_iff.2 fun hp hne => (hgo hp hne).setPc (by simp [hpc])
  · refine hkeeps (by simp [LoopEvent.Pushes]) (by simp [LoopEvent.PassesTest]) ?_
    exact hs'.noLostWakeup_iff.2 fun hp hne => (hgo hp hne).setPc (by simp [hpc])
  · refine hkeeps (by simp [LoopEvent.Pushes]) (by simp [LoopEvent.PassesTest]) ?_
    exact fun _ _ => .inl (writeEventfd_pos _)
  · refine hkeeps (by simp [LoopEvent.Pushes]) (by simp [LoopEvent.PassesTest]) ?_
    exact hs'.noLostWakeup_iff.2 fun hp hne => (hgo hp hne).setPc (by simp [hm.1])
  · by_cases htest : step = .test
    · subst htest
      have hp : s.phase = .test := by
        simp only [loopNext] at hstep
        split at hstep
        · assumption
        · cases hstep
      rw [hs.noLostWakeup_test hp hidle h]
      simp [LoopEvent.Timely, LoopEvent.Pushes, LoopEvent.PassesTest]
    · refine hkeeps (by simp [LoopEvent.Pushes]) (by simp [LoopEvent.PassesTest, htest]) ?_
      -- no other step of the loop leads to `epoll_wait`
      have hpoll : s'.phase.isPolling = false := by
        rcases loopNext_cases hstep with ⟨-, -, rfl⟩ | ⟨h, -, -⟩ | ⟨_, -, -, -, rfl⟩ | ⟨-, -, rfl⟩ |
          ⟨-, -, rfl⟩ | ⟨-, -, rfl⟩ | ⟨_, _, -, -, rfl⟩ | ⟨-, -, rfl⟩
        case inr.inl => exact absurd h htest
        all_goals rfl
      exact fun hp => by simp [hpoll] at hp

end EventLoop

/-- **When no wakeup is lost.** A run never sleeps over a pending functor exactly if each of its
steps is timely: the loop is woken when another thread pushes between the loop's test and the return
of `epoll_wait`, and when it passes its test after the late push of another thread. -/
theorem no_lost_wakeup_iff {T F : Type*} [DecidableEq T] {t : T} {s : EventLoop T F}
    {run : List (Transition (EventLoop T F) (LoopAction T F))}
    (h : (eventLoops t).Steps (.new t) run s) :
    (∀ e ∈ run, e.target.NoLostWakeup) ↔ Along LoopEvent.Timely [] run := by
  refine h.forall_iff_along (I := fun past s => s.Tracks past ∧ s.NoLostWakeup)
    ⟨EventLoop.new_tracks t, ?_⟩ ?_ ?_
  · exact fun h => absurd h (by simp [EventLoop.new, LoopPhase.isPolling])
  · exact fun past s a s' hs hn => hs.1.noLostWakeup_next hs.2 hn
  · exact fun past s a s' hs hc hn => ⟨hs.1.next hn, (hs.1.noLostWakeup_next hs.2 hn).2 hc⟩

/-- Another thread pushes between the two stores to `callingdoPendingFunctions_` and decides there,
and the loop polls before it writes to the eventfd; then it pushes again. -/
def pushedInTime : List (LoopAction Bool Unit) :=
  [.loop .start, .loop .test, .loop (.pollReturn false), .loop .beginPending, .loop .swap,
    .queueInLoop true (), .decide true, .loop .finish, .loop .test, .wakeup true,
    .queueInLoop true (), .decide true]

theorem no_lost_wakeup_pushed_in_time :
    ∃ run s, (eventLoops false : LTS (EventLoop Bool Unit) _).Steps (.new false) run s ∧
      run.map Transition.action = pushedInTime ∧ ∀ e ∈ run, e.target.NoLostWakeup := by
  refine ⟨_, _, .cons rfl (.cons rfl (.cons rfl (.cons rfl (.cons rfl (.cons rfl (.cons rfl
    (.cons rfl (.cons rfl (.cons rfl (.cons rfl (.cons rfl (.nil _)))))))))))), rfl, ?_⟩
  refine (no_lost_wakeup_iff (.cons rfl (.cons rfl (.cons rfl (.cons rfl (.cons rfl (.cons rfl
    (.cons rfl (.cons rfl (.cons rfl (.cons rfl (.cons rfl (.cons rfl (.nil _)))))))))))))).2 ?_
  simp [Along, LoopEvent.Timely, LoopEvent.Pushes, LoopEvent.PassesTest, LoopEvent.Polls,
    LoopEvent.PollReturns, LoopEvent.Late, LoopEvent.Woken, LoopEvent.Swaps, LoopEvent.Decides,
    LoopEvent.Wakes, LoopEvent.Reads, since_cons, EventLoop.new, EventLoop.push, EventLoop.setPc]

/-- Another thread pushes while the loop is in `epoll_wait` and does not wake it: the loop sleeps
over the functor with no thread left to wake it. -/
theorem wakeup_lost_while_polling :
    ∃ s : EventLoop Bool Unit, (eventLoops false).Reachable s ∧ ¬ s.NoLostWakeup := by
  refine ⟨_, .of_run (.init rfl) [.loop .start, .loop .test, .queueInLoop true (), .decide true]
    rfl, fun h => ?_⟩
  rcases h rfl (by decide) with h | ⟨t, h | h⟩
  · exact absurd h (by decide)
  · revert h; cases t <;> decide
  · revert h; cases t <;> decide

end Jiangbo
