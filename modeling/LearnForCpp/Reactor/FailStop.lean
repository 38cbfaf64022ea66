import LearnForCpp.Reactor.Startup

/-!
# Start-up and failed system calls

A failed `epoll_create`, `socket`, `bind` or `listen` ends in `LOG_SYSFATAL`, whose record has the
level `ERROR` and does not abort the process, unless its header is too long; a failed
`timerfd_create` is not noticed.  So the descriptors of a process that has not aborted are valid,
and its acceptor listens, exactly if these calls succeed: `startup_fail_stop_iff`.
-/

namespace Jiangbo

/-- The descriptors that were created are valid. -/
structure LoopFds.Valid (l : LoopFds) : Prop where
  wakeupfd : ∀ fd ∈ l.wakeupfd, 0 ≤ fd.toInt
  epfd : ∀ fd ∈ l.epfd, 0 ≤ fd.toInt
  timerfd : ∀ fd ∈ l.timerfd, 0 ≤ fd.toInt

namespace Startup

/-- A call that has been made, and did not fail. -/
def Succeeded (ret : Option Int32) : Prop := ∃ v ∈ ret, 0 ≤ v.toInt

instance : DecidablePred Succeeded
  | none => .isFalse nofun
  | some v => decidable_of_iff (0 ≤ v.toInt) (by simp [Succeeded])

/-- The descriptors of every loop are valid, and when `listen()` has returned with `listenning()`,
the acceptor has a valid descriptor that is bound and listens. -/
structure Sound (s : Startup) : Prop where
  main : s.main.loop.Valid
  worker : ∀ th ∈ s.worker, th.loop.Valid
  pool : ∀ th ∈ s.pool, th.loop.Valid
  listenning : s.pc = .done → s.listenning = true →
    Succeeded s.acceptfd ∧ Succeeded s.bound ∧ Succeeded s.listened

/-- Where the process has not aborted, the descriptors that should be there by now are there, and
all is well. -/
def FailStop (s : Startup) : Prop := s.aborted = false → s.Created ∧ s.Sound

/-- The identifier of the running thread does not fit the header of a log record. -/
def LongTid (s : Startup) : Prop := 999999 < s.current.log.gettid.toInt

instance (s : Startup) : Decidable s.LongTid :=
  inferInstanceAs (Decidable (999999 < s.current.log.gettid.toInt))

/-- `epoll_create` and `timerfd_create` succeed, and `listen` succeeds on a socket that `socket` and
`bind` have not failed for; or the log record of the failure aborts the process by its length. -/
def Succeeds (s : Startup) : StartupAction → Prop
  | .step ret _ _ =>
      match s.pc with
      | .epoller => 0 ≤ ret.toInt ∨ s.LongTid
      | .createtimerfd => 0 ≤ ret.toInt
      | .listenOrDie =>
          Succeeded s.acceptfd ∧ Succeeded s.bound ∧ 0 ≤ ret.toInt ∨ ret.toInt < 0 ∧ s.LongTid
      | _ => True
  | .spawn _ _ => True

instance (s : Startup) (a : StartupAction) : Decidable (s.Succeeds a) :=
  match a with
  | .spawn _ _ => .isTrue trivial
  | .step ret _ _ =>
      match h : s.pc with
      | .epoller =>
          decidable_of_iff (0 ≤ ret.toInt ∨ s.LongTid) (by rw [Succeeds, h])
      | .createtimerfd => decidable_of_iff (0 ≤ ret.toInt) (by rw [Succeeds, h])
      | .listenOrDie =>
          decidable_of_iff (Succeeded s.acceptfd ∧ Succeeded s.bound ∧ 0 ≤ ret.toInt ∨
            ret.toInt < 0 ∧ s.LongTid) (by rw [Succeeds, h])
      | .eventfdCreate | .updateChannelMap _ | .epollAdd _ | .created | .thisThread | .ready
      | .createNonblockingOrDie | .bindOrDie | .poolStart | .done =>
          .isTrue (by rw [Succeeds, h]; trivial)

/-! ### Log statements -/

variable {s t : Startup} {m : LogMacro} {items : List Item} {site : LogSite}
  {f : LoopThread → LoopThread} {p : StartupPc}

/-- Where the process has not aborted, all is well. -/
def Safe (s : Startup) : Prop := s.aborted = false → s.Sound

theorem Created.failStop_iff (hs : s.Created) : s.FailStop ↔ s.Safe :=
  forall_congr' fun _ => and_iff_right hs

/-- The thread-local variables of the threads that run. -/
structure Logs (s : Startup) : Prop where
  main : s.main.log.Inv
  worker : ∀ th ∈ s.worker, th.log.Inv

theorem Logs.current (hs : s.Logs) : s.current.log.Inv := by
  cases hw : s.worker with
  | none => exact current_of_none hw ▸ hs.main
  | some worker => exact current_of_some hw ▸ hs.worker worker hw

theorem Logs.modify (hs : s.Logs) (hf : (f s.current).log.Inv) : (s.modify f).Logs := by
  cases hw : s.worker with
  | none =>
    rw [current_of_none hw] at hf
    rw [modify_of_none hw]
    exact ⟨hf, hs.worker⟩
  | some worker =>
    rw [current_of_some hw] at hf
    rw [modify_of_some hw]
    exact ⟨hs.main, by simpa using hf⟩

theorem Sound.current (hs : s.Sound) : s.current.loop.Valid := by
  cases hw : s.worker with
  | none => exact current_of_none hw ▸ hs.main
  | some worker => exact current_of_some hw ▸ hs.worker worker hw

theorem Sound.modify (hs : s.Sound) (hf : (f s.current).loop.Valid) : (s.modify f).Sound := by
  cases hw : s.worker with
  | none =>
    rw [current_of_none hw] at hf
    rw [modify_of_none hw]
    exact ⟨hf, hs.worker, hs.pool, hs.listenning⟩
  | some worker =>
    rw [current_of_some hw] at hf
    rw [modify_of_some hw]
    exact ⟨hs.main, by simpa using hf, hs.pool, hs.listenning⟩

theorem Sound.goto (hs : s.Sound) (hp : p ≠ .done) : (s.goto p).Sound :=
  ⟨hs.main, hs.worker, hs.pool, fun h => absurd h hp⟩

/-- A log statement changes no descriptor. -/
theorem sound_log (m : LogMacro) (items : List Item) (site : LogSite) (s : Startup) :
    (s.log m items site).Sound ↔ s.Sound := by
  rcases log_cases m items site s with h | h | ⟨log, h⟩
  · rw [h]
  · rw [h]
    exact ⟨fun h => ⟨h.main, h.worker, h.pool, h.listenning⟩,
      fun h => ⟨h.main, h.worker, h.pool, h.listenning⟩⟩
  · rw [h]
    cases hw : s.worker with
    | none =>
      rw [modify_of_none hw]
      exact ⟨fun h => ⟨h.main, h.worker, h.pool, h.listenning⟩,
        fun h => ⟨h.main, h.worker, h.pool, h.listenning⟩⟩
    | some worker =>
      rw [modify_of_some hw]
      refine ⟨fun h => ⟨h.main, ?_, h.pool, h.listenning⟩,
        fun h => ⟨h.main, ?_, h.pool, h.listenning⟩⟩
      · simpa [hw] using h.worker
      · simpa [hw] using h.worker

/-- A log statement aborts the process when its level is `FATAL` or its header is too long. -/
theorem Logs.log (hs : s.Logs) (hm : ∀ item ∈ m.items, item.Sized)
    (hitems : ∀ item ∈ items, item.Sized) (site : LogSite) :
    (s.log m items site).Logs ∧ ((s.log m items site).aborted = true ↔ s.aborted = true ∨
      m.enabled s.logLevel = true ∧ (m.level = .fatal ∨ s.LongTid)) := by
  obtain ⟨hnone, hsome⟩ := hs.current.log hm hitems site
  unfold Startup.log
  by_cases hlevel : m.enabled s.logLevel = true
  · rw [if_pos hlevel]
    cases hlog : s.current.log.log m items site with
    | none => exact ⟨⟨hs.main, hs.worker⟩, iff_of_true rfl (.inr ⟨hlevel, hnone.1 hlog⟩)⟩
    | some log =>
      refine ⟨hs.modify (hsome log hlog).1, ?_⟩
      have hshort : ¬(m.level = .fatal ∨ s.LongTid) := fun h => by
        rw [hnone.2 h] at hlog
        cases hlog
      rw [modify_aborted]
      exact ⟨.inl, fun h => h.resolve_right fun h => hshort h.2⟩
  · rw [if_neg hlevel]
    exact ⟨hs, .inl, fun h => h.resolve_right fun h => hlevel h.1⟩

/-- A statement that logs at most, in a state where all is well. -/
theorem Logs.quiet (hs : s.Logs) (hsound : s.Sound) (hm : ∀ item ∈ m.items, item.Sized)
    (hitems : ∀ item ∈ items, item.Sized) (site : LogSite) :
    (s.log m items site).Logs ∧ (s.log m items site).Safe :=
  ⟨(hs.log hm hitems site).1, fun _ => (sound_log m items site s).2 hsound⟩

/-! ### The statements -/

variable {ret : Int32} {fd : Int32} {this : UInt64} {c : StartupChannel}

theorem int32_nonneg_iff : ¬ret < 0 ↔ 0 ≤ ret.toInt := by
  rw [Int32.lt_iff_toInt_lt, not_lt, Int32.toInt_zero]

/-- A failure that ends in `LOG_SYSFATAL` stops the process only by the length of the header. -/
theorem Logs.sysfatal_safe (hs : s.Logs) (hok : s.aborted = false) {text : Bytes}
    (htext : text.length < 2 ^ 31) (ret : Int32) (site : LogSite) :
    let t := if ret < 0 then s.log .sysfatal [.cstr text] site else s
    t.Logs ∧ (t.Safe ↔ s.Sound ∨ ret.toInt < 0 ∧ s.LongTid) := by
  have hitems : ∀ item ∈ [Item.cstr text], item.Sized :=
    List.forall_mem_singleton.2 (Item.cstr_sized htext)
  obtain ⟨hlogs, habort⟩ := hs.log (m := .sysfatal) (by simp [LogMacro.items]) hitems site
  have habort' : (s.log .sysfatal [.cstr text] site).aborted = true ↔ s.LongTid := by
    rw [habort, hok]
    simp [LogMacro.enabled, LogMacro.level]
  dsimp only
  split_ifs with hret
  · have hneg : ret.toInt < 0 := by
      have := int32_nonneg_iff.not.1 (not_not.2 hret)
      omega
    refine ⟨hlogs, ?_⟩
    -- a negative result is logged, and the process goes on unless the header is too long
    rw [Safe, sound_log]
    by_cases hlong : s.LongTid
    · rw [habort'.2 hlong]
      exact iff_of_true nofun (.inr ⟨hneg, hlong⟩)
    · have hfalse := Bool.eq_false_iff.2 (habort'.not.2 hlong)
      rw [hfalse]
      simp [hlong]
  · have hnonneg := int32_nonneg_iff.1 hret
    refine ⟨hs, ?_⟩
    rw [Safe, hok]
    have hnot : ¬(ret.toInt < 0 ∧ s.LongTid) := by omega
    simp [hnot]

theorem Logs.sysfatal_of_sound (hs : s.Logs) (hsound : s.Sound) (hok : s.aborted = false)
    {text : Bytes} (htext : text.length < 2 ^ 31) :
    let t := if ret < 0 then s.log .sysfatal [.cstr text] site else s
    t.Logs ∧ t.Safe := by
  obtain ⟨hlogs, hiff⟩ := hs.sysfatal_safe hok htext ret site
  exact ⟨hlogs, hiff.2 (.inl hsound)⟩

theorem Logs.setLoop (hs : s.Logs) (f : LoopFds → LoopFds) : (s.setLoop f).Logs :=
  hs.modify hs.current

theorem Logs.goto (hs : s.Logs) (p : StartupPc) : (s.goto p).Logs := ⟨hs.main, hs.worker⟩

theorem setLoop_longTid (f : LoopFds → LoopFds) (p : StartupPc) (s : Startup) :
    ((s.setLoop f).goto p).LongTid ↔ s.LongTid := by
  show 999999 < (s.setLoop f).current.log.gettid.toInt ↔ _
  rw [setLoop, modify_current]
  rfl

/-- All is well after a change of the loop exactly if the loop is. -/
theorem Sound.setLoop_iff (hs : s.Sound) (f : LoopFds → LoopFds) (hp : p ≠ .done) :
    ((s.setLoop f).goto p).Sound ↔ (f s.current.loop).Valid := by
  constructor
  · intro h
    have hcurrent : ((s.setLoop f).goto p).current.loop = f s.current.loop := by
      show (s.setLoop f).current.loop = _
      rw [setLoop, modify_current]
    exact hcurrent ▸ h.current
  · exact fun h => (hs.modify h).goto hp

theorem valid_epfd {l : LoopFds} (hl : l.Valid) :
    { l with epfd := some ret }.Valid ↔ 0 ≤ ret.toInt := by
  constructor
  · exact fun h => h.epfd ret rfl
  · refine fun h => ⟨hl.wakeupfd, ?_, hl.timerfd⟩
    rintro fd ⟨⟩
    exact h

theorem valid_timerfd {l : LoopFds} (hl : l.Valid) :
    { l with timerfd := some ret }.Valid ↔ 0 ≤ ret.toInt := by
  constructor
  · exact fun h => h.timerfd ret rfl
  · refine fun h => ⟨hl.wakeupfd, hl.epfd, ?_⟩
    rintro fd ⟨⟩
    exact h

/-- All is well after the step exactly if it succeeds. -/
def StepSafe (s t : Startup) (a : StartupAction) : Prop := t.Logs ∧ (t.Safe ↔ s.Succeeds a)

/-- A statement whose result does not matter. -/
theorem stepSafe_of {a : StartupAction} (h : t.Logs ∧ t.Safe) (ha : s.Succeeds a) :
    s.StepSafe t a := ⟨h.1, iff_of_true h.2 ha⟩

theorem Sound.safe (hs : s.Sound) : s.Safe := fun _ => hs

theorem safe_abort (s : Startup) : s.abort.Safe := nofun

section Initial

variable {tid : Int32} {other : Bool} {numThreads : ℕ} {logLevel : LogLevel}
  {timerfdCreate : UInt64}

theorem new_logs (h : 0 < tid.toInt) : (new tid other numThreads logLevel timerfdCreate).Logs where
  main := LogThread.new_inv h
  worker th hth := absurd hth (Option.not_mem_none th)

theorem new_sound : (new tid other numThreads logLevel timerfdCreate).Sound where
  main := ⟨nofun, nofun, nofun⟩
  worker th hth := absurd hth (Option.not_mem_none th)
  pool _ hth := absurd hth List.not_mem_nil
  listenning h := by cases h

end Initial

theorem step_eventfdCreate (hs : s.Logs) (hsound : s.Sound) (hpc : s.pc = .eventfdCreate)
    (hn : s.advance ret this site = some t) : s.StepSafe t (.step ret this site) := by
  refine stepSafe_of ?_ (by rw [Succeeds, hpc]; trivial)
  rw [advance, hpc] at hn
  obtain rfl := Option.some.inj hn
  split_ifs with hret
  · exact ⟨⟨hs.main, hs.worker⟩, safe_abort s⟩
  · refine ⟨(hs.setLoop _).goto _, Sound.safe ((hsound.setLoop_iff _ (by decide)).2 ?_)⟩
    refine ⟨?_, hsound.current.epfd, hsound.current.timerfd⟩
    rintro fd ⟨⟩
    exact int32_nonneg_iff.1 hret

theorem step_epoller (hs : s.Logs) (hsound : s.Sound) (hok : s.aborted = false)
    (hpc : s.pc = .epoller) (hn : s.advance ret this site = some t) :
    s.StepSafe t (.step ret this site) := by
  rw [advance, hpc] at hn
  obtain rfl := Option.some.inj hn
  have hok' : ((s.setLoop fun l => { l with epfd := some ret }).goto .createtimerfd).aborted =
      false := (modify_aborted _ s).trans hok
  have htext : (ascii "EPoller::EPoller").length < 2 ^ 31 := by decide
  obtain ⟨hlogs, hiff⟩ := ((hs.setLoop fun l => { l with epfd := some ret }).goto
    .createtimerfd).sysfatal_safe hok' htext ret site
  refine ⟨hlogs, hiff.trans ?_⟩
  rw [hsound.setLoop_iff _ (by decide), valid_epfd hsound.current, setLoop_longTid, Succeeds, hpc]
  constructor
  · exact fun h => h.imp_right And.right
  · intro h
    by_cases hret : 0 ≤ ret.toInt
    · exact .inl hret
    · exact .inr ⟨not_le.1 hret, h.resolve_left hret⟩

theorem step_createtimerfd (hs : s.Logs) (hsound : s.Sound) (hok : s.aborted = false)
    (hpc : s.pc = .createtimerfd) (hn : s.advance ret this site = some t) :
    s.StepSafe t (.step ret this site) := by
  rw [advance, hpc] at hn
  -- what is compared with 0 is the address of the function, which is unsigned
  have haddress : ¬((s.setLoop fun l => { l with timerfd := some ret }).goto
      (.updateChannelMap .timer)).timerfdCreate < 0 := UInt64.not_lt_zero
  dsimp only at hn
  rw [if_neg haddress] at hn
  obtain rfl := Option.some.inj hn
  refine ⟨(hs.setLoop _).goto _, ?_⟩
  have hok' : ((s.setLoop fun l => { l with timerfd := some ret }).goto
      (.updateChannelMap .timer)).aborted = false := (modify_aborted _ s).trans hok
  rw [Safe, hok', hsound.setLoop_iff _ (by decide), valid_timerfd hsound.current, Succeeds, hpc]
  exact ⟨fun h => h rfl, fun h _ => h⟩

theorem step_updateChannelMap (hs : s.Logs) (hsound : s.Sound)
    (hpc : s.pc = .updateChannelMap c) (hn : s.advance ret this site = some t) :
    s.StepSafe t (.step ret this site) := by
  refine stepSafe_of ?_ (by rw [Succeeds, hpc]; trivial)
  rw [advance, hpc] at hn
  obtain ⟨fd, -, rfl⟩ := Option.map_eq_some_iff.1 hn
  refine (hs.goto _).quiet (hsound.goto (by simp)) ?_ ?_ site
  · simp only [LogMacro.items, List.forall_mem_cons]
    exact ⟨Item.cstr_sized (by decide), trivial, by simp⟩
  · simp only [List.forall_mem_cons]
    exact ⟨Item.cstr_sized (by decide), trivial, Item.cstr_sized (by decide), trivial, by simp⟩

theorem step_epollAdd (hs : s.Logs) (hsound : s.Sound) (hpc : s.pc = .epollAdd c)
    (hn : s.advance ret this site = some t) : s.StepSafe t (.step ret this site) := by
  -- a failure of `epoll_ctl` is only logged, and no descriptor depends on it
  refine stepSafe_of ?_ (by rw [Succeeds, hpc]; trivial)
  rw [advance, hpc] at hn
  obtain ⟨fd, -, rfl⟩ := Option.map_eq_some_iff.1 hn
  unfold epollAdd
  split
  · exact ⟨⟨hs.main, hs.worker⟩, safe_abort s⟩
  · rename_i r hr
    have hafter : afterEpollAdd c ≠ .done := by cases c <;> decide
    have hlogs := (hs.setLoop fun l => { l with epoller := r.epoller }).goto (afterEpollAdd c)
    have hvalid : ((s.setLoop fun l => { l with epoller := r.epoller }).goto
        (afterEpollAdd c)).Sound := by
      refine (hsound.setLoop_iff _ hafter).2 ?_
      exact ⟨hsound.current.wakeupfd, hsound.current.epfd, hsound.current.timerfd⟩
    dsimp only
    split_ifs
    · exact ⟨hlogs, hvalid.safe⟩
    · refine hlogs.quiet hvalid (by simp [LogMacro.items]) ?_ site
      simp only [List.forall_mem_cons]
      exact ⟨Item.cstr_sized (by decide), trivial, by simp⟩

theorem step_created (hs : s.Logs) (hsound : s.Sound) (hpc : s.pc = .created)
    (hn : s.advance ret this site = some t) : s.StepSafe t (.step ret this site) := by
  refine stepSafe_of ?_ (by rw [Succeeds, hpc]; trivial)
  rw [advance, hpc] at hn
  obtain rfl := Option.some.inj hn
  refine (hs.goto _).quiet (hsound.goto (by decide)) ?_ ?_ site
  · simp only [LogMacro.items, List.forall_mem_cons]
    exact ⟨Item.cstr_sized (by decide), trivial, by simp⟩
  · simp only [List.forall_mem_cons]
    exact ⟨Item.cstr_sized (by decide), trivial, Item.cstr_sized (by decide), trivial, by simp⟩

theorem step_thisThread (hs : s.Logs) (hsound : s.Sound) (hpc : s.pc = .thisThread)
    (hn : s.advance ret this site = some t) : s.StepSafe t (.step ret this site) := by
  refine stepSafe_of ?_ (by rw [Succeeds, hpc]; trivial)
  rw [advance, hpc] at hn
  obtain rfl := Option.some.inj hn
  split_ifs
  · refine (hs.goto _).quiet (hsound.goto (by simp)) (by simp [LogMacro.items]) ?_ site
    simp only [List.forall_mem_cons]
    exact ⟨Item.cstr_sized (by decide), trivial, Item.cstr_sized (by decide), trivial, by simp⟩
  · exact ⟨(hs.modify hs.current).goto _,
      ((hsound.modify hsound.current).goto (by simp)).safe⟩

theorem step_ready (hs : s.Logs) (hsound : s.Sound) (hpc : s.pc = .ready)
    (hn : s.advance ret this site = some t) : s.StepSafe t (.step ret this site) := by
  refine stepSafe_of ?_ (by rw [Succeeds, hpc]; trivial)
  rw [advance, hpc] at hn
  dsimp only at hn
  cases hw : s.worker with
  | none =>
    rw [hw] at hn
    obtain rfl := Option.some.inj hn
    exact ⟨hs.goto _, (hsound.goto (by decide)).safe⟩
  | some worker =>
    rw [hw] at hn
    obtain rfl := Option.some.inj hn
    refine ⟨⟨hs.main, by simp⟩, Sound.safe ⟨hsound.main, by simp, ?_, by simp⟩⟩
    exact List.forall_mem_cons.2 ⟨hsound.worker worker hw, hsound.pool⟩

theorem step_createNonblockingOrDie (hs : s.Logs) (hsound : s.Sound) (hok : s.aborted = false)
    (hpc : s.pc = .createNonblockingOrDie) (hn : s.advance ret this site = some t) :
    s.StepSafe t (.step ret this site) := by
  rw [advance, hpc] at hn
  obtain rfl := Option.some.inj hn
  have hlogs : { s with acceptfd := some ret, pc := .bindOrDie }.Logs := ⟨hs.main, hs.worker⟩
  have hsound' : { s with acceptfd := some ret, pc := .bindOrDie }.Sound :=
    ⟨hsound.main, hsound.worker, hsound.pool, nofun⟩
  exact stepSafe_of (hlogs.sysfatal_of_sound hsound' hok (by decide))
    (by rw [Succeeds, hpc]; trivial)

theorem step_bindOrDie (hs : s.Logs) (hsound : s.Sound) (hok : s.aborted = false)
    (hpc : s.pc = .bindOrDie) (hn : s.advance ret this site = some t) :
    s.StepSafe t (.step ret this site) := by
  rw [advance, hpc] at hn
  obtain rfl := Option.some.inj hn
  have hlogs : { s with bound := some ret, pc := .poolStart }.Logs := ⟨hs.main, hs.worker⟩
  have hsound' : { s with bound := some ret, pc := .poolStart }.Sound :=
    ⟨hsound.main, hsound.worker, hsound.pool, nofun⟩
  exact stepSafe_of (hlogs.sysfatal_of_sound hsound' hok (by decide))
    (by rw [Succeeds, hpc]; trivial)

theorem step_poolStart (hs : s.Logs) (hsound : s.Sound) (hpc : s.pc = .poolStart)
    (hn : s.advance ret this site = some t) : s.StepSafe t (.step ret this site) := by
  refine stepSafe_of ?_ (by rw [Succeeds, hpc]; trivial)
  rw [advance, hpc] at hn
  dsimp only at hn
  split_ifs at hn
  obtain rfl := Option.some.inj hn
  exact ⟨hs.goto _, (hsound.goto (by simp)).safe⟩

theorem step_listenOrDie (hs : s.Logs) (hsound : s.Sound) (hok : s.aborted = false)
    (hpc : s.pc = .listenOrDie) (hn : s.advance ret this site = some t) :
    s.StepSafe t (.step ret this site) := by
  rw [advance, hpc] at hn
  obtain rfl := Option.some.inj hn
  have hlogs : { s with listenning := true, listened := some ret, pc := .done }.Logs :=
    ⟨hs.main, hs.worker⟩
  have hsound' : { s with listenning := true, listened := some ret, pc := .done }.Sound ↔
      Succeeded s.acceptfd ∧ Succeeded s.bound ∧ 0 ≤ ret.toInt := by
    constructor
    · intro h
      obtain ⟨hsocket, hbind, v, hv, hlisten⟩ := h.listenning rfl rfl
      obtain rfl := Option.some.inj hv
      exact ⟨hsocket, hbind, hlisten⟩
    · exact fun ⟨hsocket, hbind, hlisten⟩ => ⟨hsound.main, hsound.worker, hsound.pool,
        fun _ _ => ⟨hsocket, hbind, ret, rfl, hlisten⟩⟩
  have htext : (ascii "sockets::listenOrDie").length < 2 ^ 31 := by decide
  obtain ⟨hlogs', hiff⟩ := hlogs.sysfatal_safe hok htext ret site
  refine ⟨hlogs', hiff.trans ?_⟩
  rw [hsound', Succeeds, hpc]
  exact Iff.rfl

theorem step_spawn {tid : Int32} (pos : 0 < tid.toInt) (hs : s.Logs) (hsound : s.Sound)
    (hn : s.spawn tid = some t) : s.StepSafe t (.spawn tid pos) := by
  refine stepSafe_of ?_ trivial
  unfold spawn at hn
  split at hn
  · obtain rfl := Option.some.inj hn
    refine ⟨⟨hs.main, ?_⟩, Sound.safe ⟨hsound.main, ?_, hsound.pool, nofun⟩⟩
    · rintro th ⟨⟩
      exact LogThread.new_inv pos
    · rintro th ⟨⟩
      exact ⟨nofun, nofun, nofun⟩
  · cases hn

/-- **One step.** -/
theorem next_stepSafe {a : StartupAction} (hs : s.Logs) (hstop : s.Safe)
    (hn : s.next a = some t) : s.StepSafe t a := by
  unfold next at hn
  split_ifs at hn with hok
  have hok := Bool.eq_false_iff.2 hok
  have hsound := hstop hok
  cases a with
  | spawn tid pos => exact step_spawn pos hs hsound hn
  | step ret this site =>
    cases hpc : s.pc with
    | eventfdCreate => exact step_eventfdCreate hs hsound hpc hn
    | epoller => exact step_epoller hs hsound hok hpc hn
    | createtimerfd => exact step_createtimerfd hs hsound hok hpc hn
    | updateChannelMap c => exact step_updateChannelMap hs hsound hpc hn
    | epollAdd c => exact step_epollAdd hs hsound hpc hn
    | created => exact step_created hs hsound hpc hn
    | thisThread => exact step_thisThread hs hsound hpc hn
    | ready => exact step_ready hs hsound hpc hn
    | createNonblockingOrDie => exact step_createNonblockingOrDie hs hsound hok hpc hn
    | bindOrDie => exact step_bindOrDie hs hsound hok hpc hn
    | poolStart => exact step_poolStart hs hsound hpc hn
    | listenOrDie => exact step_listenOrDie hs hsound hok hpc hn
    | done => simp [advance, hpc] at hn

end Startup

/-- **Fail-stop.** In a start-up of a loop and a server, whatever the system calls return, every
state in which the process has not aborted has valid descriptors, and a listening acceptor, exactly
if every step `Succeeds`. -/
theorem startup_fail_stop_iff {s t : Startup} {run : List (Transition Startup StartupAction)}
    (h0 : startups.init s) (h : startups.Steps s run t) :
    (∀ e ∈ run, e.target.FailStop) ↔ ∀ e ∈ run, e.source.Succeeds e.action := by
  refine h.forall_iff (I := fun s => s.Created ∧ s.Logs ∧ s.Safe) (L := fun _ _ t => t.FailStop) ?_
    (fun s a t hs hn => ?_) fun s a t hs hsucceeds hn => ?_
  · obtain ⟨tid, other, numThreads, logLevel, timerfdCreate, htid, rfl⟩ := h0
    exact ⟨Startup.new_created, Startup.new_logs htid, Startup.new_sound.safe⟩
  · exact (hs.1.step hn).failStop_iff.trans (Startup.next_stepSafe hs.2.1 hs.2.2 hn).2
  · obtain ⟨hlogs, hiff⟩ := Startup.next_stepSafe hs.2.1 hs.2.2 hn
    exact ⟨hs.1.step hn, hlogs, hiff.2 hsucceeds⟩

/-- A site at 22:13:20 on the 14th of November 2023, with this error number. -/
def LogSite.november (errno : Int32) : LogSite where
  now := 1700000000000000
  errno := errno
  file := ascii "Socketops.cc"
  line := 51
  strerror := ascii "Bad file descriptor"
  now_ge := by decide
  now_lt := by decide
  strerror_lt := by decide
  file_lt := by decide

/-- The next statement, whose system call returns this. -/
def StartupAction.returns (ret : Int32) : StartupAction := .step ret 0 (.november 9)

/-- The constructor of a loop: `eventfd`, `epoll_create`, `timerfd_create`, and the two channels. -/
def StartupAction.loop (wakeupfd epfd timerfd ctl : Int32) : List StartupAction :=
  [.returns wakeupfd, .returns epfd, .returns timerfd, .returns 0, .returns ctl, .returns 0,
    .returns 0, .returns 0, .returns ctl, .returns 0]

/-- A server with one thread in its pool. -/
def serverStart : List StartupAction :=
  StartupAction.loop 3 4 5 0 ++ [.returns 6, .returns 0, .spawn 4712 (by decide)] ++
    StartupAction.loop 7 8 9 0 ++ [.returns 0, .returns 0, .returns 0, .returns 0]

theorem startup_fail_stop_server :
    ∃ (run : List (Transition Startup StartupAction)) (t : Startup),
      startups.Steps (.new 4711 false 1 .info 0x401000) run t ∧
        run.map Transition.action = serverStart ∧ t.pc = .done ∧ t.listenning = true ∧
        ∀ e ∈ run, e.target.FailStop := by
  obtain ⟨t, ht, hdone⟩ := Option.map_eq_some_iff.1 (by decide +kernel :
    ((startups.restrict Startup.Succeeds).run (.new 4711 false 1 .info 0x401000) serverStart).map
      (fun s => (s.pc, s.listenning)) = some (.done, true))
  obtain ⟨run, hrun, hmap⟩ := LTS.exists_steps_of_run ht
  obtain ⟨hsteps, hsucceeds⟩ := hrun.of_restrict
  exact ⟨run, t, hsteps, hmap, congrArg Prod.fst hdone, congrArg Prod.snd hdone,
    (startup_fail_stop_iff ⟨4711, false, 1, .info, 0x401000, by decide, rfl⟩ hsteps).2 hsucceeds⟩

/-- Every call but `eventfd` fails. -/
def failingStart : List StartupAction :=
  StartupAction.loop 3 (-1) (-1) (-1) ++
    [.returns (-1), .returns (-1), .returns 0, .returns 0, .returns (-1), .returns (-1)]

/-- The process goes on, and the server takes itself to be listening. -/
theorem startup_goes_on :
    ∃ (run : List (Transition Startup StartupAction)) (t : Startup),
      startups.Steps (.new 4711 false 0 .info 0x401000) run t ∧
        run.map Transition.action = failingStart ∧ t.pc = .done ∧ t.aborted = false ∧
        t.listenning = true ∧ t.main.loop.epfd = some (-1) ∧ t.main.loop.timerfd = some (-1) ∧
        t.acceptfd = some (-1) ∧ t.bound = some (-1) ∧ t.listened = some (-1) ∧ ¬t.FailStop := by
  obtain ⟨t, ht, hend⟩ := Option.map_eq_some_iff.1 (by decide +kernel :
    (startups.run (.new 4711 false 0 .info 0x401000) failingStart).map
      (fun s => (s.pc, s.aborted, s.listenning,
        [s.main.loop.epfd, s.main.loop.timerfd, s.acceptfd, s.bound, s.listened])) =
      some (.done, false, true, List.replicate 5 (some (-1))))
  simp only [Prod.mk.injEq, List.replicate, List.cons.injEq, and_true] at hend
  obtain ⟨hpc, hok, hlistenning, hepfd, htimerfd, hsocket, hbind, hlisten⟩ := hend
  obtain ⟨run, hrun, hmap⟩ := LTS.exists_steps_of_run ht
  refine ⟨run, t, hrun, hmap, hpc, hok, hlistenning, hepfd, htimerfd, hsocket, hbind, hlisten,
    fun hstop => ?_⟩
  exact absurd ((hstop hok).2.main.epfd (-1) hepfd) (by decide)

end Jiangbo
