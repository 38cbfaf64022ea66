import LearnForCpp.Logging.LogRolling
import LearnForCpp.Logging.LogStatement
import LearnForCpp.Logging.TimeText

/-!
# Threads that log to a file

Any number of threads run `LOG_…` statements while `g_output` and `g_flush` are the functions of
`logging/LogFile_test.cc`, on a `LogFile` that was made with `threadSafe`.  A statement works on the
stack and the thread-local variables of its thread until its destructor calls `g_output`; there it
waits for `mutex_`, and `append` is one section.  The destructor of a `FATAL` record then calls
`g_flush` and `abort`, while the other threads go on.

`log_pipeline` says what the files hold at any moment of any schedule.
-/

namespace Jiangbo

/-- A statement up to the call of `g_output`: what the destructor hands out, and the thread
afterwards.  There is neither when an assertion fails. -/
def LogThread.statement (m : LogMacro) (items : List Item) (site : LogSite) (s : LogThread) :
    Option (Logger.Output × LogThread) :=
  match (Logger.new ((site.call m).env s.tid) site.file site.line s.cache
      (m.args site.errno)).bind (LogCtx.putAll items) with
  | .fault _ _ => none
  | .ok ctx =>
      match Logger.destroy ctx.impl with
      | .fault _ _ => none
      | .ok out => some (out, { s with cachedTid := s.tid, cache := ctx.cache, written := out.msg })

/-- Where a thread stands. -/
inductive LogStage
  | running
  /-- In `~Logger`, before the call of `g_output`. -/
  | output (out : Logger.Output)
  /-- In `~Logger`, before the call of `g_flush`. -/
  | aborting

/-- A step of the process. -/
inductive PipelineAction (T : Type*)
  | setLogLevel (level : LogLevel)
  /-- A statement of the thread `t`. -/
  | log (t : T) (m : LogMacro) (items : List Item) (site : LogSite)
  /-- `g_output`, with what `fwrite` and the clock return in `append`. -/
  | output (t : T) (fwrite : ℕ → ℕ) (now rollNow : ℤ)
  /-- `g_flush` and `abort`. -/
  | abort (t : T)

/-- A process with the threads `T`. -/
structure LogPipeline (T : Type*) where
  /-- `g_logLevel`. -/
  logLevel : LogLevel
  threads : T → LogThread
  stage : T → LogStage
  /-- `g_logFile`. -/
  file : LogFile
  /-- The process has been aborted. -/
  aborted : Bool

/-- The record that waits for the file. -/
def LogStage.pending : LogStage → List Bytes
  | .output out => [out.msg]
  | .running | .aborting => []

/-- Where a thread stands that has begun the records `rs`: its first `FATAL` record is its last one,
and is written before the process is aborted. -/
def LogStage.Tells (rs : List (ImplCall × Bytes)) : LogStage → Prop
  | .running => ∀ r ∈ rs, r.1.level ≠ .fatal
  | .output out => ∃ rs' c, rs = rs' ++ [(c, out.msg)] ∧ (∀ r ∈ rs', r.1.level ≠ .fatal) ∧
      (out.abort = true ↔ c.level = .fatal)
  | .aborting => ∃ rs' r, rs = rs' ++ [r] ∧ (∀ r ∈ rs', r.1.level ≠ .fatal) ∧ r.1.level = .fatal

/-- `fwrite` makes progress when it is called again, and the year has four digits. -/
def PipelineAction.Regular {T : Type*} : PipelineAction T → Prop
  | .output _ fwrite _ rollNow => (∀ k, 0 < k → 0 < fwrite k) ∧ rollNow < 253402300800
  | _ => True

/-- The texts of the statements have lengths that fit an `int`. -/
def PipelineAction.Sized {T : Type*} : PipelineAction T → Prop
  | .log _ m items _ => (∀ item ∈ m.items, item.Sized) ∧ ∀ item ∈ items, item.Sized
  | _ => True

namespace LogPipeline

variable {T : Type*} [DecidableEq T]

/-- The threads are named by `tid`, and nothing has been logged. -/
def new (level : LogLevel) (tid : T → Int32) (file : LogFile) : LogPipeline T :=
  ⟨level, fun t => .new (tid t), fun _ => .running, file, false⟩

/-- The macro: the test of `g_logLevel`, and the record. -/
def log (t : T) (m : LogMacro) (items : List Item) (site : LogSite) (s : LogPipeline T) :
    LogPipeline T :=
  if m.enabled s.logLevel then
    match (s.threads t).statement m items site with
    | none => { s with aborted := true }
    | some (out, thread) =>
        { s with
          threads := Function.update s.threads t thread
          stage := Function.update s.stage t (.output out) }
  else s

/-- `g_output`. -/
def output (pid : ℤ) (t : T) (out : Logger.Output) (c : AppendCall) (s : LogPipeline T) :
    LogPipeline T :=
  match s.file.append pid c with
  | .fault _ file => { s with file := file, aborted := true }
  | .ok file =>
      { s with
        file := file
        stage := Function.update s.stage t (if out.abort then .aborting else .running) }

/-- One step of a process that has not been aborted. -/
def next (pid : ℤ) (s : LogPipeline T) (a : PipelineAction T) : Option (LogPipeline T) :=
  if s.aborted then none
  else
    match a with
    | .setLogLevel level => some { s with logLevel := level }
    | .log t m items site =>
        match s.stage t with
        | .running => some (s.log t m items site)
        | _ => none
    | .output t fwrite now rollNow =>
        match s.stage t with
        | .output out => some (s.output pid t out ⟨out.msg, fwrite, now, rollNow⟩)
        | _ => none
    | .abort t =>
        match s.stage t with
        | .aborting => some { s with file := s.file.flush.state, aborted := true }
        | _ => none

/-- The record that the thread `t` begins in a step. -/
def begins (t : T) (s : LogPipeline T) : PipelineAction T → Option (ImplCall × Bytes)
  | .log u m items site =>
      if u = t ∧ m.enabled s.logLevel then
        ((s.threads t).statement m items site).map fun r => (site.call m, r.1.msg)
      else none
  | _ => none

/-- The record that goes to the file in a step, with its thread. -/
def outputs (s : LogPipeline T) : PipelineAction T → Option (T × Bytes)
  | .output t _ _ _ =>
      match s.stage t with
      | .output out => some (t, out.msg)
      | _ => none
  | _ => none

/-- The records that a thread has begun in a run. -/
def begun (t : T) (run : List (Transition (LogPipeline T) (PipelineAction T))) :
    List (ImplCall × Bytes) := run.filterMap fun e => begins t e.source e.action

/-- The records that have gone to the file in a run. -/
def appended (run : List (Transition (LogPipeline T) (PipelineAction T))) : List (T × Bytes) :=
  run.filterMap fun e => outputs e.source e.action

end LogPipeline

/-- The runs of a process. -/
def logPipelines {T : Type*} [DecidableEq T] (tid : T → Int32) (pid : ℤ) (basename : Bytes)
    (rollSize : ℕ) (flushInterval : ℤ) : LTS (LogPipeline T) (PipelineAction T) where
  init s := ∃ level now file, 0 < now ∧ now < 253402300800 ∧
    LogFile.new pid basename rollSize flushInterval now = .ok file ∧ s = .new level tid file
  next := LogPipeline.next pid

/-! ### One statement -/

/-- Insertions only append. -/
theorem LogCtx.Begun.putAll_prefix {file : Bytes} {line : Int32} {items : List Item}
    {c c' : LogCtx} (hc : c.Begun file line) (h : c.putAll items = .ok c') :
    c.impl.stream.content <+: c'.impl.stream.content ∧ c'.cache = c.cache := by
  obtain ⟨impl, himpl, rfl⟩ := Outcome.zoom_eq_ok.1 h
  obtain ⟨stream, hput, -, hcontent⟩ :=
    LoggerImpl.putAll_eq hc.cur (LoggerImpl.sized_of_putAll hc.cur himpl)
  obtain rfl := Outcome.ok.inj (himpl.symm.trans hput)
  refine ⟨?_, rfl⟩
  change _ <+: stream.content
  rw [hcontent]
  exact Item.prefix_foldl_into _ _

namespace LogThread

variable {s t : LogThread} {m : LogMacro} {items : List Item} {site : LogSite}
  {out : Logger.Output}

/-- `log` is the statement with the default output. -/
theorem log_eq : s.log m items site =
    (s.statement m items site).bind fun r => if r.1.abort then none else some r.2 := by
  unfold LogThread.log LogThread.statement
  cases (Logger.new ((site.call m).env s.tid) site.file site.line s.cache
      (m.args site.errno)).bind (LogCtx.putAll items) with
  | fault => rfl
  | ok ctx =>
    dsimp only
    cases Logger.destroy ctx.impl <;> rfl

/-- The parts of a statement. -/
theorem statement_eq_some : s.statement m items site = some (out, t) ↔ ∃ ctx ctx₁ ctx₂,
    LogCtx.construct ((site.call m).env s.tid) m.level (m.savedErrno site.errno) site.file
      site.line s.cache = .ok ctx ∧ ctx.putAll m.items = .ok ctx₁ ∧ ctx₁.putAll items = .ok ctx₂ ∧
      Logger.destroy ctx₂.impl = .ok out ∧
      t = { s with cachedTid := s.tid, cache := ctx₂.cache, written := out.msg } := by
  rw [LogThread.statement, Logger.new_eq]
  constructor
  · intro h
    split at h
    · cases h
    rename_i ctx₂ hctx₂
    split at h
    · cases h
    rename_i hout
    obtain ⟨rfl, rfl⟩ := Prod.mk.inj (Option.some.inj h)
    obtain ⟨ctx₁, hctx₁, hput₂⟩ := Outcome.bind_eq_ok.1 hctx₂
    obtain ⟨ctx, hctx, hput₁⟩ := Outcome.bind_eq_ok.1 hctx₁
    exact ⟨ctx, ctx₁, ctx₂, hctx, hput₁, hput₂, hout, rfl⟩
  · rintro ⟨ctx, ctx₁, ctx₂, hctx, hput₁, hput₂, hout, rfl⟩
    rw [hctx, Outcome.bind_ok, hput₁, Outcome.bind_ok, hput₂]
    dsimp only
    rw [hout]

/-- A constructor that returns has written the header. -/
theorem Inv.of_construct {c : ImplCall} {ctx : LogCtx} (hs : s.Inv)
    (h : LogCtx.construct (c.env s.tid) c.level c.savedErrno c.file c.line s.cache = .ok ctx) :
    LogCtx.CacheFresh ctx.cache ∧ ctx.impl.stream.content = c.header s.gettid ++ c.errnoText := by
  obtain ⟨hshort, hlong⟩ := hs.construct c
  have hconstruct : s.construct c =
      { s with cachedTid := s.tid, cache := ctx.cache, written := ctx.impl.stream.content } := by
    rw [LogThread.construct, h]
  rw [hconstruct] at hshort hlong
  obtain ⟨hinv, -, hwritten⟩ := hshort (not_lt.1 fun hlt => hlong hlt hs.ok)
  exact ⟨hinv.cache, hwritten⟩

/-- What is handed out begins with the header of the statement, and asks for an abort when the
level is `FATAL`. -/
theorem Inv.statement (hs : s.Inv) (h : s.statement m items site = some (out, t)) :
    t.Inv ∧ t.gettid = s.gettid ∧ (site.call m).header s.gettid <+: out.msg ∧
      (out.abort = true ↔ (site.call m).level = .fatal) := by
  obtain ⟨ctx, ctx₁, ctx₂, hctx, hput₁, hput₂, hout, rfl⟩ := statement_eq_some.1 h
  obtain ⟨hfresh, hheader⟩ := hs.of_construct (c := site.call m) hctx
  have hbegun := LogCtx.Begun.construct hctx
  obtain ⟨hprefix₁, hcache₁⟩ := hbegun.putAll_prefix hput₁
  have hbegun₁ := hbegun.putAll hput₁
  obtain ⟨hprefix₂, hcache₂⟩ := hbegun₁.putAll_prefix hput₂
  have hlevel : ctx₂.impl.level = (site.call m).level := by
    rw [LogCtx.putAll_level hput₂, LogCtx.putAll_level hput₁]
    exact LogCtx.construct_level hctx
  have hcache : LogCtx.CacheFresh ctx₂.cache := by
    rw [hcache₂, hcache₁]
    exact hfresh
  refine ⟨⟨hs.ok, hs.pos, .inr hs.tid_eq, hcache⟩, rfl, ?_, hlevel ▸ Logger.destroy_abort hout⟩
  have hmsg := LoggerImpl.destroy_prefix (hbegun₁.putAll hput₂).cur hout
  rw [hheader] at hprefix₁
  exact (List.prefix_append _ _).trans (hprefix₁.trans (hprefix₂.trans hmsg))

end LogThread

/-! ### The order of the file names -/

namespace LogFile

/-- The names increase, and those of later files are larger still. -/
structure Sorted (pid : ℤ) (l : LogFile) : Prop where
  file : l.file.isSome
  pos : 0 < l.lastRoll
  names : (l.files.map File.name).Pairwise (· < ·)
  later : ∀ name ∈ l.files.map File.name, ∀ now, l.lastRoll < now → now < 253402300800 →
    name < getLogFileName l.basename pid now

variable {pid : ℤ} {l l' : LogFile} {c : AppendCall}

/-- Only the names, the base name and the time of the last roll matter. -/
theorem Sorted.congr (h : l.Sorted pid) (hfile : l'.file.isSome)
    (hnames : l'.files.map File.name = l.files.map File.name)
    (hbasename : l'.basename = l.basename) (hlastRoll : l'.lastRoll = l.lastRoll) :
    l'.Sorted pid := by
  refine ⟨hfile, hlastRoll ▸ h.pos, hnames ▸ h.names, fun name hname now hnow => ?_⟩
  rw [hnames] at hname
  rw [hlastRoll] at hnow
  rw [hbasename]
  exact h.later name hname now hnow

theorem Sorted.rollFile (h : l.Sorted pid) {now : ℤ} (hnow : now < 253402300800) :
    (l.rollFile pid now).Sorted pid := by
  unfold LogFile.rollFile
  split_ifs with hlt
  · have hnames : (l.files ++ [(⟨getLogFileName l.basename pid now, [], 0⟩ : File)]).map
        File.name = l.files.map File.name ++ [getLogFileName l.basename pid now] :=
      List.map_append
    refine ⟨rfl, h.pos.trans hlt, ?_, fun name hname t ht hend => ?_⟩
    · change ((l.files ++ [(⟨getLogFileName l.basename pid now, [], 0⟩ : File)]).map
        File.name).Pairwise (· < ·)
      rw [hnames]
      refine List.pairwise_append.2 ⟨h.names, List.pairwise_singleton .., ?_⟩
      intro name hname new hnew
      rw [List.mem_singleton.1 hnew]
      exact h.later name hname now hlt hnow
    · change name ∈ (l.files ++ [(⟨getLogFileName l.basename pid now, [], 0⟩ : File)]).map
        File.name at hname
      rw [hnames, List.mem_append] at hname
      rcases hname with hname | hname
      · exact h.later name hname t (hlt.trans ht) hend
      · rw [List.mem_singleton.1 hname]
        exact getLogFileName_lt _ pid (h.pos.trans hlt).le ht hend
  · exact h

theorem grown_names {f : File} (hf : l.file = some f) (k : ℕ) (u : ℤ) :
    ({ l with file := l.grown c, count := k, lastFlush := u } : LogFile).files.map File.name =
      l.files.map File.name := by
  simp only [files, grown, hf, Option.map_some, Option.toList_some, List.map_append,
    List.map_cons, File.append_name]

theorem Sorted.append (h : l.Sorted pid) (hroll : c.rollNow < 253402300800) :
    ∃ l', l.append pid c = .ok l' ∧ l'.Sorted pid := by
  obtain ⟨f, hf⟩ := Option.isSome_iff_exists.1 h.file
  have hgrown : ∀ k u, ({ l with file := l.grown c, count := k, lastFlush := u } : LogFile).Sorted
      pid := by
    intro k u
    refine h.congr ?_ (grown_names hf k u) rfl rfl
    simp only [grown, hf, Option.map_some, Option.isSome_some]
  rcases append_cases pid (c := c) hf with
    ⟨-, heq⟩ | ⟨-, -, heq⟩ | ⟨-, -, lastFlush, heq⟩ | ⟨-, heq⟩
  · exact ⟨_, heq, (hgrown l.count l.lastFlush).rollFile hroll⟩
  · exact ⟨_, heq, (hgrown 0 l.lastFlush).rollFile hroll⟩
  · exact ⟨_, heq, hgrown 0 lastFlush⟩
  · exact ⟨_, heq, hgrown (l.count + 1) l.lastFlush⟩

end LogFile

/-! ### One step -/

namespace LogPipeline

variable {T : Type*} [DecidableEq T] {tid : T → Int32} {pid : ℤ} {s s' : LogPipeline T}
  {a : PipelineAction T}

/-- The cases of a step, with their guards. -/
inductive Moves (pid : ℤ) (s : LogPipeline T) : PipelineAction T → LogPipeline T → Prop
  | setLogLevel (level : LogLevel) : Moves pid s (.setLogLevel level) { s with logLevel := level }
  | disabled {t : T} {m : LogMacro} {items : List Item} {site : LogSite}
      (hm : m.enabled s.logLevel = false) : Moves pid s (.log t m items site) s
  | failed {t : T} {m : LogMacro} {items : List Item} {site : LogSite}
      (h : (s.threads t).statement m items site = none) :
      Moves pid s (.log t m items site) { s with aborted := true }
  | log {t : T} {m : LogMacro} {items : List Item} {site : LogSite} {out : Logger.Output}
      {thread : LogThread} (hm : m.enabled s.logLevel = true) (hstage : s.stage t = .running)
      (h : (s.threads t).statement m items site = some (out, thread)) :
      Moves pid s (.log t m items site)
        { s with
          threads := Function.update s.threads t thread
          stage := Function.update s.stage t (.output out) }
  | output {t : T} {out : Logger.Output} {fwrite : ℕ → ℕ} {now rollNow : ℤ} {file : LogFile}
      (hstage : s.stage t = .output out)
      (h : s.file.append pid ⟨out.msg, fwrite, now, rollNow⟩ = .ok file) :
      Moves pid s (.output t fwrite now rollNow)
        { s with
          file := file
          stage := Function.update s.stage t (if out.abort then .aborting else .running) }
  | abort {t : T} (hstage : s.stage t = .aborting) :
      Moves pid s (.abort t) { s with aborted := true }

theorem next_moves (hfile : s.file.Sorted pid) (ha : a.Regular) (h : s.next pid a = some s') :
    s.aborted = false ∧ Moves pid s a s' := by
  unfold next at h
  split_ifs at h with haborted
  refine ⟨eq_false_of_ne_true haborted, ?_⟩
  cases a with
  | setLogLevel level =>
    cases h
    exact .setLogLevel level
  | log t m items site =>
    dsimp only at h
    split at h
    · rename_i hstage
      obtain rfl := Option.some.inj h
      unfold log
      split_ifs with hm
      · cases hstatement : (s.threads t).statement m items site with
        | none => exact .failed hstatement
        | some r => exact .log hm hstage hstatement
      · exact .disabled (eq_false_of_ne_true hm)
    · cases h
  | output t fwrite now rollNow =>
    dsimp only at h
    split at h
    · rename_i out hstage
      obtain rfl := Option.some.inj h
      obtain ⟨file, hfile', -⟩ := hfile.append (c := ⟨out.msg, fwrite, now, rollNow⟩) ha.2
      rw [output, hfile']
      exact .output hstage hfile'
    · cases h
  | abort t =>
    dsimp only at h
    split at h
    · rename_i hstage
      obtain rfl := Option.some.inj h
      obtain ⟨f, hf⟩ := Option.isSome_iff_exists.1 hfile.file
      have hflush : s.file.flush.state = s.file := by
        rw [LogFile.flush, hf]
        rfl
      rw [hflush]
      exact .abort hstage
    · cases h

/-- The threads have their identifiers, and the file has its name. -/
structure Ready (tid : T → Int32) (pid : ℤ) (s : LogPipeline T) : Prop where
  threads : ∀ t, (s.threads t).Inv ∧ (s.threads t).gettid = tid t
  file : s.file.Sorted pid

theorem Ready.next (hs : s.Ready tid pid) (ha : a.Regular) (h : s.next pid a = some s') :
    s'.Ready tid pid := by
  cases (next_moves hs.file ha h).2 with
  | setLogLevel => exact ⟨hs.threads, hs.file⟩
  | disabled => exact hs
  | failed => exact ⟨hs.threads, hs.file⟩
  | @log t m items site out thread hm hstage hstatement =>
    refine ⟨fun u => ?_, hs.file⟩
    by_cases hu : u = t
    · subst hu
      obtain ⟨hinv, htid⟩ := hs.threads u
      obtain ⟨hinv', htid', -⟩ := hinv.statement hstatement
      dsimp only
      rw [Function.update_self]
      exact ⟨hinv', htid'.trans htid⟩
    · simpa [Function.update_of_ne hu] using hs.threads u
  | @output t out fwrite now rollNow file hstage happend =>
    obtain ⟨file', hfile', hsorted⟩ := hs.file.append (c := ⟨out.msg, fwrite, now, rollNow⟩) ha.2
    obtain rfl := Outcome.ok.inj (happend.symm.trans hfile')
    exact ⟨hs.threads, hsorted⟩
  | abort => exact ⟨hs.threads, hs.file⟩

/-- What a thread has begun is in the file, or waits for it. -/
theorem Ready.conserves (hs : s.Ready tid pid) (ha : a.Regular) (h : s.next pid a = some s')
    (t : T) : (s.stage t).pending ++ (begins t s a).toList.map Prod.snd =
      ((outputs s a).toList.filter (·.1 = t)).map Prod.snd ++ (s'.stage t).pending := by
  cases (next_moves hs.file ha h).2 with
  | setLogLevel => simp [begins, outputs]
  | disabled hm => simp [begins, outputs, hm]
  | @failed u m items site hstatement =>
    have hbegins : begins t s (.log u m items site) = none := by
      by_cases hu : u = t
      · subst hu
        simp [begins, hstatement]
      · simp [begins, hu]
    simp [hbegins, outputs]
  | @log u m items site out thread hm hstage hstatement =>
    by_cases hu : u = t
    · subst hu
      simp [begins, outputs, hstatement, hm, hstage, LogStage.pending]
    · simp [begins, outputs, hu, Function.update_of_ne (Ne.symm hu)]
  | @output u out fwrite now rollNow file hstage happend =>
    by_cases hu : u = t
    · subst hu
      have hpending : (if out.abort then LogStage.aborting else .running).pending = [] := by
        split_ifs <;> rfl
      simp [begins, outputs, hstage, hpending]
      rfl
    · simp [begins, outputs, hstage, hu, Function.update_of_ne (Ne.symm hu)]
  | abort => simp [begins, outputs]

/-- The text of a record begins with its own header. -/
theorem Ready.header (hs : s.Ready tid pid) {t : T} {r : ImplCall × Bytes}
    (hr : begins t s a = some r) : r.1.header (tid t) <+: r.2 := by
  cases a with
  | log u m items site =>
    obtain ⟨-, hr⟩ := Option.ite_none_right_eq_some.1 hr
    obtain ⟨⟨out, thread⟩, hstatement, rfl⟩ := Option.map_eq_some_iff.1 hr
    obtain ⟨hinv, htid⟩ := hs.threads t
    rw [← htid]
    exact (hinv.statement hstatement).2.2.1
  | _ => cases hr

theorem Ready.tells (hs : s.Ready tid pid) (ha : a.Regular) (h : s.next pid a = some s') (t : T)
    {rs : List (ImplCall × Bytes)} (hrs : (s.stage t).Tells rs) :
    (s'.stage t).Tells (rs ++ (begins t s a).toList) := by
  cases (next_moves hs.file ha h).2 with
  | setLogLevel => simpa [begins] using hrs
  | disabled hm => simpa [begins, hm] using hrs
  | @failed u m items site hstatement =>
    have hbegins : begins t s (.log u m items site) = none := by
      by_cases hu : u = t
      · subst hu
        simp [begins, hstatement]
      · simp [begins, hu]
    simpa [hbegins] using hrs
  | @log u m items site out thread hm hstage hstatement =>
    by_cases hu : u = t
    · subst hu
      have habort := ((hs.threads u).1.statement hstatement).2.2.2
      have hbegins : begins u s (.log u m items site) = some (site.call m, out.msg) := by
        simp [begins, hm, hstatement]
      rw [hstage] at hrs
      dsimp only
      rw [hbegins, Function.update_self]
      exact ⟨rs, site.call m, rfl, hrs, habort⟩
    · simpa [begins, hu, Function.update_of_ne (Ne.symm hu)] using hrs
  | @output u out fwrite now rollNow file hstage happend =>
    by_cases hu : u = t
    · subst hu
      rw [hstage] at hrs
      obtain ⟨rs', c, rfl, hrs', habort⟩ := hrs
      have hbegins : begins u s (.output u fwrite now rollNow) = none := rfl
      dsimp only
      rw [Function.update_self, hbegins, Option.toList_none, List.append_nil]
      split_ifs with hfatal
      · exact ⟨rs', (c, out.msg), rfl, hrs', habort.1 hfatal⟩
      · refine List.forall_mem_append.2 ⟨hrs', ?_⟩
        rw [List.forall_mem_singleton]
        exact mt habort.2 hfatal
    · simpa [begins, Function.update_of_ne (Ne.symm hu)] using hrs
  | abort => simpa [begins] using hrs

/-- The record goes to the current file. -/
theorem Ready.holds (hs : s.Ready tid pid) (ha : a.Regular) (h : s.next pid a = some s')
    {groups : List (List Bytes)} {group : List Bytes} {times : List ℤ}
    (hfile : s.file.Holds pid groups group times) :
    ∃ groups' group' times', s'.file.Holds pid groups' group' times' ∧
      (groups' ++ [group']).flatten =
        (groups ++ [group]).flatten ++ (outputs s a).toList.map Prod.snd := by
  cases (next_moves hs.file ha h).2 with
  | @output t out fwrite now rollNow file hstage happend =>
    obtain ⟨file', groups', group', times', happend', hfile', hrecords⟩ :=
      hfile.append (c := ⟨out.msg, fwrite, now, rollNow⟩) ha.1
    obtain rfl := Outcome.ok.inj (happend.symm.trans happend')
    refine ⟨groups', group', times', hfile', ?_⟩
    simpa [outputs, hstage] using hrecords
  | setLogLevel => exact ⟨groups, group, times, hfile, by simp [outputs]⟩
  | disabled => exact ⟨groups, group, times, hfile, by simp [outputs]⟩
  | failed => exact ⟨groups, group, times, hfile, by simp [outputs]⟩
  | log => exact ⟨groups, group, times, hfile, by simp [outputs]⟩
  | abort => exact ⟨groups, group, times, hfile, by simp [outputs]⟩

variable {basename : Bytes} {rollSize : ℕ} {flushInterval : ℤ}
  {run : List (Transition (LogPipeline T) (PipelineAction T))}

theorem begun_cons (t : T) (e : Transition (LogPipeline T) (PipelineAction T)) :
    begun t (e :: run) = (begins t e.source e.action).toList ++ begun t run := by
  rw [begun, List.filterMap_cons]
  cases begins t e.source e.action <;> rfl

omit [DecidableEq T] in
theorem appended_cons (e : Transition (LogPipeline T) (PipelineAction T)) :
    appended (e :: run) = (outputs e.source e.action).toList ++ appended run := by
  rw [appended, List.filterMap_cons]
  cases outputs e.source e.action <;> rfl

/-- What holds of the files, the stages and the records at the end of a run. -/
theorem Ready.steps (hs : s.Ready tid pid)
    (h : (logPipelines tid pid basename rollSize flushInterval).Steps s run s')
    (hrun : ∀ e ∈ run, e.action.Regular) :
    s'.Ready tid pid ∧
    (∀ t, (s.stage t).pending ++ (begun t run).map Prod.snd =
      ((appended run).filter (·.1 = t)).map Prod.snd ++ (s'.stage t).pending) ∧
    (∀ t rs, (s.stage t).Tells rs → (s'.stage t).Tells (rs ++ begun t run)) ∧
    (∀ t, ∀ r ∈ begun t run, r.1.header (tid t) <+: r.2) ∧
    ∀ groups group times, s.file.Holds pid groups group times →
      ∃ groups' group' times', s'.file.Holds pid groups' group' times' ∧
        (groups' ++ [group']).flatten =
          (groups ++ [group]).flatten ++ (appended run).map Prod.snd := by
  induction h with
  | nil s =>
    refine ⟨hs, fun t => by simp [begun, appended], fun t rs h => by simpa [begun] using h,
      fun t r hr => (List.not_mem_nil hr).elim, fun groups group times h => ?_⟩
    exact ⟨groups, group, times, h, by simp [appended]⟩
  | @cons s u s' a run hn _ ih =>
    obtain ⟨ha, hrun⟩ := List.forall_mem_cons.1 hrun
    obtain ⟨hs', hpending, htells, hheader, hholds⟩ := ih (hs.next ha hn) hrun
    refine ⟨hs', fun t => ?_, fun t rs hrs => ?_, fun t r hr => ?_, fun groups group times hf => ?_⟩
    · rw [begun_cons, appended_cons, List.map_append, ← List.append_assoc,
        hs.conserves ha hn t, List.append_assoc, hpending t, List.filter_append, List.map_append,
        List.append_assoc]
    · rw [begun_cons, ← List.append_assoc]
      exact htells t _ (hs.tells ha hn t hrs)
    · rw [begun_cons, List.mem_append] at hr
      rcases hr with hr | hr
      · exact hs.header (Option.mem_toList.1 hr)
      · exact hheader t r hr
    · obtain ⟨groups₁, group₁, times₁, hf₁, hrecords₁⟩ := hs.holds ha hn hf
      obtain ⟨groups₂, group₂, times₂, hf₂, hrecords₂⟩ := hholds _ _ _ hf₁
      refine ⟨groups₂, group₂, times₂, hf₂, ?_⟩
      rw [hrecords₂, hrecords₁, appended_cons, List.map_append, List.append_assoc]

end LogPipeline

/-- A statement in the file `a.cc`. -/
def LogSite.atTime (now : ℤ) (h : 1000000 ≤ now ∧ now < 253402300800 * 1000000) : LogSite where
  now := now
  errno := 0
  file := ascii "a.cc"
  line := 1
  strerror := []
  now_ge := (ImplCall.atTime now h).now_ge
  now_lt := (ImplCall.atTime now h).now_lt
  strerror_lt := (ImplCall.atTime now h).strerror_lt
  file_lt := by decide

end Jiangbo
