import LearnForCpp.Logging.LogHeader

/-!
# Log statements

The macros of `logging/Logging.h`: which constructor of `Logger` each of them selects, and a whole
statement `LOG_… << a << b;`, which begins a record, fills it, hands it to `g_output` in the
destructor, and aborts the process there when the level is `FATAL`.

`LOG_SYSFATAL` passes `false` for `toAbort`, as `LOG_SYSERR` does, so that its level is `ERROR`.
`LogThread.Inv.log` says which statements abort the process.
-/

namespace Jiangbo

/-- The macros. -/
inductive LogMacro
  | trace (func : Bytes)
  | debug (func : Bytes)
  | info
  | warn
  | error
  | fatal
  | syserr
  | sysfatal

namespace LogMacro

/-- The constructor that the macro calls, with the value of `errno` at that moment. -/
def args (errno : Int32) : LogMacro → LoggerArgs
  | trace func => .func .trace func
  | debug func => .func .debug func
  | info => .info
  | warn => .level .warn
  | error => .level .error
  | fatal => .level .fatal
  | syserr => .toAbort false errno
  | sysfatal => .toAbort false errno

/-- The test of `g_logLevel` in front of the constructor. -/
def enabled (logLevel : LogLevel) : LogMacro → Bool
  | trace _ => logLevel ∈ [LogLevel.trace]
  | debug _ => logLevel ∈ [LogLevel.trace, .debug]
  | info => logLevel ∈ [LogLevel.trace, .debug, .info]
  | warn | error | fatal | syserr | sysfatal => true

/-- The level of the record. -/
def level : LogMacro → LogLevel
  | trace _ => .trace
  | debug _ => .debug
  | info => .info
  | warn => .warn
  | error | syserr | sysfatal => .error
  | fatal => .fatal

/-- The error number in the header. -/
def savedErrno (errno : Int32) : LogMacro → Int32
  | syserr | sysfatal => errno
  | _ => 0

/-- What the constructor inserts behind the header. -/
def items : LogMacro → List Item
  | trace func | debug func => [.cstr func, .char 32]
  | _ => []

end LogMacro

/-- Where a statement stands, and what it gets from the system. -/
structure LogSite where
  now : ℤ
  errno : Int32
  file : Bytes
  line : Int32
  strerror : Bytes
  now_ge : 1000000 ≤ now
  now_lt : now < 253402300800 * 1000000
  strerror_lt : strerror.length < 512
  file_lt : file.length < 2 ^ 31

/-- The construction of the record. -/
def LogSite.call (m : LogMacro) (site : LogSite) : ImplCall where
  now := site.now
  level := m.level
  savedErrno := m.savedErrno site.errno
  file := site.file
  line := site.line
  strerror := site.strerror
  now_ge := site.now_ge
  now_lt := site.now_lt
  strerror_lt := site.strerror_lt

/-- A statement; there is no thread afterwards when it aborts the process. -/
def LogThread.log (m : LogMacro) (items : List Item) (site : LogSite) (s : LogThread) :
    Option LogThread :=
  match (Logger.new ((site.call m).env s.tid) site.file site.line s.cache
      (m.args site.errno)).bind (LogCtx.putAll items) with
  | .fault _ _ => none
  | .ok ctx =>
      match Logger.destroy ctx.impl with
      | .fault _ _ => none
      | .ok out =>
          if out.abort then none
          else some { s with cachedTid := s.tid, cache := ctx.cache, written := out.msg }

/-! ### The level of a record -/

namespace LogCtx

variable {c c' : LogCtx} {env : LogEnv}

theorem putAll_level {items : List Item} (h : c.putAll items = .ok c') :
    c'.impl.level = c.impl.level := by
  obtain ⟨impl, himpl, rfl⟩ := Outcome.zoom_eq_ok.1 h
  obtain ⟨stream, -, rfl⟩ := Outcome.zoom_eq_ok.1 himpl
  rfl

theorem putT_level {str : Bytes} {len : ℕ} (h : c.putT str len = .ok c') :
    c'.impl.level = c.impl.level := by
  unfold putT at h
  split_ifs at h
  exact putAll_level h

theorem checkFmt_eq {text : Bytes} {len : ℕ} {a : Assertion}
    (h : c.checkFmt text len a = .ok c') : c' = c := by
  obtain ⟨c₁, h₁, h₂⟩ := Outcome.bind_eq_ok.1 h
  exact ((Outcome.check_eq_ok.1 h₁).2.trans (Outcome.check_eq_ok.1 h₂).2).symm

theorem formatTime_level (h : c.formatTime env = .ok c') : c'.impl.level = c.impl.level := by
  obtain ⟨c₁, h₁, hrest⟩ := Outcome.bind_eq_ok.1 h
  have hcached : c₁.impl.level = c.impl.level := by
    split_ifs at h₁
    · obtain ⟨-, rfl⟩ := Outcome.check_eq_ok.1 h₁
      rfl
    · cases h₁
      rfl
  obtain ⟨c₂, h₂, hrest⟩ := Outcome.bind_eq_ok.1 hrest
  obtain ⟨c₃, h₃, hrest⟩ := Outcome.bind_eq_ok.1 hrest
  obtain ⟨c₄, h₄, hrest⟩ := Outcome.bind_eq_ok.1 hrest
  have hfmt : c₃ = c₁ := (Outcome.check_eq_ok.1 h₃).2.symm.trans (checkFmt_eq h₂)
  rw [putT_level hrest, putT_level h₄, hfmt, hcached]

theorem construct_level {level : LogLevel} {savedErrno : Int32} {file : Bytes} {line : Int32}
    {cache : TimeCache} (h : construct env level savedErrno file line cache = .ok c) :
    c.impl.level = level := by
  obtain ⟨c₁, h₁, h⟩ := Outcome.bind_eq_ok.1 h
  obtain ⟨c₂, h₂, h⟩ := Outcome.bind_eq_ok.1 h
  obtain ⟨c₃, h₃, h⟩ := Outcome.bind_eq_ok.1 h
  obtain ⟨c₄, h₄, h⟩ := Outcome.bind_eq_ok.1 h
  have hheader : c₄.impl.level = level := by
    rw [putT_level h₄, putT_level h₃, checkFmt_eq h₂, formatTime_level h₁]
  split_ifs at h
  · rw [putAll_level h, hheader]
  · cases h
    exact hheader

end LogCtx

theorem LoggerImpl.baseOf_length (file : Bytes) : (baseOf file).length ≤ file.length := by
  rw [baseOf, List.length_reverse]
  exact (List.takeWhile_sublist _).length_le.trans List.length_reverse.le

/-- Texts of an `int` length are inserted without a fault. -/
theorem LogCtx.putAll_sized {file : Bytes} {line : Int32} {c : LogCtx} {items : List Item}
    (hc : c.Begun file line) (hitems : ∀ item ∈ items, item.Sized) :
    ∃ c', c.putAll items = .ok c' ∧ c'.Begun file line ∧ c'.impl.level = c.impl.level ∧
      c'.cache = c.cache := by
  obtain ⟨stream, hstream, -⟩ := LoggerImpl.putAll_eq hc.cur hitems
  have hput : c.putAll items = .ok { c with impl := { c.impl with stream := stream } } := by
    rw [putAll, hstream, Outcome.zoom_ok]
  exact ⟨_, hput, hc.putAll hput, rfl, rfl⟩

/-- The destructor aborts the process when the level is `FATAL`. -/
theorem Logger.destroy_abort {impl : LoggerImpl} {out : Logger.Output}
    (h : Logger.destroy impl = .ok out) : out.abort = true ↔ impl.level = .fatal := by
  obtain ⟨impl', himpl', rfl⟩ := Outcome.zoom_eq_ok.1 h
  obtain ⟨stream, -, rfl⟩ := Outcome.zoom_eq_ok.1 himpl'
  exact decide_eq_true_iff

/-! ### One statement -/

/-- The constructor of a macro writes the header, and then its own text. -/
theorem Logger.new_eq (m : LogMacro) (errno : Int32) (env : LogEnv) (file : Bytes) (line : Int32)
    (cache : TimeCache) :
    Logger.new env file line cache (m.args errno) =
      (LogCtx.construct env m.level (m.savedErrno errno) file line cache).bind
        (LogCtx.putAll m.items) := by
  have hnil : ∀ o : Result LogCtx, o.bind (LogCtx.putAll []) = o := by
    intro o
    cases o <;> rfl
  cases m with
  | trace => rfl
  | debug => rfl
  | info => exact (hnil _).symm
  | warn => exact (hnil _).symm
  | error => exact (hnil _).symm
  | fatal => exact (hnil _).symm
  | syserr => exact (hnil _).symm
  | sysfatal => exact (hnil _).symm

namespace LogThread

variable {s t : LogThread} {m : LogMacro} {items : List Item} {site : LogSite}

/-- A header that was written is that of a record, and it is written when the identifier of the
thread is short. -/
theorem Inv.construct_eq (hs : s.Inv) (c : ImplCall) :
    (s.gettid.toInt ≤ 999999 → ∃ ctx,
      LogCtx.construct (c.env s.tid) c.level c.savedErrno c.file c.line s.cache = .ok ctx ∧
        LogCtx.CacheFresh ctx.cache) ∧
    (999999 < s.gettid.toInt → ∃ e ctx, LogCtx.construct (c.env s.tid) c.level c.savedErrno c.file
      c.line s.cache = .fault e ctx) := by
  obtain ⟨hshort, hlong⟩ := hs.construct c
  cases hctx : LogCtx.construct (c.env s.tid) c.level c.savedErrno c.file c.line s.cache with
  | ok ctx =>
    have hconstruct : (s.construct c).cache = ctx.cache := by rw [LogThread.construct, hctx]
    have hfailed : (s.construct c).failed = s.failed := by rw [LogThread.construct, hctx]
    refine ⟨fun htid => ⟨ctx, rfl, hconstruct ▸ (hshort htid).1.cache⟩, fun htid => ?_⟩
    exact absurd (hfailed.trans hs.ok) (hlong htid)
  | fault e ctx =>
    have hfailed : (s.construct c).failed = some e := by rw [LogThread.construct, hctx]
    refine ⟨fun htid => ?_, fun _ => ⟨e, ctx, rfl⟩⟩
    rw [(hshort htid).2.1] at hfailed
    cases hfailed

/-- **A statement aborts the process** exactly if its level is `FATAL`, or the identifier of the
thread is too long for the header. -/
theorem Inv.log (hs : s.Inv) (hm : ∀ item ∈ m.items, item.Sized)
    (hitems : ∀ item ∈ items, item.Sized) (site : LogSite) :
    (s.log m items site = none ↔ m.level = .fatal ∨ 999999 < s.gettid.toInt) ∧
      ∀ t, s.log m items site = some t → t.Inv ∧ t.gettid = s.gettid := by
  obtain ⟨hshort, hlong⟩ := hs.construct_eq (site.call m)
  rcases lt_or_ge 999999 s.gettid.toInt with htid | htid
  · obtain ⟨e, ctx, hctx⟩ := hlong htid
    have hnone : s.log m items site = none := by
      rw [LogThread.log, Logger.new_eq]
      exact hctx ▸ rfl
    exact ⟨iff_of_true hnone (.inr htid), fun t ht => by rw [hnone] at ht; cases ht⟩
  · obtain ⟨ctx, hctx, hfresh⟩ := hshort htid
    obtain ⟨ctx₁, hput₁, hbegun₁, hlevel₁, hcache₁⟩ :=
      LogCtx.putAll_sized (LogCtx.Begun.construct hctx) hm
    obtain ⟨ctx₂, hput₂, hbegun₂, hlevel₂, hcache₂⟩ := LogCtx.putAll_sized hbegun₁ hitems
    have hlevel : ctx₂.impl.level = m.level := by
      rw [hlevel₂, hlevel₁]
      exact LogCtx.construct_level hctx
    have hbase : ctx₂.impl.basename.length < 2 ^ 31 := by
      rw [hbegun₂.basename]
      exact (LoggerImpl.baseOf_length site.file).trans_lt site.file_lt
    obtain ⟨out, hout, -⟩ := LoggerImpl.destroy_eq ctx₂.impl hbegun₂.cur hbase
    have hlog : s.log m items site = if out.abort then none
        else some { s with cachedTid := s.tid, cache := ctx₂.cache, written := out.msg } := by
      have hnew : (Logger.new ((site.call m).env s.tid) site.file site.line s.cache
          (m.args site.errno)).bind (LogCtx.putAll items) = .ok ctx₂ := by
        rw [Logger.new_eq, ← hput₂]
        have hconstruct : LogCtx.construct ((site.call m).env s.tid) m.level
            (m.savedErrno site.errno) site.file site.line s.cache = .ok ctx := hctx
        rw [hconstruct, Outcome.bind_ok, hput₁, Outcome.bind_ok]
      rw [LogThread.log, hnew]
      dsimp only
      rw [hout]
    have hfresh₂ : LogCtx.CacheFresh ctx₂.cache := by
      rw [hcache₂, hcache₁]
      exact hfresh
    rw [hlog, ← hlevel, ← Logger.destroy_abort hout]
    by_cases habort : out.abort = true
    · rw [if_pos habort]
      exact ⟨iff_of_true rfl (.inl habort), nofun⟩
    · rw [if_neg habort]
      refine ⟨iff_of_false (Option.some_ne_none _) (by simpa [habort] using htid), ?_⟩
      rintro t ⟨⟩
      exact ⟨⟨hs.ok, hs.pos, .inr hs.tid_eq, hfresh₂⟩, rfl⟩

end LogThread

end Jiangbo
