import LearnForCpp.Logging.LoggingStream

/-!
# Log records

`logging/Logging.h` and `logging/Logging.cc`: the constructors of `Logger`, which write the header
of the record, and its destructor, which closes the record and hands it to `g_output`.

`gmtime_r`, `strerror_r`, the clock and the thread's identifier are in `LogEnv`.  The broken-down
second is kept in two thread-local variables, `TimeCache`, from one record to the next.
-/

namespace Jiangbo

inductive LogLevel
  | trace
  | debug
  | info
  | warn
  | error
  | fatal
  deriving DecidableEq

/-- `LogLevelname`. -/
def LogLevel.name : LogLevel → Bytes
  | trace => ascii "[TRACE] "
  | debug => ascii "[DEBUG] "
  | info => ascii "[INFO ] "
  | warn => ascii "[WARN ] "
  | error => ascii "[ERROR] "
  | fatal => ascii "[FATAL] "

/-- `struct tm`: the fields that are printed. -/
structure Tm where
  year : ℤ
  mon : ℤ
  mday : ℤ
  hour : ℤ
  min : ℤ
  sec : ℤ
  deriving DecidableEq

/-- `%<width>d` of `snprintf`. -/
def percentD (width : ℕ) (v : ℤ) : Bytes :=
  let text := ascii v.repr
  List.replicate (width - text.length) 32 ++ text

/-- `%0<width>d` of `snprintf`: the zeros come after the sign. -/
def percent0D (width : ℕ) (v : ℤ) : Bytes :=
  let text := ascii v.natAbs.repr
  if v < 0 then ascii "-" ++ List.replicate (width - 1 - text.length) 48 ++ text
  else List.replicate (width - text.length) 48 ++ text

/-- `"[%4d%02d%02d] [%02d:%02d:%02d"`. -/
def Tm.format (tm : Tm) : Bytes :=
  ascii "[" ++ percentD 4 (tm.year + 1900) ++ percent0D 2 (tm.mon + 1) ++ percent0D 2 tm.mday ++
    ascii "] [" ++ percent0D 2 tm.hour ++ ascii ":" ++ percent0D 2 tm.min ++ ascii ":" ++
    percent0D 2 tm.sec

/-- `t_lastSecond` and `t_time`. -/
structure TimeCache where
  lastSecond : ℤ
  time : Bytes
  deriving DecidableEq

/-- What a record takes from the system. -/
structure LogEnv where
  /-- `Timestamp::now()`, in microseconds. -/
  now : ℤ
  gmtime : ℤ → Tm
  /-- `CurrentThread::tid()`. -/
  tid : ℤ
  /-- `strerror_tl`: the bytes before the NUL. -/
  strerror : Int32 → Bytes

/-- `Logger::Impl`. -/
structure LoggerImpl where
  time : ℤ
  stream : LoggingStream
  level : LogLevel
  line : Int32
  basename : Bytes
  deriving DecidableEq

/-- A record under construction, with the thread's cache. -/
structure LogCtx where
  cache : TimeCache
  impl : LoggerImpl
  deriving DecidableEq

namespace LoggerImpl

/-- `strrchr(fullname_, '/')`: what follows the last slash. -/
def baseOf (file : Bytes) : Bytes := (file.reverse.takeWhile (· ≠ 47)).reverse

/-- Insertions into the stream. -/
def putAll (items : List Item) (impl : LoggerImpl) : Result LoggerImpl :=
  (impl.stream.putAll items).zoom fun stream => { impl with stream := stream }

def finish (impl : LoggerImpl) : Result LoggerImpl :=
  impl.putAll [.cstr (ascii "-"), .cstr impl.basename, .cstr (ascii ":"), .int impl.line,
    .cstr (ascii "\n")]

end LoggerImpl

namespace LogCtx

/-- Insertions into the stream. -/
def putAll (items : List Item) (c : LogCtx) : Result LogCtx :=
  (c.impl.putAll items).zoom fun impl => { c with impl := impl }

/-- `stream_ << T(str, len)`. -/
def putT (str : Bytes) (len : ℕ) (c : LogCtx) : Result LogCtx :=
  if h : str.length = len then c.putAll [.t ⟨str, len, h⟩] else .fault (.assertion .tLength) c

/-- `Fmt fmt(…)` with what `snprintf` renders, and the assertion on its length that follows. -/
def checkFmt (text : Bytes) (len : ℕ) (a : Assertion) (c : LogCtx) : Result LogCtx :=
  (Outcome.check (text.length < 32) (.assertion .fmtLength) c).bind
    (Outcome.check (text.length = len) (.assertion a))

def formatTime (env : LogEnv) (c : LogCtx) : Result LogCtx :=
  let seconds := c.impl.time.tdiv 1000000
  let microseconds := c.impl.time.tmod 1000000
  let us := ascii "." ++ percent0D 6 microseconds ++ ascii "Z] "
  (if seconds ≠ c.cache.lastSecond then
    let text := (env.gmtime seconds).format
    Outcome.check (text.length = 20) (.assertion .timeLength)
      { c with cache := ⟨seconds, text.take 31⟩ }
  else .ok c).bind fun c =>
    (c.checkFmt us 10 .microsecondsLength).bind fun c =>
      (Outcome.check (us.length = 10) (.assertion .tLength) c).bind fun c =>
        (c.putT c.cache.time 20).bind (putT us 10)

/-- `Logger::Impl::Impl`. -/
def construct (env : LogEnv) (level : LogLevel) (savedErrno : Int32) (file : Bytes) (line : Int32)
    (cache : TimeCache) : Result LogCtx :=
  let tid := ascii "[" ++ percentD 6 env.tid ++ ascii "] "
  (formatTime env { cache, impl :=
      { time := env.now, stream := .new _, level, line, basename := LoggerImpl.baseOf file } }).bind
    fun c => (c.checkFmt tid 9 .tidLength).bind fun c =>
      (c.putT tid 9).bind fun c =>
        (c.putT level.name 8).bind fun c =>
          if savedErrno ≠ 0 then
            c.putAll [.cstr (env.strerror savedErrno), .cstr (ascii " (errno="), .int savedErrno,
              .cstr (ascii ") ")]
          else .ok c

end LogCtx

/-- The constructors of `Logger`. -/
inductive LoggerArgs
  | info
  | level (level : LogLevel)
  | func (level : LogLevel) (func : Bytes)
  | toAbort (toAbort : Bool) (errno : Int32)

namespace Logger

/-- `Logger::Logger`. -/
def new (env : LogEnv) (file : Bytes) (line : Int32) (cache : TimeCache) :
    LoggerArgs → Result LogCtx
  | .info => LogCtx.construct env .info 0 file line cache
  | .level level => LogCtx.construct env level 0 file line cache
  | .func level func =>
      (LogCtx.construct env level 0 file line cache).bind
        (LogCtx.putAll [.cstr func, .char 32])
  | .toAbort toAbort errno =>
      LogCtx.construct env (if toAbort then .fatal else .error) errno file line cache

/-- What `~Logger` does: the bytes for `g_output`, and whether the process is aborted. -/
structure Output where
  msg : Bytes
  abort : Bool
  deriving DecidableEq

/-- `Logger::~Logger`. -/
def destroy (impl : LoggerImpl) : Result Output :=
  impl.finish.zoom fun impl => ⟨impl.stream.content, impl.level = .fatal⟩

end Logger

end Jiangbo
