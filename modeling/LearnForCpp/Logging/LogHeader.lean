import LearnForCpp.Lib.Transition
import LearnForCpp.Logging.LogFile
import LearnForCpp.Logging.LogRecord

/-!
# The header of a log record

The records of one thread: each `Logger::Impl` writes a header of fixed width, and asserts the width
of every part of it.  The date and the time of day are those that `t_time` holds when `t_lastSecond`
is the second of the record; the identifier of the thread is kept in `t_cachedTid` by
`CurrentThread::tid` of `thread/Thread.cc`, and renewed by `afterFork` in the child of a `fork`.

`log_headers_fresh_iff` says that the header of each record is that of its own time, thread and
level as long as the identifier of the thread has six digits at most.
-/

namespace Jiangbo

/-- What one `Logger::Impl` is constructed with, and what it gets from the system: a time from
1970-01-01T00:00:01Z to the end of 9999, and a message that fits `t_errnobuf`. -/
structure ImplCall where
  now : ℤ
  level : LogLevel
  savedErrno : Int32
  file : Bytes
  line : Int32
  strerror : Bytes
  now_ge : 1000000 ≤ now
  now_lt : now < 253402300800 * 1000000
  strerror_lt : strerror.length < 512

/-- A thread with its thread-local variables. -/
structure LogThread where
  /-- What `gettid()` returns. -/
  gettid : Int32
  cachedTid : Int32
  cache : TimeCache
  /-- What the last `Logger::Impl` left in its stream. -/
  written : Bytes
  failed : Option Fault

inductive LogAction
  | construct (c : ImplCall)
  /-- `fork()`; the run goes on in the child. -/
  | fork (tid : Int32) (pos : 0 < tid.toInt)

namespace ImplCall

/-- The system at the time of the call, in the thread `tid`. -/
def env (c : ImplCall) (tid : Int32) : LogEnv where
  now := c.now
  gmtime := LogFile.gmtime
  tid := tid.toInt
  strerror _ := c.strerror

/-- The header, formatted afresh. -/
def header (c : ImplCall) (tid : Int32) : Bytes :=
  (LogFile.gmtime (c.now.tdiv 1000000)).format ++
    (ascii "." ++ percent0D 6 (c.now.tmod 1000000) ++ ascii "Z] ") ++
    (ascii "[" ++ percentD 6 tid.toInt ++ ascii "] ") ++ c.level.name

/-- What follows the header when there is an error number. -/
def errnoText (c : ImplCall) : Bytes :=
  if c.savedErrno ≠ 0 then
    c.strerror ++ ascii " (errno=" ++ convert c.savedErrno.toInt ++ ascii ") "
  else []

end ImplCall

namespace LogThread

/-- A thread that has not logged. -/
def new (tid : Int32) : LogThread := ⟨tid, 0, ⟨0, []⟩, [], none⟩

/-- `CurrentThread::tid()`. -/
def tid (s : LogThread) : Int32 := if s.cachedTid = 0 then s.gettid else s.cachedTid

/-- `Logger::Impl::Impl`. -/
def construct (c : ImplCall) (s : LogThread) : LogThread :=
  match LogCtx.construct (c.env s.tid) c.level c.savedErrno c.file c.line s.cache with
  | .ok ctx =>
      { s with cachedTid := s.tid, cache := ctx.cache, written := ctx.impl.stream.content }
  | .fault e _ => { s with failed := some e }

/-- One step. -/
def next (s : LogThread) (a : LogAction) : Option LogThread :=
  if s.failed.isSome then none
  else
    match a with
    | .construct c => some (s.construct c)
    | .fork tid _ => some { s with gettid := tid, cachedTid := tid }

/-- The step writes the header that it should, and no assertion fails. -/
def Writes (s : LogThread) (a : LogAction) (t : LogThread) : Prop :=
  match a with
  | .construct c => t.failed = none ∧ t.written = c.header s.gettid ++ c.errnoText
  | .fork _ _ => True

/-- The identifier of the thread has six digits at most when a record is begun. -/
def ShortTid (s : LogThread) : LogAction → Prop
  | .construct _ => s.gettid.toInt ≤ 999999
  | .fork _ _ => True

end LogThread

/-- The runs of a thread that logs. -/
def logThreads : LTS LogThread LogAction where
  init s := ∃ tid : Int32, 0 < tid.toInt ∧ s = .new tid
  next := LogThread.next

/-! ### The widths of the parts -/

theorem ascii_repr_length {v : ℤ} (hv : 0 ≤ v) :
    (ascii v.repr).length = (Nat.toDigits 10 v.natAbs).length := by
  rw [ascii, List.length_map, repr_toList, if_neg (not_lt.2 hv)]

theorem ascii_repr_length_le {width : ℕ} {v : ℤ} (hv : 0 ≤ v) (hwidth : 0 < width) :
    (ascii v.repr).length ≤ width ↔ v < 10 ^ width := by
  rw [ascii_repr_length hv, Nat.length_toDigits_le_iff (by decide) hwidth]
  zify
  rw [abs_of_nonneg hv]

/-- The width is kept exactly by the numbers that have no more digits. -/
theorem percentD_length {width : ℕ} {v : ℤ} (hv : 0 ≤ v) (hwidth : 0 < width) :
    (percentD width v).length = width ↔ v < 10 ^ width := by
  rw [← ascii_repr_length_le hv hwidth]
  simp only [percentD, List.length_append, List.length_replicate]
  omega

theorem percent0D_length_eq {width : ℕ} {v : ℤ} (hv : 0 ≤ v) (hwidth : 0 < width)
    (hlt : v < 10 ^ width) : (percent0D width v).length = width := by
  have hle := (ascii_repr_length_le hv hwidth).2 hlt
  have habs : v = (v.natAbs : ℤ) := by omega
  rw [habs] at hle
  simp only [percent0D, if_neg (not_lt.2 hv), List.length_append, List.length_replicate]
  have hrepr : ascii v.natAbs.repr = ascii ((v.natAbs : ℤ)).repr := rfl
  rw [hrepr]
  omega

/-- A date of the years with four digits has 20 characters. -/
theorem gmtime_format_length {seconds : ℤ} (h0 : 0 ≤ seconds) (h : seconds < 253402300800) :
    (LogFile.gmtime seconds).format.length = 20 := by
  have hrange := LogFile.gmtime_inRange seconds
  have hyear : 1000 ≤ (Calendar.dateOf (seconds / 86400)).year ∧
      (Calendar.dateOf (seconds / 86400)).year < 10000 :=
    Calendar.dateOf_year (by omega) (by omega)
  have hyear4 : (percentD 4 ((LogFile.gmtime seconds).year + 1900)).length = 4 := by
    refine (percentD_length ?_ (by decide)).2 ?_
    all_goals simp only [LogFile.gmtime]; omega
  simp only [Tm.format, List.length_append, hyear4, percent0D_length hrange.mon,
    percent0D_length hrange.mday, percent0D_length hrange.hour, percent0D_length hrange.min,
    percent0D_length hrange.sec]
  rfl

theorem microseconds_length (now : ℤ) (h : 0 ≤ now) :
    (ascii "." ++ percent0D 6 (now.tmod 1000000) ++ ascii "Z] ").length = 10 := by
  have hlt : now.tmod 1000000 < 10 ^ 6 := Int.tmod_lt_of_pos now (by decide)
  simp only [List.length_append,
    percent0D_length_eq (Int.tmod_nonneg 1000000 h) (by decide) hlt]
  rfl

/-- The part for the thread has 9 characters exactly if its identifier has six digits at most. -/
theorem tid_length {tid : Int32} (h : 0 < tid.toInt) :
    (ascii "[" ++ percentD 6 tid.toInt ++ ascii "] ").length = 9 ↔ tid.toInt ≤ 999999 := by
  have hlen : (percentD 6 tid.toInt).length = 6 ↔ tid.toInt < 10 ^ 6 :=
    percentD_length h.le (by decide)
  have h1 : (ascii "[").length = 1 := rfl
  have h2 : (ascii "] ").length = 2 := rfl
  rw [List.length_append, List.length_append, h1, h2]
  omega

theorem level_length (level : LogLevel) : level.name.length = 8 := by
  cases level <;> rfl

/-! ### The parts one after the other -/

/-- The text is in the stream behind what was there, and the cache is as it was. -/
structure LogCtx.Appended (text : Bytes) (c c' : LogCtx) : Prop where
  cache : c'.cache = c.cache
  cur : c'.impl.stream.cur < kMinBufferSize
  content : c'.impl.stream.content = c.impl.stream.content ++ text

namespace LogCtx

variable {c : LogCtx} {text d : Bytes} {env : LogEnv}

theorem putAll_ok {items : List Item} (hcur : c.impl.stream.cur < kMinBufferSize)
    (hitems : ∀ item ∈ items, item.Sized)
    (hfold : items.foldl Item.into c.impl.stream.content = c.impl.stream.content ++ text) :
    ∃ c', c.putAll items = .ok c' ∧ c.Appended text c' := by
  obtain ⟨stream, hstream, hcur', hcontent⟩ := LoggerImpl.putAll_eq hcur hitems
  refine ⟨{ c with impl := { c.impl with stream := stream } }, ?_, rfl, hcur',
    hcontent.trans hfold⟩
  rw [putAll, hstream, Outcome.zoom_ok]

/-- A `T` of the right length, while there is room. -/
theorem putT_ok {n : ℕ} (hcur : c.impl.stream.cur < kMinBufferSize) (hlen : d.length = n)
    (hroom : c.impl.stream.content.length + n < kMinBufferSize) :
    ∃ c', c.putT d n = .ok c' ∧ c.Appended d c' := by
  have hsmall : n < 2 ^ 31 := by
    have hsize : kMinBufferSize = 4000 := rfl
    omega
  have hwrap : wrap32 n = n := wrap32_eq (by omega) (by omega)
  have hrender : (Item.t ⟨d, n, hlen⟩).render = d := by
    show d.take (wrap32 n).toNat = d
    rw [hwrap, Int.toNat_natCast, ← hlen, List.take_length]
  have hitemRoom : (Item.t ⟨d, n, hlen⟩).room = n + 1 := by
    show (Item.t ⟨d, n, hlen⟩).render.length + 1 = n + 1
    rw [hrender, hlen]
  rw [putT, dif_pos hlen]
  refine putAll_ok hcur (List.forall_mem_singleton.2 ?_) ?_
  · show 0 ≤ wrap32 n
    rw [hwrap]
    omega
  · rw [List.foldl_cons, List.foldl_nil, Item.into, hitemRoom, if_pos (by omega), hrender]

/-- A `Fmt` of the right length. -/
theorem checkFmt_ok {len : ℕ} {a : Assertion} (hlen : text.length = len) (h32 : len < 32) :
    c.checkFmt text len a = .ok c := by
  rw [checkFmt, Outcome.check_pos (by simpa using hlen ▸ h32), Outcome.bind_ok,
    Outcome.check_pos (by simpa using hlen)]

/-- A `Fmt` of another length. -/
theorem checkFmt_fault {len : ℕ} {a : Assertion} (hlen : text.length ≠ len) :
    ∃ e, c.checkFmt text len a = .fault e c := by
  by_cases h32 : text.length < 32
  · refine ⟨.assertion a, ?_⟩
    rw [checkFmt, Outcome.check_pos (by simpa using h32), Outcome.bind_ok,
      Outcome.check_neg (by simpa using hlen)]
  · refine ⟨.assertion .fmtLength, ?_⟩
    rw [checkFmt, Outcome.check_neg (by simpa using h32), Outcome.bind_fault]

/-- The cache holds the date and the time of day of its second, or is that of a new thread. -/
def CacheFresh (cache : TimeCache) : Prop :=
  cache.lastSecond = 0 ∨
    cache.time = (LogFile.gmtime cache.lastSecond).format ∧ cache.time.length = 20

/-- Whatever second the cache is of, it is of this one afterwards. -/
theorem cache_ok (seconds : ℤ) (hgmtime : env.gmtime = LogFile.gmtime)
    (hcache : CacheFresh c.cache) (h0 : 0 < seconds) (hlt : seconds < 253402300800) :
    ∃ cache : TimeCache, (if seconds ≠ c.cache.lastSecond then
        Outcome.check (((env.gmtime seconds).format).length = 20) (.assertion .timeLength)
          { c with cache := ⟨seconds, (env.gmtime seconds).format.take 31⟩ }
      else .ok c : Result LogCtx) = .ok { c with cache := cache } ∧ CacheFresh cache ∧
        cache.time = (LogFile.gmtime seconds).format := by
  have htime := gmtime_format_length h0.le hlt
  by_cases hsecond : seconds = c.cache.lastSecond
  · refine ⟨c.cache, if_neg (not_not.2 hsecond), hcache, ?_⟩
    rcases hcache with hzero | hcache
    · omega
    · rw [hsecond]
      exact hcache.1
  · have htake : (LogFile.gmtime seconds).format.take 31 = (LogFile.gmtime seconds).format :=
      List.take_of_length_le (by omega)
    refine ⟨⟨seconds, (LogFile.gmtime seconds).format⟩, ?_, .inr ⟨rfl, htime⟩, rfl⟩
    rw [if_pos hsecond, hgmtime, Outcome.check_pos (by simpa using htime), htake]

/-- `formatTime` writes the time of the record. -/
theorem formatTime_ok (hgmtime : env.gmtime = LogFile.gmtime) (hcache : CacheFresh c.cache)
    (hge : 1000000 ≤ c.impl.time) (hlt : c.impl.time < 253402300800 * 1000000)
    (hcur : c.impl.stream.cur < kMinBufferSize) (hempty : c.impl.stream.content = []) :
    ∃ c', c.formatTime env = .ok c' ∧ CacheFresh c'.cache ∧
      c'.impl.stream.cur < kMinBufferSize ∧ c'.impl.stream.content =
        (LogFile.gmtime (c.impl.time.tdiv 1000000)).format ++
          (ascii "." ++ percent0D 6 (c.impl.time.tmod 1000000) ++ ascii "Z] ") := by
  have hdiv : c.impl.time.tdiv 1000000 = c.impl.time / 1000000 :=
    Int.tdiv_eq_ediv_of_nonneg (by omega)
  have htime : (LogFile.gmtime (c.impl.time.tdiv 1000000)).format.length = 20 :=
    gmtime_format_length (by omega) (by omega)
  have hus := microseconds_length c.impl.time (by omega)
  obtain ⟨cache, hcached, hfresh, hcachetime⟩ :=
    cache_ok (c.impl.time.tdiv 1000000) hgmtime hcache (by omega) (by omega)
  obtain ⟨c₁, h₁, happ₁⟩ := putT_ok (c := { c with cache := cache })
    (d := cache.time) (n := 20) hcur (hcachetime ▸ htime) (by rw [hempty]; decide)
  have hcontent₁ : c₁.impl.stream.content =
      (LogFile.gmtime (c.impl.time.tdiv 1000000)).format := by
    rw [happ₁.content, hempty, List.nil_append, hcachetime]
  obtain ⟨c₂, h₂, happ₂⟩ := putT_ok (c := c₁) happ₁.cur hus
    (by rw [hcontent₁, htime]; decide)
  refine ⟨c₂, ?_, ?_, happ₂.cur, by rw [happ₂.content, hcontent₁]⟩
  · rw [formatTime]
    dsimp only
    rw [hcached, Outcome.bind_ok, checkFmt_ok hus (by decide), Outcome.bind_ok,
      Outcome.check_pos (by simpa using hus), Outcome.bind_ok, h₁, Outcome.bind_ok, h₂]
  · rw [happ₂.cache, happ₁.cache]
    exact hfresh

end LogCtx

/-! ### One record -/

namespace LogThread

variable {s t : LogThread} {a : LogAction} {c : ImplCall}

/-- Nothing has failed, and the thread-local variables are empty or what they should be. -/
structure Inv (s : LogThread) : Prop where
  ok : s.failed = none
  pos : 0 < s.gettid.toInt
  tid : s.cachedTid = 0 ∨ s.cachedTid = s.gettid
  cache : LogCtx.CacheFresh s.cache

theorem new_inv {tid : Int32} (h : 0 < tid.toInt) : (new tid).Inv := ⟨rfl, h, .inl rfl, .inl rfl⟩

/-- `CurrentThread::tid()` is the identifier of the thread. -/
theorem Inv.tid_eq (hs : s.Inv) : s.tid = s.gettid := by
  unfold LogThread.tid
  split_ifs with h
  · rfl
  · exact hs.tid.resolve_left h

/-- The text of an error number is inserted as a whole behind the header. -/
theorem putErrno_ok {ctx : LogCtx} (hcur : ctx.impl.stream.cur < kMinBufferSize)
    (hlen : ctx.impl.stream.content.length ≤ 47) (hc : c.savedErrno ≠ 0) :
    ∃ ctx', ctx.putAll [.cstr c.strerror, .cstr (ascii " (errno="), .int c.savedErrno,
      .cstr (ascii ") ")] = .ok ctx' ∧ ctx.Appended c.errnoText ctx' := by
  have hsize : kMinBufferSize = 4000 := rfl
  have hstrerror := c.strerror_lt
  have h1 : (ascii " (errno=").length = 8 := rfl
  have h2 : (ascii ") ").length = 2 := rfl
  have hdigits := convert_length (v := c.savedErrno.toInt)
    (by have := c.savedErrno.le_toInt; omega) (by have := c.savedErrno.toInt_lt; omega)
  refine LogCtx.putAll_ok hcur ?_ ?_
  · simp only [List.forall_mem_cons]
    exact ⟨Item.cstr_sized (by omega), Item.cstr_sized (by decide), trivial,
      Item.cstr_sized (by decide), by simp⟩
  · generalize ctx.impl.stream.content = text at hlen ⊢
    have hinto₁ : Item.into text (.cstr c.strerror) = text ++ c.strerror := by
      rw [Item.cstr_into (by omega), if_pos (by omega)]
    have hinto₂ : Item.into (text ++ c.strerror) (.cstr (ascii " (errno=")) =
        text ++ c.strerror ++ ascii " (errno=" := by
      rw [Item.cstr_into (by decide), if_pos (by rw [List.length_append]; omega)]
    have hinto₃ : Item.into (text ++ c.strerror ++ ascii " (errno=") (.int c.savedErrno) =
        text ++ c.strerror ++ ascii " (errno=" ++ convert c.savedErrno.toInt := by
      rw [Item.int_into, if_pos]
      simp only [List.length_append, kMaxNumericSize]
      omega
    have hinto₄ : Item.into (text ++ c.strerror ++ ascii " (errno=" ++ convert c.savedErrno.toInt)
        (.cstr (ascii ") ")) = text ++ c.strerror ++ ascii " (errno=" ++
          convert c.savedErrno.toInt ++ ascii ") " := by
      rw [Item.cstr_into (by decide), if_pos]
      simp only [List.length_append]
      omega
    rw [List.foldl_cons, hinto₁, List.foldl_cons, hinto₂, List.foldl_cons, hinto₃,
      List.foldl_cons, hinto₄, List.foldl_nil, ImplCall.errnoText, if_pos hc]
    simp only [List.append_assoc]

/-- The parts of the constructor. -/
theorem construct_eq (c : ImplCall) (tid : Int32) (cache : TimeCache) :
    LogCtx.construct (c.env tid) c.level c.savedErrno c.file c.line cache =
      (LogCtx.formatTime (c.env tid)
        ⟨cache, ⟨c.now, .new _, c.level, c.line, LoggerImpl.baseOf c.file⟩⟩).bind fun ctx =>
        (ctx.checkFmt (ascii "[" ++ percentD 6 tid.toInt ++ ascii "] ") 9 .tidLength).bind
          fun ctx => (ctx.putT (ascii "[" ++ percentD 6 tid.toInt ++ ascii "] ") 9).bind fun ctx =>
            (ctx.putT c.level.name 8).bind fun ctx =>
              if c.savedErrno ≠ 0 then
                ctx.putAll [.cstr c.strerror, .cstr (ascii " (errno="), .int c.savedErrno,
                  .cstr (ascii ") ")]
              else .ok ctx := rfl

/-- A constructor writes the header, unless the identifier of the thread is too long. -/
theorem Inv.construct (hs : s.Inv) (c : ImplCall) :
    (s.gettid.toInt ≤ 999999 → (s.construct c).Inv ∧ (s.construct c).failed = none ∧
      (s.construct c).written = c.header s.gettid ++ c.errnoText) ∧
    (999999 < s.gettid.toInt → (s.construct c).failed ≠ none) := by
  have hge := c.now_ge
  have hlt := c.now_lt
  have hcur : (FixedBuffer.new kMinBufferSize).cur < kMinBufferSize := Nat.zero_lt_succ 3999
  -- `formatTime` writes 30 bytes
  obtain ⟨c₁, h₁, hfresh, hcur₁, hcontent₁⟩ := LogCtx.formatTime_ok
    (c := ⟨s.cache, ⟨c.now, .new _, c.level, c.line, LoggerImpl.baseOf c.file⟩⟩)
    (show (c.env s.gettid).gmtime = LogFile.gmtime from rfl) hs.cache hge hlt hcur rfl
  dsimp only at hcontent₁
  have htime : (LogFile.gmtime (c.now.tdiv 1000000)).format.length = 20 := by
    have hdiv : c.now.tdiv 1000000 = c.now / 1000000 := Int.tdiv_eq_ediv_of_nonneg (by omega)
    exact gmtime_format_length (by omega) (by omega)
  have hus := microseconds_length c.now (by omega)
  have hlen₁ : c₁.impl.stream.content.length = 30 := by
    rw [hcontent₁, List.length_append, htime, hus]
  constructor
  · intro htid
    have htidlen := (tid_length hs.pos).2 htid
    -- the thread 9, and the level 8
    obtain ⟨c₂, h₂, happ₂⟩ := LogCtx.putT_ok (c := c₁) hcur₁ htidlen (by rw [hlen₁]; decide)
    have hlen₂ : c₂.impl.stream.content.length = 39 := by
      rw [happ₂.content, List.length_append, hlen₁, htidlen]
    obtain ⟨c₃, h₃, happ₃⟩ := LogCtx.putT_ok (c := c₂) happ₂.cur (level_length c.level)
      (by rw [hlen₂]; decide)
    have hlen₃ : c₃.impl.stream.content.length = 47 := by
      rw [happ₃.content, List.length_append, hlen₂, level_length]
    have hheader : c₃.impl.stream.content = c.header s.gettid := by
      rw [happ₃.content, happ₂.content, hcontent₁]
      rfl
    obtain ⟨c₄, h₄, hcache₄, hcontent₄⟩ : ∃ c₄,
        (if c.savedErrno ≠ 0 then c₃.putAll [.cstr c.strerror, .cstr (ascii " (errno="),
          .int c.savedErrno, .cstr (ascii ") ")] else .ok c₃) = .ok c₄ ∧
          c₄.cache = c₁.cache ∧ c₄.impl.stream.content = c.header s.gettid ++ c.errnoText := by
      by_cases herrno : c.savedErrno = 0
      · refine ⟨c₃, if_neg (not_not.2 herrno), happ₃.cache.trans happ₂.cache, ?_⟩
        rw [hheader, ImplCall.errnoText, if_neg (not_not.2 herrno), List.append_nil]
      · obtain ⟨c₄, h₄, happ₄⟩ := putErrno_ok happ₃.cur hlen₃.le herrno
        refine ⟨c₄, (if_pos herrno).trans h₄,
          happ₄.cache.trans (happ₃.cache.trans happ₂.cache), ?_⟩
        rw [happ₄.content, hheader]
    have hok : LogCtx.construct (c.env s.tid) c.level c.savedErrno c.file c.line s.cache =
        .ok c₄ := by
      rw [hs.tid_eq, construct_eq, h₁, Outcome.bind_ok, LogCtx.checkFmt_ok htidlen (by decide),
        Outcome.bind_ok, h₂, Outcome.bind_ok, h₃, Outcome.bind_ok, h₄]
    rw [LogThread.construct, hok]
    have hfresh₄ : LogCtx.CacheFresh c₄.cache := hcache₄ ▸ hfresh
    exact ⟨⟨hs.ok, hs.pos, .inr hs.tid_eq, hfresh₄⟩, hs.ok, hcontent₄⟩
  · intro htid
    -- the assertion on the length of `t_tidString` fails
    have htidlen : (ascii "[" ++ percentD 6 s.gettid.toInt ++ ascii "] ").length ≠ 9 := by
      rw [ne_eq, tid_length hs.pos]
      omega
    obtain ⟨e, he⟩ := LogCtx.checkFmt_fault (c := c₁) (a := .tidLength) htidlen
    have hfault : LogCtx.construct (c.env s.tid) c.level c.savedErrno c.file c.line s.cache =
        .fault e c₁ := by
      rw [hs.tid_eq, construct_eq, h₁, Outcome.bind_ok, he, Outcome.bind_fault]
    rw [LogThread.construct, hfault]
    exact Option.some_ne_none e

/-- A step keeps the invariant when the identifier is short, and that is when it writes the
header. -/
theorem Inv.step (hs : s.Inv) (hn : s.next a = some t) :
    (s.ShortTid a → t.Inv) ∧ (s.Writes a t ↔ s.ShortTid a) := by
  unfold LogThread.next at hn
  rw [hs.ok] at hn
  cases a with
  | construct c =>
    obtain rfl := Option.some.inj hn
    obtain ⟨hshort, hlong⟩ := hs.construct c
    refine ⟨fun htid => (hshort htid).1, fun hwrites => ?_, fun htid => (hshort htid).2⟩
    by_contra htid
    exact hlong (not_le.1 htid) hwrites.1
  | fork tid pos =>
    obtain rfl := Option.some.inj hn
    exact ⟨fun _ => ⟨rfl, pos, .inr rfl, hs.cache⟩, iff_of_true trivial trivial⟩

theorem next_gettid (hn : s.next (.construct c) = some t) : t.gettid = s.gettid := by
  have hconstruct : (s.construct c).gettid = s.gettid := by
    unfold LogThread.construct
    split <;> rfl
  unfold LogThread.next at hn
  split_ifs at hn
  exact Option.some.inj hn ▸ hconstruct

end LogThread

/-- **The header is that of the record.** In a run of records of one thread, at any times and of any
levels, no assertion fails and each header shows the time of its own record, the thread and the
level, exactly if the identifier of the thread has six digits at most at each of them. -/
theorem log_headers_fresh_iff {s t : LogThread} {run : List (Transition LogThread LogAction)}
    (h0 : logThreads.init s) (h : logThreads.Steps s run t) :
    (∀ e ∈ run, e.source.Writes e.action e.target) ↔ ∀ e ∈ run, e.source.ShortTid e.action := by
  refine h.forall_iff (I := LogThread.Inv) ?_ (fun s a t hs hn => (hs.step hn).2)
    fun s a t hs hshort hn => (hs.step hn).1 hshort
  obtain ⟨tid, htid, rfl⟩ := h0
  exact LogThread.new_inv htid

/-- A record of the level `INFO` without an error number. -/
def ImplCall.atTime (now : ℤ) (h : 1000000 ≤ now ∧ now < 253402300800 * 1000000) : ImplCall where
  now := now
  level := .info
  savedErrno := 0
  file := ascii "a.cc"
  line := 1
  strerror := []
  now_ge := h.1
  now_lt := h.2
  strerror_lt := by decide

/-- Three records: the second one in the second of the first, the third one an hour earlier. -/
def threeRecords : List LogAction :=
  [.construct (.atTime 1700000000000000 (by decide)),
    .construct (.atTime 1700000000999999 (by decide)),
    .construct (.atTime 1699996400000007 (by decide))]

theorem log_headers_fresh_backwards :
    ∃ (run : List (Transition LogThread LogAction)) (t : LogThread),
      logThreads.Steps (.new 4711) run t ∧ run.map Transition.action = threeRecords ∧
      t.written = ascii "[20231114] [21:13:20.000007Z] [  4711] [INFO ] " ∧
      ∀ e ∈ run, e.source.Writes e.action e.target := by
  obtain ⟨t, ht, hwritten⟩ := Option.map_eq_some_iff.1 (by decide +kernel :
    (logThreads.run (.new 4711) threeRecords).map (fun s => s.written) =
      some (ascii "[20231114] [21:13:20.000007Z] [  4711] [INFO ] "))
  obtain ⟨run, hrun, hmap⟩ := LTS.exists_steps_of_run ht
  have hconstruct : ∀ a ∈ run.map Transition.action, ∃ c, a = LogAction.construct c := by
    rw [hmap]
    simp [threeRecords]
  have hshort : ∀ e ∈ run, e.source.ShortTid e.action := by
    refine hrun.forall_of_invariant (I := fun s => s.gettid = 4711)
      (L := fun e => e.source.ShortTid e.action) rfl (List.forall_mem_map.1 hconstruct)
      fun s a u hs hc hn => ?_
    obtain ⟨c, rfl⟩ := hc
    refine ⟨LogThread.next_gettid hn ▸ hs, ?_⟩
    show s.gettid.toInt ≤ 999999
    rw [hs]
    decide
  exact ⟨run, t, hrun, hmap, hwritten, (log_headers_fresh_iff ⟨4711, by decide, rfl⟩ hrun).2 hshort⟩

/-- The first record of a thread with the identifier 1000000 fails the assertion on its width. -/
theorem log_header_aborts : ∃ c t,
    logThreads.Steps (.new 1000000) [⟨.new 1000000, .construct c, t⟩] t ∧
      t.failed = some (.assertion .tidLength) ∧
      ¬(LogThread.new 1000000).Writes (.construct c) t := by
  obtain ⟨t, ht, hfailed⟩ := Option.map_eq_some_iff.1 (by decide +kernel :
    (threeRecords.head?.bind fun a => logThreads.next (.new 1000000) a).map
      (fun s => s.failed) = some (some (.assertion .tidLength)))
  refine ⟨_, t, .cons ht (.nil t), hfailed, fun hwrites => ?_⟩
  rw [hwrites.1] at hfailed
  cases hfailed

end Jiangbo
