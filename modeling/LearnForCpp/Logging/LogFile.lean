import LearnForCpp.Lib.Calendar
import LearnForCpp.Lib.Word
import LearnForCpp.Logging.Logging

/-!
# Log files

`logging/LogFile.h` and `logging/LogFile.cc`: `append` writes a record to the current file, and
rolls to a new one when the file has grown beyond `rollSize_`, or at a check of the clock every so
many records when a day has passed.

What the clock and `fwrite` return comes with each call.  A file is the bytes that were handed to
its stream; flushing does not change them.  With `mutex_` a call is one section, so that calls come
one after the other either way.
-/

namespace Jiangbo

/-- `LogFile::File`. -/
structure LogFile.File where
  name : Bytes
  content : Bytes
  writtenBytes : ℕ
  deriving DecidableEq

structure LogFile where
  basename : Bytes
  rollSize : ℕ
  flushInterval : ℤ
  count : ℕ
  startOfPeriod : ℤ
  lastRoll : ℤ
  lastFlush : ℤ
  file : Option LogFile.File
  /-- The files before `file_`, in the order in which they were created. -/
  closed : List LogFile.File
  deriving DecidableEq

/-- A call of `append`, with what it gets from the system. -/
structure AppendCall where
  logline : Bytes
  /-- How many bytes the `k`-th `fwrite` would take; it writes no more than it is given. -/
  fwrite : ℕ → ℕ
  /-- `time(NULL)` in `append_unlocked`. -/
  now : ℤ
  /-- `time(NULL)` in `getLogFileName`. -/
  rollNow : ℤ

inductive LogFileCall
  | append (c : AppendCall)
  | flush

namespace LogFile

def kCheckTimeRoll : ℕ := 1024

def kRollPerSeconds : ℤ := 60 * 60 * 24

namespace File

/-- What `fwrite` has taken. -/
def write (bytes : Bytes) (f : File) : File := { f with content := f.content ++ bytes }

/-- The loop of `append`, after `k` calls of `fwrite` that have written `n` bytes. -/
def retry (fwrite : ℕ → ℕ) (k : ℕ) (logline : Bytes) (n : ℕ) (f : File) : File :=
  let remain := logline.length - n
  if remain = 0 then f
  else
    let x := min (fwrite k) remain
    if x = 0 then f
    else retry fwrite (k + 1) logline (n + x) (f.write ((logline.drop n).take x))
termination_by logline.length - n

def append (fwrite : ℕ → ℕ) (logline : Bytes) (f : File) : File :=
  let n := min (fwrite 0) logline.length
  let f := (f.write (logline.take n)).retry fwrite 1 logline n
  { f with writtenBytes := SizeT.add f.writtenBytes logline.length }

end File

/-- `gmtime_r`, with years of any size. -/
def gmtime (time : ℤ) : Tm where
  year := (Calendar.dateOf (time / 86400)).year - 1900
  mon := (Calendar.dateOf (time / 86400)).month
  mday := (Calendar.dateOf (time / 86400)).day + 1
  hour := time % 86400 / 3600
  min := time % 3600 / 60
  sec := time % 60

/-- `strftime` with `".%Y%m%d-%H%M%S"`. -/
def strftime (tm : Tm) : Bytes :=
  ascii "." ++ percentD 0 (tm.year + 1900) ++ percent0D 2 (tm.mon + 1) ++ percent0D 2 tm.mday ++
    ascii "-" ++ percent0D 2 tm.hour ++ percent0D 2 tm.min ++ percent0D 2 tm.sec

/-- `getLogFileName`, in the process `pid` at the time `now`. -/
def getLogFileName (basename : Bytes) (pid now : ℤ) : Bytes :=
  basename ++ strftime (gmtime now) ++ (ascii "." ++ percentD 0 pid) ++ ascii ".log"

/-- The second in which the day of `now` begins. -/
def startOf (now : ℤ) : ℤ := now.tdiv kRollPerSeconds * kRollPerSeconds

def rollFile (pid now : ℤ) (l : LogFile) : LogFile :=
  if l.lastRoll < now then
    { l with
      lastRoll := now
      lastFlush := now
      startOfPeriod := startOf now
      file := some ⟨getLogFileName l.basename pid now, [], 0⟩
      closed := l.closed ++ l.file.toList }
  else l

/-- The constructor. -/
def new (pid : ℤ) (basename : Bytes) (rollSize : ℕ) (flushInterval now : ℤ) : Result LogFile :=
  (Outcome.check (47 ∉ basename) (.assertion .basenameSlash)
    ⟨basename, rollSize, flushInterval, 0, 0, 0, 0, none, []⟩).bind fun l =>
      .ok (l.rollFile pid now)

/-- `append`, that is `append_unlocked`. -/
def append (pid : ℤ) (c : AppendCall) (l : LogFile) : Result LogFile :=
  match l.file with
  | none => .fault (.assertion .scopedPtr) l
  | some file =>
      let f := file.append c.fwrite c.logline
      let l := { l with file := some f }
      if l.rollSize < f.writtenBytes then .ok (l.rollFile pid c.rollNow)
      else if kCheckTimeRoll < l.count then
        -- the clock is read once in so many records: for a new day, or to flush
        let l := { l with count := 0 }
        if startOf c.now ≠ l.startOfPeriod then .ok (l.rollFile pid c.rollNow)
        else if l.flushInterval < c.now - l.lastFlush then .ok { l with lastFlush := c.now }
        else .ok l
      else .ok { l with count := l.count + 1 }

def flush (l : LogFile) : Result LogFile :=
  match l.file with
  | none => .fault (.assertion .scopedPtr) l
  | some _ => .ok l

def call (pid : ℤ) (l : LogFile) : LogFileCall → Result LogFile
  | .append c => l.append pid c
  | .flush => l.flush

/-- The calls one after the other. -/
def callAll (pid : ℤ) (l : LogFile) : List LogFileCall → Result LogFile
  | [] => .ok l
  | c :: cs => (l.call pid c).bind fun l => callAll pid l cs

/-- All files, in the order in which they were created. -/
def files (l : LogFile) : List File := l.closed ++ l.file.toList

end LogFile

/-- No retry of `fwrite` returns 0. -/
def AppendCall.Progresses (c : AppendCall) : Prop := ∀ k, 0 < k → 0 < c.fwrite k

/-- The records that the calls append. -/
def LogFileCall.records : LogFileCall → List Bytes
  | .append c => [c.logline]
  | .flush => []

/-! ### A record is written as a whole -/

namespace LogFile

namespace File

variable {fwrite : ℕ → ℕ} {logline : Bytes}

/-- The loop goes on at the first byte that is not written yet, until the last one is. -/
theorem retry_eq (h : ∀ k, 0 < k → 0 < fwrite k) {k : ℕ} (hk : 0 < k) (n : ℕ) (f : File) :
    f.retry fwrite k logline n = f.write (logline.drop n) := by
  induction hm : logline.length - n using Nat.strong_induction_on generalizing k n f with
  | _ m ih =>
    subst hm
    rw [retry]
    by_cases hremain : logline.length - n = 0
    · rw [if_pos hremain, List.drop_of_length_le (by omega), write, List.append_nil]
    -- this `fwrite` is a later one, so it writes something
    · have hpos := h k hk
      have hx : min (fwrite k) (logline.length - n) ≠ 0 := by omega
      rw [if_neg hremain, if_neg hx, ih _ (by omega) (by omega) _ _ rfl]
      simp only [write, List.append_assoc]
      rw [← List.drop_drop, List.take_append_drop]

theorem append_content (h : ∀ k, 0 < k → 0 < fwrite k) (f : File) :
    (f.append fwrite logline).content = f.content ++ logline := by
  simp only [append]
  rw [retry_eq h Nat.one_pos]
  simp only [write, List.append_assoc, List.take_append_drop]

theorem retry_name (k n : ℕ) (f : File) : (f.retry fwrite k logline n).name = f.name := by
  induction hm : logline.length - n using Nat.strong_induction_on generalizing k n f with
  | _ m ih =>
    subst hm
    rw [retry]
    by_cases hremain : logline.length - n = 0
    · rw [if_pos hremain]
    · by_cases hx : min (fwrite k) (logline.length - n) = 0
      · rw [if_neg hremain, if_pos hx]
      · rw [if_neg hremain, if_neg hx, ih _ (by omega) _ _ _ rfl]
        rfl

theorem append_name (f : File) : (f.append fwrite logline).name = f.name := retry_name ..

end File

end LogFile

/-! ### The names of the files -/

/-- Plain characters are one byte each. -/
theorem map_toUInt8_inj {cs ds : List Char} (hc : ∀ c ∈ cs, c.toNat < 256)
    (hd : ∀ d ∈ ds, d.toNat < 256) (h : cs.map Char.toUInt8 = ds.map Char.toUInt8) : cs = ds := by
  induction cs generalizing ds with
  | nil =>
    cases ds with
    | nil => rfl
    | cons d ds => simp at h
  | cons c cs ih =>
    cases ds with
    | nil => simp at h
    | cons d ds =>
      obtain ⟨hc0, hc⟩ := List.forall_mem_cons.1 hc
      obtain ⟨hd0, hd⟩ := List.forall_mem_cons.1 hd
      simp only [List.map_cons, List.cons.injEq] at h
      have hcd : c.toNat = d.toNat := by
        have h8 := congrArg UInt8.toNat h.1
        simp only [Char.toUInt8, UInt32.toNat_toUInt8] at h8
        show c.val.toNat = d.val.toNat
        have hc1 : c.val.toNat < 256 := hc0
        have hd1 : d.val.toNat < 256 := hd0
        omega
      rw [ih hc hd h.2, Char.toNat_inj.1 hcd]

theorem digits_lt {n : ℕ} : ∀ c ∈ Nat.toDigits 10 n, c.isDigit = true ∧ c.toNat < 256 := by
  intro c hc
  have h := Nat.isDigit_of_mem_toDigits (by omega) (by omega) hc
  refine ⟨h, ?_⟩
  simp only [Char.isDigit, Bool.and_eq_true, decide_eq_true_eq, ge_iff_le,
    UInt32.le_iff_toNat_le] at h
  have h2 := h.2
  have h3 : ('9' : Char).val.toNat = 57 := rfl
  show c.val.toNat < 256
  omega

theorem repr_toList (v : ℤ) : v.repr.toList =
    if v < 0 then '-' :: Nat.toDigits 10 v.natAbs else Nat.toDigits 10 v.natAbs := by
  cases v with
  | ofNat m =>
    rw [if_neg (by simp)]
    exact Nat.toList_repr
  | negSucc m =>
    rw [if_pos (Int.negSucc_lt_zero m)]
    simp [Int.repr, Int.natAbs]

theorem ascii_repr_injective : Function.Injective fun v : ℤ => ascii v.repr := by
  intro v w h
  have hlt : ∀ x : ℤ, ∀ c ∈ x.repr.toList, c.toNat < 256 := by
    intro x c hc
    rw [repr_toList] at hc
    split_ifs at hc with hx
    · rcases List.mem_cons.1 hc with rfl | hc
      · decide
      · exact (digits_lt c hc).2
    · exact (digits_lt c hc).2
  have heq := map_toUInt8_inj (hlt v) (hlt w) h
  have hinj : ∀ m n : ℕ, Nat.toDigits 10 m = Nat.toDigits 10 n → m = n := by
    intro m n hmn
    rw [← Nat.ofDigitChars_ten_toDigits (n := m), hmn, Nat.ofDigitChars_ten_toDigits]
  -- a digit is not a sign
  have hsign : ∀ m n : ℕ, Nat.toDigits 10 m ≠ '-' :: Nat.toDigits 10 n := by
    intro m n hmn
    have h := (digits_lt (n := m) '-' (hmn ▸ List.mem_cons_self)).1
    revert h
    decide
  rw [repr_toList, repr_toList] at heq
  split_ifs at heq with hv hw hw
  · have := hinj _ _ (List.cons.inj heq).2
    omega
  · exact absurd heq.symm (hsign _ _)
  · exact absurd heq (hsign _ _)
  · have := hinj _ _ heq
    omega

/-- The value of a number with two digits. -/
def twoDigits (text : Bytes) : ℕ := text.foldl (fun v d => 10 * v + (d.toNat - 48)) 0

theorem percent0D_two :
    ∀ v : Fin 100, (percent0D 2 v).length = 2 ∧ twoDigits (percent0D 2 v) = v := by
  decide +kernel

theorem percent0D_length {v : ℤ} (hv : 0 ≤ v ∧ v < 100) : (percent0D 2 v).length = 2 := by
  obtain ⟨n, rfl⟩ := Int.eq_ofNat_of_zero_le hv.1
  exact (percent0D_two ⟨n, by omega⟩).1

theorem percent0D_inj {v w : ℤ} (hv : 0 ≤ v ∧ v < 100) (hw : 0 ≤ w ∧ w < 100)
    (h : percent0D 2 v = percent0D 2 w) : v = w := by
  obtain ⟨m, rfl⟩ := Int.eq_ofNat_of_zero_le hv.1
  obtain ⟨n, rfl⟩ := Int.eq_ofNat_of_zero_le hw.1
  have hm := (percent0D_two ⟨m, by omega⟩).2
  have hn := (percent0D_two ⟨n, by omega⟩).2
  have heq := congrArg twoDigits h
  dsimp only at hm hn heq
  omega

namespace LogFile

/-- The fields with two digits. -/
structure InRange (tm : Tm) : Prop where
  mon : 0 ≤ tm.mon + 1 ∧ tm.mon + 1 < 100
  mday : 0 ≤ tm.mday ∧ tm.mday < 100
  hour : 0 ≤ tm.hour ∧ tm.hour < 100
  min : 0 ≤ tm.min ∧ tm.min < 100
  sec : 0 ≤ tm.sec ∧ tm.sec < 100

theorem gmtime_inRange (time : ℤ) : InRange (gmtime time) := by
  have hdate := Calendar.dateOf_lt (time / 86400)
  constructor
  all_goals dsimp only [gmtime]; omega

theorem gmtime_injective : Function.Injective gmtime := by
  intro a b h
  simp only [gmtime, Tm.mk.injEq] at h
  obtain ⟨hyear, hmon, hmday, hhour, hmin, hsec⟩ := h
  have hdate : Calendar.dateOf (a / 86400) = Calendar.dateOf (b / 86400) := by
    rw [Calendar.Date.mk.injEq]
    omega
  have hday := Calendar.dateOf_injective hdate
  omega

theorem strftime_inj {tm tm' : Tm} (htm : InRange tm) (htm' : InRange tm')
    (h : strftime tm = strftime tm') : tm = tm' := by
  unfold strftime at h
  obtain ⟨h, hsec⟩ := List.append_inj' h
    (by rw [percent0D_length htm.sec, percent0D_length htm'.sec])
  obtain ⟨h, hmin⟩ := List.append_inj' h
    (by rw [percent0D_length htm.min, percent0D_length htm'.min])
  obtain ⟨h, hhour⟩ := List.append_inj' h
    (by rw [percent0D_length htm.hour, percent0D_length htm'.hour])
  obtain ⟨h, hmday⟩ := List.append_inj' (List.append_cancel_right h)
    (by rw [percent0D_length htm.mday, percent0D_length htm'.mday])
  obtain ⟨h, hmon⟩ := List.append_inj' h
    (by rw [percent0D_length htm.mon, percent0D_length htm'.mon])
  have hyear : tm.year + 1900 = tm'.year + 1900 := by
    refine ascii_repr_injective ?_
    simpa [percentD] using List.append_cancel_left h
  have hmon' := percent0D_inj htm.mon htm'.mon hmon
  have hmday' := percent0D_inj htm.mday htm'.mday hmday
  have hhour' := percent0D_inj htm.hour htm'.hour hhour
  have hmin' := percent0D_inj htm.min htm'.min hmin
  have hsec' := percent0D_inj htm.sec htm'.sec hsec
  cases tm
  cases tm'
  rw [Tm.mk.injEq]
  dsimp only at *
  omega

/-- Files that are created at different times have different names. -/
theorem getLogFileName_injective (basename : Bytes) (pid : ℤ) :
    Function.Injective (getLogFileName basename pid) := by
  intro a b h
  unfold getLogFileName at h
  refine gmtime_injective (strftime_inj (gmtime_inRange a) (gmtime_inRange b) ?_)
  exact List.append_cancel_left (List.append_cancel_right (List.append_cancel_right h))

/-! ### Runs -/

/-- The files hold the records of the groups, one group a file, and `group` is in the current one;
they were created at the `times`. -/
structure Holds (pid : ℤ) (groups : List (List Bytes)) (group : List Bytes) (times : List ℤ)
    (l : LogFile) : Prop where
  file : ∃ f, l.file = some f ∧ f.content = group.flatten
  closed : l.closed.map File.content = groups.map List.flatten
  names : l.files.map File.name = times.map (getLogFileName l.basename pid)
  increasing : times.Pairwise (· < ·)
  le_lastRoll : ∀ t ∈ times, t ≤ l.lastRoll

variable {pid : ℤ} {groups : List (List Bytes)} {group : List Bytes} {times : List ℤ}
  {l l' : LogFile}

theorem Holds.nodup (h : l.Holds pid groups group times) : (l.files.map File.name).Nodup := by
  rw [h.names]
  exact List.Nodup.map (getLogFileName_injective l.basename pid) (h.increasing.imp ne_of_lt)

theorem Holds.files_content (h : l.Holds pid groups group times) :
    l.files.map File.content = (groups ++ [group]).map List.flatten := by
  obtain ⟨f, hf, hcontent⟩ := h.file
  rw [files, hf, List.map_append, h.closed, List.map_append]
  simp [hcontent]

/-- Only the files, the name and the time of the last roll matter. -/
theorem Holds.congr (h : l.Holds pid groups group times) (hfile : l'.file = l.file)
    (hclosed : l'.closed = l.closed) (hbasename : l'.basename = l.basename)
    (hlastRoll : l'.lastRoll = l.lastRoll) : l'.Holds pid groups group times := by
  have hfiles : l'.files = l.files := by rw [files, files, hfile, hclosed]
  refine ⟨?_, ?_, ?_, h.increasing, ?_⟩
  · rw [hfile]
    exact h.file
  · rw [hclosed]
    exact h.closed
  · rw [hfiles, hbasename]
    exact h.names
  · rw [hlastRoll]
    exact h.le_lastRoll

/-- A roll begins a new file, unless the clock is not beyond the last roll. -/
theorem Holds.rollFile (h : l.Holds pid groups group times) (now : ℤ) :
    ∃ groups' group' times', (l.rollFile pid now).Holds pid groups' group' times' ∧
      (groups' ++ [group']).flatten = (groups ++ [group]).flatten := by
  unfold LogFile.rollFile
  split_ifs with hnow
  · refine ⟨groups ++ [group], [], times ++ [now], ⟨⟨_, rfl, rfl⟩, h.files_content, ?_, ?_, ?_⟩,
      by simp⟩
    · show (l.files ++ [(⟨getLogFileName l.basename pid now, [], 0⟩ : File)]).map File.name = _
      rw [List.map_append, h.names, List.map_append]
      rfl
    · refine List.pairwise_append.2 ⟨h.increasing, List.pairwise_singleton .., fun t ht u hu => ?_⟩
      rw [List.mem_singleton.1 hu]
      exact lt_of_le_of_lt (h.le_lastRoll t ht) hnow
    · intro t ht
      rcases List.mem_append.1 ht with ht | ht
      · exact le_of_lt (lt_of_le_of_lt (h.le_lastRoll t ht) hnow)
      · exact le_of_eq (List.mem_singleton.1 ht)
  · exact ⟨groups, group, times, h, rfl⟩

/-- The record goes to the current file. -/
theorem Holds.appended {f : File} {c : AppendCall} (h : l.Holds pid groups group times)
    (hf : l.file = some f) (hc : c.Progresses) :
    { l with file := some (f.append c.fwrite c.logline) }.Holds pid groups (group ++ [c.logline])
      times := by
  obtain ⟨f', hf', hcontent⟩ := h.file
  obtain rfl : f = f' := Option.some.inj (hf.symm.trans hf')
  refine ⟨⟨_, rfl, ?_⟩, h.closed, ?_, h.increasing, h.le_lastRoll⟩
  · rw [File.append_content hc, hcontent, List.flatten_append]
    simp
  · have hnames := h.names
    rw [files, hf, List.map_append] at hnames
    show (l.closed ++ [f.append c.fwrite c.logline]).map File.name = _
    rw [List.map_append, ← hnames]
    simp [File.append_name]

theorem Holds.append {c : AppendCall} (h : l.Holds pid groups group times) (hc : c.Progresses) :
    ∃ l' groups' group' times', l.append pid c = .ok l' ∧ l'.Holds pid groups' group' times' ∧
      (groups' ++ [group']).flatten = (groups ++ [group]).flatten ++ [c.logline] := by
  obtain ⟨f, hf, -⟩ := h.file
  have happended := h.appended hf hc
  have hrecords : (groups ++ [group ++ [c.logline]]).flatten =
      (groups ++ [group]).flatten ++ [c.logline] := by simp
  simp only [LogFile.append, hf]
  split_ifs
  · obtain ⟨groups', group', times', hroll, heq⟩ := happended.rollFile c.rollNow
    exact ⟨_, groups', group', times', rfl, hroll, heq.trans hrecords⟩
  · have hcount : { l with file := some (f.append c.fwrite c.logline), count := 0 }.Holds pid groups
        (group ++ [c.logline]) times := happended.congr rfl rfl rfl rfl
    obtain ⟨groups', group', times', hroll, heq⟩ := hcount.rollFile c.rollNow
    exact ⟨_, groups', group', times', rfl, hroll, heq.trans hrecords⟩
  · exact ⟨_, groups, _, times, rfl, happended.congr rfl rfl rfl rfl, hrecords⟩
  · exact ⟨_, groups, _, times, rfl, happended.congr rfl rfl rfl rfl, hrecords⟩
  · exact ⟨_, groups, _, times, rfl, happended.congr rfl rfl rfl rfl, hrecords⟩

theorem Holds.callAll {calls : List LogFileCall} (h : l.Holds pid groups group times)
    (hc : ∀ c, .append c ∈ calls → c.Progresses) :
    ∃ l' groups' group' times', l.callAll pid calls = .ok l' ∧ l'.Holds pid groups' group' times' ∧
      (groups' ++ [group']).flatten =
        (groups ++ [group]).flatten ++ calls.flatMap LogFileCall.records := by
  induction calls generalizing l groups group times with
  | nil => exact ⟨l, groups, group, times, rfl, h, by simp⟩
  | cons call calls ih =>
    have hcalls : ∀ c, LogFileCall.append c ∈ calls → c.Progresses :=
      fun c hmem => hc c (List.mem_cons_of_mem _ hmem)
    cases call with
    | append c =>
      obtain ⟨l₁, groups₁, group₁, times₁, happend, h₁, heq₁⟩ := h.append (hc c List.mem_cons_self)
      obtain ⟨l₂, groups₂, group₂, times₂, hrest, h₂, heq₂⟩ := ih h₁ hcalls
      refine ⟨l₂, groups₂, group₂, times₂, ?_, h₂, ?_⟩
      · rw [LogFile.callAll, call, happend, Outcome.bind_ok, hrest]
      · rw [heq₂, heq₁, List.flatMap_cons, List.append_assoc]
        rfl
    | flush =>
      obtain ⟨l₂, groups₂, group₂, times₂, hrest, h₂, heq₂⟩ := ih h hcalls
      obtain ⟨f, hf, -⟩ := h.file
      refine ⟨l₂, groups₂, group₂, times₂, ?_, h₂, ?_⟩
      · simp only [LogFile.callAll, call, flush, hf, Outcome.bind_ok, hrest]
      · rw [heq₂, List.flatMap_cons]
        rfl

end LogFile

/-- **Rolling keeps the records.** Whatever the clock returns after a first positive reading, and
however `fwrite` cuts the records up, the files hold all records in order, each of them in one
file, and no two files have the same name. -/
theorem log_file_keeps_records (pid : ℤ) (basename : Bytes) (rollSize : ℕ) (flushInterval now : ℤ)
    (calls : List LogFileCall) (hbasename : 47 ∉ basename) (hnow : 0 < now)
    (hcalls : ∀ c, .append c ∈ calls → c.Progresses) :
    ∃ (l l' : LogFile) (groups : List (List Bytes)),
      LogFile.new pid basename rollSize flushInterval now = .ok l ∧
      l.callAll pid calls = .ok l' ∧
      l'.files.map LogFile.File.content = groups.map List.flatten ∧
      groups.flatten = calls.flatMap LogFileCall.records ∧
      (l'.files.map LogFile.File.content).flatten =
        (calls.flatMap LogFileCall.records).flatten ∧
      (l'.files.map LogFile.File.name).Nodup := by
  have hnew : ∃ l, LogFile.new pid basename rollSize flushInterval now = .ok l ∧
      l.Holds pid [] [] [now] := by
    refine ⟨_, by rw [LogFile.new, Outcome.check_pos (by simpa using hbasename)]; rfl, ?_⟩
    rw [LogFile.rollFile, if_pos hnow]
    exact ⟨⟨_, rfl, rfl⟩, rfl, rfl, List.pairwise_singleton .., by simp⟩
  obtain ⟨l, hl, h⟩ := hnew
  obtain ⟨l', groups, group, times, hcall, h', heq⟩ := h.callAll hcalls
  rw [show ([] ++ [[]] : List (List Bytes)).flatten = [] from rfl, List.nil_append] at heq
  refine ⟨l, l', groups ++ [group], hl, hcall, h'.files_content, heq, ?_, h'.nodup⟩
  rw [h'.files_content, ← heq, List.flatten_flatten]

/-- The first roll comes too early for the clock, which has gone back, and the second does not. -/
theorem log_file_keeps_records_rolled : ∃ l l' : LogFile,
    LogFile.new 7 (ascii "log") 3 3 100 = .ok l ∧
      l'.files.map LogFile.File.content = [ascii "helloab", ascii "c"] ∧
      (l'.files.map LogFile.File.content).flatten = ascii "helloabc" ∧
      (l'.files.map LogFile.File.name).Nodup := by
  let calls : List LogFileCall :=
    [.append ⟨ascii "hello", fun _ => 2, 100, 90⟩, .append ⟨ascii "ab", fun _ => 1, 100, 200⟩,
      .flush, .append ⟨ascii "c", fun k => k, 50, 50⟩]
  have hcalls : ∀ c, .append c ∈ calls → c.Progresses := by
    intro c hc k hk
    simp only [calls, List.mem_cons, LogFileCall.append.injEq, reduceCtorEq, List.not_mem_nil,
      or_false, false_or] at hc
    rcases hc with rfl | rfl | rfl
    · show 0 < 2
      omega
    · show 0 < 1
      omega
    · exact hk
  obtain ⟨l, l', groups, hnew, hcall, -, -, hcontent, hnames⟩ :=
    log_file_keeps_records 7 (ascii "log") 3 3 100 calls (by decide +kernel) (by omega) hcalls
  have hfiles :
      (LogFile.new 7 (ascii "log") 3 3 100).bind (fun l => l.callAll 7 calls) = .ok l' := by
    rw [hnew]
    exact hcall
  have hend :
      ((LogFile.new 7 (ascii "log") 3 3 100).bind fun l => l.callAll 7 calls).state.files.map
        LogFile.File.content = [ascii "helloab", ascii "c"] := by decide +kernel
  rw [hfiles] at hend
  exact ⟨l, l', hnew, hend, hcontent.trans (by decide +kernel), hnames⟩

end Jiangbo
