import LearnForCpp.Logging.LogFile

/-!
# When log files are rolled

The clock is looked at when a file has grown beyond `rollSize_`, and otherwise once in 1026 records:
`count_` goes from 0 to 1025, and a record that grows the file too far leaves it alone.

`log_file_rolls_in_time` says that a file beyond `rollSize_` is left at once unless the clock shows
the second of its creation, and that a file of an earlier day gets 1026 records more at most.
-/

namespace Jiangbo

/-- What the clock returns during a call.  A reading that the call does not make is what the clock
would have returned. -/
def LogFileCall.readings : LogFileCall → List ℤ
  | .append c => [c.now, c.rollNow]
  | .flush => []

namespace LogFile

/-- How many records the calls append to the current file, until another one is in use. -/
def appendsToCurrent (pid : ℤ) (l : LogFile) : List LogFileCall → ℕ
  | [] => 0
  | c :: cs =>
      match l.call pid c with
      | .ok l' =>
          c.records.length +
            if l'.closed.length = l.closed.length then appendsToCurrent pid l' cs else 0
      | .fault _ _ => 0

/-! ### Days -/

/-- The day of an earlier second is not later. -/
theorem startOf_mono {a b : ℤ} (ha : 0 < a) (hab : a ≤ b) : startOf a ≤ startOf b := by
  have hdiv : a.tdiv kRollPerSeconds ≤ b.tdiv kRollPerSeconds := by
    rw [Int.tdiv_eq_ediv_of_nonneg ha.le, Int.tdiv_eq_ediv_of_nonneg (ha.le.trans hab)]
    exact Int.ediv_le_ediv (by decide) hab
  exact Int.mul_le_mul_of_nonneg_right hdiv (by decide)

theorem lt_of_startOf_lt {a b : ℤ} (hb : 0 < b) (h : startOf a < startOf b) : a < b := by
  by_contra hab
  have := startOf_mono hb (not_lt.1 hab)
  omega

/-! ### One append -/

variable {t : ℤ} {l l' : LogFile} {c : AppendCall} (pid : ℤ)

/-- The file after `File::append`. -/
def grown (c : AppendCall) (l : LogFile) : Option File :=
  l.file.map fun f => f.append c.fwrite c.logline

/-- What one `append` does: a roll because of the size, a check of the clock that may roll, or one
more record without either. -/
theorem append_cases {f : File} (hf : l.file = some f) :
    (l.rollSize < (f.append c.fwrite c.logline).writtenBytes ∧
      l.append pid c = .ok ({ l with file := l.grown c }.rollFile pid c.rollNow)) ∨
    (kCheckTimeRoll < l.count ∧ startOf c.now ≠ l.startOfPeriod ∧
      l.append pid c = .ok ({ l with file := l.grown c, count := 0 }.rollFile pid c.rollNow)) ∨
    (kCheckTimeRoll < l.count ∧ startOf c.now = l.startOfPeriod ∧ ∃ lastFlush,
      l.append pid c = .ok { l with file := l.grown c, count := 0, lastFlush := lastFlush }) ∨
    (l.count ≤ kCheckTimeRoll ∧
      l.append pid c = .ok { l with file := l.grown c, count := l.count + 1 }) := by
  simp only [append, grown, hf, Option.map_some]
  by_cases hsize : l.rollSize < (f.append c.fwrite c.logline).writtenBytes
  · exact .inl ⟨hsize, if_pos hsize⟩
  · rw [if_neg hsize]
    by_cases hcount : kCheckTimeRoll < l.count
    · rw [if_pos hcount]
      by_cases hperiod : startOf c.now = l.startOfPeriod
      · rw [if_neg (not_not.2 hperiod)]
        refine .inr (.inr (.inl ⟨hcount, hperiod, ?_⟩))
        by_cases hflush : l.flushInterval < c.now - l.lastFlush
        · exact ⟨c.now, if_pos hflush⟩
        · exact ⟨l.lastFlush, if_neg hflush⟩
      · exact .inr (.inl ⟨hcount, hperiod, if_pos hperiod⟩)
    · exact .inr (.inr (.inr ⟨not_lt.1 hcount, if_neg hcount⟩))

/-! ### The invariant -/

/-- The counter is in its range, and the period is that of the last roll, which is not later than
the clock `t`. -/
structure Timed (t : ℤ) (l : LogFile) : Prop where
  file : l.file.isSome
  count : l.count ≤ kCheckTimeRoll + 1
  pos : 0 < l.lastRoll
  period : l.startOfPeriod = startOf l.lastRoll
  le : l.lastRoll ≤ t

theorem Timed.mono {u : ℤ} (h : l.Timed t) (htu : t ≤ u) : l.Timed u :=
  { h with le := h.le.trans htu }

/-- A roll at a later second puts a new file to use, and one in the same second does nothing. -/
theorem Timed.rollFile {u : ℤ} (h : l.Timed t) (htu : t ≤ u) :
    (l.rollFile pid u).Timed u ∧ (l.rollFile pid u).count = l.count ∧
      (l.lastRoll < u → (l.rollFile pid u).closed.length = l.closed.length + 1) ∧
      (l.rollFile pid u).closed.length ≥ l.closed.length := by
  obtain ⟨f, hf⟩ := Option.isSome_iff_exists.1 h.file
  unfold LogFile.rollFile
  split_ifs with hu
  · have hlength : (l.closed ++ l.file.toList).length = l.closed.length + 1 := by simp [hf]
    refine ⟨⟨rfl, h.count, h.pos.trans hu, rfl, le_rfl⟩, rfl, fun _ => hlength, ?_⟩
    rw [hlength]
    omega
  · exact ⟨h.mono htu, rfl, fun hlt => absurd hlt hu, le_rfl⟩

theorem Timed.grown (h : l.Timed t) (c : AppendCall) : { l with file := l.grown c }.Timed t := by
  refine ⟨?_, h.count, h.pos, h.period, h.le⟩
  rw [show ({ l with file := l.grown c } : LogFile).file = l.grown c from rfl, LogFile.grown,
    Option.isSome_map]
  exact h.file

/-- One `append`: when the clock is at a later day than the file, it goes on with the file only
while the counter is below its bound, and counts. -/
theorem Timed.append (h : l.Timed t) (hnow : t ≤ c.now) (hroll : c.now ≤ c.rollNow) :
    ∃ l', l.append pid c = .ok l' ∧ l'.Timed c.rollNow ∧ l.closed.length ≤ l'.closed.length ∧
      (l.startOfPeriod < startOf t → l.closed.length < l'.closed.length ∨
        l'.count = l.count + 1 ∧ l'.startOfPeriod = l.startOfPeriod) := by
  obtain ⟨f, hf⟩ := Option.isSome_iff_exists.1 h.file
  have htpos : 0 < t := lt_of_lt_of_le h.pos h.le
  have hle : t ≤ c.rollNow := hnow.trans hroll
  -- a roll on a later day puts a new file to use
  have hlater : l.startOfPeriod < startOf t → l.lastRoll < c.rollNow := by
    intro hday
    rw [h.period] at hday
    exact lt_of_lt_of_le (lt_of_startOf_lt htpos hday) hle
  rcases append_cases pid (c := c) hf with
    ⟨-, heq⟩ | ⟨-, -, heq⟩ | ⟨-, hperiod, lastFlush, heq⟩ | ⟨hcount, heq⟩
  · obtain ⟨htimed, -, hnew, hge⟩ := (h.grown c).rollFile pid hle
    refine ⟨_, heq, htimed, hge, fun hday => .inl ?_⟩
    rw [hnew (hlater hday)]
    exact Nat.lt_succ_self _
  · have hreset : { l with file := l.grown c, count := 0 }.Timed t :=
      { h.grown c with count := Nat.zero_le _ }
    obtain ⟨htimed, -, hnew, hge⟩ := hreset.rollFile pid hle
    refine ⟨_, heq, htimed, hge, fun hday => .inl ?_⟩
    rw [hnew (hlater hday)]
    exact Nat.lt_succ_self _
  · refine ⟨_, heq, ?_, le_rfl, fun hday => ?_⟩
    · exact { (h.grown c).mono hle with count := Nat.zero_le _ }
    · -- the check finds the later day
      have := startOf_mono htpos hnow
      omega
  · refine ⟨_, heq, ?_, le_rfl, fun _ => .inr ⟨rfl, rfl⟩⟩
    exact { (h.grown c).mono hle with count := Nat.succ_le_succ hcount }

/-! ### Runs -/

/-- A run of calls, while the clock goes from `t` to `u`.  When it begins at a later day than the
file, what is left of the counter bounds what is appended to the file, and the counter has counted
every record if the file is still in use. -/
theorem Timed.callAll {calls : List LogFileCall} (h : l.Timed t)
    (hclock : (t :: calls.flatMap LogFileCall.readings).Pairwise (· ≤ ·)) :
    ∃ l' u, l.callAll pid calls = .ok l' ∧ l'.Timed u ∧
      (∀ v, (∀ r ∈ t :: calls.flatMap LogFileCall.readings, r ≤ v) → u ≤ v) ∧
      l.closed.length ≤ l'.closed.length ∧
      (l.startOfPeriod < startOf t →
        l.appendsToCurrent pid calls + l.count ≤ kCheckTimeRoll + 2 ∧
        (l.closed.length < l'.closed.length ∨
          (calls.flatMap LogFileCall.records).length + l.count = l'.count)) := by
  induction calls generalizing l t with
  | nil =>
    refine ⟨l, t, rfl, h, fun v hv => hv t List.mem_cons_self, le_rfl, fun _ => ⟨?_, .inr ?_⟩⟩
    · have := h.count
      rw [appendsToCurrent]
      omega
    · exact Nat.zero_add _
  | cons call calls ih =>
    cases call with
    | flush =>
      obtain ⟨f, hf⟩ := Option.isSome_iff_exists.1 h.file
      have hflush : l.flush = .ok l := by simp only [flush, hf]
      obtain ⟨l', u, hrun, hrest⟩ := ih h hclock
      refine ⟨l', u, ?_, ?_⟩
      · rw [LogFile.callAll, call, hflush, Outcome.bind_ok, hrun]
      · rw [appendsToCurrent, call, hflush]
        simpa [LogFileCall.records, LogFileCall.readings] using hrest
    | append c =>
      have hreadings : (t :: c.now :: c.rollNow ::
          calls.flatMap LogFileCall.readings).Pairwise (· ≤ ·) := hclock
      -- an append reads the clock once, and again when it rolls
      have htail := hreadings.of_cons.of_cons
      have hnow : t ≤ c.now := List.rel_of_pairwise_cons hreadings List.mem_cons_self
      have hroll : c.now ≤ c.rollNow :=
        List.rel_of_pairwise_cons hreadings.of_cons List.mem_cons_self
      obtain ⟨l₁, happend, h₁, hle₁, hday₁⟩ := h.append pid hnow hroll
      obtain ⟨l', u, hrun, h', hu, hle', hday'⟩ := ih h₁ htail
      refine ⟨l', u, ?_, h', fun v hv => ?_, hle₁.trans hle', fun hday => ?_⟩
      · rw [LogFile.callAll, call, happend, Outcome.bind_ok, hrun]
      · exact hu v fun r hr => hv r (List.mem_cons_of_mem _ (List.mem_cons_of_mem _ hr))
      · have hcount := h.count
        rw [appendsToCurrent, call, happend]
        simp only [LogFileCall.records, List.length_singleton, List.flatMap_cons,
          List.length_append]
        rcases hday₁ hday with hnew | ⟨hcount₁, hperiod⟩
        · -- another file is in use after this record
          rw [if_neg (by omega)]
          exact ⟨by omega, .inl (by omega)⟩
        -- the file is the same and the clock still ahead of it, so the rest of the run counts on
        · have hlater : l₁.startOfPeriod < startOf c.rollNow := by
            have htpos := lt_of_lt_of_le h.pos h.le
            have := startOf_mono htpos (hnow.trans hroll)
            omega
          obtain ⟨happends, hcounted⟩ := hday' hlater
          refine ⟨?_, ?_⟩
          · split_ifs <;> omega
          · rcases hcounted with hnew | hcounted
            · exact .inl (by omega)
            · exact .inr (by omega)

end LogFile

/-- **Rolling is timely.** After any calls: an append that leaves the file beyond `rollSize_` at a
later second than `lastRoll_` leaves an empty file in use; and when the clock has come to a later
day than `startOfPeriod_`, at most 1026 records more go to the file, so that after 1026 of them
another one is in use. -/
theorem log_file_rolls_in_time (pid : ℤ) (basename : Bytes) (rollSize : ℕ) (flushInterval now : ℤ)
    (before after : List LogFileCall) (t : ℤ) (hbasename : 47 ∉ basename) (hnow : 0 < now)
    (hclock : (now :: (before.flatMap LogFileCall.readings ++
      t :: after.flatMap LogFileCall.readings)).Pairwise (· ≤ ·)) :
    ∃ l₀ l l' : LogFile, LogFile.new pid basename rollSize flushInterval now = .ok l₀ ∧
      l₀.callAll pid before = .ok l ∧ l.callAll pid after = .ok l' ∧
      (∀ c f, l.file = some f →
        l.rollSize < (f.append c.fwrite c.logline).writtenBytes → l.lastRoll < c.rollNow →
        ∃ u g, l.append pid c = .ok u ∧ u.closed = l.closed ++ [f.append c.fwrite c.logline] ∧
          u.file = some g ∧ g.content = [] ∧ g.writtenBytes = 0) ∧
      (l.startOfPeriod < LogFile.startOf t →
        l.appendsToCurrent pid after ≤ 1026 ∧
          (1026 ≤ (after.flatMap LogFileCall.records).length →
            l.closed.length < l'.closed.length)) := by
  have hnew : ∃ l, LogFile.new pid basename rollSize flushInterval now = .ok l ∧ l.Timed now := by
    refine ⟨_, by rw [LogFile.new, Outcome.check_pos (by simpa using hbasename)]; rfl, ?_⟩
    rw [LogFile.rollFile, if_pos hnow]
    exact ⟨rfl, Nat.zero_le _, hnow, rfl, le_rfl⟩
  obtain ⟨l₀, hl₀, h₀⟩ := hnew
  rw [← List.cons_append] at hclock
  obtain ⟨hbefore, hafter, hcross⟩ := List.pairwise_append.1 hclock
  obtain ⟨l, u, hl, h, hu, -, -⟩ := h₀.callAll pid hbefore
  have ht : u ≤ t := hu t fun r hr => hcross r hr t List.mem_cons_self
  obtain ⟨l', u', hl', h', -, -, hday⟩ := (h.mono ht).callAll pid hafter
  refine ⟨l₀, l, l', hl₀, hl, hl', fun c f hf hsize hlater => ?_, fun hperiod => ?_⟩
  · have hroll : l.append pid c =
        .ok ({ l with file := some (f.append c.fwrite c.logline) }.rollFile pid c.rollNow) := by
      simp only [LogFile.append, hf, if_pos hsize]
    refine ⟨_, ⟨LogFile.getLogFileName l.basename pid c.rollNow, [], 0⟩, hroll, ?_, ?_, rfl, rfl⟩
    · rw [LogFile.rollFile, if_pos hlater]
      rfl
    · rw [LogFile.rollFile, if_pos hlater]
  · obtain ⟨happends, hcounted⟩ := hday hperiod
    have hcount' := h'.count
    have hcheck : LogFile.kCheckTimeRoll = 1024 := rfl
    refine ⟨by omega, fun hrecords => ?_⟩
    rcases hcounted with hnew | hcounted
    · exact hnew
    · omega

/-- The next day's records, one at noon after the other. -/
theorem log_file_rolls_in_time_daily : ∃ l l' : LogFile,
    LogFile.new 7 (ascii "log") 1000000 3 100 = .ok l ∧
      l.callAll 7 (List.replicate 1026 (.append ⟨ascii "a", fun _ => 1, 129600, 129600⟩)) =
        .ok l' ∧ l.closed.length < l'.closed.length := by
  have hclock : ((100 : ℤ) :: (([] : List LogFileCall).flatMap LogFileCall.readings ++ 129600 ::
      (List.replicate 1026 (LogFileCall.append
        ⟨ascii "a", fun _ => 1, 129600, 129600⟩)).flatMap LogFileCall.readings)).Pairwise
          (· ≤ ·) := by
    have hmem : ∀ r ∈ (129600 : ℤ) :: (List.replicate 1026 (LogFileCall.append
        ⟨ascii "a", fun _ => 1, 129600, 129600⟩)).flatMap LogFileCall.readings, r = 129600 := by
      intro r hr
      rcases List.mem_cons.1 hr with hr | hr
      · exact hr
      · obtain ⟨call, hcall, hr⟩ := List.mem_flatMap.1 hr
        obtain rfl := List.eq_of_mem_replicate hcall
        simpa [LogFileCall.readings] using hr
    refine List.pairwise_cons.2 ⟨fun r hr => ?_, List.pairwise_iff_forall_sublist.2 ?_⟩
    · rw [hmem r hr]
      decide
    · intro a b hab
      rw [hmem a (hab.subset (by simp)), hmem b (hab.subset (by simp))]
  obtain ⟨l₀, l, l', hl₀, hl, hl', -, hday⟩ := log_file_rolls_in_time 7 (ascii "log") 1000000 3 100
    [] (List.replicate 1026 (.append ⟨ascii "a", fun _ => 1, 129600, 129600⟩)) 129600
    (by decide) (by decide) hclock
  obtain rfl : l₀ = l := Outcome.ok.inj hl
  have hperiod : ((LogFile.new 7 (ascii "log") 1000000 3 100).state).startOfPeriod = 0 := by
    decide +kernel
  rw [hl₀, Outcome.state_ok] at hperiod
  have hlater : l₀.startOfPeriod < LogFile.startOf 129600 := by
    rw [hperiod]
    decide
  refine ⟨l₀, l', hl₀, hl', (hday hlater).2 ?_⟩
  rw [List.length_flatMap, List.map_replicate, List.sum_replicate]
  decide

end Jiangbo
