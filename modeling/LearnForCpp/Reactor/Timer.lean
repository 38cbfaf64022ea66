import LearnForCpp.Lib.Binary64
import LearnForCpp.Lib.Word

/-!
# Timestamps and timers

`timestamp/TimeStamp.h`, `reactor/Timer.h` and `reactor/Timer.cc`, and the conversion of an
expiration to the `timespec` of a timerfd in `reactor/TimerQueue.cc`.

A `Timestamp` is the integer `microSecondsSinceEpoch_`.  Arithmetic on it is that of `int64_t`,
taken to wrap; the product with an interval is that of `double`, and where its integer part does
not fit an `int64_t`, which leaves the conversion undefined, it is taken to saturate.
-/

namespace Jiangbo

namespace Timestamp

def kMicroSecondPerSecond : ℤ := 1000 * 1000

def valid (t : ℤ) : Bool := 0 < t

/-- The default constructor, and `invaild()`. -/
def invaild : ℤ := 0

/-- `static_cast<int64_t>(seconds * kMicroSecondPerSecond)`. -/
def microSeconds (seconds : Float.Model) : ℤ :=
  (seconds * Float.Model.ofInt kMicroSecondPerSecond).toInt64.toInt

def addTime (timestamp : ℤ) (seconds : Float.Model) : ℤ :=
  wrap64 (timestamp + microSeconds seconds)

/-- A positive number of seconds has a number of microseconds that is not negative. -/
theorem microSeconds_nonneg {seconds : Float.Model} (h : Float.Model.ofNat 0 < seconds) :
    0 ≤ microSeconds seconds :=
  Binary64.toInt64_mul_nonneg h (by decide +kernel)

theorem addTime_eq {now : ℤ} {seconds : Float.Model}
    (h : InInt64 (now + microSeconds seconds)) :
    addTime now seconds = now + microSeconds seconds := wrap64_eq h

end Timestamp

/-- `struct timespec`. -/
structure Timespec where
  tvSec : ℤ
  tvNsec : ℤ
  deriving DecidableEq

namespace Timespec

/-- What `timerfd_settime` accepts. -/
def Valid (ts : Timespec) : Prop := 0 ≤ ts.tvSec ∧ 0 ≤ ts.tvNsec ∧ ts.tvNsec < 10 ^ 9

def nanoseconds (ts : Timespec) : ℤ := ts.tvSec * 10 ^ 9 + ts.tvNsec

end Timespec

/-- `howMachTimeFromNow(when)` at the clock reading `now`. -/
def howMachTimeFromNow (when now : ℤ) : Timespec :=
  let microSecond := wrap64 (when - now)
  let microSecond := if microSecond < 100 then 100 else microSecond
  { tvSec := microSecond.tdiv Timestamp.kMicroSecondPerSecond
    tvNsec := microSecond.tmod Timestamp.kMicroSecondPerSecond * 1000 }

/-- The time left, but at least 100 microseconds, as a valid `timespec`. -/
theorem howMachTimeFromNow_spec {when now : ℤ} (h : InInt64 (when - now)) :
    (howMachTimeFromNow when now).Valid ∧
      (howMachTimeFromNow when now).nanoseconds = max (when - now) 100 * 1000 := by
  have hmax : (if wrap64 (when - now) < 100 then 100 else wrap64 (when - now)) =
      max (when - now) 100 := by
    rw [wrap64_eq h]
    split_ifs <;> omega
  have hpos : 0 ≤ max (when - now) 100 := by omega
  simp only [howMachTimeFromNow, hmax, Timestamp.kMicroSecondPerSecond, Timespec.Valid,
    Timespec.nanoseconds, Int.tdiv_eq_ediv_of_nonneg hpos, Int.tmod_eq_emod_of_nonneg hpos]
  generalize max (when - now) 100 = m at hpos
  omega

/-- `Timer`, without its callback. -/
structure Timer where
  interval : Float.Model
  expiration : ℤ
  sequence : ℕ
  deriving DecidableEq

namespace Timer

/-- `repeat()`. -/
def repeats (t : Timer) : Bool := Float.Model.ofNat 0 < t.interval

def restart (now : ℤ) (t : Timer) : Timer :=
  { t with expiration := if t.repeats then Timestamp.addTime now t.interval else Timestamp.invaild }

@[simp] theorem restart_sequence (now : ℤ) (t : Timer) :
    (t.restart now).sequence = t.sequence := rfl

@[simp] theorem restart_interval (now : ℤ) (t : Timer) :
    (t.restart now).interval = t.interval := rfl

theorem restart_expiration {now : ℤ} {t : Timer} (h : t.repeats = true) :
    (t.restart now).expiration = Timestamp.addTime now t.interval := if_pos h

/-- A repeating timer restarted at a positive time expires at a positive time. -/
theorem restart_pos {now : ℤ} {t : Timer} (h : t.repeats = true) (hnow : 0 < now)
    (hin : InInt64 (now + Timestamp.microSeconds t.interval)) :
    0 < (t.restart now).expiration := by
  have h0 := Timestamp.microSeconds_nonneg (of_decide_eq_true h)
  rw [restart_expiration h, Timestamp.addTime_eq hin]
  omega

end Timer

end Jiangbo
