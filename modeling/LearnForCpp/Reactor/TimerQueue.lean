import LearnForCpp.Fault
import LearnForCpp.Lib.SortedSet
import LearnForCpp.Lib.Transition
import LearnForCpp.Reactor.Timer

/-!
# The timer queue

`reactor/TimerQueue.cc`.  A `Timer *` is an address, and `heap` says which addresses hold a timer:
`new` gives one that holds none, possibly one that was deleted before, and `delete` takes it away.

`addTimer` creates the timer in any thread at any time; `addTimerInLoop` runs later in the loop
thread, or at once when the caller is a callback.  The last statement of `addTimer`, which reads
`sequence()` of the timer for the `TimerId`, is left out.  `handleRead` is taken apart where user
code runs: the read of the timerfd with the extraction of the batch, each call of a callback, and
`reset`.  Between the callbacks the loop thread may add timers.  Every clock reading is in an
action.
-/

namespace Jiangbo

/-- `TimerQueue::Entry`, the pair of an expiration and a `Timer *`. -/
structure Entry where
  first : ℤ
  second : ℕ
  deriving DecidableEq

namespace Entry

/-- `std::pair` compares in the lexicographic order. -/
instance : LinearOrder Entry :=
  LinearOrder.lift' (fun e => toLex (e.first, e.second)) fun e f h => by
    cases e; cases f; simpa using h

theorem lt_iff {e f : Entry} :
    e < f ↔ e.first < f.first ∨ e.first = f.first ∧ e.second < f.second :=
  Prod.Lex.lt_iff

theorem first_le {e f : Entry} (h : e ≤ f) : e.first ≤ f.first := by
  rcases h.lt_or_eq with h | rfl
  · rcases lt_iff.1 h with h | h
    · exact h.le
    · exact h.1.le
  · exact le_rfl

end Entry

/-- `UINTPTR_MAX`. -/
def uintptrMax : ℕ := 2 ^ 64 - 1

/-- The last setting of the timerfd. -/
structure Arming where
  /-- The argument of `resetTimerfd`. -/
  expiration : ℤ
  /-- `Timestamp::now()` in `howMachTimeFromNow`. -/
  clock : ℤ
  /-- `it_value`. -/
  value : Timespec
  /-- `readTimerfd` has read the timerfd since. -/
  consumed : Bool
  deriving DecidableEq

/-- Where the loop thread stands. -/
inductive TimerPhase
  /-- Outside `handleRead`. -/
  | idle
  /-- In `handleRead` of the clock reading `now`: the callbacks of the entries `ran` have been
  called, the last of them perhaps not returned, and those of `rest` follow. -/
  | running (now : ℤ) (ran rest : List Entry)
  deriving DecidableEq

/-- The timers that exist, and what has happened to them. -/
structure Timers where
  heap : ℕ → Option Timer
  /-- `Timer::s_numCreated_`. -/
  numCreated : ℕ
  /-- The addresses whose `addTimerInLoop` has yet to run. -/
  handed : List ℕ
  /-- The timers passed to `addTimerInLoop`, as they were then. -/
  added : List Timer
  /-- The sequence numbers of the callbacks called, in order. -/
  fired : List ℕ

/-- A `TimerQueue`, its timerfd and its timers. -/
structure TimerQueue where
  timerlist : SortedSet Entry
  timerfd : Option Arming
  timers : Timers
  phase : TimerPhase
  failed : Option Fault

/-- A step of the loop thread, or of any thread in `addTimer`. -/
inductive TimerAction
  /-- `new Timer(cb, when, interval)` in `addTimer`, at the address `p`. -/
  | newTimer (p : ℕ) (when : ℤ) (interval : Float.Model)
  | addTimerInLoop (p : ℕ) (clock : ℤ)
  /-- `handleRead` up to its loop. -/
  | handleRead (now : ℤ)
  /-- The next callback. -/
  | run
  /-- The end of `handleRead`. -/
  | reset (clock : ℤ)
  deriving DecidableEq

namespace Timers

def none : Timers := ⟨fun _ => .none, 0, [], [], []⟩

/-- `new Timer(cb, when, interval)` at the address `p`, to be passed to `addTimerInLoop`. -/
def create (p : ℕ) (when : ℤ) (interval : Float.Model) (T : Timers) : Timers :=
  { T with
    heap := Function.update T.heap p (some ⟨interval, when, T.numCreated⟩)
    numCreated := T.numCreated + 1
    handed := T.handed ++ [p] }

/-- `addTimerInLoop` is called with `p`. -/
def take (p : ℕ) (T : Timers) : Timers :=
  { T with handed := T.handed.erase p, added := T.added ++ (T.heap p).toList }

def set (p : ℕ) (t : Timer) (T : Timers) : Timers :=
  { T with heap := Function.update T.heap p (some t) }

/-- `delete`. -/
def free (p : ℕ) (T : Timers) : Timers := { T with heap := Function.update T.heap p .none }

/-- The callback of a timer is called. -/
def fire (t : Timer) (T : Timers) : Timers := { T with fired := T.fired ++ [t.sequence] }

end Timers

namespace TimerQueue

def new : TimerQueue where
  timerlist := .empty
  timerfd := none
  timers := .none
  phase := .idle
  failed := none

/-! ### The member functions -/

/-- An access through a `Timer *`. -/
def deref (p : ℕ) (k : Timer → Result TimerQueue) (s : TimerQueue) : Result TimerQueue :=
  match s.timers.heap p with
  | some t => k t
  | none => .fault .useAfterFree s

def resetTimerfd (expiration clock : ℤ) (s : TimerQueue) : TimerQueue :=
  { s with timerfd := some ⟨expiration, clock, howMachTimeFromNow expiration clock, false⟩ }

def readTimerfd (s : TimerQueue) : TimerQueue :=
  { s with timerfd := s.timerfd.map fun a => { a with consumed := true } }

/-- The value that `insert` returns for a timer that expires at `when`. -/
def earlyestChange (when : ℤ) (s : TimerQueue) : Bool :=
  s.timerlist.begin.all fun first => when < first.first

def insert (p : ℕ) (s : TimerQueue) : Result TimerQueue :=
  s.deref p fun t =>
    let ret := s.timerlist.insert ⟨t.expiration, p⟩
    Outcome.check ret.2 (.assertion .insertUnique) { s with timerlist := ret.1 }

def addTimerInLoop (p : ℕ) (clock : ℤ) (s : TimerQueue) : Result TimerQueue :=
  s.deref p fun t =>
    let earlyestChange := s.earlyestChange t.expiration
    (s.insert p).bind fun s =>
      .ok (if earlyestChange then s.resetTimerfd t.expiration clock else s)

/-- The bound of `getexpiration`. -/
def sentry (now : ℤ) : Entry := ⟨now, uintptrMax⟩

/-- The vector that `getexpiration` returns. -/
def expirated (now : ℤ) (s : TimerQueue) : List Entry := s.timerlist.before (sentry now)

def getexpiration (now : ℤ) (s : TimerQueue) : Result TimerQueue :=
  let rest := s.timerlist.eraseBefore (sentry now)
  (Outcome.check (rest.begin.all fun e => now < e.first) (.assertion .getexpirationNow) s).bind
    fun s => .ok { s with timerlist := rest }

/-- The loop of `reset`. -/
def resetEach (now : ℤ) : List Entry → TimerQueue → Result TimerQueue
  | [], s => .ok s
  | e :: expirated, s =>
      (s.deref e.second fun t =>
        -- a repeating timer goes back, any other is deleted
        if t.repeats then
          { s with timers := s.timers.set e.second (t.restart now) }.insert e.second
        else .ok { s with timers := s.timers.free e.second }).bind (resetEach now expirated)

/-- `reset` after its loop. -/
def rearm (clock : ℤ) (s : TimerQueue) : TimerQueue :=
  let nextExpire := s.timerlist.begin.elim Timestamp.invaild Entry.first
  -- an empty list leaves the timerfd as it is
  if Timestamp.valid nextExpire then s.resetTimerfd nextExpire clock else s

def reset (expirated : List Entry) (now clock : ℤ) (s : TimerQueue) : Result TimerQueue :=
  (s.resetEach now expirated).bind fun s => .ok (s.rearm clock)

/-! ### Steps -/

/-- The state that a statement leaves. -/
def settle : Result TimerQueue → TimerQueue
  | .ok s => s
  | .fault e s => { s with failed := some e }

/-- The loop thread runs user code: outside `handleRead`, or in a callback. -/
def userCode (s : TimerQueue) : Bool :=
  match s.phase with
  | .idle => true
  | .running _ ran _ => !ran.isEmpty

/-- `handleRead` up to its loop. -/
def beginBatch (now : ℤ) (s : TimerQueue) : Result TimerQueue :=
  let s := s.readTimerfd
  (s.getexpiration now).bind fun s' =>
    .ok { s' with phase := .running now [] (s.expirated now) }

/-- `iter->second->run()`. -/
def runTimer (e : Entry) (s : TimerQueue) : Result TimerQueue :=
  s.deref e.second fun t => .ok { s with timers := s.timers.fire t }

/-- One step. -/
def next (s : TimerQueue) (a : TimerAction) : Option TimerQueue :=
  if s.failed.isSome then none
  else
    match a, s.phase with
    | .newTimer p when interval, _ =>
        if s.timers.heap p = none ∧ p < uintptrMax then
          some { s with timers := s.timers.create p when interval }
        else none
    | .addTimerInLoop p clock, _ =>
        if p ∈ s.timers.handed ∧ s.userCode = true then
          some (settle ({ s with timers := s.timers.take p }.addTimerInLoop p clock))
        else none
    | .handleRead now, .idle => some (settle (s.beginBatch now))
    | .run, .running now ran (e :: rest) =>
        some (settle ({ s with phase := .running now (ran ++ [e]) rest }.runTimer e))
    | .reset clock, .running now ran [] =>
        some (settle ({ s with phase := .idle }.reset ran now clock))
    | _, _ => none

end TimerQueue

/-- The runs of a timer queue. -/
def timerQueues : LTS TimerQueue TimerAction where
  init s := s = .new
  next := TimerQueue.next

namespace TimerQueue

/-- The steps, one constructor for each way to go on. -/
inductive Step (s : TimerQueue) : TimerAction → TimerQueue → Prop
  | newTimer {p : ℕ} {when : ℤ} {interval : Float.Model} (hfree : s.timers.heap p = none)
      (hp : p < uintptrMax) :
      Step s (.newTimer p when interval) { s with timers := s.timers.create p when interval }
  | addTimerInLoop {p : ℕ} {clock : ℤ} (hp : p ∈ s.timers.handed) :
      Step s (.addTimerInLoop p clock)
        (settle ({ s with timers := s.timers.take p }.addTimerInLoop p clock))
  | handleRead {now : ℤ} (hphase : s.phase = .idle) :
      Step s (.handleRead now) (settle (s.beginBatch now))
  | run {now : ℤ} {ran rest : List Entry} {e : Entry}
      (hphase : s.phase = .running now ran (e :: rest)) :
      Step s .run (settle ({ s with phase := .running now (ran ++ [e]) rest }.runTimer e))
  | reset {clock now : ℤ} {ran : List Entry} (hphase : s.phase = .running now ran []) :
      Step s (.reset clock) (settle ({ s with phase := .idle }.reset ran now clock))

theorem next_step {s u : TimerQueue} {a : TimerAction} (h : s.next a = some u) : Step s a u := by
  unfold next at h
  split_ifs at h
  split at h
  · split_ifs at h with hg
    cases h
    exact .newTimer hg.1 hg.2
  · split_ifs at h with hg
    cases h
    exact .addTimerInLoop hg.1
  · cases h
    exact .handleRead ‹_›
  · cases h
    exact .run ‹_›
  · cases h
    exact .reset ‹_›
  · cases h

end TimerQueue

end Jiangbo
