import LearnForCpp.Fault
import LearnForCpp.Lib.Bitmask

/-!
# Channels

`reactor/Channel.h` and `reactor/Channel.cc`: the events a file descriptor is interested in, and
the callbacks for the events that happened.

Every change of the interest ends in `Epoller::updateChannelMap`.  Here `update` is what that call
does to the channel itself; `ret` is whether `epoll_ctl` succeeded.  The map and the kernel's set
are in `Epoller.lean`, where `updateChannelMap_channel` and `removeChannelMap_channel` prove that
the channel sees exactly this.
-/

namespace Jiangbo

open Bitmask

/-- `uint32_t` event masks. -/
abbrev EventMask := BitVec 32

def EPOLLIN : EventMask := 0x001
def EPOLLPRI : EventMask := 0x002
def EPOLLOUT : EventMask := 0x004
def EPOLLERR : EventMask := 0x008
def EPOLLRDHUP : EventMask := 0x2000
def EPOLLET : EventMask := 0x80000000

/-- `Channel`. -/
structure Channel where
  fd : ℤ
  enableet : Bool
  registeredInEpoller : Bool
  events : EventMask
  deriving DecidableEq

/-- The callbacks of a channel. -/
inductive Handler
  | close
  | error
  | read
  | write
  deriving DecidableEq

namespace Channel

def kNoneEvent : EventMask := 0
def kReadEvent : EventMask := EPOLLIN ||| EPOLLPRI ||| EPOLLRDHUP
def kWriteEvent : EventMask := EPOLLOUT

/-- The constructor. -/
def new (fd : ℤ) (enableet : Bool) : Channel := ⟨fd, enableet, false, kNoneEvent⟩

def isNoneEvent (c : Channel) : Bool := c.events = kNoneEvent

def isWriting (c : Channel) : Bool := test c.events kWriteEvent

/-- `loop_->updateChannel(this)`. -/
def update (ret : Bool) (c : Channel) : Channel :=
  if c.registeredInEpoller then c
  else if c.events ≠ kNoneEvent ∧ ret = true then { c with registeredInEpoller := true } else c

/-- `loop_->removeChannel(this)`. -/
def remove (ret : Bool) (c : Channel) : Result Channel :=
  (Outcome.check c.isNoneEvent (.assertion .epollDelNoneEvent) c).bind fun c =>
    (Outcome.check c.registeredInEpoller (.assertion .epollDelRegistered) c).bind fun c =>
      .ok (if ret then { c with registeredInEpoller := false } else c)

def enableReading (ret : Bool) (c : Channel) : Channel :=
  let events := c.events ||| kReadEvent
  ({ c with events := if c.enableet then events ||| EPOLLET else events }).update ret

def enableWriting (ret : Bool) (c : Channel) : Channel :=
  ({ c with events := c.events ||| kWriteEvent }).update ret

def disableWriting (ret : Bool) (c : Channel) : Channel :=
  ({ c with events := c.events &&& ~~~kWriteEvent }).update ret

def disableAll (ret : Bool) (c : Channel) : Channel :=
  ({ c with events := kNoneEvent }).update ret

/-- The callbacks that `handleEvent` invokes for `revents_`, in order. -/
def handleEvent (revents : EventMask) : List Handler :=
  (if test revents EPOLLRDHUP && !test revents EPOLLIN then [.close] else []) ++
    (if test revents EPOLLERR then [.error] else []) ++
    (if test revents (EPOLLIN ||| EPOLLPRI ||| EPOLLRDHUP) then [.read] else []) ++
    (if test revents EPOLLOUT then [.write] else [])

/-! ### What the operations leave -/

variable (ret : Bool) (c : Channel)

@[simp] theorem update_events : (c.update ret).events = c.events := by
  unfold update; split_ifs <;> rfl

@[simp] theorem update_fd : (c.update ret).fd = c.fd := by
  unfold update; split_ifs <;> rfl

@[simp] theorem update_isWriting : (c.update ret).isWriting = c.isWriting := by
  unfold isWriting; rw [update_events]

/-- A channel without events is not registered by an update. -/
theorem update_registered_of_none (h : c.events = kNoneEvent) :
    (c.update ret).registeredInEpoller = c.registeredInEpoller := by
  unfold update
  split_ifs with h1 h2
  · rfl
  · exact absurd h h2.1
  · rfl

theorem update_registered_of_true (h : c.registeredInEpoller = true) :
    (c.update ret).registeredInEpoller = true := by
  unfold update; rw [if_pos h]; exact h

theorem enableReading_events : (c.enableReading ret).events =
    if c.enableet then c.events ||| kReadEvent ||| EPOLLET else c.events ||| kReadEvent :=
  update_events ret _

theorem enableWriting_events : (c.enableWriting ret).events = c.events ||| kWriteEvent :=
  update_events ret _

theorem disableWriting_events : (c.disableWriting ret).events = c.events &&& ~~~kWriteEvent :=
  update_events ret _

@[simp] theorem enableWriting_isWriting : (c.enableWriting ret).isWriting = true := by
  have h : test kWriteEvent kWriteEvent = true := by decide
  rw [isWriting, enableWriting_events, test_or, h, Bool.or_true]

@[simp] theorem disableWriting_isWriting : (c.disableWriting ret).isWriting = false := by
  rw [isWriting, disableWriting_events, test_and_not]

@[simp] theorem disableAll_events : (c.disableAll ret).events = kNoneEvent := by
  simp [disableAll]

@[simp] theorem disableAll_isWriting : (c.disableAll ret).isWriting = false := by
  rw [isWriting, disableAll_events]; exact test_zero _

@[simp] theorem disableAll_registered :
    (c.disableAll ret).registeredInEpoller = c.registeredInEpoller :=
  update_registered_of_none ret _ rfl

theorem enableReading_isWriting : (c.enableReading ret).isWriting = c.isWriting := by
  have h1 : test kReadEvent kWriteEvent = false := by decide
  have h2 : test EPOLLET kWriteEvent = false := by decide
  rw [isWriting, enableReading_events]
  split_ifs <;> simp only [test_or, h1, h2, Bool.or_false, isWriting]

/-- A channel that wants to write is interested in something. -/
theorem ne_none_of_isWriting {c : Channel} (h : c.isWriting = true) : c.events ≠ kNoneEvent := by
  intro he
  rw [isWriting, he] at h
  exact absurd h (by decide)

/-- Once its interest is empty a registered channel can be removed. -/
theorem remove_eq {c : Channel} (h1 : c.events = kNoneEvent) (h2 : c.registeredInEpoller = true) :
    c.remove ret = .ok (if ret then { c with registeredInEpoller := false } else c) := by
  rw [remove, Outcome.check_pos (by simpa [isNoneEvent] using h1), Outcome.bind_ok,
    Outcome.check_pos h2, Outcome.bind_ok]

end Channel

end Jiangbo
