import LearnForCpp.Reactor.Channel

/-!
# The epoller

`reactor/Epoller.cc`: the registration of a channel is recorded three times, in the map from file
descriptors to channels, in the flag of the channel and in the kernel's interest set, by
`epollAdd`, `epollMod` and `epollDel`.  Channels are known by a name of type `C`, their address.
`ret` is whether `epoll_ctl` succeeded; a call that fails leaves the kernel's set alone.

A channel sees of all this what `Channel.update` and `Channel.remove` say.
-/

namespace Jiangbo

/-- An `Epoller`: `channels_`, and the kernel's interest set of `epfd_`. -/
structure Epoller (C : Type*) where
  channels : ℤ → Option C
  interest : ℤ → Option EventMask

/-- An epoller together with one of its channels. -/
structure Registration (C : Type*) where
  epoller : Epoller C
  channel : Channel

namespace Registration

variable {C : Type*} [DecidableEq C]

def epollAdd (self : C) (ret : Bool) (r : Registration C) : Result (Registration C) :=
  let fd := r.channel.fd
  if r.channel.events ≠ Channel.kNoneEvent then
    (Outcome.check (r.epoller.channels fd).isNone (.assertion .epollAddAbsent) r).bind fun r =>
      if ret then
        .ok { epoller :=
                { channels := Function.update r.epoller.channels fd (some self)
                  interest := Function.update r.epoller.interest fd (some r.channel.events) }
              channel := { r.channel with registeredInEpoller := true } }
      else .ok r
  else .ok r

def epollMod (self : C) (ret : Bool) (r : Registration C) : Result (Registration C) :=
  let fd := r.channel.fd
  (Outcome.check (r.epoller.channels fd = some self) (.assertion .epollModChannel) r).bind fun r =>
    if ret then
      .ok { r with epoller.interest :=
        Function.update r.epoller.interest fd (some r.channel.events) }
    else .ok r

def epollDel (self : C) (ret : Bool) (r : Registration C) : Result (Registration C) :=
  let fd := r.channel.fd
  (Outcome.check (r.epoller.channels fd = some self) (.assertion .epollDelChannel) r).bind fun r =>
    (Outcome.check r.channel.isNoneEvent (.assertion .epollDelNoneEvent) r).bind fun r =>
      (Outcome.check r.channel.registeredInEpoller (.assertion .epollDelRegistered) r).bind fun r =>
        if ret then
          .ok { epoller :=
                  { channels := Function.update r.epoller.channels fd none
                    interest := Function.update r.epoller.interest fd none }
                channel := { r.channel with registeredInEpoller := false } }
        else .ok r

def updateChannelMap (self : C) (ret : Bool) (r : Registration C) : Result (Registration C) :=
  if !r.channel.registeredInEpoller then r.epollAdd self ret else r.epollMod self ret

def removeChannelMap (self : C) (ret : Bool) (r : Registration C) : Result (Registration C) :=
  r.epollDel self ret

/-- A channel sees of `updateChannelMap` what `Channel.update` says. -/
theorem updateChannelMap_channel {self : C} {ret : Bool} {r r' : Registration C}
    (h : r.updateChannelMap self ret = .ok r') : r'.channel = r.channel.update ret := by
  unfold updateChannelMap at h
  cases hreg : r.channel.registeredInEpoller with
  | true =>
    simp only [hreg, Bool.not_true, Bool.false_eq_true, if_false, epollMod,
      Outcome.bind_eq_ok, Outcome.check_eq_ok] at h
    obtain ⟨r1, ⟨-, rfl⟩, h⟩ := h
    rw [Channel.update, if_pos hreg]
    split_ifs at h <;> cases h <;> rfl
  | false =>
    simp only [hreg, Bool.not_false, if_true, epollAdd] at h
    simp only [Channel.update, hreg, Bool.false_eq_true, if_false]
    by_cases hev : r.channel.events = Channel.kNoneEvent
    · simp only [hev, ne_eq, not_true_eq_false, if_false, false_and] at h ⊢
      cases h; rfl
    · simp only [hev, ne_eq, not_false_eq_true, if_true, true_and, Outcome.bind_eq_ok,
        Outcome.check_eq_ok] at h ⊢
      obtain ⟨r1, ⟨-, rfl⟩, h⟩ := h
      cases ret <;> cases h <;> rfl

/-- A channel sees of `removeChannelMap` what `Channel.remove` says. -/
theorem removeChannelMap_channel {self : C} {ret : Bool} {r r' : Registration C}
    (h : r.removeChannelMap self ret = .ok r') : r.channel.remove ret = .ok r'.channel := by
  simp only [removeChannelMap, epollDel, Outcome.bind_eq_ok, Outcome.check_eq_ok] at h
  obtain ⟨r1, ⟨-, rfl⟩, r2, ⟨h2, rfl⟩, r3, ⟨h3, rfl⟩, h⟩ := h
  rw [Channel.remove, Outcome.check_pos h2, Outcome.bind_ok, Outcome.check_pos h3, Outcome.bind_ok]
  cases ret <;> cases h <;> rfl

end Registration

end Jiangbo
