import LearnForCpp.Lib.Transition
import LearnForCpp.Reactor.Epoller

/-!
# The channels of an epoller

Any number of channels of one loop: the calls that change their interest, `removeChannel`, and
`epoll` with `fillActiveChannels` of `reactor/Epoller.cc`.  A channel exists from the beginning,
with its descriptor, whether or not it is ever used; two channels may have one descriptor, as
happens when the descriptor of one was closed and is used again.

`registration_consistent` says that the three records of a registration agree in every run in which
a channel is not left with a non-empty interest while another one with its descriptor is
registered, and `removeChannel` is called on registered channels without events.
-/

namespace Jiangbo

/-- A call that changes the interest of a channel. -/
inductive ChannelOp
  | enableReading
  | enableWriting
  | disableWriting
  | disableAll
  deriving DecidableEq

namespace ChannelOp

/-- The interest after the call. -/
def events (c : Channel) : ChannelOp → EventMask
  | enableReading =>
      if c.enableet then c.events ||| Channel.kReadEvent ||| EPOLLET
      else c.events ||| Channel.kReadEvent
  | enableWriting => c.events ||| Channel.kWriteEvent
  | disableWriting => c.events &&& ~~~Channel.kWriteEvent
  | disableAll => Channel.kNoneEvent

/-- The call on a channel of its own. -/
def apply (ret : Bool) (c : Channel) : ChannelOp → Channel
  | enableReading => c.enableReading ret
  | enableWriting => c.enableWriting ret
  | disableWriting => c.disableWriting ret
  | disableAll => c.disableAll ret

/-- Every call changes the interest and ends in `update`. -/
theorem apply_eq (op : ChannelOp) (ret : Bool) (c : Channel) :
    op.apply ret c = { c with events := op.events c }.update ret := by
  cases op <;> rfl

end ChannelOp

/-- The operations of `epoll_ctl`. -/
inductive CtlOp
  | add
  | mod
  | del
  deriving DecidableEq

/-- What `epoll_wait` stores for a descriptor. -/
structure EpollEvent where
  fd : ℤ
  events : EventMask
  deriving DecidableEq

/-- `fillActiveChannels`: the channels of the reported events, with their `revents_`. -/
def Epoller.fillActiveChannels {C : Type*} (e : Epoller C) :
    List EpollEvent → Result (List (C × EventMask))
  | [] => .ok []
  | event :: events =>
      match e.channels event.fd with
      | none => .fault (.assertion .fillActiveFound) []
      | some c => (e.fillActiveChannels events).zoom fun active => (c, event.events) :: active

/-- An epoller, its channels, and what the kernel knows of them. -/
structure EpollSystem (C : Type*) where
  epoller : Epoller C
  channel : C → Channel
  /-- `events_.size()`. -/
  eventsSize : ℕ
  /-- The channel for which a descriptor was added to the kernel's set. -/
  added : ℤ → Option C
  /-- Whether the last `epoll_ctl` for a channel succeeded. -/
  succeeded : C → Bool
  failed : Option Assertion

/-- A call of a channel, or of `epoll`. -/
inductive EpollAction (C : Type*)
  | update (c : C) (op : ChannelOp) (ret : Bool)
  | removeChannel (c : C) (ret : Bool)
  /-- `epoll`, with what `epoll_wait` stored. -/
  | epoll (events : List EpollEvent)

namespace EpollSystem

variable {C : Type*}

/-- An epoller without registrations. -/
def new (channel : C → Channel) : EpollSystem C where
  epoller := ⟨fun _ => none, fun _ => none⟩
  channel := channel
  eventsSize := 16
  added := fun _ => none
  succeeded := fun _ => false
  failed := none

section Step

variable [DecidableEq C]

/-- The operation of `epoll_ctl` that `updateChannelMap` uses. -/
def updateCtl (c : Channel) : Option CtlOp :=
  if c.registeredInEpoller then some .mod
  else if c.events ≠ Channel.kNoneEvent then some .add else none

/-- What the kernel remembers of a call of `epoll_ctl` for channel `c`. -/
def remember (c : C) (ret : Bool) (op : Option CtlOp) (s : EpollSystem C) : EpollSystem C :=
  match op with
  | none => s
  | some op =>
      { s with
        succeeded := Function.update s.succeeded c ret
        added :=
          if ret then
            match op with
            | .add => Function.update s.added (s.channel c).fd (some c)
            | .mod => s.added
            | .del => Function.update s.added (s.channel c).fd none
          else s.added }

/-- The epoller and the channel after a call. -/
def put (c : C) (r : Registration C) (s : EpollSystem C) : EpollSystem C :=
  { s with epoller := r.epoller, channel := Function.update s.channel c r.channel }

/-- The state after a call. -/
def after (c : C) (ret : Bool) (op : Option CtlOp) (s : EpollSystem C) :
    Result (Registration C) → Option (EpollSystem C)
  | .ok r => some ((s.put c r).remember c ret op)
  | .fault (.assertion a) r => some { s.put c r with failed := some a }
  | .fault _ _ => none

/-- One step. -/
def next (s : EpollSystem C) (a : EpollAction C) : Option (EpollSystem C) :=
  if s.failed.isSome then none
  else
    match a with
    | .update c op ret =>
        let channel := { s.channel c with events := op.events (s.channel c) }
        s.after c ret (updateCtl channel)
          ((⟨s.epoller, channel⟩ : Registration C).updateChannelMap c ret)
    | .removeChannel c ret =>
        s.after c ret (some .del)
          ((⟨s.epoller, s.channel c⟩ : Registration C).removeChannelMap c ret)
    | .epoll events =>
        if events.length ≤ s.eventsSize ∧ ∀ e ∈ events, (s.epoller.interest e.fd).isSome then
          match s.epoller.fillActiveChannels events with
          | .ok _ =>
              some { s with eventsSize :=
                if events.length = s.eventsSize then s.eventsSize * 2 else s.eventsSize }
          | .fault (.assertion a) _ => some { s with failed := some a }
          | .fault _ _ => none
        else none

end Step

/-- The calls keep their side: a channel is not left with a non-empty interest while another one
with its descriptor is registered, and `removeChannel` is called on a registered channel without
events. -/
def Allowed (s : EpollSystem C) : EpollAction C → Prop
  | .update c op _ => op.events (s.channel c) ≠ Channel.kNoneEvent →
      ∀ d, d ≠ c → (s.channel d).fd = (s.channel c).fd → (s.channel d).registeredInEpoller = false
  | .removeChannel c _ =>
      (s.channel c).registeredInEpoller = true ∧ (s.channel c).isNoneEvent = true
  | .epoll _ => True

instance [Fintype C] [DecidableEq C] (s : EpollSystem C) : (a : EpollAction C) →
    Decidable (s.Allowed a)
  | .update c op _ => inferInstanceAs (Decidable (op.events (s.channel c) ≠ Channel.kNoneEvent →
      ∀ d, d ≠ c → (s.channel d).fd = (s.channel c).fd →
        (s.channel d).registeredInEpoller = false))
  | .removeChannel _ _ => inferInstanceAs (Decidable (_ ∧ _))
  | .epoll _ => inferInstanceAs (Decidable True)

end EpollSystem

/-- The runs of an epoller with channels that have just been constructed. -/
def epollSystems (C : Type*) [DecidableEq C] : LTS (EpollSystem C) (EpollAction C) where
  init s := ∃ (fd : C → ℤ) (enableet : C → Bool), s = .new fun c => .new (fd c) (enableet c)
  next := EpollSystem.next

namespace EpollSystem

variable {C : Type*} [DecidableEq C] {s u : EpollSystem C} {c d : C} {ret : Bool}

/-- The three records agree: the map, the flag and the kernel's set. -/
structure Consistent (s : EpollSystem C) : Prop where
  map : ∀ fd c, s.epoller.channels fd = some c ↔
    (s.channel c).fd = fd ∧ (s.channel c).registeredInEpoller = true
  kernel : ∀ fd c, s.added fd = some c ↔
    (s.channel c).fd = fd ∧ (s.channel c).registeredInEpoller = true
  interest : ∀ fd, (s.epoller.interest fd).isSome = (s.added fd).isSome
  mask : ∀ c, (s.channel c).registeredInEpoller = true → s.succeeded c = true →
    s.epoller.interest (s.channel c).fd = some (s.channel c).events

/-! ### The calls of `epoll_ctl` -/

/-- A registered channel is modified. -/
theorem updateChannelMap_mod {r : Registration C} (hreg : r.channel.registeredInEpoller = true)
    (hmap : r.epoller.channels r.channel.fd = some c) : r.updateChannelMap c ret =
      .ok (if ret then ⟨⟨r.epoller.channels,
        Function.update r.epoller.interest r.channel.fd (some r.channel.events)⟩, r.channel⟩
        else r) := by
  rw [Registration.updateChannelMap, if_neg (by simp [hreg]), Registration.epollMod]
  rw [Outcome.check_pos (by simpa using hmap), Outcome.bind_ok]
  split_ifs <;> rfl

/-- A channel without events is not added. -/
theorem updateChannelMap_none {r : Registration C} (hreg : r.channel.registeredInEpoller = false)
    (hevents : r.channel.events = Channel.kNoneEvent) : r.updateChannelMap c ret = .ok r := by
  simp [Registration.updateChannelMap, Registration.epollAdd, hreg, hevents]

/-- A channel whose descriptor is free is added. -/
theorem updateChannelMap_add {r : Registration C} (hreg : r.channel.registeredInEpoller = false)
    (hevents : r.channel.events ≠ Channel.kNoneEvent)
    (hmap : r.epoller.channels r.channel.fd = none) : r.updateChannelMap c ret =
      .ok (if ret then
        ⟨⟨Function.update r.epoller.channels r.channel.fd (some c),
          Function.update r.epoller.interest r.channel.fd (some r.channel.events)⟩,
          { r.channel with registeredInEpoller := true }⟩ else r) := by
  rw [Registration.updateChannelMap, if_pos (by simp [hreg]), Registration.epollAdd]
  dsimp only
  rw [if_pos hevents, Outcome.check_pos (by simp [hmap]), Outcome.bind_ok]
  split_ifs <;> rfl

/-- A registered channel without events is removed. -/
theorem removeChannelMap_del {b : Bool} {r : Registration C}
    (hreg : r.channel.registeredInEpoller = true)
    (hevents : r.channel.isNoneEvent = true)
    (hmap : r.epoller.channels r.channel.fd = some c) : r.removeChannelMap c b =
      .ok (if b then
        ⟨⟨Function.update r.epoller.channels r.channel.fd none,
          Function.update r.epoller.interest r.channel.fd none⟩,
          { r.channel with registeredInEpoller := false }⟩ else r) := by
  rw [Registration.removeChannelMap, Registration.epollDel]
  dsimp only
  rw [Outcome.check_pos (by simpa using hmap), Outcome.bind_ok, Outcome.check_pos hevents,
    Outcome.bind_ok, Outcome.check_pos hreg, Outcome.bind_ok]
  split_ifs <;> rfl

/-! ### Every step keeps the records in agreement -/

omit [DecidableEq C] in
/-- The map has at most one channel for a descriptor. -/
theorem Consistent.eq (hs : s.Consistent) (hc : (s.channel c).registeredInEpoller = true)
    (hd : (s.channel d).registeredInEpoller = true) (hfd : (s.channel d).fd = (s.channel c).fd) :
    d = c := by
  have h1 := (hs.map _ c).2 ⟨rfl, hc⟩
  have h2 := (hs.map _ d).2 ⟨hfd, hd⟩
  exact Option.some.inj (h2.symm.trans h1)

/-- A channel that fails to be registered, or is left without events. -/
theorem Consistent.unregistered (channel : Channel) (hs : s.Consistent)
    (hfd : channel.fd = (s.channel c).fd) (hreg : channel.registeredInEpoller = false)
    (hold : (s.channel c).registeredInEpoller = false) (succeeded : C → Bool)
    (hsucceeded : ∀ d, d ≠ c → succeeded d = s.succeeded d) :
    { s with
      channel := Function.update s.channel c channel
      succeeded := succeeded }.Consistent := by
  refine ⟨fun fd d => ?_, fun fd d => ?_, hs.interest, fun d hd => ?_⟩
  · have := hs.map fd d
    by_cases hdc : d = c
    · subst hdc
      simp_all
    · simpa [hdc] using this
  · have := hs.kernel fd d
    by_cases hdc : d = c
    · subst hdc
      simp_all
    · simpa [hdc] using this
  · by_cases hdc : d = c
    · subst hdc
      simp [hreg] at hd
    · intro hsucc
      simp only [Function.update_of_ne hdc] at hd ⊢
      exact hs.mask d hd ((hsucceeded d hdc).symm.trans hsucc)

/-- A registered channel whose interest changes, in the kernel too if `epoll_ctl` succeeds. -/
theorem Consistent.modified {b : Bool} (channel : Channel) (hs : s.Consistent)
    (hfd : channel.fd = (s.channel c).fd) (hreg : channel.registeredInEpoller = true)
    (hold : (s.channel c).registeredInEpoller = true) :
    { s with
      channel := Function.update s.channel c channel
      epoller.interest := if b then
        Function.update s.epoller.interest channel.fd (some channel.events)
        else s.epoller.interest
      succeeded := Function.update s.succeeded c b }.Consistent := by
  have hadded : s.added channel.fd = some c := (hs.kernel _ c).2 ⟨hfd.symm, hold⟩
  refine ⟨fun fd d => ?_, fun fd d => ?_, fun fd => ?_, fun d hd hsucc => ?_⟩
  · have := hs.map fd d
    by_cases hdc : d = c
    · subst hdc
      simp_all
    · simpa [hdc] using this
  · have := hs.kernel fd d
    by_cases hdc : d = c
    · subst hdc
      simp_all
    · simpa [hdc] using this
  · have := hs.interest fd
    cases b with
    | false => exact this
    | true =>
      by_cases hc : fd = channel.fd
      · subst hc
        simp [hadded]
      · simpa [hc] using this
  · by_cases hdc : d = c
    · subst hdc
      simp only [Function.update_self] at hsucc ⊢
      simp [hsucc]
    · simp only [Function.update_of_ne hdc] at hd hsucc ⊢
      have hne : (s.channel d).fd ≠ channel.fd := fun h =>
        hdc (hs.eq hold hd (h.trans hfd))
      split_ifs
      · rw [Function.update_of_ne hne]
        exact hs.mask d hd hsucc
      · exact hs.mask d hd hsucc

/-- A record whose entry for the descriptor of `c` was replaced as the flag of `c` was. -/
theorem record_iff {m : ℤ → Option C} {value : Option C} {channel : Channel}
    (hm : ∀ fd d, m fd = some d ↔ (s.channel d).fd = fd ∧
      (s.channel d).registeredInEpoller = true)
    (hfd : channel.fd = (s.channel c).fd)
    (hvalue : ∀ d, value = some d ↔ d = c ∧ channel.registeredInEpoller = true)
    (hother : ∀ d, d ≠ c → (s.channel d).registeredInEpoller = true →
      (s.channel d).fd ≠ channel.fd) (fd : ℤ) (d : C) :
    Function.update m channel.fd value fd = some d ↔
      (Function.update s.channel c channel d).fd = fd ∧
        (Function.update s.channel c channel d).registeredInEpoller = true := by
  by_cases hdc : d = c <;> by_cases hf : fd = channel.fd
  · subst hdc hf
    simp [hvalue]
  · subst hdc
    rw [Function.update_of_ne hf, hm, Function.update_self, ← hfd]
    exact iff_of_false (fun h => hf h.1.symm) fun h => hf h.1.symm
  · subst hf
    rw [Function.update_self, hvalue, Function.update_of_ne hdc]
    exact iff_of_false (fun h => hdc h.1) fun h => hother d hdc h.2 h.1
  · rw [Function.update_of_ne hf, Function.update_of_ne hdc]
    exact hm fd d

/-- The masks after the entry for the descriptor of `c` was replaced. -/
theorem Consistent.mask_update {value : Option EventMask} {channel : Channel} (hs : s.Consistent)
    (hvalue : channel.registeredInEpoller = true → value = some channel.events)
    (hother : ∀ d, d ≠ c → (s.channel d).registeredInEpoller = true →
      (s.channel d).fd ≠ channel.fd)
    (hd : (Function.update s.channel c channel d).registeredInEpoller = true)
    (hsucc : Function.update s.succeeded c true d = true) :
    Function.update s.epoller.interest channel.fd value
      (Function.update s.channel c channel d).fd =
        some (Function.update s.channel c channel d).events := by
  by_cases hdc : d = c
  · subst hdc
    simp only [Function.update_self] at hd ⊢
    exact hvalue hd
  · simp only [Function.update_of_ne hdc] at hd hsucc ⊢
    rw [Function.update_of_ne (hother d hdc hd)]
    exact hs.mask d hd hsucc

/-- A channel that is registered: nobody else has its descriptor in the map. -/
theorem Consistent.added (channel : Channel) (hs : s.Consistent)
    (hfd : channel.fd = (s.channel c).fd) (hreg : channel.registeredInEpoller = true)
    (hfree : s.epoller.channels channel.fd = none) :
    { s with
      channel := Function.update s.channel c channel
      epoller := ⟨Function.update s.epoller.channels channel.fd (some c),
        Function.update s.epoller.interest channel.fd (some channel.events)⟩
      added := Function.update s.added channel.fd (some c)
      succeeded := Function.update s.succeeded c true }.Consistent := by
  have hother : ∀ d, d ≠ c → (s.channel d).registeredInEpoller = true →
      (s.channel d).fd ≠ channel.fd := by
    intro d _ hd h
    rw [(hs.map _ d).2 ⟨h, hd⟩] at hfree
    cases hfree
  have hvalue : ∀ d, some c = some d ↔ d = c ∧ channel.registeredInEpoller = true := by
    intro d
    simp [hreg, eq_comm]
  refine ⟨record_iff hs.map hfd hvalue hother, record_iff hs.kernel hfd hvalue hother,
    fun fd => ?_, fun d hd hsucc => hs.mask_update (fun _ => rfl) hother hd hsucc⟩
  by_cases hf : fd = channel.fd
  · subst hf
    simp
  · simpa [hf] using hs.interest fd

/-- A channel that is removed. -/
theorem Consistent.removed (channel : Channel) (hs : s.Consistent)
    (hfd : channel.fd = (s.channel c).fd) (hreg : channel.registeredInEpoller = false)
    (hold : (s.channel c).registeredInEpoller = true) :
    { s with
      channel := Function.update s.channel c channel
      epoller := ⟨Function.update s.epoller.channels channel.fd none,
        Function.update s.epoller.interest channel.fd none⟩
      added := Function.update s.added channel.fd none
      succeeded := Function.update s.succeeded c true }.Consistent := by
  have hother : ∀ d, d ≠ c → (s.channel d).registeredInEpoller = true →
      (s.channel d).fd ≠ channel.fd := fun d hdc hd h => hdc (hs.eq hold hd (h.trans hfd))
  have hvalue : ∀ d, none = some d ↔ d = c ∧ channel.registeredInEpoller = true := by
    intro d
    simp [hreg]
  refine ⟨record_iff hs.map hfd hvalue hother, record_iff hs.kernel hfd hvalue hother,
    fun fd => ?_, fun d hd hsucc => hs.mask_update (fun h => by simp [hreg] at h) hother hd hsucc⟩
  by_cases hf : fd = channel.fd
  · subst hf
    simp
  · simpa [hf] using hs.interest fd

omit [DecidableEq C] in
/-- `fillActiveChannels` finds what the kernel has. -/
theorem Consistent.fillActiveChannels {events : List EpollEvent} (hs : s.Consistent)
    (h : ∀ e ∈ events, (s.epoller.interest e.fd).isSome = true) :
    ∃ active, s.epoller.fillActiveChannels events = .ok active ∧
      active.map (fun a => ((s.channel a.1).fd, a.2)) = events.map fun e => (e.fd, e.events) := by
  induction events with
  | nil => exact ⟨[], rfl, rfl⟩
  | cons e events ih =>
    obtain ⟨he, hevents⟩ := List.forall_mem_cons.1 h
    obtain ⟨active, hactive, hmap⟩ := ih hevents
    rw [hs.interest] at he
    obtain ⟨c, hc⟩ := Option.isSome_iff_exists.1 he
    have hfd := (hs.kernel e.fd c).1 hc
    refine ⟨(c, e.events) :: active, ?_, by simp [hfd.1, hmap]⟩
    rw [Epoller.fillActiveChannels, (hs.map e.fd c).2 hfd]
    simp [hactive]

/-! ### Runs -/

/-- The invariant: the records agree and no assertion has failed. -/
structure Inv (s : EpollSystem C) : Prop where
  consistent : s.Consistent
  failed : s.failed = none

/-- A call of a channel that changes its interest. -/
theorem Inv.update {op : ChannelOp} (hs : s.Inv) (ha : s.Allowed (.update c op ret))
    (h : s.next (.update c op ret) = some u) : u.Inv := by
  obtain ⟨hc, hf⟩ := hs
  simp only [next, hf, Option.isSome_none, Bool.false_eq_true, if_false] at h
  by_cases hreg : (s.channel c).registeredInEpoller = true
  · have hmap := (hc.map _ c).2 ⟨rfl, hreg⟩
    rw [updateChannelMap_mod hreg hmap, updateCtl, if_pos hreg] at h
    have hm := hc.modified (c := c) (b := ret)
      { s.channel c with events := op.events (s.channel c) } rfl hreg hreg
    cases ret <;> cases h <;> exact ⟨hm, hf⟩
  · rw [Bool.not_eq_true] at hreg
    by_cases hev : op.events (s.channel c) = Channel.kNoneEvent
    · rw [updateChannelMap_none hreg hev, updateCtl, if_neg (by simp [hreg]),
        if_neg (by simpa using hev)] at h
      cases h
      exact ⟨hc.unregistered (c := c)
        { s.channel c with events := op.events (s.channel c) } rfl hreg hreg
        s.succeeded fun _ _ => rfl, hf⟩
    · -- no other registered channel has the descriptor, so it is not in the map
      have hfree : s.epoller.channels (s.channel c).fd = none := by
        by_contra hne
        obtain ⟨d, hd⟩ := Option.ne_none_iff_exists'.1 hne
        obtain ⟨hfd, hdreg⟩ := (hc.map _ d).1 hd
        have hdc : d ≠ c := by
          rintro rfl
          simp [hreg] at hdreg
        simp [ha hev d hdc hfd] at hdreg
      rw [updateChannelMap_add hreg hev hfree, updateCtl, if_neg (by simp [hreg]),
        if_pos hev] at h
      cases ret with
      | false =>
        cases h
        exact ⟨hc.unregistered (c := c)
          { s.channel c with events := op.events (s.channel c) } rfl hreg hreg
          (Function.update s.succeeded c false) fun d hdc => Function.update_of_ne hdc _ _, hf⟩
      | true =>
        rw [if_pos rfl] at h
        cases h
        refine ⟨?_, hf⟩
        simpa [remember, put] using hc.added (c := c) { s.channel c with
          registeredInEpoller := true, events := op.events (s.channel c) } rfl rfl hfree

/-- A call of `removeChannel`. -/
theorem Inv.remove (hs : s.Inv) (ha : s.Allowed (.removeChannel c ret))
    (h : s.next (.removeChannel c ret) = some u) : u.Inv := by
  obtain ⟨hc, hf⟩ := hs
  obtain ⟨hreg, hev⟩ := ha
  simp only [next, hf, Option.isSome_none, Bool.false_eq_true, if_false] at h
  have hmap := (hc.map _ c).2 ⟨rfl, hreg⟩
  rw [removeChannelMap_del hreg hev hmap] at h
  cases ret with
  | false =>
    rw [if_neg Bool.false_ne_true] at h
    cases h
    -- nothing has changed but the memory of the last call
    refine ⟨⟨fun fd d => ?_, fun fd d => ?_, hc.interest, fun d hd hsucc => ?_⟩, hf⟩
    · simpa [remember, put] using hc.map fd d
    · simpa [remember, put] using hc.kernel fd d
    · by_cases hdc : d = c
      · subst hdc
        simp [remember] at hsucc
      · simp only [remember, put, Function.update_of_ne hdc] at hd hsucc ⊢
        exact hc.mask d hd hsucc
  | true =>
    rw [if_pos rfl] at h
    cases h
    refine ⟨?_, hf⟩
    simpa [remember, put] using hc.removed (c := c)
      { s.channel c with registeredInEpoller := false } rfl rfl hreg

/-- A call of `epoll`. -/
theorem Inv.epoll {events : List EpollEvent} (hs : s.Inv)
    (h : s.next (.epoll events) = some u) : u.Inv := by
  obtain ⟨hc, hf⟩ := hs
  simp only [next, hf, Option.isSome_none, Bool.false_eq_true, if_false] at h
  by_cases hevents : events.length ≤ s.eventsSize ∧
      ∀ e ∈ events, (s.epoller.interest e.fd).isSome = true
  · obtain ⟨active, hactive, -⟩ := hc.fillActiveChannels hevents.2
    rw [if_pos hevents, hactive] at h
    cases h
    exact ⟨⟨hc.map, hc.kernel, hc.interest, hc.mask⟩, rfl⟩
  · rw [if_neg hevents] at h
    cases h

theorem Inv.step {a : EpollAction C} (hs : s.Inv) (ha : s.Allowed a) (h : s.next a = some u) :
    u.Inv := by
  cases a with
  | update c op ret => exact hs.update ha h
  | removeChannel c ret => exact hs.remove ha h
  | epoll events => exact hs.epoll h

theorem Inv.init (h : (epollSystems C).init s) : s.Inv := by
  obtain ⟨fd, enableet, rfl⟩ := h
  constructor
  · constructor <;> simp [new, Channel.new]
  · rfl

end EpollSystem

/-- In every run whose calls keep their side, the map, the flags and the kernel's set agree, the
kernel's mask of a registered channel is the channel's own after a call that succeeded, no
assertion has failed, and `fillActiveChannels` finds the channels of any batch that `epoll_wait`
can report. -/
theorem registration_consistent {C : Type*} [DecidableEq C] {s₀ s : EpollSystem C}
    {run : List (Transition (EpollSystem C) (EpollAction C))} (h₀ : (epollSystems C).init s₀)
    (hrun : (epollSystems C).Steps s₀ run s) (hallowed : ∀ e ∈ run, e.source.Allowed e.action) :
    s.Consistent ∧ s.failed = none ∧
      ∀ events : List EpollEvent, (∀ e ∈ events, (s.epoller.interest e.fd).isSome = true) →
        ∃ active, s.epoller.fillActiveChannels events = .ok active ∧
          active.map (fun a => ((s.channel a.1).fd, a.2)) =
            events.map fun e => (e.fd, e.events) := by
  have hs : s.Inv := hrun.invariant (EpollSystem.Inv.init h₀) hallowed fun _ _ _ hi ha hn =>
    hi.step ha hn
  exact ⟨hs.consistent, hs.failed, fun events h => hs.consistent.fillActiveChannels h⟩

/-- A descriptor that is used again: the second channel is registered after the first one was
removed, at the second attempt, and its events are found. -/
theorem registration_consistent_reused : ∃ (s₀ s : EpollSystem Bool) (run : List _),
    (epollSystems Bool).init s₀ ∧ (epollSystems Bool).Steps s₀ run s ∧
      run.length = 6 ∧ s.Consistent ∧ (s.channel true).registeredInEpoller = true := by
  let s₀ : EpollSystem Bool := .new fun _ => .new 5 false
  have h₀ : (epollSystems Bool).init s₀ := ⟨fun _ => 5, fun _ => false, rfl⟩
  let acts : List (EpollAction Bool) :=
    [.update false .enableReading true, .update false .disableAll true, .removeChannel false true,
      .update true .enableReading false, .update true .enableWriting true, .epoll [⟨5, 1⟩]]
  obtain ⟨s, hs, hend⟩ := Option.map_eq_some_iff.1 (by decide +kernel :
    ((((epollSystems Bool).restrict EpollSystem.Allowed).run s₀ acts).map fun s =>
      (s.channel true).registeredInEpoller) = some true)
  obtain ⟨run, hrun, hmap⟩ := LTS.exists_steps_of_run hs
  obtain ⟨hrun, hallowed⟩ := hrun.of_restrict
  have hlength : run.length = 6 := by
    rw [← List.length_map (f := Transition.action), hmap]
    rfl
  exact ⟨s₀, s, run, h₀, hrun, hlength, (registration_consistent h₀ hrun hallowed).1,
    hend⟩

end Jiangbo
