import LearnForCpp.Reactor.OwnerSystem

/-!
# The records of the owners

What `EpollSystem` remembers of a channel is what its owner has done, and what the owners remember
of each other agrees, as long as no owner is destroyed with a channel that it has registered.  One
lemma for each kind of change says which records it keeps, and one lemma for each call of an owner
is put together from them.
-/

namespace Jiangbo

namespace EpollSystem

variable {s u : EpollSystem ℕ} {c d : ℕ} {op : ChannelOp}

/-! ### The epoller under its owners -/

@[simp] theorem remember_channel (c : ℕ) (ret : Bool) (ctl : Option CtlOp) (s : EpollSystem ℕ) :
    (s.remember c ret ctl).channel = s.channel := by
  cases ctl <;> rfl

/-- A call that changes the interest returns. -/
theorem Inv.exists_update (op : ChannelOp) (hs : s.Inv) (ha : s.Allowed (.update c op true)) :
    ∃ u, s.next (.update c op true) = some u ∧ u.Inv ∧
      u.channel = Function.update s.channel c (op.apply true (s.channel c)) := by
  have hnext : ∃ r, (⟨s.epoller, { s.channel c with events := op.events (s.channel c) }⟩ :
      Registration ℕ).updateChannelMap c true = .ok r := by
    by_cases hreg : (s.channel c).registeredInEpoller = true
    · rw [updateChannelMap_mod hreg ((hs.consistent.map _ c).2 ⟨rfl, hreg⟩)]
      exact ⟨_, rfl⟩
    · rw [Bool.not_eq_true] at hreg
      by_cases hev : op.events (s.channel c) = Channel.kNoneEvent
      · rw [updateChannelMap_none hreg hev]
        exact ⟨_, rfl⟩
      · have hfree : s.epoller.channels (s.channel c).fd = none := by
          by_contra hne
          obtain ⟨d, hd⟩ := Option.ne_none_iff_exists'.1 hne
          obtain ⟨hfd, hdreg⟩ := (hs.consistent.map _ d).1 hd
          have hdc : d ≠ c := by
            rintro rfl
            simp [hreg] at hdreg
          simp [ha hev d hdc hfd] at hdreg
        rw [updateChannelMap_add hreg hev hfree]
        exact ⟨_, rfl⟩
  obtain ⟨r, hr⟩ := hnext
  have hchannel := Registration.updateChannelMap_channel hr
  have hstep : s.next (.update c op true) = some ((s.put c r).remember c true
      (updateCtl { s.channel c with events := op.events (s.channel c) })) := by
    rw [next, if_neg (by simp [hs.failed])]
    dsimp only
    rw [hr]
    rfl
  refine ⟨_, hstep, hs.update ha hstep, ?_⟩
  rw [remember_channel, put, hchannel, ChannelOp.apply_eq]

/-- A registered channel without events can be removed. -/
theorem Inv.exists_remove (hs : s.Inv) (ha : s.Allowed (.removeChannel c true)) :
    ∃ u, s.next (.removeChannel c true) = some u ∧ u.Inv ∧
      u.channel =
        Function.update s.channel c { s.channel c with registeredInEpoller := false } := by
  obtain ⟨hreg, hev⟩ := ha
  have hmap := (hs.consistent.map _ c).2 ⟨rfl, hreg⟩
  have hr := removeChannelMap_del (b := true) (r := ⟨s.epoller, s.channel c⟩) hreg hev hmap
  have hstep : s.next (.removeChannel c true) = some ((s.put c
      ⟨⟨Function.update s.epoller.channels (s.channel c).fd none,
        Function.update s.epoller.interest (s.channel c).fd none⟩,
        { s.channel c with registeredInEpoller := false }⟩).remember c true (some .del)) := by
    rw [next, if_neg (by simp [hs.failed])]
    dsimp only
    rw [hr]
    rfl
  refine ⟨_, hstep, hs.remove ⟨hreg, hev⟩ hstep, ?_⟩
  rw [remember_channel, put]

/-- An entry in the way of a new registration. -/
theorem next_update_fails (hf : s.failed = none)
    (hreg : (s.channel c).registeredInEpoller = false)
    (hev : op.events (s.channel c) ≠ Channel.kNoneEvent)
    (hmap : s.epoller.channels (s.channel c).fd = some d) :
    ∃ u, s.next (.update c op true) = some u ∧ u.failed = some .epollAddAbsent := by
  have hr : (⟨s.epoller, { s.channel c with events := op.events (s.channel c) }⟩ :
      Registration ℕ).updateChannelMap c true = .fault (.assertion .epollAddAbsent)
        ⟨s.epoller, { s.channel c with events := op.events (s.channel c) }⟩ := by
    rw [Registration.updateChannelMap, if_pos (by simp [hreg]), Registration.epollAdd]
    dsimp only
    rw [if_pos hev, Outcome.check_neg (by simp [hmap]), Outcome.bind_fault]
  refine ⟨{ s.put c ⟨s.epoller, { s.channel c with events := op.events (s.channel c) }⟩ with
    failed := some .epollAddAbsent }, ?_, rfl⟩
  rw [next, if_neg (by simp [hf])]
  dsimp only
  rw [hr]
  rfl

/-- A channel in the place of one that is not registered. -/
theorem Consistent.replaced {channel : Channel} (hs : s.Consistent)
    (hreg : channel.registeredInEpoller = false)
    (hold : (s.channel c).registeredInEpoller = false) :
    { s with channel := Function.update s.channel c channel }.Consistent := by
  refine ⟨fun fd d => ?_, fun fd d => ?_, hs.interest, fun d hd hsucc => ?_⟩
  · by_cases hdc : d = c
    · subst hdc
      simp [hs.map, hold, hreg]
    · simpa [hdc] using hs.map fd d
  · by_cases hdc : d = c
    · subst hdc
      simp [hs.kernel, hold, hreg]
    · simpa [hdc] using hs.kernel fd d
  · by_cases hdc : d = c
    · subst hdc
      simp [hreg] at hd
    · simp only [Function.update_of_ne hdc] at hd ⊢
      exact hs.mask d hd hsucc

/-- The kernel has nothing to forget of descriptors that are not registered. -/
theorem Consistent.close {closed : ℤ → Bool} (hs : s.Consistent)
    (h : ∀ c, (s.channel c).registeredInEpoller = true → closed (s.channel c).fd = false) :
    s.close closed = s := by
  have hadded : ∀ fd, closed fd = true → s.added fd = none := by
    intro fd hfd
    by_contra hne
    obtain ⟨d, hd⟩ := Option.ne_none_iff_exists'.1 hne
    obtain ⟨rfl, hreg⟩ := (hs.kernel fd d).1 hd
    rw [h d hreg] at hfd
    cases hfd
  have h1 : (fun fd => if closed fd = true then none else s.added fd) = s.added := by
    funext fd
    split_ifs with hfd
    · exact (hadded fd hfd).symm
    · rfl
  have h2 : (fun fd => if closed fd = true then none else s.epoller.interest fd) =
      s.epoller.interest := by
    funext fd
    split_ifs with hfd
    · have hnone : s.epoller.interest fd = none := by
        have := hs.interest fd
        rw [hadded fd hfd] at this
        simpa using this
      exact hnone.symm
    · rfl
  unfold EpollSystem.close
  rw [h1, h2]

end EpollSystem

/-- A registered channel has an open socket. -/
theorem ChannelOwner.opens_of_registers {o : Option ChannelOwner}
    (h : o.any ChannelOwner.registers = true) : o.any ChannelOwner.opens = true := by
  cases o with
  | none => cases h
  | some o =>
    cases o with
    | acceptor l => rfl
    | connection x => rfl
    | attempt k b => exact h

namespace OwnerSystem

variable {s t : OwnerSystem} {a : OwnerAction}

/-! ### What the owners keep -/

/-- The channel of a connector waits for its `resetChannel`. -/
def closing (s : OwnerSystem) (k : ℕ) : Bool :=
  (s.connector k).any fun x => x.channel.any fun c => decide (s.owner c = some (.attempt k false))

/-- The records agree.  A channel is registered exactly while its owner has it registered, and open
sockets have different numbers; a connection that is held has not been torn down, and one that
nobody refers to has been; a connector knows its channel. -/
structure Sound (s : OwnerSystem) : Prop where
  epoll : s.epoll.Consistent
  bound : ∀ c, s.created ≤ c → s.owner c = none
  registered : ∀ c, (s.epoll.channel c).registeredInEpoller =
    (s.owner c).any ChannelOwner.registers
  quiet : ∀ c, (s.epoll.channel c).registeredInEpoller = false →
    (s.epoll.channel c).events = Channel.kNoneEvent
  sockets : ∀ c d, (s.owner c).any ChannelOwner.opens = true →
    (s.owner d).any ChannelOwner.opens = true →
      (s.epoll.channel c).fd = (s.epoll.channel d).fd → c = d
  held : ∀ c x, s.owner c = some (.connection x) → x.held = true →
    x.disconnected = false ∧ .connectDestoryed c ∉ s.functors
  queued : ∀ c, .connectDestoryed c ∈ s.functors → ∃ x, s.owner c = some (.connection x)
  loose : ∀ c x, s.owner c = some (.connection x) → ¬s.Refers c (.connection x) →
    x.disconnected = true ∧ x.late = false
  late : ∀ c x, s.owner c = some (.connection x) → x.late = true → x.disconnected = true
  current : ∀ c x k, s.owner c = some (.connection x) → x.held = true → x.home = .client k →
    ∃ y, s.connector k = some y ∧ y.client = true ∧ y.state = .kConnected
  unique : ∀ c d x y k, s.owner c = some (.connection x) → s.owner d = some (.connection y) →
    x.held = true → y.held = true → x.home = .client k → y.home = .client k → c = d
  attempt : ∀ c k b, s.owner c = some (.attempt k b) →
    ∃ y, s.connector k = some y ∧ y.channel = some c
  channel : ∀ k y c, s.connector k = some y → y.channel = some c →
    ∃ b, s.owner c = some (.attempt k b)
  reset : ∀ k, s.functors.count (.resetChannel k) = (s.closing k).toNat
  listens : ∀ c, .listen c ∈ s.functors → c < s.created ∧ ∀ o ∈ s.owner c, ∃ l, o = .acceptor l
  sends : ∀ c, .sendInLoop c ∈ s.functors →
    c < s.created ∧ ∀ o ∈ s.owner c, ∃ x, o = .connection x

/-- Only the connector and its attempts matter. -/
theorem closing_congr {k : ℕ} (hconnector : t.connector k = s.connector k)
    (hattempt : ∀ c, t.owner c = some (.attempt k false) ↔ s.owner c = some (.attempt k false)) :
    t.closing k = s.closing k := by
  unfold closing
  rw [hconnector]
  exact congrArg (fun f => (s.connector k).any fun x => x.channel.any f)
    (funext fun c => decide_eq_decide.2 (hattempt c))

/-- A step that touches no attempt and no connector. -/
theorem Sound.attempts (hs : s.Sound) (hconnector : t.connector = s.connector)
    (hattempt : ∀ d k b, t.owner d = some (.attempt k b) ↔ s.owner d = some (.attempt k b)) :
    (∀ d k b, t.owner d = some (.attempt k b) →
      ∃ y, t.connector k = some y ∧ y.channel = some d) ∧
    (∀ k y d, t.connector k = some y → y.channel = some d →
      ∃ b, t.owner d = some (.attempt k b)) ∧ ∀ k, t.closing k = s.closing k := by
  refine ⟨fun d k b h => ?_, fun k y d hk hd => ?_, fun k => ?_⟩
  · rw [hconnector]
    exact hs.attempt d k b ((hattempt d k b).1 h)
  · rw [hconnector] at hk
    obtain ⟨b, hb⟩ := hs.channel k y d hk hd
    exact ⟨b, (hattempt d k b).2 hb⟩
  · exact closing_congr (congrFun hconnector k) fun d => hattempt d k false

/-- Every connection is referred to. -/
def Referred (s : OwnerSystem) : Prop :=
  ∀ c x, s.owner c = some (.connection x) → s.Refers c (.connection x)

theorem new_sound : new.Sound := by
  have hepoll : (new.epoll).Consistent := by
    constructor <;> simp [new, EpollSystem.new, Channel.new]
  constructor
  · exact hepoll
  all_goals simp [new, EpollSystem.new, Channel.new, closing]

/-- Counting the references leaves the connections that are referred to. -/
theorem Sound.collect (hs : s.Sound) : s.collect.Sound ∧ s.collect.Referred := by
  have howner : ∀ c, s.collect.owner c = (s.owner c).filter fun o => s.Refers c o := fun _ => rfl
  have hsub : ∀ c o, s.collect.owner c = some o → s.owner c = some o ∧ s.Refers c o := by
    intro c o ho
    rw [howner, Option.filter_eq_some_iff] at ho
    simpa using ho
  have hkeep : ∀ c o, s.owner c = some o → s.Refers c o → s.collect.owner c = some o := by
    intro c o ho hrefers
    rw [howner, Option.filter_eq_some_iff]
    simpa using ⟨ho, hrefers⟩
  -- only connections that have been torn down go
  have hregisters : ∀ c, (s.collect.owner c).any ChannelOwner.registers =
      (s.owner c).any ChannelOwner.registers := by
    intro c
    cases ho : s.owner c with
    | none => rw [howner, ho, Option.filter_none]
    | some o =>
      by_cases hrefers : s.Refers c o
      · rw [hkeep c o ho hrefers]
      · cases o with
        | connection x =>
          obtain ⟨h1, h2⟩ := hs.loose c x ho hrefers
          rw [howner, ho]
          simp [Option.filter, hrefers, ChannelOwner.registers, h1, h2]
        | acceptor l => exact absurd trivial hrefers
        | attempt k b => exact absurd trivial hrefers
  have hepoll : s.collect.epoll = s.epoll := by
    refine hs.epoll.close fun c hreg => decide_eq_false ?_
    rintro ⟨d, -, hfd, o, ho, hrefers⟩
    have ho : s.owner d = some o := ho
    have hopens : (s.owner d).any ChannelOwner.opens = true := by
      cases o with
      | connection x => rw [ho]; rfl
      | acceptor l => exact absurd trivial hrefers
      | attempt k b => exact absurd trivial hrefers
    rw [hs.registered] at hreg
    obtain rfl := hs.sockets d c hopens (ChannelOwner.opens_of_registers hreg) hfd
    rw [← hregisters, howner, ho] at hreg
    simp [Option.filter, hrefers] at hreg
  have hopens : ∀ c, (s.collect.owner c).any ChannelOwner.opens = true →
      (s.owner c).any ChannelOwner.opens = true := by
    intro c h
    obtain ⟨o, ho, hany⟩ := (Option.any_eq_true _ _).1 h
    rw [(hsub c o ho).1]
    exact hany
  refine ⟨⟨?_, ?_, ?_, ?_, ?_, ?_, ?_, ?_, ?_, ?_, ?_, ?_, ?_, ?_, ?_, ?_⟩,
    fun c x h => (hsub c _ h).2⟩
  · rw [hepoll]
    exact hs.epoll
  · intro c hc
    rw [howner, hs.bound c hc, Option.filter_none]
  · intro c
    rw [hepoll, hregisters]
    exact hs.registered c
  · rw [hepoll]
    exact hs.quiet
  · intro c d hc hd
    rw [hepoll]
    exact hs.sockets c d (hopens c hc) (hopens d hd)
  · exact fun c x h => hs.held c x (hsub c _ h).1
  · intro c hc
    obtain ⟨x, hx⟩ := hs.queued c hc
    exact ⟨x, hkeep c _ hx (.inr (.inr hc))⟩
  · exact fun c x h hrefers => absurd (hsub c _ h).2 hrefers
  · exact fun c x h => hs.late c x (hsub c _ h).1
  · exact fun c x k h => hs.current c x k (hsub c _ h).1
  · exact fun c d x y k hc hd => hs.unique c d x y k (hsub c _ hc).1 (hsub d _ hd).1
  · exact fun c k b h => hs.attempt c k b (hsub c _ h).1
  · intro k y c hk hc
    obtain ⟨b, hb⟩ := hs.channel k y c hk hc
    exact ⟨b, hkeep c _ hb trivial⟩
  · intro k
    have hclosing : s.collect.closing k = s.closing k :=
      closing_congr rfl fun c => ⟨fun h => (hsub c _ h).1, fun h => hkeep c _ h trivial⟩
    rw [hclosing]
    exact hs.reset k
  · intro c hc
    obtain ⟨h1, h2⟩ := hs.listens c hc
    exact ⟨h1, fun o ho => h2 o (hsub c o ho).1⟩
  · intro c hc
    obtain ⟨h1, h2⟩ := hs.sends c hc
    exact ⟨h1, fun o ho => h2 o (hsub c o ho).1⟩

/-! ### Calls of the epoller -/

theorem ctl_eq {e : EpollSystem ℕ} {b : EpollAction ℕ} (h : s.epoll.next b = some e)
    (hf : e.failed = none) (k : OwnerSystem → Option OwnerSystem) :
    s.ctl b k = k { s with epoll := e } := by
  rw [ctl, h, Option.bind_some, if_neg (by simp [hf])]

/-- A channel whose number no other registered one has can change its interest. -/
theorem exists_ctl_update {c : ℕ} (hs : s.epoll.Inv)
    (hc : ∀ d, d ≠ c → (s.epoll.channel d).fd = (s.epoll.channel c).fd →
      (s.epoll.channel d).registeredInEpoller = false) (op : ChannelOp)
    (k : OwnerSystem → Option OwnerSystem) :
    ∃ e : EpollSystem ℕ, s.ctl (.update c op true) k = k { s with epoll := e } ∧ e.Inv ∧
      e.channel = Function.update s.epoll.channel c (op.apply true (s.epoll.channel c)) := by
  obtain ⟨e, he, hinv, hchannel⟩ := hs.exists_update (c := c) op fun _ => hc
  exact ⟨e, ctl_eq he hinv.failed k, hinv, hchannel⟩

/-- The number of an open socket is its own. -/
theorem Sound.unregistered {c d : ℕ} (hs : s.Sound)
    (hc : (s.owner c).any ChannelOwner.opens = true) (hdc : d ≠ c)
    (hfd : (s.epoll.channel d).fd = (s.epoll.channel c).fd) :
    (s.epoll.channel d).registeredInEpoller = false := by
  by_contra hreg
  rw [Bool.not_eq_false, hs.registered] at hreg
  exact hdc (hs.sockets d c (ChannelOwner.opens_of_registers hreg) hc hfd)

@[simp] theorem apply_fd (op : ChannelOp) (c : Channel) : (op.apply true c).fd = c.fd := by
  rw [ChannelOp.apply_eq, Channel.update_fd]

@[simp] theorem apply_events (op : ChannelOp) (c : Channel) :
    (op.apply true c).events = op.events c := by
  rw [ChannelOp.apply_eq, Channel.update_events]

/-- Whether a channel is registered after a call. -/
theorem apply_registered (op : ChannelOp) (c : Channel) :
    (op.apply true c).registeredInEpoller =
      (c.registeredInEpoller || decide (op.events c ≠ Channel.kNoneEvent)) := by
  rw [ChannelOp.apply_eq]
  unfold Channel.update
  cases c.registeredInEpoller <;> by_cases h : op.events c = Channel.kNoneEvent <;> simp [h]

/-- The interest is not empty once an event was added to it. -/
theorem enable_events_ne {op : ChannelOp} (h : op = .enableReading ∨ op = .enableWriting)
    (c : Channel) : op.events c ≠ Channel.kNoneEvent := by
  have hor : ∀ e m : EventMask, m ≠ Channel.kNoneEvent → e ||| m ≠ Channel.kNoneEvent :=
    fun e m hm he => hm (BitVec.or_eq_zero_iff.1 he).2
  rcases h with rfl | rfl
  · unfold ChannelOp.events
    split_ifs
    · exact hor _ _ (by decide)
    · exact hor _ _ (by decide)
  · exact hor _ _ (by decide)

theorem apply_enable_registered {op : ChannelOp} (h : op = .enableReading ∨ op = .enableWriting)
    (c : Channel) : (op.apply true c).registeredInEpoller = true := by
  rw [apply_registered, Bool.or_eq_true]
  exact .inr (decide_eq_true (enable_events_ne h c))

/-- A channel that is registered has its interest cleared, and is removed. -/
theorem exists_ctl_remove {c : ℕ} (hs : s.Sound) (hf : s.epoll.failed = none)
    (hc : (s.owner c).any ChannelOwner.registers = true) (k : OwnerSystem → Option OwnerSystem) :
    ∃ e : EpollSystem ℕ, (s.ctl (.update c .disableAll true) fun s =>
        s.ctl (.removeChannel c true) k) = k { s with epoll := e } ∧ e.Inv ∧
      e.channel = Function.update s.epoll.channel c { s.epoll.channel c with
        events := Channel.kNoneEvent
        registeredInEpoller := false } := by
  obtain ⟨e, he, hinv, hchannel⟩ := exists_ctl_update (c := c) ⟨hs.epoll, hf⟩
    (fun d => hs.unregistered (ChannelOwner.opens_of_registers hc)) .disableAll
    fun s => s.ctl (.removeChannel c true) k
  have hreg : (e.channel c).registeredInEpoller = true := by
    rw [hchannel, Function.update_self, apply_registered, hs.registered, hc, Bool.true_or]
  have hev : (e.channel c).events = Channel.kNoneEvent := by
    rw [hchannel, Function.update_self, apply_events]
    rfl
  obtain ⟨u, hu, huinv, huchannel⟩ := hinv.exists_remove (c := c)
    ⟨hreg, by simpa [Channel.isNoneEvent] using hev⟩
  refine ⟨u, he.trans (ctl_eq (s := { s with epoll := e }) hu huinv.failed k), huinv, ?_⟩
  rw [huchannel, hchannel]
  funext d
  by_cases hdc : d = c
  · subst hdc
    simp only [Function.update_self, ChannelOp.apply_eq]
    unfold Channel.update
    split_ifs <;> rfl
  · simp [hdc]

/-! ### What a change of one owner keeps -/

theorem mem_iff_of_count {l m : List OwnerTask} {task : OwnerTask}
    (h : l.count task = m.count task) : task ∈ l ↔ task ∈ m := by
  rw [← List.count_pos_iff, h, List.count_pos_iff]

/-- A connection changes, with its channel and its functor. -/
theorem Sound.changeConn {c : ℕ} {x : ConnOwner} (x' : ConnOwner) (hs : s.Sound)
    (hc : s.owner c = some (.connection x))
    (howner : t.owner = Function.update s.owner c (some (.connection x')))
    (hcreated : t.created = s.created) (hconnector : t.connector = s.connector)
    (hepoll : t.epoll.Consistent) {ch : Channel}
    (hchannel : t.epoll.channel = Function.update s.epoll.channel c ch)
    (hfd : ch.fd = (s.epoll.channel c).fd)
    (hreg : ch.registeredInEpoller = (ChannelOwner.connection x').registers)
    (hquiet : ch.registeredInEpoller = false → ch.events = Channel.kNoneEvent)
    (hhome : x'.home = x.home)
    (hheld : x'.held = true → x.held = true ∧ x'.disconnected = false ∧
      .connectDestoryed c ∉ t.functors)
    (hloose : ¬t.Refers c (.connection x') → x'.disconnected = true ∧ x'.late = false)
    (hlate : x'.late = true → x'.disconnected = true)
    (hfunctors : ∀ task, task ≠ .connectDestoryed c →
      t.functors.count task = s.functors.count task) : t.Sound := by
  have hmem : ∀ d, d ≠ c → (.connectDestoryed d ∈ t.functors ↔ .connectDestoryed d ∈ s.functors) :=
    fun d hd => mem_iff_of_count (hfunctors _ (by simpa using hd))
  have hother : ∀ d, d ≠ c → t.owner d = s.owner d := fun d hd => by
    rw [howner, Function.update_of_ne hd]
  have hself : t.owner c = some (.connection x') := by rw [howner, Function.update_self]
  have hfds : ∀ d, (t.epoll.channel d).fd = (s.epoll.channel d).fd := by
    intro d
    rw [hchannel]
    by_cases hd : d = c
    · subst hd
      rw [Function.update_self, hfd]
    · rw [Function.update_of_ne hd]
  have hopens : ∀ d, (t.owner d).any ChannelOwner.opens = (s.owner d).any ChannelOwner.opens := by
    intro d
    by_cases hd : d = c
    · subst hd
      rw [hself, hc]
      rfl
    · rw [hother d hd]
  -- a connection of the new state was one of the old state
  have hconn : ∀ d y, t.owner d = some (.connection y) → ∃ y', s.owner d = some (.connection y') ∧
      (y.held = true → y'.held = true) ∧ y.home = y'.home := by
    intro d y hy
    by_cases hd : d = c
    · subst hd
      rw [hself] at hy
      cases hy
      exact ⟨x, hc, fun h => (hheld h).1, hhome⟩
    · rw [hother d hd] at hy
      exact ⟨y, hy, id, rfl⟩
  have hattempt : ∀ d k b, t.owner d = some (.attempt k b) ↔ s.owner d = some (.attempt k b) := by
    intro d k b
    by_cases hd : d = c
    · subst hd
      rw [hself, hc]
      simp
    · rw [hother d hd]
  have hattempts := hs.attempts hconnector hattempt
  refine
    { epoll := hepoll, bound := ?bound, registered := ?registered, quiet := ?quiet,
      sockets := ?sockets, held := ?held, queued := ?queued, loose := ?loose, late := ?late,
      current := ?current, unique := ?unique, attempt := ?attempt, channel := ?channel,
      reset := ?reset, listens := ?listens, sends := ?sends }
  case bound =>
    intro d hd
    rw [hcreated] at hd
    have hne : d ≠ c := by
      rintro rfl
      rw [hs.bound d hd] at hc
      cases hc
    rw [hother d hne, hs.bound d hd]
  case registered =>
    intro d
    rw [hchannel]
    by_cases hd : d = c
    · subst hd
      rw [Function.update_self, hself, hreg]
      rfl
    · rw [Function.update_of_ne hd, hother d hd, hs.registered]
  case quiet =>
    intro d
    rw [hchannel]
    by_cases hd : d = c
    · subst hd
      rw [Function.update_self]
      exact hquiet
    · rw [Function.update_of_ne hd]
      exact hs.quiet d
  case sockets =>
    intro d e hd he
    rw [hopens] at hd he
    rw [hfds, hfds]
    exact hs.sockets d e hd he
  case held =>
    intro d y hy hheldy
    by_cases hd : d = c
    · subst hd
      rw [hself] at hy
      cases hy
      exact (hheld hheldy).2
    · rw [hother d hd] at hy
      rw [hmem d hd]
      exact hs.held d y hy hheldy
  case queued =>
    intro d hd
    by_cases hdc : d = c
    · subst hdc
      exact ⟨x', hself⟩
    · rw [hother d hdc]
      exact hs.queued d ((hmem d hdc).1 hd)
  case loose =>
    intro d y hy hrefers
    by_cases hd : d = c
    · subst hd
      rw [hself] at hy
      cases hy
      exact hloose hrefers
    · rw [hother d hd] at hy
      refine hs.loose d y hy fun h => hrefers ?_
      exact h.imp_right fun h => h.imp_right (hmem d hd).2
  case late =>
    intro d y hy
    by_cases hd : d = c
    · subst hd
      rw [hself] at hy
      cases hy
      exact hlate
    · rw [hother d hd] at hy
      exact hs.late d y hy
  case current =>
    intro d y k hy hheldy hhomey
    obtain ⟨y', hy', h1, h2⟩ := hconn d y hy
    rw [hconnector]
    exact hs.current d y' k hy' (h1 hheldy) (h2 ▸ hhomey)
  case unique =>
    intro d e y z k hy hz hheldy hheldz hhomey hhomez
    obtain ⟨y', hy', h1, h2⟩ := hconn d y hy
    obtain ⟨z', hz', h3, h4⟩ := hconn e z hz
    exact hs.unique d e y' z' k hy' hz' (h1 hheldy) (h3 hheldz) (h2 ▸ hhomey) (h4 ▸ hhomez)
  case attempt =>
    exact hattempts.1
  case channel =>
    exact hattempts.2.1
  case reset =>
    intro k
    have hclosing : t.closing k = s.closing k := hattempts.2.2 k
    rw [hfunctors _ (by simp), hclosing]
    exact hs.reset k
  case listens =>
    intro d hd
    obtain ⟨h1, h2⟩ := hs.listens d ((mem_iff_of_count (hfunctors _ (by simp))).1 hd)
    -- an acceptor is not the connection that changes
    have hdc : d ≠ c := by
      rintro rfl
      obtain ⟨l, hl⟩ := h2 _ hc
      cases hl
    rw [hcreated, hother d hdc]
    exact ⟨h1, h2⟩
  case sends =>
    intro d hd
    obtain ⟨h1, h2⟩ := hs.sends d ((mem_iff_of_count (hfunctors _ (by simp))).1 hd)
    rw [hcreated]
    refine ⟨h1, ?_⟩
    by_cases hdc : d = c
    · subst hdc
      rw [hself]
      exact fun o ho => ⟨x', (Option.some.inj ho).symm⟩
    · rw [hother d hdc]
      exact h2

/-- A functor with a raw pointer to its owner is queued, or called. -/
theorem Sound.withFunctors {functors : List OwnerTask} (hs : s.Sound)
    (hfunctors : ∀ task, (∀ c, task ≠ .listen c) → (∀ c, task ≠ .sendInLoop c) →
      functors.count task = s.functors.count task)
    (hlisten : ∀ c, .listen c ∈ functors →
      .listen c ∈ s.functors ∨ ∃ l, s.owner c = some (.acceptor l))
    (hsend : ∀ c, .sendInLoop c ∈ functors →
      .sendInLoop c ∈ s.functors ∨ ∃ x, s.owner c = some (.connection x)) :
    { s with functors := functors }.Sound := by
  have hbound : ∀ c o, s.owner c = some o → c < s.created := fun c o ho => by
    by_contra hbound
    rw [hs.bound c (not_lt.1 hbound)] at ho
    cases ho
  have hmem : ∀ c, .connectDestoryed c ∈ functors ↔ .connectDestoryed c ∈ s.functors :=
    fun c => mem_iff_of_count (hfunctors _ (by simp) (by simp))
  refine
    { epoll := hs.epoll, bound := hs.bound, registered := hs.registered, quiet := hs.quiet,
      sockets := hs.sockets, held := ?held, queued := ?queued, loose := ?loose, late := hs.late,
      current := hs.current, unique := hs.unique, attempt := hs.attempt, channel := hs.channel,
      reset := ?reset, listens := ?listens, sends := ?sends }
  case held =>
    intro c x hx hheld
    obtain ⟨h1, h2⟩ := hs.held c x hx hheld
    exact ⟨h1, fun h => h2 ((hmem c).1 h)⟩
  case queued =>
    exact fun c hc => hs.queued c ((hmem c).1 hc)
  case loose =>
    intro c x hx hrefers
    exact hs.loose c x hx fun h => hrefers (h.imp_right fun h => h.imp_right (hmem c).2)
  case reset =>
    intro k
    exact (hfunctors _ (by simp) (by simp)).trans (hs.reset k)
  case listens =>
    intro c hc
    rcases hlisten c hc with hc | ⟨l, hl⟩
    · exact hs.listens c hc
    · exact ⟨hbound c _ hl, fun o ho => ⟨l, Option.some.inj (ho.symm.trans hl)⟩⟩
  case sends =>
    intro c hc
    rcases hsend c hc with hc | ⟨x, hx⟩
    · exact hs.sends c hc
    · exact ⟨hbound c _ hx, fun o ho => ⟨x, Option.some.inj (ho.symm.trans hx)⟩⟩

/-- A connector changes while its client has no connection. -/
theorem Sound.changeConnector {k : ℕ} {y' : Option ConnectorOwner} (hs : s.Sound)
    (hchannel : y'.bind ConnectorOwner.channel = (s.connector k).bind ConnectorOwner.channel)
    (hnone : ∀ c x, s.owner c = some (.connection x) → x.held = true → x.home ≠ .client k) :
    (s.setConnector k y').Sound := by
  have hconnector : ∀ j, j ≠ k → (s.setConnector k y').connector j = s.connector j :=
    fun j hj => Function.update_of_ne hj _ _
  have hself : (s.setConnector k y').connector k = y' := Function.update_self ..
  refine ⟨hs.epoll, hs.bound, hs.registered, hs.quiet, hs.sockets, hs.held, hs.queued, hs.loose,
    hs.late, ?_, hs.unique, ?_, ?_, ?_, hs.listens, hs.sends⟩
  · intro c x j hx hheld hhome
    have hj : j ≠ k := by
      rintro rfl
      exact hnone c x hx hheld hhome
    rw [hconnector j hj]
    exact hs.current c x j hx hheld hhome
  · intro c j b hc
    obtain ⟨z, hz, hzc⟩ := hs.attempt c j b hc
    by_cases hj : j = k
    · subst hj
      rw [hz, Option.bind_some, hzc] at hchannel
      rw [hself]
      exact Option.bind_eq_some_iff.1 hchannel
    · rw [hconnector j hj]
      exact ⟨z, hz, hzc⟩
  · intro j z c hz hc
    by_cases hj : j = k
    · subst hj
      rw [hself] at hz
      rw [hz, Option.bind_some, hc] at hchannel
      obtain ⟨y, hy, hyc⟩ := Option.bind_eq_some_iff.1 hchannel.symm
      exact hs.channel j y c hy hyc
    · rw [hconnector j hj] at hz
      exact hs.channel j z c hz hc
  · intro j
    have hclosing : (s.setConnector k y').closing j = s.closing j := by
      have hany : ∀ (z : Option ConnectorOwner) (f : ℕ → Bool),
          (z.any fun x => x.channel.any f) = (z.bind ConnectorOwner.channel).any f := by
        intro z f
        cases z <;> rfl
      unfold closing
      by_cases hj : j = k
      · subst hj
        rw [hself, hany, hany, hchannel]
        rfl
      · rw [hconnector j hj]
        rfl
    rw [hclosing]
    exact hs.reset j

/-- A channel that is not a connection's changes, together with its owner. -/
theorem Sound.changeOther {c : ℕ} {o : Option ChannelOwner} (ch : Channel) (hs : s.Sound)
    (hc : ∀ x, s.owner c ≠ some (.connection x)) (ho : ∀ x, o ≠ some (.connection x))
    (howner : t.owner = Function.update s.owner c o)
    (hcreated : s.created ≤ t.created) (hbound : t.created ≤ c → o = none)
    (hepoll : t.epoll.Consistent)
    (hchannel : t.epoll.channel = Function.update s.epoll.channel c ch)
    (hreg : ch.registeredInEpoller = o.any ChannelOwner.registers)
    (hquiet : ch.registeredInEpoller = false → ch.events = Channel.kNoneEvent)
    (hopens : o.any ChannelOwner.opens = true → ∀ d, d ≠ c →
      (s.owner d).any ChannelOwner.opens = true → (s.epoll.channel d).fd ≠ ch.fd)
    (hkind : .listen c ∈ s.functors → ∀ p ∈ o, ∃ l, p = .acceptor l)
    (hgone : .sendInLoop c ∈ s.functors → o = none)
    (hfunctors : ∀ task, (∀ k, task ≠ .resetChannel k) →
      t.functors.count task = s.functors.count task)
    (hcurrent : ∀ d x k, s.owner d = some (.connection x) → x.held = true → x.home = .client k →
      ∃ y, t.connector k = some y ∧ y.client = true ∧ y.state = .kConnected)
    (hattempt : ∀ d k b, t.owner d = some (.attempt k b) →
      ∃ y, t.connector k = some y ∧ y.channel = some d)
    (hconnector : ∀ k y d, t.connector k = some y → y.channel = some d →
      ∃ b, t.owner d = some (.attempt k b))
    (hreset : ∀ k, t.functors.count (.resetChannel k) = (t.closing k).toNat) : t.Sound := by
  have hother : ∀ d, d ≠ c → t.owner d = s.owner d := fun d hd => by
    rw [howner, Function.update_of_ne hd]
  have hself : t.owner c = o := by rw [howner, Function.update_self]
  have hconn : ∀ d x, t.owner d = some (.connection x) ↔ s.owner d = some (.connection x) := by
    intro d x
    by_cases hd : d = c
    · subst hd
      rw [hself]
      exact iff_of_false (ho x) (hc x)
    · rw [hother d hd]
  have hmem : ∀ d, .connectDestoryed d ∈ t.functors ↔ .connectDestoryed d ∈ s.functors :=
    fun d => mem_iff_of_count (hfunctors _ (by simp))
  refine
    { epoll := hepoll, bound := ?bound, registered := ?registered, quiet := ?quiet,
      sockets := ?sockets, held := ?held, queued := ?queued, loose := ?loose, late := ?late,
      current := ?current, unique := ?unique, attempt := hattempt, channel := hconnector,
      reset := hreset, listens := ?listens, sends := ?sends }
  case bound =>
    intro d hd
    by_cases hdc : d = c
    · subst hdc
      rw [hself]
      exact hbound hd
    · rw [hother d hdc]
      exact hs.bound d (hcreated.trans hd)
  case registered =>
    intro d
    rw [hchannel]
    by_cases hd : d = c
    · subst hd
      rw [Function.update_self, hself, hreg]
    · rw [Function.update_of_ne hd, hother d hd, hs.registered]
  case quiet =>
    intro d
    rw [hchannel]
    by_cases hd : d = c
    · subst hd
      rw [Function.update_self]
      exact hquiet
    · rw [Function.update_of_ne hd]
      exact hs.quiet d
  case sockets =>
    intro d e hd he
    rw [hchannel]
    by_cases hdc : d = c <;> by_cases hec : e = c
    · exact fun _ => hdc.trans hec.symm
    · subst hdc
      rw [hself] at hd
      rw [hother e hec] at he
      rw [Function.update_self, Function.update_of_ne hec]
      exact fun h => absurd h.symm (hopens hd e hec he)
    · subst hec
      rw [hself] at he
      rw [hother d hdc] at hd
      rw [Function.update_self, Function.update_of_ne hdc]
      exact fun h => absurd h (hopens he d hdc hd)
    · rw [hother d hdc] at hd
      rw [hother e hec] at he
      rw [Function.update_of_ne hdc, Function.update_of_ne hec]
      exact hs.sockets d e hd he
  case held =>
    intro d x hx hheld
    rw [hmem]
    exact hs.held d x ((hconn d x).1 hx) hheld
  case queued =>
    intro d hd
    obtain ⟨x, hx⟩ := hs.queued d ((hmem d).1 hd)
    exact ⟨x, (hconn d x).2 hx⟩
  case loose =>
    intro d x hx hrefers
    refine hs.loose d x ((hconn d x).1 hx) fun h => hrefers ?_
    exact h.imp_right fun h => h.imp_right (hmem d).2
  case late =>
    exact fun d x hx => hs.late d x ((hconn d x).1 hx)
  case current =>
    intro d x k hx hheld hhome
    exact hcurrent d x k ((hconn d x).1 hx) hheld hhome
  case unique =>
    exact fun d e x y k hx hy => hs.unique d e x y k ((hconn d x).1 hx) ((hconn e y).1 hy)
  case listens =>
    intro d hd
    have hd := (mem_iff_of_count (hfunctors _ (by simp))).1 hd
    obtain ⟨h1, h2⟩ := hs.listens d hd
    refine ⟨h1.trans_le hcreated, ?_⟩
    by_cases hdc : d = c
    · subst hdc
      rw [hself]
      exact hkind hd
    · rw [hother d hdc]
      exact h2
  case sends =>
    intro d hd
    have hd := (mem_iff_of_count (hfunctors _ (by simp))).1 hd
    obtain ⟨h1, h2⟩ := hs.sends d hd
    refine ⟨h1.trans_le hcreated, ?_⟩
    by_cases hdc : d = c
    · subst hdc
      rw [hself, hgone hd]
      exact fun o ho => by cases ho
    · rw [hother d hdc]
      exact h2

/-- A channel of an acceptor changes, together with its owner. -/
theorem Sound.changeAcceptor {c : ℕ} {o : Option ChannelOwner} (ch : Channel) (hs : s.Sound)
    (hc : ∀ p ∈ s.owner c, ∃ l, p = .acceptor l) (ho : ∀ p ∈ o, ∃ l, p = .acceptor l)
    (howner : t.owner = Function.update s.owner c o)
    (hcreated : s.created ≤ t.created) (hbound : t.created ≤ c → o = none)
    (hepoll : t.epoll.Consistent)
    (hchannel : t.epoll.channel = Function.update s.epoll.channel c ch)
    (hreg : ch.registeredInEpoller = o.any ChannelOwner.registers)
    (hquiet : ch.registeredInEpoller = false → ch.events = Channel.kNoneEvent)
    (hopens : o.any ChannelOwner.opens = true → ∀ d, d ≠ c →
      (s.owner d).any ChannelOwner.opens = true → (s.epoll.channel d).fd ≠ ch.fd)
    (hgone : .sendInLoop c ∈ s.functors → o = none)
    (hfunctors : t.functors = s.functors) (hconnector : t.connector = s.connector) : t.Sound := by
  have hattempt : ∀ d k b, t.owner d = some (.attempt k b) ↔ s.owner d = some (.attempt k b) := by
    intro d k b
    by_cases hd : d = c
    · subst hd
      rw [howner, Function.update_self]
      refine iff_of_false (fun h => ?_) fun h => ?_
      · obtain ⟨l, hl⟩ := ho _ h
        cases hl
      · obtain ⟨l, hl⟩ := hc _ h
        cases hl
    · rw [howner, Function.update_of_ne hd]
  have hattempts := hs.attempts hconnector hattempt
  refine hs.changeOther (c := c) (o := o) ch (fun x hx => ?_) (fun x hx => ?_) howner hcreated
    hbound
    hepoll hchannel hreg hquiet hopens (fun _ => ho) hgone (fun task _ => by rw [hfunctors]) (by
      rw [hconnector]
      exact hs.current) ?_ ?_ ?_
  · obtain ⟨l, hl⟩ := hc _ hx
    cases hl
  · obtain ⟨l, hl⟩ := ho _ hx
    cases hl
  · exact hattempts.1
  · exact hattempts.2.1
  · intro k
    have hclosing : t.closing k = s.closing k := hattempts.2.2 k
    rw [hfunctors, hclosing]
    exact hs.reset k

/-- A connection is constructed. -/
theorem Sound.addConn {home : Home} (ch : Channel) (hs : s.Sound)
    (howner : t.owner = Function.update s.owner s.created
      (some (.connection ⟨home, false, true, 0, false⟩)))
    (hcreated : t.created = s.created + 1) (hepoll : t.epoll.Consistent)
    (hchannel : t.epoll.channel = Function.update s.epoll.channel s.created ch)
    (hreg : ch.registeredInEpoller = true)
    (hfree : ∀ d, (s.owner d).any ChannelOwner.opens = true → (s.epoll.channel d).fd ≠ ch.fd)
    (hfunctors : t.functors = s.functors) (hconnector : t.connector = s.connector)
    (hhome : ∀ k, home = .client k →
      (∃ y, s.connector k = some y ∧ y.client = true ∧ y.state = .kConnected) ∧
      ∀ c x, s.owner c = some (.connection x) → x.held = true → x.home ≠ .client k) : t.Sound := by
  have hold := hs.bound s.created le_rfl
  have hother : ∀ d, d ≠ s.created → t.owner d = s.owner d := fun d hd => by
    rw [howner, Function.update_of_ne hd]
  have hself : t.owner s.created = some (.connection ⟨home, false, true, 0, false⟩) := by
    rw [howner, Function.update_self]
  have hconn : ∀ d x, t.owner d = some (.connection x) →
      d = s.created ∧ x = ⟨home, false, true, 0, false⟩ ∨
        d ≠ s.created ∧ s.owner d = some (.connection x) := by
    intro d x hx
    by_cases hd : d = s.created
    · subst hd
      rw [hself] at hx
      cases hx
      exact .inl ⟨rfl, rfl⟩
    · exact .inr ⟨hd, hother d hd ▸ hx⟩
  have hattempt : ∀ d k b, t.owner d = some (.attempt k b) ↔ s.owner d = some (.attempt k b) := by
    intro d k b
    by_cases hd : d = s.created
    · subst hd
      rw [hself, hold]
      simp
    · rw [hother d hd]
  have hattempts := hs.attempts hconnector hattempt
  refine
    { epoll := hepoll, bound := ?bound, registered := ?registered, quiet := ?quiet,
      sockets := ?sockets, held := ?held, queued := ?queued, loose := ?loose, late := ?late,
      current := ?current, unique := ?unique, attempt := ?attempt, channel := ?channel,
      reset := ?reset, listens := ?listens, sends := ?sends }
  case bound =>
    intro d hd
    rw [hcreated] at hd
    rw [hother d (by omega)]
    exact hs.bound d (by omega)
  case registered =>
    intro d
    rw [hchannel]
    by_cases hd : d = s.created
    · subst hd
      rw [Function.update_self, hself, hreg]
      rfl
    · rw [Function.update_of_ne hd, hother d hd, hs.registered]
  case quiet =>
    intro d
    rw [hchannel]
    by_cases hd : d = s.created
    · subst hd
      rw [Function.update_self, hreg]
      exact fun h => by cases h
    · rw [Function.update_of_ne hd]
      exact hs.quiet d
  case sockets =>
    intro d e hd he
    rw [hchannel]
    by_cases hdc : d = s.created <;> by_cases hec : e = s.created
    · exact fun _ => hdc.trans hec.symm
    · subst hdc
      rw [hother e hec] at he
      rw [Function.update_self, Function.update_of_ne hec]
      exact fun h => absurd h.symm (hfree e he)
    · subst hec
      rw [hother d hdc] at hd
      rw [Function.update_self, Function.update_of_ne hdc]
      exact fun h => absurd h (hfree d hd)
    · rw [hother d hdc] at hd
      rw [hother e hec] at he
      rw [Function.update_of_ne hdc, Function.update_of_ne hec]
      exact hs.sockets d e hd he
  case held =>
    intro d x hx hheld
    rw [hfunctors]
    rcases hconn d x hx with ⟨rfl, rfl⟩ | ⟨-, hx⟩
    · refine ⟨rfl, fun hmem => ?_⟩
      obtain ⟨x, hx⟩ := hs.queued _ hmem
      rw [hold] at hx
      cases hx
    · exact hs.held d x hx hheld
  case queued =>
    intro d hd
    rw [hfunctors] at hd
    obtain ⟨x, hx⟩ := hs.queued d hd
    have hne : d ≠ s.created := by
      rintro rfl
      rw [hold] at hx
      cases hx
    exact ⟨x, (hother d hne).trans hx⟩
  case loose =>
    intro d x hx hrefers
    rcases hconn d x hx with ⟨rfl, rfl⟩ | ⟨-, hx⟩
    · exact absurd (.inl rfl) hrefers
    · refine hs.loose d x hx fun h => hrefers ?_
      rw [Refers, hfunctors]
      exact h
  case late =>
    intro d x hx hlate
    rcases hconn d x hx with ⟨rfl, rfl⟩ | ⟨-, hx⟩
    · cases hlate
    · exact hs.late d x hx hlate
  case current =>
    intro d x k hx hheld hhomek
    rw [hconnector]
    rcases hconn d x hx with ⟨rfl, rfl⟩ | ⟨-, hx⟩
    · exact (hhome k hhomek).1
    · exact hs.current d x k hx hheld hhomek
  case unique =>
    intro d e x y k hx hy hheldx hheldy hhomex hhomey
    rcases hconn d x hx with ⟨rfl, rfl⟩ | ⟨-, hx⟩ <;> rcases hconn e y hy with ⟨rfl, rfl⟩ | ⟨-, hy⟩
    · rfl
    · exact absurd hhomey ((hhome k hhomex).2 e y hy hheldy)
    · exact absurd hhomex ((hhome k hhomey).2 d x hx hheldx)
    · exact hs.unique d e x y k hx hy hheldx hheldy hhomex hhomey
  case attempt =>
    exact hattempts.1
  case channel =>
    exact hattempts.2.1
  case reset =>
    intro k
    have hclosing : t.closing k = s.closing k := hattempts.2.2 k
    rw [hfunctors, hclosing]
    exact hs.reset k
  case listens =>
    intro d hd
    rw [hfunctors] at hd
    obtain ⟨h1, h2⟩ := hs.listens d hd
    rw [hcreated, hother d h1.ne]
    exact ⟨h1.trans (Nat.lt_succ_self _), h2⟩
  case sends =>
    intro d hd
    rw [hfunctors] at hd
    obtain ⟨h1, h2⟩ := hs.sends d hd
    rw [hcreated, hother d h1.ne]
    exact ⟨h1.trans (Nat.lt_succ_self _), h2⟩

/-- `TcpConnection::TcpConnection` and `connectEstablished`, with a number that is free. -/
theorem Sound.exists_newConnection (home : Home) {fd : ℤ} (hs : s.Sound)
    (hf : s.epoll.failed = none)
    (hfree : ∀ d, (s.owner d).any ChannelOwner.opens = true → (s.epoll.channel d).fd ≠ fd)
    (hhome : ∀ k, home = .client k →
      (∃ y, s.connector k = some y ∧ y.client = true ∧ y.state = .kConnected) ∧
      ∀ c x, s.owner c = some (.connection x) → x.held = true → x.home ≠ .client k) :
    ∃ t, s.newConnection home fd = some t ∧ t.Sound ∧ t.epoll.failed = none := by
  have hold : (s.epoll.channel s.created).registeredInEpoller = false := by
    rw [hs.registered, hs.bound s.created le_rfl]
    rfl
  have hinv : EpollSystem.Inv { s.epoll with
      channel := Function.update s.epoll.channel s.created (.new fd false) } :=
    ⟨hs.epoll.replaced rfl hold, hf⟩
  obtain ⟨e, he, heinv, hchannel⟩ := exists_ctl_update (c := s.created)
    (s := s.construct fd false (.connection ⟨home, false, true, 0, false⟩)) hinv (fun d hd hfd => by
      simp only [construct, Function.update_self, Function.update_of_ne hd] at hfd ⊢
      by_contra hreg
      rw [Bool.not_eq_false, hs.registered] at hreg
      exact hfree d (ChannelOwner.opens_of_registers hreg) hfd) .enableReading some
  refine ⟨_, he, ?_, heinv.failed⟩
  refine hs.addConn (ChannelOp.enableReading.apply true (.new fd false)) rfl rfl
    heinv.consistent ?_ ?_ ?_ rfl rfl hhome
  · rw [hchannel]
    simp [construct]
  · exact apply_enable_registered (.inl rfl) _
  · simpa [Channel.new] using hfree

theorem release_registers (home new : Home) (c : ℕ) :
    ((s.release home new).owner c).any ChannelOwner.registers =
      (s.owner c).any ChannelOwner.registers := by
  show ((s.owner c).map (ChannelOwner.release home new)).any ChannelOwner.registers = _
  cases s.owner c with
  | none => rfl
  | some o =>
    cases o with
    | connection x =>
      simp only [Option.map_some, Option.any_some, ChannelOwner.release]
      split_ifs <;> rfl
    | acceptor l => rfl
    | attempt k b => rfl

theorem release_opens (home new : Home) (c : ℕ) :
    ((s.release home new).owner c).any ChannelOwner.opens =
      (s.owner c).any ChannelOwner.opens := by
  show ((s.owner c).map (ChannelOwner.release home new)).any ChannelOwner.opens = _
  cases s.owner c with
  | none => rfl
  | some o =>
    cases o with
    | connection x =>
      simp only [Option.map_some, Option.any_some, ChannelOwner.release]
      split_ifs <;> rfl
    | acceptor l => rfl
    | attempt k b => rfl

theorem release_attempt (home new : Home) (c k : ℕ) (b : Bool) :
    (s.release home new).owner c = some (.attempt k b) ↔ s.owner c = some (.attempt k b) := by
  show (s.owner c).map (ChannelOwner.release home new) = _ ↔ _
  cases s.owner c with
  | none => simp
  | some o =>
    cases o with
    | connection x =>
      simp only [Option.map_some, ChannelOwner.release]
      split_ifs <;> simp
    | acceptor l => simp [ChannelOwner.release]
    | attempt k b => simp [ChannelOwner.release]

/-- A connection is as before, or it is no longer held. -/
theorem release_conn {home new : Home} {c : ℕ} {x : ConnOwner}
    (hx : (s.release home new).owner c = some (.connection x)) :
    s.owner c = some (.connection x) ∧ (x.held = true → x.home ≠ home) ∨
      x.held = false ∧ ∃ y, s.owner c = some (.connection y) ∧ y.held = true ∧ y.home = home ∧
        x.disconnected = y.disconnected ∧ x.copies = y.copies ∧ x.late = y.late := by
  have hx : (s.owner c).map (ChannelOwner.release home new) = some (.connection x) := hx
  obtain ⟨o, ho, hrelease⟩ := Option.map_eq_some_iff.1 hx
  cases o with
  | connection y =>
    unfold ChannelOwner.release at hrelease
    dsimp only at hrelease
    by_cases hy : y.held = true ∧ y.home = home
    · rw [if_pos hy] at hrelease
      cases hrelease
      exact .inr ⟨rfl, y, ho, hy.1, hy.2, rfl, rfl, rfl⟩
    · rw [if_neg hy] at hrelease
      cases hrelease
      exact .inl ⟨ho, fun hheld hhome => hy ⟨hheld, hhome⟩⟩
  | acceptor l => cases hrelease
  | attempt k b => cases hrelease

/-- `connections_` or `connection_` is cleared, while others hold its connections. -/
theorem Sound.release (home new : Home) (hs : s.Sound)
    (hcopied : ∀ c x, s.owner c = some (.connection x) → x.held = true → x.home = home →
      0 < x.copies) : (s.release home new).Sound := by
  have howner : ∀ c, (s.release home new).owner c =
      (s.owner c).map (ChannelOwner.release home new) := fun _ => rfl
  refine
    { epoll := hs.epoll, bound := ?bound, registered := ?registered, quiet := hs.quiet,
      sockets := ?sockets, held := ?held, queued := ?queued, loose := ?loose, late := ?late,
      current := ?current, unique := ?unique, attempt := ?attempt, channel := ?channel,
      reset := ?reset, listens := ?listens, sends := ?sends }
  case bound =>
    intro c hc
    rw [howner, hs.bound c hc, Option.map_none]
  case registered =>
    intro c
    rw [release_registers]
    exact hs.registered c
  case sockets =>
    intro c d hc hd
    rw [release_opens] at hc hd
    exact hs.sockets c d hc hd
  case held =>
    intro c x hx hheld
    rcases release_conn hx with ⟨hx, -⟩ | ⟨hheld', -⟩
    · exact hs.held c x hx hheld
    · rw [hheld'] at hheld
      cases hheld
  case queued =>
    intro c hc
    obtain ⟨x, hx⟩ := hs.queued c hc
    rw [howner, hx, Option.map_some]
    unfold ChannelOwner.release
    dsimp only
    split_ifs
    · exact ⟨_, rfl⟩
    · exact ⟨_, rfl⟩
  case loose =>
    intro c x hx hrefers
    rcases release_conn hx with ⟨hx, -⟩ | ⟨-, y, hy, h1, h2, -, hcopies, -⟩
    · exact hs.loose c x hx hrefers
    · exact absurd (.inr (.inl (hcopies ▸ hcopied c y hy h1 h2))) hrefers
  case late =>
    intro c x hx hlate
    rcases release_conn hx with ⟨hx, -⟩ | ⟨-, y, hy, -, -, hdisc, -, hlate'⟩
    · exact hs.late c x hx hlate
    · rw [hdisc]
      exact hs.late c y hy (hlate' ▸ hlate)
  case current =>
    intro c x k hx hheld
    rcases release_conn hx with ⟨hx, -⟩ | ⟨hheld', -⟩
    · exact hs.current c x k hx hheld
    · rw [hheld'] at hheld
      cases hheld
  case unique =>
    intro c d x y k hx hy hheldx hheldy
    rcases release_conn hx with ⟨hx, -⟩ | ⟨hheld', -⟩
    · rcases release_conn hy with ⟨hy, -⟩ | ⟨hheld', -⟩
      · exact hs.unique c d x y k hx hy hheldx hheldy
      · rw [hheld'] at hheldy
        cases hheldy
    · rw [hheld'] at hheldx
      cases hheldx
  case attempt =>
    exact fun c k b h => hs.attempt c k b ((release_attempt _ _ c k b).1 h)
  case channel =>
    intro k y c hk hc
    obtain ⟨b, hb⟩ := hs.channel k y c hk hc
    exact ⟨b, (release_attempt _ _ c k b).2 hb⟩
  case reset =>
    intro k
    have hclosing : (s.release home new).closing k = s.closing k :=
      closing_congr rfl fun c => release_attempt _ _ c k false
    rw [hclosing]
    exact hs.reset k
  case listens =>
    intro c hc
    obtain ⟨h1, h2⟩ := hs.listens c hc
    refine ⟨h1, fun o ho => ?_⟩
    obtain ⟨p, hp, rfl⟩ := Option.map_eq_some_iff.1 ho
    obtain ⟨l, rfl⟩ := h2 p hp
    exact ⟨l, rfl⟩
  case sends =>
    intro c hc
    obtain ⟨h1, h2⟩ := hs.sends c hc
    refine ⟨h1, fun o ho => ?_⟩
    obtain ⟨p, hp, rfl⟩ := Option.map_eq_some_iff.1 ho
    obtain ⟨x, rfl⟩ := h2 p hp
    unfold ChannelOwner.release
    dsimp only
    split_ifs
    · exact ⟨_, rfl⟩
    · exact ⟨_, rfl⟩

/-! ### What the calls keep -/

/-- The records agree, and no entry was in the way of a new registration. -/
def Good (s : OwnerSystem) : Prop := s.Sound ∧ s.epoll.failed ≠ some .epollAddAbsent

theorem Sound.good (hs : s.Sound) (hf : s.epoll.failed = none) : s.Good := ⟨hs, by simp [hf]⟩

/-- A failed assertion changes nothing else. -/
theorem Sound.fail (hs : s.Sound) (b : Assertion) : (s.fail b).Sound :=
  ⟨⟨hs.epoll.map, hs.epoll.kernel, hs.epoll.interest, hs.epoll.mask⟩, hs.bound, hs.registered,
    hs.quiet, hs.sockets, hs.held, hs.queued, hs.loose, hs.late, hs.current, hs.unique, hs.attempt,
    hs.channel, hs.reset, hs.listens, hs.sends⟩

theorem Sound.good_of_check {p : Bool} {b : Assertion} {k : OwnerSystem → Option OwnerSystem}
    (hs : s.Sound) (h : s.check p b k = some t) (hb : b ≠ .epollAddAbsent)
    (hk : p = true → k s = some t → t.Good) : t.Good := by
  unfold check at h
  split_ifs at h with hp
  · exact hk hp h
  · cases h
    exact ⟨hs.fail b, fun he => hb (Option.some.inj he)⟩

/-- Nothing is registered for a descriptor that is closed. -/
theorem Sound.closefd_eq {fd : ℤ} (hs : s.Sound)
    (h : ∀ c, (s.owner c).any ChannelOwner.registers = true → (s.epoll.channel c).fd ≠ fd) :
    s.closefd fd = s := by
  have hclose : (s.epoll.close fun x => decide (x = fd)) = s.epoll := by
    refine hs.epoll.close fun c hc => decide_eq_false (h c ?_)
    rw [← hs.registered]
    exact hc
  rw [closefd, hclose]

theorem Sound.free {fd : ℤ} (hs : s.Sound) (hfree : s.Free fd) (c : ℕ)
    (hc : (s.owner c).any ChannelOwner.opens = true) : (s.epoll.channel c).fd ≠ fd := by
  refine hfree c ?_ hc
  by_contra hbound
  rw [hs.bound c (not_lt.1 hbound)] at hc
  cases hc

/-- `Acceptor::Acceptor`. -/
theorem Sound.newAcceptor {fd : ℤ} (hs : s.Sound) (hfree : s.Free fd) :
    (s.construct fd false (.acceptor false)).Sound := by
  have hold := hs.bound s.created le_rfl
  have hunreg : (s.epoll.channel s.created).registeredInEpoller = false := by
    rw [hs.registered, hold]
    rfl
  refine hs.changeAcceptor (c := s.created) (o := some (.acceptor false)) (.new fd false)
    (by simp [hold]) (fun p hp => ⟨false, (Option.mem_some.1 hp).symm⟩) rfl (Nat.le_succ _)
    (fun h => absurd h (by simp [construct])) (hs.epoll.replaced rfl hunreg) rfl rfl (fun _ => rfl)
    (fun _ d _ hd => hs.free hfree d hd) (fun hsend => absurd (hs.sends _ hsend).1 (lt_irrefl _))
    rfl rfl

/-- `Acceptor::listen`. -/
theorem Sound.listen {c : ℕ} {l : Bool} (hs : s.Sound) (hf : s.epoll.failed = none)
    (hc : s.owner c = some (.acceptor l)) (h : s.listen c = some t) : t.Good := by
  obtain ⟨e, he, hinv, hchannel⟩ := exists_ctl_update (c := c) ⟨hs.epoll, hf⟩
    (fun d => hs.unregistered (by rw [hc]; rfl)) .enableReading
    fun s => some (s.setOwner c ((s.owner c).map fun _ => .acceptor true))
  rw [OwnerSystem.listen, he, hc] at h
  cases h
  refine Sound.good ?_ hinv.failed
  refine hs.changeAcceptor (c := c) (o := some (.acceptor true)) _
    (fun p hp => ⟨l, Option.some.inj (hp.symm.trans hc)⟩)
    (fun p hp => ⟨true, (Option.mem_some.1 hp).symm⟩) rfl le_rfl (fun hb => ?_) hinv.consistent
    hchannel (apply_enable_registered (.inl rfl) _) ?_ (fun _ d hd hopens => ?_)
    (fun hsend => ?_) rfl rfl
  · rw [hs.bound c hb] at hc
    cases hc
  · intro hreg
    rw [apply_enable_registered (.inl rfl)] at hreg
    cases hreg
  · rw [apply_fd]
    exact fun hfd => hd (hs.sockets d c hopens (by rw [hc]; rfl) hfd)
  · obtain ⟨x, hx⟩ := (hs.sends c hsend).2 _ hc
    cases hx

/-- `~Acceptor` of one that does not listen, and `~TcpServer` when others hold its connections. -/
theorem Sound.destroyAcceptor {c : ℕ} (hs : s.Sound) (hc : s.owner c = some (.acceptor false))
    (hcopied : ∀ d x, s.owner d = some (.connection x) → x.held = true → x.home = .server c →
      0 < x.copies) :
    (((s.setOwner c none).closefd (s.epoll.channel c).fd).release (.server c)
      (.server c)).Sound ∧
      (s.setOwner c none).closefd (s.epoll.channel c).fd = s.setOwner c none := by
  have hunreg : (s.epoll.channel c).registeredInEpoller = false := by
    rw [hs.registered, hc]
    rfl
  have hgone : (s.setOwner c none).Sound := by
    refine hs.changeAcceptor (c := c) (o := none) (s.epoll.channel c)
      (fun p hp => ⟨false, Option.some.inj (hp.symm.trans hc)⟩) (by simp) rfl le_rfl
      (fun _ => rfl) hs.epoll (Function.update_eq_self _ _).symm hunreg (hs.quiet c)
      (fun h => by cases h) (fun _ => rfl) rfl rfl
  have hclose : (s.setOwner c none).closefd (s.epoll.channel c).fd = s.setOwner c none := by
    refine hgone.closefd_eq fun d hd hfd => ?_
    have hdc : d ≠ c := by
      rintro rfl
      simp [setOwner] at hd
    have hd' : (s.owner d).any ChannelOwner.registers = true := by
      simpa [setOwner, hdc] using hd
    exact hdc (hs.sockets d c (ChannelOwner.opens_of_registers hd') (by rw [hc]; rfl) hfd)
  refine ⟨?_, hclose⟩
  rw [hclose]
  refine hgone.release _ _ fun d x hx hheld hhome => ?_
  by_cases hdc : d = c
  · subst hdc
    simp [setOwner] at hx
  · exact hcopied d x (by simpa [setOwner, hdc] using hx) hheld hhome

/-- The client of a connector in another state than `kConnected` has no connection. -/
theorem Sound.not_held {k : ℕ} {y : ConnectorOwner} (hs : s.Sound) (hk : s.connector k = some y)
    (hy : y.client = false ∨ y.state ≠ .kConnected) (c : ℕ) (x : ConnOwner)
    (hx : s.owner c = some (.connection x)) (hheld : x.held = true) : x.home ≠ .client k := by
  intro hhome
  obtain ⟨z, hz, hclient, hstate⟩ := hs.current c x k hx hheld hhome
  rw [hk] at hz
  cases hz
  rcases hy with hy | hy
  · rw [hclient] at hy
    cases hy
  · exact hy hstate

theorem setConnector_setConnector (k : ℕ) (y y' : Option ConnectorOwner) :
    (s.setConnector k y).setConnector k y' = s.setConnector k y' := by
  simp [setConnector]

/-- `Connector::startInLoop`, when `connect` does not fail. -/
theorem Sound.startInLoop {k : ℕ} {x : ConnectorOwner} {fd : ℤ} (hs : s.Sound)
    (hf : s.epoll.failed = none) (hk : s.connector k = some x) (hfree : s.Free fd)
    (h : s.startInLoop k x fd = some t) : t.Good := by
  unfold OwnerSystem.startInLoop at h
  refine hs.good_of_check h (by simp) fun hstate h => ?_
  have hstate : x.state = .kDisconnected := by simpa using hstate
  have hnone := hs.not_held hk (.inr (by simp [hstate]))
  have hs' : (s.setConnector k (some { x with state := .kConnecting })).Sound :=
    hs.changeConnector (by rw [hk]; rfl) hnone
  refine hs'.good_of_check h (by simp) fun hchannel h => ?_
  have hchannel : x.channel = none := by simpa using hchannel
  have hold := hs.bound s.created le_rfl
  have hunreg : (s.epoll.channel s.created).registeredInEpoller = false := by
    rw [hs.registered, hold]
    rfl
  have hinv : EpollSystem.Inv { s.epoll with
      channel := Function.update s.epoll.channel s.created (.new fd true) } :=
    ⟨hs.epoll.replaced rfl hunreg, hf⟩
  set x' : ConnectorOwner := { x with state := .kConnecting, channel := some s.created } with hx'
  obtain ⟨e, he, heinv, hechannel⟩ := exists_ctl_update (c := s.created)
    (s := (s.setConnector k (some x')).construct fd true (.attempt k true)) hinv (fun d hd hfd => by
      simp only [construct, setConnector, Function.update_self, Function.update_of_ne hd] at hfd ⊢
      by_contra hreg
      rw [Bool.not_eq_false, hs.registered] at hreg
      exact hs.free hfree d (ChannelOwner.opens_of_registers hreg) hfd) .enableWriting some
  dsimp only at h
  rw [setConnector_setConnector] at h
  have h := he.symm.trans h
  cases h
  refine Sound.good ?_ heinv.failed
  have hconnector : ∀ j, j ≠ k → Function.update s.connector k (some x') j = s.connector j :=
    fun j hj => Function.update_of_ne hj _ _
  -- the connector had no channel, so no attempt of it is left
  have hattempt : ∀ d j b, s.owner d = some (.attempt j b) → j ≠ k ∧ d ≠ s.created := by
    intro d j b hd
    refine ⟨?_, ?_⟩
    · rintro rfl
      obtain ⟨z, hz, hzc⟩ := hs.attempt d j b hd
      rw [hk] at hz
      cases hz
      rw [hchannel] at hzc
      cases hzc
    · rintro rfl
      rw [hold] at hd
      cases hd
  refine hs.changeOther (c := s.created) (o := some (.attempt k true))
    (ChannelOp.enableWriting.apply true (.new fd true)) (by simp [hold]) (by simp) rfl
    (Nat.le_succ _) (fun hb => absurd hb (by simp [construct, setConnector])) heinv.consistent ?_
    (apply_enable_registered (.inr rfl) _) ?_ ?_
    (fun hlisten => absurd (hs.listens _ hlisten).1 (lt_irrefl _))
    (fun hsend => absurd (hs.sends _ hsend).1 (lt_irrefl _)) (fun _ _ => rfl) ?_ ?_ ?_ ?_
  · rw [hechannel]
    simp [construct, setConnector]
  · intro hreg
    rw [apply_enable_registered (.inr rfl)] at hreg
    cases hreg
  · intro _ d _ hd
    rw [apply_fd]
    exact hs.free hfree d hd
  · intro d y j hy hheld hhome
    have hjk : j ≠ k := by
      rintro rfl
      exact hnone d y hy hheld hhome
    show ∃ z, Function.update s.connector k (some x') j = some z ∧ _
    rw [hconnector j hjk]
    exact hs.current d y j hy hheld hhome
  · intro d j b hd
    have hd : Function.update s.owner s.created (some (.attempt k true)) d =
      some (.attempt j b) := hd
    show ∃ y, Function.update s.connector k (some x') j = some y ∧ y.channel = some d
    by_cases hdc : d = s.created
    · subst hdc
      rw [Function.update_self] at hd
      cases hd
      exact ⟨x', Function.update_self .., rfl⟩
    · rw [Function.update_of_ne hdc] at hd
      rw [hconnector j (hattempt d j b hd).1]
      exact hs.attempt d j b hd
  · intro j y d hj hd
    have hj : Function.update s.connector k (some x') j = some y := hj
    show ∃ b, Function.update s.owner s.created (some (.attempt k true)) d = some (.attempt j b)
    by_cases hjk : j = k
    · subst hjk
      rw [Function.update_self] at hj
      cases hj
      cases hd
      exact ⟨true, Function.update_self ..⟩
    · rw [hconnector j hjk] at hj
      obtain ⟨b, hb⟩ := hs.channel j y d hj hd
      exact ⟨b, by rw [Function.update_of_ne (hattempt d j b hb).2, hb]⟩
  · intro j
    have hreset : s.functors.count (.resetChannel j) = (s.closing j).toNat := hs.reset j
    refine hreset.trans (congrArg Bool.toNat ?_)
    show s.closing j = (Function.update s.connector k (some x') j).any fun y => y.channel.any
      fun d => decide (Function.update s.owner s.created (some (.attempt k true)) d =
        some (.attempt j false))
    unfold closing
    by_cases hjk : j = k
    · subst hjk
      rw [hk, Function.update_self, Option.any_some, Option.any_some, hchannel]
      simp [hx']
    · rw [hconnector j hjk]
      cases hj : s.connector j with
      | none => rfl
      | some y =>
        cases hy : y.channel with
        | none => simp [hy]
        | some d =>
          obtain ⟨b, hb⟩ := hs.channel j y d hj hy
          simp [hy, Function.update_of_ne (hattempt d j b hb).2]

/-- The channel of an attempt is removed, and its `resetChannel` queued. -/
theorem Sound.endAttempt {k c : ℕ} {x : ConnectorOwner} {e : EpollSystem ℕ} (hs : s.Sound)
    (hk : s.connector k = some x) (hchannel : x.channel = some c)
    (hc : s.owner c = some (.attempt k true)) (he : e.Consistent)
    (hechannel : e.channel = Function.update s.epoll.channel c { s.epoll.channel c with
      events := Channel.kNoneEvent
      registeredInEpoller := false }) :
    (({ s with epoll := e }.setOwner c (some (.attempt k false))).queueInLoop
      (.resetChannel k)).Sound := by
  have hself : ∀ j b, s.owner c = some (.attempt j b) → j = k := by
    intro j b h
    rw [hc] at h
    cases h
    rfl
  refine hs.changeOther (c := c) (o := some (.attempt k false)) _ (by simp [hc]) (by simp) rfl
    le_rfl (fun hb => ?_) he hechannel rfl (fun _ => rfl) (fun h => by cases h) (fun hlisten => ?_)
    (fun hsend => ?_) (fun task htask => ?_) hs.current ?_ ?_ ?_
  · rw [hs.bound c hb] at hc
    cases hc
  · obtain ⟨l, hl⟩ := (hs.listens c hlisten).2 _ hc
    cases hl
  · obtain ⟨x, hx⟩ := (hs.sends c hsend).2 _ hc
    cases hx
  · show (s.functors ++ [OwnerTask.resetChannel k]).count task = _
    rw [List.count_append, List.count_singleton, if_neg (by simpa using (htask k).symm),
      Nat.add_zero]
  · intro d j b hd
    have hd : Function.update s.owner c (some (.attempt k false)) d = some (.attempt j b) := hd
    by_cases hdc : d = c
    · subst hdc
      rw [Function.update_self] at hd
      cases hd
      exact ⟨x, hk, hchannel⟩
    · rw [Function.update_of_ne hdc] at hd
      exact hs.attempt d j b hd
  · intro j y d hj hd
    obtain ⟨b, hb⟩ := hs.channel j y d hj hd
    show ∃ b, Function.update s.owner c (some (.attempt k false)) d = some (.attempt j b)
    by_cases hdc : d = c
    · subst hdc
      rw [hself j b hb]
      exact ⟨false, Function.update_self ..⟩
    · exact ⟨b, by rw [Function.update_of_ne hdc, hb]⟩
  · intro j
    have hreset := hs.reset j
    show (s.functors ++ [OwnerTask.resetChannel k]).count (OwnerTask.resetChannel j) =
      ((s.connector j).any fun y => y.channel.any fun d =>
        decide (Function.update s.owner c (some (.attempt k false)) d =
          some (.attempt j false))).toNat
    unfold closing at hreset
    rw [List.count_append, hreset]
    by_cases hjk : j = k
    · subst hjk
      simp [hk, hchannel, hc]
    · have hne : OwnerTask.resetChannel k ≠ .resetChannel j := by
        simpa using Ne.symm hjk
      rw [List.count_singleton, if_neg (by simpa using hne), Nat.add_zero]
      congr 1
      cases hj : s.connector j with
      | none => rfl
      | some y =>
        cases hy : y.channel with
        | none => simp [hy]
        | some d =>
          obtain ⟨b, hb⟩ := hs.channel j y d hj hy
          have hdc : d ≠ c := by
            rintro rfl
            exact hjk (hself j b hb)
          simp [hy, Function.update_of_ne hdc]

/-- `Connector::handleWrite` or `handleError`. -/
theorem Sound.attemptEnd {k c : ℕ} {x : ConnectorOwner} {how : AttemptEnd} (hs : s.Sound)
    (hf : s.epoll.failed = none) (hk : s.connector k = some x) (hchannel : x.channel = some c)
    (hc : s.owner c = some (.attempt k true)) (hstate : x.state = .kConnecting)
    (hclient : how = .handed → x.client = true) (h : s.attemptEnd k c x how = some t) :
    t.Good := by
  unfold OwnerSystem.attemptEnd at h
  obtain ⟨e, he, heinv, hechannel⟩ := exists_ctl_remove (c := c) hs hf (by rw [hc]; rfl) fun s =>
    ((s.setOwner c (some (.attempt k false))).queueInLoop (.resetChannel k)).afterAttempt k c x how
  have h := he.symm.trans h
  have hended := hs.endAttempt hk hchannel hc heinv.consistent hechannel
  set u := ({ s with epoll := e }.setOwner c (some (.attempt k false))).queueInLoop
    (.resetChannel k) with hu
  have hother : ∀ d, (u.owner d).any ChannelOwner.opens = true →
      d ≠ c ∧ (s.owner d).any ChannelOwner.opens = true := by
    intro d hd
    have hd : (Function.update s.owner c (some (.attempt k false)) d).any ChannelOwner.opens =
      true := hd
    by_cases hdc : d = c
    · subst hdc
      rw [Function.update_self] at hd
      cases hd
    · rw [Function.update_of_ne hdc] at hd
      exact ⟨hdc, hd⟩
  -- the socket of the attempt was the only one with its number
  have hfree : ∀ d, (u.owner d).any ChannelOwner.opens = true →
      (u.epoll.channel d).fd ≠ (u.epoll.channel c).fd := by
    intro d hd hfd
    obtain ⟨hdc, hd⟩ := hother d hd
    have hfd : (e.channel d).fd = (e.channel c).fd := hfd
    rw [hechannel, Function.update_of_ne hdc, Function.update_self] at hfd
    exact hdc (hs.sockets d c hd (by rw [hc]; rfl) hfd)
  have hclose : u.closefd (u.epoll.channel c).fd = u :=
    hended.closefd_eq fun d hd => hfree d (ChannelOwner.opens_of_registers hd)
  have hfu : u.epoll.failed = none := heinv.failed
  have huk : u.connector k = some x := hk
  have hnone := hended.not_held huk (.inr (by simp [hstate]))
  have hsound : ∀ state, (u.setConnector k (some { x with state := state })).Sound := fun state =>
    hended.changeConnector (by rw [huk]; rfl) hnone
  have h : u.afterAttempt k c x how = some t := h
  unfold afterAttempt at h
  cases how with
  | retry =>
    dsimp only at h
    rw [hclose] at h
    cases h
    exact (hsound .kDisconnected).good hfu
  | stopped =>
    dsimp only at h
    rw [hclose] at h
    cases h
    exact (hsound .kConnected).good hfu
  | handed =>
    dsimp only at h
    have hrelease := (hsound .kConnected).release (.client k) (.client k)
      fun d y hy hheld hhome => absurd hhome (hnone d y hy hheld)
    obtain ⟨v, hv, hsv, hfv⟩ := hrelease.exists_newConnection (.client k) hfu
      (fun d hd => hfree d (by rwa [release_opens] at hd))
      fun j hj => by
        cases hj
        refine ⟨⟨{ x with state := .kConnected }, Function.update_self .., hclient rfl, rfl⟩,
          fun d y hy hheld => ?_⟩
        rcases release_conn hy with ⟨-, hhome⟩ | ⟨hheld', -⟩
        · exact hhome hheld
        · rw [hheld'] at hheld
          cases hheld
    rw [hv] at h
    cases h
    exact hsv.good hfv

/-- `~Connector`. -/
theorem Sound.deleteConnector {k : ℕ} {x : ConnectorOwner} (hs : s.Sound)
    (hf : s.epoll.failed = none) (hk : s.connector k = some x)
    (hnone : ∀ c y, s.owner c = some (.connection y) → y.held = true → y.home ≠ .client k)
    (h : s.deleteConnector k x = some t) : t.Good := by
  unfold OwnerSystem.deleteConnector at h
  refine hs.good_of_check h (by simp) fun hchannel h => ?_
  cases h
  refine Sound.good (hs.changeConnector ?_ hnone) hf
  rw [hk, Option.bind_some]
  exact (Option.isNone_iff_eq_none.1 hchannel).symm

/-- `~TcpClient`. -/
theorem Sound.destroyClient {k : ℕ} {x : ConnectorOwner} (hs : s.Sound)
    (hf : s.epoll.failed = none) (hk : s.connector k = some x)
    (hcopied : ∀ c y, s.owner c = some (.connection y) → y.held = true → y.home = .client k →
      0 < y.copies) (h : s.destroyClient k x = some t) : t.Good := by
  unfold OwnerSystem.destroyClient at h
  split_ifs at h with hheld
  · refine (hs.release _ _ hcopied).deleteConnector hf hk (fun c y hy hheldy => ?_) h
    rcases release_conn hy with ⟨-, hhome⟩ | ⟨hheld', -⟩
    · exact hhome hheldy
    · rw [hheld'] at hheldy
      cases hheldy
  · cases h
    refine Sound.good (hs.changeConnector (by rw [hk]; rfl) fun c y hy hheldy hhome => hheld ?_) hf
    have hbound : c < s.created := by
      by_contra hbound
      rw [hs.bound c (not_lt.1 hbound)] at hy
      cases hy
    exact ⟨c, hbound, _, hy, by simp [ChannelOwner.isHeldBy, hheldy, hhome]⟩

/-- `sendInLoop` and `handleWrite`. -/
theorem Sound.write {c : ℕ} {x : ConnOwner} {enable : Bool} (hs : s.Sound)
    (hr : s.Referred) (hf : s.epoll.failed = none) (hc : s.owner c = some (.connection x))
    (h : s.write c x enable = some t) : t.Good := by
  unfold OwnerSystem.write at h
  obtain ⟨e, he, hinv, hchannel⟩ := exists_ctl_update (c := c) ⟨hs.epoll, hf⟩
    (fun d => hs.unregistered (by rw [hc]; rfl))
    (if enable then .enableWriting else .disableWriting) fun s =>
      some (s.setOwner c (some (.connection { x with
        late := x.late || (x.disconnected && enable) })))
  have h := he.symm.trans h
  cases h
  have hreg := hs.registered c
  have hquiet := hs.quiet c
  rw [hc] at hreg
  refine Sound.good ?_ hinv.failed
  refine hs.changeConn _ hc rfl rfl rfl hinv.consistent hchannel (apply_fd _ _) ?_
    (fun hfalse => ?_)
    rfl (fun hheld => ?_) (fun hrefers => ?_) ?_ (fun _ _ => rfl)
  · rw [apply_registered, hreg]
    cases enable with
    | true =>
      rw [if_pos rfl, decide_eq_true (enable_events_ne (.inr rfl) _), Bool.or_true]
      simp only [ChannelOwner.registers]
      cases x.disconnected <;> simp
    | false =>
      -- a channel without interest is not registered by `disableWriting`
      have hregisters : (ChannelOwner.connection { x with
          late := x.late || (x.disconnected && false) }).registers =
          (ChannelOwner.connection x).registers := by
        simp [ChannelOwner.registers]
      rw [hregisters, if_neg Bool.false_ne_true]
      cases hx : (ChannelOwner.connection x).registers with
      | true => simp [hx]
      | false =>
        rw [Option.any_some, hx] at hreg
        have hnone : ChannelOp.disableWriting.events (s.epoll.channel c) = Channel.kNoneEvent := by
          rw [ChannelOp.events, hquiet hreg]
          rfl
        simp [hx, hnone]
  · rw [apply_registered, Bool.or_eq_false_iff] at hfalse
    rw [apply_events]
    simpa using hfalse.2
  · obtain ⟨h1, h2⟩ := hs.held c x hc hheld
    exact ⟨hheld, h1, h2⟩
  · exact absurd (hr c x hc) hrefers
  · simp only [Bool.or_eq_true, Bool.and_eq_true]
    rintro (hlate | hlate)
    · exact hs.late c x hc hlate
    · exact hlate.1

/-- The functor of a `send` by another thread, which finds its connection. -/
theorem Sound.sendInLoop {c : ℕ} {enable : Bool} (hs : s.Sound) (hr : s.Referred)
    (hf : s.epoll.failed = none) (hc : enable = true → ∃ x, s.owner c = some (.connection x))
    (h : s.sendInLoop c enable = some t) : t.Good := by
  unfold OwnerSystem.sendInLoop at h
  cases enable with
  | false =>
    cases h
    exact hs.good hf
  | true =>
    obtain ⟨x, hx⟩ := hc rfl
    simp only [if_true, hx] at h
    exact hs.write hr hf hx h

/-- A change of the number of copies. -/
theorem Sound.setCopies {c copies : ℕ} {x : ConnOwner} (hs : s.Sound)
    (hc : s.owner c = some (.connection x))
    (hloose : ¬s.Refers c (.connection { x with copies := copies }) →
      x.disconnected = true ∧ x.late = false) :
    (s.setOwner c (some (.connection { x with copies := copies }))).Sound := by
  have hreg := hs.registered c
  rw [hc] at hreg
  refine hs.changeConn _ hc rfl rfl rfl hs.epoll (Function.update_eq_self _ _).symm rfl hreg
    (hs.quiet c) rfl (fun hheld => ?_) hloose (hs.late c x hc) (fun _ _ => rfl)
  obtain ⟨h1, h2⟩ := hs.held c x hc hheld
  exact ⟨hheld, h1, h2⟩

/-- A connection that is held is given up, and its `connectDestoryed` queued. -/
theorem Sound.forget {c : ℕ} {x : ConnOwner} (hs : s.Sound)
    (hc : s.owner c = some (.connection x)) : (s.forget c x).Sound := by
  have hreg := hs.registered c
  rw [hc] at hreg
  refine hs.changeConn { x with held := false } hc rfl rfl rfl hs.epoll
    (Function.update_eq_self _ _).symm rfl hreg (hs.quiet c) rfl (fun h => by cases h)
    (fun hrefers => ?_) (hs.late c x hc) (fun task htask => ?_)
  · exact absurd (.inr (.inr (by simp [OwnerSystem.forget, queueInLoop]))) hrefers
  · show (s.functors ++ [OwnerTask.connectDestoryed c]).count task = _
    rw [List.count_append, List.count_singleton, if_neg (by simpa using htask.symm), Nat.add_zero]

/-- A use of an owner that is gone. -/
theorem Sound.misuse (hs : s.Sound) : { s with misused := true }.Sound :=
  ⟨hs.epoll, hs.bound, hs.registered, hs.quiet, hs.sockets, hs.held, hs.queued, hs.loose, hs.late,
    hs.current, hs.unique, hs.attempt, hs.channel, hs.reset, hs.listens, hs.sends⟩

/-- The `closeCallback_`. -/
theorem Sound.closeCallback {c : ℕ} {x : ConnOwner} {restart : Bool} (hs : s.Sound)
    (hf : s.epoll.failed = none) (hc : s.owner c = some (.connection x))
    (h : s.closeCallback c x restart = some t) : t.Good := by
  have hforget := hs.forget hc
  unfold OwnerSystem.closeCallback at h
  cases hhome : x.home with
  | server a =>
    simp only [hhome] at h
    split_ifs at h with hgone
    · cases h
      exact hs.misuse.good hf
    · refine hs.good_of_check h (by simp) fun _ h => ?_
      cases h
      exact hforget.good hf
  | client k =>
    simp only [hhome] at h
    by_cases hgone : (!s.hasClient k) = true
    · rw [if_pos hgone] at h
      cases h
      exact hs.misuse.good hf
    · rw [if_neg hgone] at h
      refine hs.good_of_check h (by simp) fun hheld h => ?_
      cases restart with
      | false =>
        cases h
        exact hforget.good hf
      | true =>
        rw [if_pos rfl] at h
        cases h
        refine Sound.good (hforget.changeConnector ?_ fun d y hy hheldy hhomey => ?_) hf
        · cases s.forget c x |>.connector k <;> rfl
        · -- it was the connection of its client
          have hy : Function.update s.owner c (some (.connection { x with held := false })) d =
            some (.connection y) := hy
          by_cases hdc : d = c
          · subst hdc
            rw [Function.update_self] at hy
            cases hy
            cases hheldy
          · rw [Function.update_of_ne hdc] at hy
            exact hdc (hs.unique d c y x k hy hc hheldy hheld hhomey hhome)
  | detached =>
    simp only [hhome] at h
    cases h
    exact hforget.good hf

/-- `TcpConnection::handleClose`. -/
theorem Sound.handleClose {c : ℕ} {x : ConnOwner} {restart : Bool} (hs : s.Sound)
    (hr : s.Referred) (hf : s.epoll.failed = none) (hc : s.owner c = some (.connection x))
    (h : s.handleClose c x restart = some t) : t.Good := by
  unfold OwnerSystem.handleClose at h
  refine hs.good_of_check h (by simp) fun hdisc h => ?_
  have hdisc : x.disconnected = false := by simpa using hdisc
  have hreg : (s.epoll.channel c).registeredInEpoller = true := by
    rw [hs.registered, hc]
    simp [ChannelOwner.registers, hdisc]
  obtain ⟨e, he, hinv, hchannel⟩ := exists_ctl_update (c := c) ⟨hs.epoll, hf⟩
    (fun d => hs.unregistered (by rw [hc]; rfl)) .disableAll fun s => s.closeCallback c x restart
  have h := he.symm.trans h
  have hsound : { s with epoll := e }.Sound := by
    refine hs.changeConn _ hc (Function.update_eq_self_iff.2 hc.symm).symm rfl rfl hinv.consistent
      hchannel (apply_fd _ _) ?_ ?_ rfl (fun hheld => ?_) (fun hrefers => ?_) (hs.late c x hc)
      (fun _ _ => rfl)
    · rw [apply_registered, hreg, Bool.true_or]
      simp [ChannelOwner.registers, hdisc]
    · intro hfalse
      rw [apply_registered, hreg, Bool.true_or] at hfalse
      cases hfalse
    · obtain ⟨h1, h2⟩ := hs.held c x hc hheld
      exact ⟨hheld, h1, h2⟩
    · exact absurd (hr c x hc) hrefers
  exact hsound.closeCallback hinv.failed hc h

/-- `TcpConnection::connectDestoryed`. -/
theorem Sound.connectDestoryed {c : ℕ} {x : ConnOwner} {functors : List OwnerTask} (hs : s.Sound)
    (hf : s.epoll.failed = none) (hfunctors : s.functors = .connectDestoryed c :: functors)
    (hc : s.owner c = some (.connection x)) (h : s.connectDestoryed c x functors = some t) :
    t.Good := by
  unfold OwnerSystem.connectDestoryed at h
  refine hs.good_of_check h (by simp) fun hdisc h => ?_
  have hdisc : x.disconnected = false := by simpa using hdisc
  have hlate : x.late = false := by
    by_contra hlate
    have := hs.late c x hc (by simpa using hlate)
    rw [hdisc] at this
    cases this
  have hheld : x.held = false := by
    by_contra hheld
    refine (hs.held c x hc (by simpa using hheld)).2 ?_
    rw [hfunctors]
    exact List.mem_cons_self
  obtain ⟨e, he, hinv, hchannel⟩ := exists_ctl_remove (c := c) hs hf
    (by rw [hc]; simp [ChannelOwner.registers, hdisc]) fun s =>
      some { s.setOwner c (some (.connection { x with disconnected := true })) with
        functors := functors }
  have h := he.symm.trans h
  cases h
  refine Sound.good ?_ hinv.failed
  refine hs.changeConn { x with disconnected := true } hc rfl rfl rfl hinv.consistent
    hchannel rfl ?_ (fun _ => rfl) rfl (fun h => ?_) (fun _ => ⟨rfl, hlate⟩) (fun _ => rfl)
    (fun task htask => ?_)
  · simp [ChannelOwner.registers, hlate]
  · rw [hheld] at h
    cases h
  · rw [hfunctors, List.count_cons_of_ne htask.symm]

/-- `Connector::resetChannel`. -/
theorem Sound.resetChannel {k : ℕ} {functors : List OwnerTask} {enable : Bool} (hs : s.Sound)
    (hf : s.epoll.failed = none) (hfunctors : s.functors = .resetChannel k :: functors)
    (h : s.runTask (.resetChannel k) functors enable = some t) : t.Good := by
  -- the channel of the connector waits for this functor, the only one of its kind
  have hreset := hs.reset k
  rw [hfunctors, List.count_cons_self] at hreset
  have hclosing : s.closing k = true := by
    by_contra hclosing
    rw [Bool.not_eq_true] at hclosing
    rw [hclosing] at hreset
    cases hreset
  rw [hclosing] at hreset
  obtain ⟨x, hk, hany⟩ := (Option.any_eq_true _ _).1 hclosing
  obtain ⟨c, hchannel, hc⟩ := (Option.any_eq_true _ _).1 hany
  have hc : s.owner c = some (.attempt k false) := by simpa using hc
  simp only [runTask, hk, hchannel, Option.elim_some] at h
  cases h
  refine Sound.good ?_ hf
  have hreg : (s.epoll.channel c).registeredInEpoller = false := by
    rw [hs.registered, hc]
    rfl
  have hconnector : ∀ j, j ≠ k → Function.update s.connector k (some { x with channel := none }) j =
      s.connector j := fun j hj => Function.update_of_ne hj _ _
  refine hs.changeOther (c := c) (o := none) (s.epoll.channel c) (by simp [hc]) (by simp) rfl
    le_rfl (fun _ => rfl) hs.epoll (Function.update_eq_self _ _).symm hreg (hs.quiet c)
    (fun h => by cases h) (by simp) (fun _ => rfl) (fun task htask => ?_) ?_ ?_ ?_ ?_
  · rw [hfunctors, List.count_cons_of_ne (htask k).symm]
  · intro d y j hy hheld hhome
    obtain ⟨z, hz, hclient, hstate⟩ := hs.current d y j hy hheld hhome
    show ∃ z, Function.update s.connector k (some { x with channel := none }) j = some z ∧ _
    by_cases hjk : j = k
    · subst hjk
      rw [hk] at hz
      cases hz
      exact ⟨_, Function.update_self .., hclient, hstate⟩
    · rw [hconnector j hjk]
      exact ⟨z, hz, hclient, hstate⟩
  · intro d j b hd
    have hd : Function.update s.owner c none d = some (.attempt j b) := hd
    show ∃ y, Function.update s.connector k (some { x with channel := none }) j = some y ∧ _
    by_cases hdc : d = c
    · subst hdc
      rw [Function.update_self] at hd
      cases hd
    · rw [Function.update_of_ne hdc] at hd
      obtain ⟨y, hy, hyd⟩ := hs.attempt d j b hd
      have hjk : j ≠ k := by
        rintro rfl
        rw [hk] at hy
        cases hy
        exact hdc (Option.some.inj (hyd.symm.trans hchannel))
      rw [hconnector j hjk]
      exact ⟨y, hy, hyd⟩
  · intro j y d hj hd
    have hj : Function.update s.connector k (some { x with channel := none }) j = some y := hj
    show ∃ b, Function.update s.owner c none d = some (.attempt j b)
    by_cases hjk : j = k
    · subst hjk
      rw [Function.update_self] at hj
      cases hj
      cases hd
    · rw [hconnector j hjk] at hj
      obtain ⟨b, hb⟩ := hs.channel j y d hj hd
      have hdc : d ≠ c := by
        rintro rfl
        rw [hc] at hb
        cases hb
        exact hjk rfl
      exact ⟨b, by rw [Function.update_of_ne hdc, hb]⟩
  · intro j
    show functors.count (OwnerTask.resetChannel j) =
      ((Function.update s.connector k (some { x with channel := none }) j).any fun y =>
        y.channel.any fun d => decide (Function.update s.owner c none d =
          some (.attempt j false))).toNat
    by_cases hjk : j = k
    · subst hjk
      rw [Function.update_self]
      simpa using hreset
    · have hj := hs.reset j
      have hne : OwnerTask.resetChannel k ≠ .resetChannel j := by
        simpa using Ne.symm hjk
      rw [hfunctors, List.count_cons_of_ne hne] at hj
      rw [hj, hconnector j hjk]
      unfold closing
      congr 1
      cases hjc : s.connector j with
      | none => rfl
      | some y =>
        cases hy : y.channel with
        | none => simp [hy]
        | some d =>
          obtain ⟨b, hb⟩ := hs.channel j y d hjc hy
          have hdc : d ≠ c := by
            rintro rfl
            rw [hc] at hb
            cases hb
            exact hjk rfl
          simp [hy, Function.update_of_ne hdc]

end OwnerSystem

end Jiangbo
