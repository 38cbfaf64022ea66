import LearnForCpp.Reactor.OwnerRecords

/-!
# The channels that an epoller refers to

An entry of `channels_` is a channel that exists, as long as no owner is destroyed with a channel
that it has registered.
-/

namespace Jiangbo

namespace OwnerSystem

variable {s t : OwnerSystem} {a : OwnerAction}

/-- The channel exists. -/
def Exists (s : OwnerSystem) (c : ℕ) : Prop := (s.owner c).isSome = true

/-- A step destroys only channels that are not registered, every entry of `channels_` is a channel
that exists, and no entry was in the way of `epollAdd`. -/
def KeepsLive (s : OwnerSystem) (_ : OwnerAction) (t : OwnerSystem) : Prop :=
  (∀ c, s.Exists c → ¬t.Exists c → (t.epoll.channel c).registeredInEpoller = false) ∧
  (∀ fd c, t.epoll.epoller.channels fd = some c → t.Exists c) ∧
  t.epoll.failed ≠ some .epollAddAbsent

/-- What the last copy of a connection that nobody holds gives up. -/
def IsLast (s : OwnerSystem) (c : ℕ) : ChannelOwner → Prop
  | .connection x => x.copies = 1 ∧ x.held = false ∧ .connectDestoryed c ∉ s.functors
  | .acceptor _ | .attempt _ _ => False

instance (s : OwnerSystem) (c : ℕ) : (o : ChannelOwner) → Decidable (s.IsLast c o)
  | .connection _ => inferInstanceAs (Decidable (_ ∧ _))
  | .acceptor _ | .attempt _ _ => inferInstanceAs (Decidable False)

/-- The condition on the steps.  An acceptor is destroyed if it has not listened, and a server or a
client when others hold its connections as well; the last copy of a connection is given up after
its `connectDestoryed`, with no `sendInLoop` since then that enabled its channel; a queued `listen`
finds its acceptor, and the `sendInLoop` of another thread its connection if it enables writing. -/
def MayDestroy (s : OwnerSystem) : OwnerAction → Prop
  | .destroyAcceptor a => s.owner a ≠ some (.acceptor true) ∧
      ∀ c < s.created, ∀ o ∈ s.owner c, o.isHeldBy (.server a) = true → o.isCopied = true
  | .destroyClient k =>
      ∀ c < s.created, ∀ o ∈ s.owner c, o.isHeldBy (.client k) = true → o.isCopied = true
  | .drop c => ∀ o ∈ s.owner c, s.IsLast c o → o.registers = false
  | .call enable =>
      match s.functors.head? with
      | some (.listen a) => s.Exists a
      | some (.sendInLoop c) => enable = true → s.Exists c
      | _ => True
  | _ => True

theorem collect_owner_eq_none {c : ℕ} {o : ChannelOwner} (hc : s.owner c = some o)
    (hrefers : ¬s.Refers c o) : s.collect.owner c = none := by
  show (s.owner c).filter _ = none
  rw [hc]
  simp [Option.filter, hrefers]

theorem Sound.copied {home : Home} (hs : s.Sound)
    (h : ∀ c < s.created, ∀ o ∈ s.owner c, o.isHeldBy home = true → o.isCopied = true) (c : ℕ)
    (x : ConnOwner) (hx : s.owner c = some (.connection x)) (hheld : x.held = true)
    (hhome : x.home = home) : 0 < x.copies := by
  have hbound : c < s.created := by
    by_contra hbound
    rw [hs.bound c (not_lt.1 hbound)] at hx
    cases hx
  have := h c hbound _ hx (by simp [ChannelOwner.isHeldBy, hheld, hhome])
  simpa [ChannelOwner.isCopied] using this

/-- A functor with a raw pointer is called. -/
theorem Sound.called {c : ℕ} {task : OwnerTask} {functors : List OwnerTask} (hs : s.Sound)
    (hfunctors : s.functors = task :: functors) (htask : task = .listen c ∨ task = .sendInLoop c) :
    { s with functors := functors }.Sound := by
  refine hs.withFunctors (fun task' hlisten hsend => ?_) (fun d hd => .inl ?_) fun d hd => .inl ?_
  · have hne : task' ≠ task := by
      rintro rfl
      rcases htask with h | h
      · exact hlisten c h
      · exact hsend c h
    rw [hfunctors, List.count_cons_of_ne hne.symm]
  · rw [hfunctors]
    exact List.mem_cons_of_mem _ hd
  · rw [hfunctors]
    exact List.mem_cons_of_mem _ hd

/-- A functor with a raw pointer is queued. -/
theorem Sound.queueRaw {c : ℕ} {task : OwnerTask} (hs : s.Sound)
    (htask : (task = .listen c ∧ ∃ l, s.owner c = some (.acceptor l)) ∨
      task = .sendInLoop c ∧ ∃ x, s.owner c = some (.connection x)) :
    (s.queueInLoop task).Sound := by
  refine hs.withFunctors (fun task' hlisten hsend => ?_) (fun d hd => ?_) fun d hd => ?_
  · have hne : task' ≠ task := by
      rintro rfl
      rcases htask with ⟨h, -⟩ | ⟨h, -⟩
      · exact hlisten c h
      · exact hsend c h
    rw [List.count_append, List.count_singleton, if_neg (by simpa using hne.symm), Nat.add_zero]
  · rcases List.mem_append.1 hd with hd | hd
    · exact .inl hd
    · rcases htask with ⟨rfl, hl⟩ | ⟨rfl, -⟩
      · obtain rfl : d = c := by simpa using hd
        exact .inr hl
      · simp at hd
  · rcases List.mem_append.1 hd with hd | hd
    · exact .inl hd
    · rcases htask with ⟨rfl, -⟩ | ⟨rfl, hx⟩
      · simp at hd
      · obtain rfl : d = c := by simpa using hd
        exact .inr hx

/-- **The calls of the owners** keep the records, when they may destroy what they destroy. -/
theorem Sound.act (hs : s.Sound) (hr : s.Referred) (hf : s.epoll.failed = none)
    (ha : s.MayDestroy a) (h : s.act a = some t) : t.Good := by
  cases a with
  | newAcceptor fd =>
    simp only [OwnerSystem.act] at h
    split_ifs at h with hfree
    cases h
    exact (hs.newAcceptor hfree).good hf
  | listen c =>
    simp only [OwnerSystem.act] at h
    split at h
    · exact hs.listen hf ‹_› h
    · cases h
  | start c inLoop =>
    simp only [OwnerSystem.act] at h
    split at h
    · split_ifs at h
      · cases h
        exact hs.good hf
      · exact hs.listen hf ‹_› h
      · cases h
        exact (hs.queueRaw (.inl ⟨rfl, _, ‹_›⟩)).good hf
    · cases h
  | destroyAcceptor c =>
    simp only [OwnerSystem.act] at h
    split at h
    · rename_i l hc
      cases h
      -- an acceptor that listens may not be destroyed
      have hl : l = false := by
        by_contra hl
        exact ha.1 (by rw [hc, Bool.not_eq_false] at *; rw [hl])
      subst hl
      obtain ⟨hsound, hclose⟩ := hs.destroyAcceptor hc (hs.copied ha.2)
      refine hsound.good ?_
      rw [hclose]
      exact hf
    · cases h
  | accept c fd =>
    simp only [OwnerSystem.act] at h
    split_ifs at h with hc
    obtain ⟨u, hu, hsound, hfu⟩ := hs.exists_newConnection (.server c) hf
      (hs.free hc.2) fun k hk => by cases hk
    rw [hu] at h
    cases h
    exact hsound.good hfu
  | newClient k =>
    simp only [OwnerSystem.act] at h
    split_ifs at h with hk
    cases h
    refine Sound.good (hs.changeConnector (by rw [hk]; rfl) fun c x hx hheld hhome => ?_) hf
    -- nobody holds a connection for a client that is not there yet
    obtain ⟨y, hy, -⟩ := hs.current c x k hx hheld hhome
    rw [hk] at hy
    cases hy
  | startInLoop k fd =>
    simp only [OwnerSystem.act] at h
    split at h
    · split_ifs at h with hfree
      exact hs.startInLoop hf ‹_› hfree.2 h
    · cases h
  | attemptEnd k how =>
    simp only [OwnerSystem.act] at h
    split at h
    · split at h
      · split_ifs at h with hc
        exact hs.attemptEnd hf ‹_› ‹_› hc.1 hc.2.1 hc.2.2 h
      · cases h
    · cases h
  | destroyClient k =>
    simp only [OwnerSystem.act] at h
    split at h
    · split_ifs at h
      exact hs.destroyClient hf ‹_› (hs.copied ha) h
    · cases h
  | deleteConnector k =>
    simp only [OwnerSystem.act] at h
    split at h
    · split_ifs at h with hclient
      exact hs.deleteConnector hf ‹_› (hs.not_held ‹_› (.inl (by simpa using hclient))) h
    · cases h
  | write c enable =>
    simp only [OwnerSystem.act] at h
    split at h
    · exact hs.write hr hf ‹_› h
    · cases h
  | send c =>
    simp only [OwnerSystem.act] at h
    split at h
    · split_ifs at h
      · cases h
        exact hs.good hf
      · cases h
        exact (hs.queueRaw (.inr ⟨rfl, _, ‹_›⟩)).good hf
    · cases h
  | handleClose c restart =>
    simp only [OwnerSystem.act] at h
    split at h
    · exact hs.handleClose hr hf ‹_› h
    · cases h
  | copy c =>
    simp only [OwnerSystem.act] at h
    split at h
    · cases h
      exact Sound.good (hs.setCopies ‹_› fun hrefers =>
        absurd (.inr (.inl (Nat.succ_pos _))) hrefers) hf
    · cases h
  | drop c =>
    simp only [OwnerSystem.act] at h
    split at h
    · rename_i x hc
      split_ifs at h with hcopies
      cases h
      refine Sound.good (hs.setCopies hc fun hrefers => ?_) hf
      -- the last reference is gone: the channel must be out of `epoll`
      simp only [Refers, not_or] at hrefers
      have hlast : s.IsLast c (.connection x) :=
        ⟨by omega, by simpa using hrefers.1, hrefers.2.2⟩
      simpa [ChannelOwner.registers] using ha _ hc hlast
    · cases h
  | call enable =>
    simp only [OwnerSystem.act] at h
    cases hfunctors : s.functors with
    | nil =>
      rw [hfunctors] at h
      cases h
    | cons task functors =>
      rw [hfunctors] at h
      cases task with
      | listen c =>
        have hc : s.Exists c := by simpa [MayDestroy, hfunctors] using ha
        obtain ⟨o, ho⟩ := Option.isSome_iff_exists.1 hc
        obtain ⟨l, rfl⟩ := (hs.listens c (by simp [hfunctors])).2 o ho
        exact (hs.called hfunctors (.inl rfl)).listen hf ho h
      | sendInLoop c =>
        have hr' : { s with functors := functors }.Referred := fun d x hx =>
          (hr d x hx).imp_right fun h => h.imp_right fun h => by simpa [hfunctors] using h
        refine (hs.called hfunctors (.inr rfl)).sendInLoop hr' hf (fun henable => ?_) h
        have hc : s.Exists c := by simpa [MayDestroy, hfunctors, henable] using ha
        obtain ⟨o, ho⟩ := Option.isSome_iff_exists.1 hc
        obtain ⟨x, rfl⟩ := (hs.sends c (by simp [hfunctors])).2 o ho
        exact ⟨x, ho⟩
      | resetChannel k => exact hs.resetChannel hf hfunctors h
      | connectDestoryed c =>
        simp only [runTask] at h
        split at h
        · exact hs.connectDestoryed hf hfunctors ‹_› h
        · cases h

/-! ### Runs -/

/-- The records agree, and every connection is referred to. -/
structure Inv (s : OwnerSystem) : Prop where
  sound : s.Sound
  referred : s.Referred

theorem next_cases (h : s.next a = some t) :
    s.epoll.failed = none ∧ ∃ u, s.act a = some u ∧ u.collect = t := by
  unfold next at h
  split_ifs at h with hstop
  rw [not_or, Option.not_isSome_iff_eq_none] at hstop
  exact ⟨hstop.2, Option.map_eq_some_iff.1 h⟩

/-- A channel that is registered has an owner. -/
theorem Sound.exists_of_registered {c : ℕ} (hs : s.Sound)
    (hc : (s.epoll.channel c).registeredInEpoller = true) : s.Exists c := by
  rw [hs.registered] at hc
  obtain ⟨o, ho, -⟩ := (Option.any_eq_true _ _).1 hc
  exact Option.isSome_iff_exists.2 ⟨o, ho⟩

theorem Inv.step (hs : s.Inv) (ha : s.MayDestroy a) (h : s.next a = some t) :
    t.Inv ∧ s.KeepsLive a t := by
  obtain ⟨hf, u, hu, rfl⟩ := next_cases h
  obtain ⟨hsound, hfailed⟩ := hs.sound.act hs.referred hf ha hu
  obtain ⟨hcollect, hreferred⟩ := hsound.collect
  refine ⟨⟨hcollect, hreferred⟩, fun c _ hc => ?_, fun fd c hc => ?_, hfailed⟩
  · by_contra hreg
    exact hc (hcollect.exists_of_registered (by simpa using hreg))
  · exact hcollect.exists_of_registered ((hcollect.epoll.map fd c).1 hc).2

/-! ### What goes wrong otherwise -/

/-- A registered channel is not destroyed. -/
theorem Sound.owner_ne_none {c : ℕ} (hs : s.Sound) (h : s.KeepsLive a t)
    (hc : (s.owner c).any ChannelOwner.registers = true)
    (hchannel : t.epoll.channel c = s.epoll.channel c) : t.owner c ≠ none := by
  intro ht
  have hreg : (s.epoll.channel c).registeredInEpoller = true := by rw [hs.registered, hc]
  have hunreg := h.1 c (hs.exists_of_registered hreg) (by simp [Exists, ht])
  rw [hchannel, hreg] at hunreg
  cases hunreg

/-- The only reference to a connection is given up with its `connections_` or `connection_`. -/
theorem Sound.copied_of_keepsLive {home new : Home} {u : OwnerSystem} (hs : s.Sound)
    (h : s.KeepsLive a u.collect)
    (hu : ∀ c x, s.owner c = some (.connection x) →
      u.owner c = some ((ChannelOwner.connection x).release home new))
    (hchannel : u.epoll.channel = s.epoll.channel) (hfunctors : u.functors = s.functors) :
    ∀ c < s.created, ∀ o ∈ s.owner c, o.isHeldBy home = true → o.isCopied = true := by
  intro c _ o ho hheld
  cases o with
  | connection x =>
    simp only [ChannelOwner.isHeldBy, Bool.and_eq_true, decide_eq_true_eq] at hheld
    by_contra hcopied
    have hcopies : x.copies = 0 := by simpa [ChannelOwner.isCopied] using hcopied
    obtain ⟨hdisc, hqueued⟩ := hs.held c x ho hheld.1
    have hgone : u.collect.owner c = none := by
      have hc := hu c x ho
      rw [ChannelOwner.release, if_pos hheld] at hc
      refine collect_owner_eq_none hc fun hrefers => ?_
      simp only [Refers, hfunctors, hcopies] at hrefers
      simp [hqueued] at hrefers
    refine hs.owner_ne_none h ?_ (congrFun hchannel c) hgone
    rw [ho]
    simp [ChannelOwner.registers, hdisc]
  | acceptor l => cases hheld
  | attempt k b => cases hheld

/-- A functor whose owner is gone registers the channel of it, or fails. -/
theorem Sound.exists_of_enable {c : ℕ} {op : ChannelOp} {k : OwnerSystem → OwnerSystem}
    (hs : s.Sound) (hf : s.epoll.failed = none) (hop : op = .enableReading ∨ op = .enableWriting)
    (hepoll : ∀ u, (k u).epoll = u.epoll)
    (howner : ∀ u, u.owner c = none → (k u).owner c = none)
    (h : s.ctl (.update c op true) (fun u => some (k u)) = some t)
    (hlive : s.KeepsLive a t.collect) : s.Exists c := by
  by_contra hgone
  have hc : s.owner c = none := by simpa [Exists] using hgone
  have hreg : (s.epoll.channel c).registeredInEpoller = false := by
    rw [hs.registered, hc]
    rfl
  have hev := enable_events_ne hop (s.epoll.channel c)
  cases hmap : s.epoll.epoller.channels (s.epoll.channel c).fd with
  | some d =>
    -- another channel has the descriptor
    obtain ⟨e, he, hfail⟩ := EpollSystem.next_update_fails hf hreg hev hmap
    rw [ctl, he, Option.bind_some, if_pos (by simp [hfail])] at h
    cases h
    exact hlive.2.2 hfail
  | none =>
    obtain ⟨e, he, hinv, hchannel⟩ := exists_ctl_update (c := c) ⟨hs.epoll, hf⟩ (fun d _ hfd => by
      by_contra hd
      have := (hs.epoll.map _ d).2 ⟨hfd, by simpa using hd⟩
      rw [hmap] at this
      cases this) op fun u => some (k u)
    have h := he.symm.trans h
    cases h
    have hentry := (hinv.consistent.map _ c).2
      ⟨rfl, by rw [hchannel, Function.update_self, apply_enable_registered hop]⟩
    have hexists := hlive.2.1 (e.channel c).fd c (by
      show (k { s with epoll := e }).epoll.epoller.channels _ = _
      rw [hepoll]
      exact hentry)
    have hnone : (k { s with epoll := e }).owner c = none := howner _ hc
    simp [Exists, OwnerSystem.collect, hnone] at hexists

theorem Inv.mayDestroy (hs : s.Inv) (h : s.next a = some t) (hlive : s.KeepsLive a t) :
    s.MayDestroy a := by
  obtain ⟨hf, u, hu, rfl⟩ := next_cases h
  cases a with
  | newAcceptor fd => trivial
  | listen c => trivial
  | start c inLoop => trivial
  | destroyAcceptor c =>
    simp only [OwnerSystem.act] at hu
    split at hu
    · rename_i l hc
      cases hu
      -- the acceptor goes, the connections stay where they are
      have howner : ∀ d x, s.owner d = some (.connection x) →
          (Function.update s.owner c none d).map (ChannelOwner.release (.server c) (.server c)) =
            some ((ChannelOwner.connection x).release (.server c) (.server c)) := by
        intro d x hd
        have hdc : d ≠ c := by
          rintro rfl
          rw [hc] at hd
          cases hd
        rw [Function.update_of_ne hdc, hd, Option.map_some]
      refine ⟨fun hlistens => ?_, hs.sound.copied_of_keepsLive hlive howner rfl rfl⟩
      refine hs.sound.owner_ne_none (c := c) hlive (by rw [hlistens]; rfl) rfl ?_
      simp [OwnerSystem.collect, release, closefd, setOwner]
    · cases hu
  | accept c fd => trivial
  | newClient k => trivial
  | startInLoop k fd => trivial
  | attemptEnd k how => trivial
  | destroyClient k =>
    simp only [OwnerSystem.act] at hu
    split at hu
    · split_ifs at hu
      unfold OwnerSystem.destroyClient at hu
      split_ifs at hu with hheld
      · have howner : ∀ d x, s.owner d = some (.connection x) →
            (s.release (.client k) .detached).owner d =
              some ((ChannelOwner.connection x).release (.client k) .detached) := by
          intro d x hd
          show (s.owner d).map _ = _
          rw [hd, Option.map_some]
        unfold OwnerSystem.deleteConnector check at hu
        split_ifs at hu
        · cases hu
          exact hs.sound.copied_of_keepsLive hlive howner rfl rfl
        · cases hu
          exact hs.sound.copied_of_keepsLive hlive howner rfl rfl
      -- no connection is held, so none is destroyed with the client
      · exact fun c hc o ho hheldo => absurd ⟨c, hc, o, ho, hheldo⟩ hheld
    · cases hu
  | deleteConnector k => trivial
  | write c enable => trivial
  | send c => trivial
  | handleClose c restart => trivial
  | copy c => trivial
  | drop c =>
    simp only [OwnerSystem.act] at hu
    split at hu
    · rename_i x hc
      split_ifs at hu
      cases hu
      intro o ho hlast
      obtain rfl : o = .connection x := Option.some.inj (ho.symm.trans hc)
      by_contra hreg
      -- else a channel in `epoll` would be left without an owner
      refine hs.sound.owner_ne_none (c := c) hlive (by rw [hc]; simpa using hreg) rfl ?_
      refine collect_owner_eq_none (Function.update_self ..) fun hrefers => ?_
      simp only [Refers, hlast.1, hlast.2.1] at hrefers
      simp [setOwner, hlast.2.2] at hrefers
    · cases hu
  | call enable =>
    cases hfunctors : s.functors with
    | nil => simp [MayDestroy, hfunctors]
    | cons task functors =>
      simp only [OwnerSystem.act, hfunctors] at hu
      cases task with
      | listen c =>
        have hexists : { s with functors := functors }.Exists c :=
          (hs.sound.called hfunctors (.inl rfl)).exists_of_enable (a := .call enable) hf (.inl rfl)
            (k := fun u => u.setOwner c ((u.owner c).map fun _ => .acceptor true)) (fun _ => rfl)
            (fun u hu => by simp [setOwner, hu]) hu hlive
        have hc : s.Exists c := hexists
        simpa [MayDestroy, hfunctors] using hc
      | sendInLoop c =>
        have hexists : enable = true → s.Exists c := by
          rintro rfl
          by_contra hgone
          have hc : s.owner c = none := by simpa [Exists] using hgone
          simp only [runTask, OwnerSystem.sendInLoop, if_true, hc] at hu
          have hexists : { s with functors := functors }.Exists c :=
            (hs.sound.called hfunctors (.inr rfl)).exists_of_enable (a := .call true) hf (.inr rfl)
              (k := id) (fun _ => rfl) (fun _ => id) hu hlive
          exact hgone hexists
        simpa [MayDestroy, hfunctors] using hexists
      | resetChannel k => simp [MayDestroy, hfunctors]
      | connectDestoryed c => simp [MayDestroy, hfunctors]

instance (s : OwnerSystem) : (a : OwnerAction) → Decidable (s.MayDestroy a)
  | .destroyAcceptor _ => inferInstanceAs (Decidable (_ ∧ ∀ c < s.created, _))
  | .destroyClient _ => inferInstanceAs (Decidable (∀ c < s.created, _))
  | .drop c => inferInstanceAs (Decidable (∀ o ∈ s.owner c, _))
  | .call enable =>
      match h : s.functors.head? with
      | some (.listen a) =>
          decidable_of_iff ((s.owner a).isSome = true) (by simp [MayDestroy, h, Exists])
      | some (.sendInLoop c) =>
          decidable_of_iff (enable = true → (s.owner c).isSome = true)
            (by simp [MayDestroy, h, Exists])
      | some (.resetChannel _) => .isTrue (by simp [MayDestroy, h])
      | some (.connectDestoryed _) => .isTrue (by simp [MayDestroy, h])
      | none => .isTrue (by simp [MayDestroy, h])
  | .newAcceptor _ | .listen _ | .start _ _ | .accept _ _ | .newClient _ | .startInLoop _ _
  | .attemptEnd _ _ | .deleteConnector _ | .write _ _ | .send _ | .handleClose _ _ | .copy _ =>
      .isTrue trivial

end OwnerSystem

/-- **The epoller refers to channels that exist.** In a run of a loop and its owners, no registered
channel is destroyed, every entry of `channels_` is a channel that exists, and `epollAdd` finds the
descriptor absent, exactly if an acceptor is destroyed only if it has not listened and no `listen`
of it is called later, a server or a client only while others hold its connections, and a connection
only after its `connectDestoryed` and when no `sendInLoop` of it is called later. -/
theorem epoller_refers_live_iff {s t : OwnerSystem}
    {run : List (Transition OwnerSystem OwnerAction)} (h0 : ownerSystems.init s)
    (h : ownerSystems.Steps s run t) :
    (∀ e ∈ run, e.source.KeepsLive e.action e.target) ↔
      ∀ e ∈ run, e.source.MayDestroy e.action := by
  subst h0
  have hnew : OwnerSystem.new.Inv := ⟨OwnerSystem.new_sound, by simp [OwnerSystem.Referred,
    OwnerSystem.new]⟩
  refine h.forall_iff (I := OwnerSystem.Inv) hnew (fun s a t hs hn => ?_) fun s a t hs ha hn => ?_
  · exact ⟨fun hlive => hs.mayDestroy hn hlive, fun ha => (hs.step ha hn).2⟩
  · exact (hs.step ha hn).1

/-- A server whose connection is sent on by another thread and closed, and a client that gets a
connection, loses it and connects again after a failed attempt. -/
theorem epoller_refers_live_reconnect : ∃ (s : OwnerSystem) (run : List _),
    ownerSystems.Steps .new run s ∧ s.epoll.failed = none ∧
      (List.range s.created).filter (fun c => (s.owner c).isSome) = [0, 5] ∧
      ∀ e ∈ run, e.source.KeepsLive e.action e.target := by
  let acts : List OwnerAction :=
    [.newAcceptor 5, .start 0 true, .accept 0 6, .send 1, .call true, .handleClose 1 false,
      .call false, .newClient 0, .startInLoop 0 6, .attemptEnd 0 .handed, .call false,
      .handleClose 3 true, .startInLoop 0 8, .call false, .attemptEnd 0 .retry, .call false,
      .startInLoop 0 8]
  obtain ⟨s, hs, hend⟩ := Option.map_eq_some_iff.1 (by decide +kernel :
    (((ownerSystems.restrict OwnerSystem.MayDestroy).run .new acts).map fun s =>
      (s.epoll.failed, (List.range s.created).filter fun c => (s.owner c).isSome)) =
      some (none, [0, 5]))
  simp only [Prod.mk.injEq] at hend
  obtain ⟨run, hrun, -⟩ := LTS.exists_steps_of_run hs
  obtain ⟨hrun, hallowed⟩ := hrun.of_restrict
  exact ⟨s, run, hrun, hend.1, hend.2, (epoller_refers_live_iff rfl hrun).2 hallowed⟩

/-- A server that has been started is destroyed, and its descriptor goes to the next one. -/
theorem epollAdd_after_destroyed : ∃ (s : OwnerSystem) (run : List _),
    ownerSystems.Steps .new run s ∧ s.owner 0 = none ∧ s.epoll.epoller.channels 5 = some 0 ∧
      s.epoll.failed = some .epollAddAbsent := by
  let acts : List OwnerAction :=
    [.newAcceptor 5, .start 0 true, .destroyAcceptor 0, .newAcceptor 5, .start 1 true]
  obtain ⟨s, hs, hend⟩ := Option.map_eq_some_iff.1 (by decide +kernel :
    (ownerSystems.run .new acts).map (fun s =>
      (s.owner 0, s.epoll.epoller.channels 5, s.epoll.failed)) =
      some (none, some 0, some .epollAddAbsent))
  simp only [Prod.mk.injEq] at hend
  obtain ⟨run, hrun, -⟩ := LTS.exists_steps_of_run hs
  exact ⟨s, run, hrun, hend.1, hend.2.1, hend.2.2⟩

end Jiangbo
