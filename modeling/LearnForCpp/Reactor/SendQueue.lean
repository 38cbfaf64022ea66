import LearnForCpp.Reactor.ConnSystem

/-!
# Messages on their way to the loop

`SendQueue` is what `send` and `shutdown` look like from the queue of functors: the messages passed
to `sendInLoop`, the functors in order, and where each caller stands.  `SendQueue.Step` lists what
can happen to them; `ConnSystem.Flowing.step` proves that the steps of a live connection do nothing
else to the queue.

`Ordered` is the invariant: no message is lost or doubled, and no functor of a message that
returned before a shutdown began stands behind a `shutdownInLoop` of it.
-/

namespace Jiangbo

/-- The message of a `sendInLoop` functor. -/
def Task.message : Task → Option Ticket
  | ⟨.sendInLoop message, some k⟩ => some (k, message)
  | _ => none

/-- The functor of a message. -/
def Ticket.task (p : Ticket) : Task := ⟨.sendInLoop p.2, some p.1⟩

@[simp] theorem Ticket.task_message (p : Ticket) : p.task.message = some p := rfl

/-- The callers of a connection, its queue and the messages that left it. -/
structure SendQueue where
  /-- `state_ == kConnected`. -/
  connected : Bool
  passed : List Ticket
  queue : List Task
  pc : Tid → CallPoint
  nextTicket : ℕ
  returned : List Ticket
  must : List Ticket

namespace SendQueue

/-- The messages in the queue. -/
def waiting (s : SendQueue) : List Ticket := s.queue.filterMap Task.message

def setPc (s : SendQueue) (t : Tid) (c : CallPoint) : SendQueue :=
  { s with pc := Function.update s.pc t c }

/-- What can happen to the messages and the callers. -/
inductive Step (s : SendQueue) : SendQueue → Prop
  | stay : Step s s
  /-- `send` finds `kConnected`. -/
  | find {t : Tid} {message : StdString} (hpc : s.pc t = .idle) (hc : s.connected = true) :
      Step s ({ s with nextTicket := s.nextTicket + 1 }.setPc t
        (.sendFound (s.nextTicket, message)))
  /-- `send` in another thread. -/
  | push {t : Tid} {p : Ticket} (hpc : s.pc t = .sendFound p) :
      Step s ({ s with queue := s.queue ++ [p.task] }.setPc t (.sendReturning p))
  /-- `send` in the loop thread. -/
  | pass {t : Tid} {p : Ticket} (hpc : s.pc t = .sendFound p) :
      Step s ({ s with passed := s.passed ++ [p] }.setPc t (.sendReturning p))
  | sendReturn {t : Tid} {p : Ticket} (hpc : s.pc t = .sendReturning p) :
      Step s ({ s with returned := s.returned ++ [p] }.setPc t .idle)
  | begin {t : Tid} : Step s (s.setPc t (.shutdownBegun s.returned))
  | test {t : Tid} {before : List Ticket} (hpc : s.pc t = .shutdownBegun before) :
      Step s (s.setPc t (if s.connected then .shutdownFound before else .idle))
  | store {t : Tid} {before : List Ticket} (hpc : s.pc t = .shutdownFound before) :
      Step s ({ s with connected := false, must := s.must ++ before }.setPc t .shutdownSet)
  /-- `shutdown` in another thread. -/
  | request {t : Tid} (hpc : s.pc t = .shutdownSet) :
      Step s ({ s with queue := s.queue ++ [(⟨.shutdownInLoop, none⟩ : Task)] }.setPc t .idle)
  /-- `shutdown` in the loop thread. -/
  | direct {t : Tid} (hpc : s.pc t = .shutdownSet) : Step s (s.setPc t .idle)
  | complete {k : Option ℕ} : Step s { s with queue := s.queue ++ [(⟨.writeComplete, k⟩ : Task)] }
  /-- The loop runs the first functor, and passes its message on. -/
  | pop {task : Task} {queue : List Task} (hq : s.queue = task :: queue) :
      Step s { s with passed := s.passed ++ task.message.toList, queue := queue }

/-! ### The invariant -/

/-- No functor of a message in `l` stands behind a `shutdownInLoop`. -/
def Ahead (l : List Ticket) (queue : List Task) : Prop :=
  queue.Pairwise fun a b => a.functor = .shutdownInLoop → ∀ p ∈ l, b ≠ p.task

/-- The messages, in and out of the queue, and the promises of the callers. -/
structure Ordered (s : SendQueue) : Prop where
  nodup : (s.passed ++ s.waiting).Nodup
  fresh : ∀ p ∈ s.passed ++ s.waiting, p.1 < s.nextTicket
  found_lt : ∀ {t p}, s.pc t = .sendFound p → p.1 < s.nextTicket
  found_new : ∀ {t p}, s.pc t = .sendFound p → p ∉ s.passed ++ s.waiting
  found_inj : ∀ {t t' p}, s.pc t = .sendFound p → s.pc t' = .sendFound p → t = t'
  returning : ∀ {t p}, s.pc t = .sendReturning p → p ∈ s.passed ++ s.waiting
  returned : s.returned ⊆ s.passed ++ s.waiting
  begun : ∀ {t l}, s.pc t = .shutdownBegun l → l ⊆ s.returned
  shutting : ∀ {t l}, s.pc t = .shutdownFound l → l ⊆ s.returned ∧ Ahead l s.queue
  must : s.must ⊆ s.returned ∧ Ahead s.must s.queue
  connected : s.connected = true →
    (∀ task ∈ s.queue, task.functor ≠ .shutdownInLoop) ∧ ∀ t, s.pc t ≠ .shutdownSet

variable {s u : SendQueue}

/-- No message and no call yet. -/
theorem Ordered.empty (connected : Bool) :
    (⟨connected, [], [], fun _ => .idle, 0, [], []⟩ : SendQueue).Ordered := by
  refine ⟨?_, ?_, ?_, ?_, ?_, ?_, ?_, ?_, ?_, ?_, ?_⟩ <;> simp [waiting, Ahead]

theorem Ahead.append {l l' : List Ticket} {queue : List Task} (h : Ahead l queue)
    (h' : Ahead l' queue) : Ahead (l ++ l') queue :=
  List.Pairwise.imp₂
    (fun _ _ hl hl' hf p hp => (List.mem_append.1 hp).elim (hl hf p) (hl' hf p)) h h'

/-- Without a `shutdownInLoop` nothing stands behind one. -/
theorem Ahead.of_no_shutdown {l : List Ticket} {queue : List Task}
    (h : ∀ task ∈ queue, task.functor ≠ .shutdownInLoop) : Ahead l queue :=
  List.pairwise_of_forall_mem_list fun a ha _ _ hf => absurd hf (h a ha)

theorem Ahead.push {l : List Ticket} {queue : List Task} {task : Task} (h : Ahead l queue)
    (hl : ∀ p ∈ l, task ≠ p.task) : Ahead l (queue ++ [task]) := by
  refine List.pairwise_append.2 ⟨h, List.pairwise_singleton _ _, fun a _ b hb _ => ?_⟩
  rw [List.mem_singleton.1 hb]
  exact hl

theorem Ahead.tail {l : List Ticket} {queue : List Task} {task : Task}
    (h : Ahead l (task :: queue)) : Ahead l queue := (List.pairwise_cons.1 h).2

/-- The callers after one of them moved. -/
theorem pc_setPc (s : SendQueue) (t t' : Tid) (c : CallPoint) :
    (s.setPc t c).pc t' = if t' = t then c else s.pc t' := by
  simp [setPc, Function.update_apply]

theorem setPc_setPc (s : SendQueue) (t : Tid) (c d : CallPoint) :
    (s.setPc t c).setPc t d = s.setPc t d := by
  simp [setPc]

/-- A message that is in the system already, or is on its way into it. -/
def Known (s : SendQueue) (p : Ticket) : Prop := p ∈ s.passed ++ s.waiting

/-- What the place of a caller promises to the rest. -/
structure Place (s : SendQueue) (t : Tid) (c : CallPoint) : Prop where
  found : ∀ {p}, c = .sendFound p → p.1 < s.nextTicket ∧ ¬s.Known p ∧
    ∀ t', t' ≠ t → s.pc t' ≠ .sendFound p
  returning : ∀ {p}, c = .sendReturning p → s.Known p
  begun : ∀ {l}, c = .shutdownBegun l → l ⊆ s.returned
  shutting : ∀ {l}, c = .shutdownFound l → l ⊆ s.returned ∧ Ahead l s.queue
  set : c = .shutdownSet → s.connected = false

theorem Place.idle (s : SendQueue) (t : Tid) : s.Place t .idle :=
  ⟨nofun, nofun, nofun, nofun, nofun⟩

/-- A caller moves to a place whose promises hold. -/
theorem Ordered.setPc {t : Tid} {c : CallPoint} (hs : s.Ordered) (hc : s.Place t c) :
    (s.setPc t c).Ordered where
  nodup := hs.nodup
  fresh := hs.fresh
  found_lt {t' p} h := by
    rw [pc_setPc] at h
    split_ifs at h
    · exact (hc.found h).1
    · exact hs.found_lt h
  found_new {t' p} h := by
    rw [pc_setPc] at h
    split_ifs at h
    · exact (hc.found h).2.1
    · exact hs.found_new h
  found_inj {t1 t2 p} h1 h2 := by
    rw [pc_setPc] at h1 h2
    split_ifs at h1 h2 with e1 e2 e2
    · rw [e1, e2]
    · exact absurd h2 ((hc.found h1).2.2 t2 e2)
    · exact absurd h1 ((hc.found h2).2.2 t1 e1)
    · exact hs.found_inj h1 h2
  returning {t' p} h := by
    rw [pc_setPc] at h
    split_ifs at h
    · exact hc.returning h
    · exact hs.returning h
  returned := hs.returned
  begun {t' l} h := by
    rw [pc_setPc] at h
    split_ifs at h
    · exact hc.begun h
    · exact hs.begun h
  shutting {t' l} h := by
    rw [pc_setPc] at h
    split_ifs at h
    · exact hc.shutting h
    · exact hs.shutting h
  must := hs.must
  connected h := by
    refine ⟨(hs.connected h).1, fun t' ht' => ?_⟩
    rw [pc_setPc] at ht'
    split_ifs at ht'
    · have hfalse : (s.setPc t c).connected = false := hc.set ht'
      rw [hfalse] at h
      cases h
    · exact (hs.connected h).2 t' ht'

/-- A new message enters the system, at the end of the queue or past it. -/
theorem Ordered.enter {p : Ticket} (hs : s.Ordered) (passed : List Ticket) (queue : List Task)
    (hnext : p.1 < s.nextTicket) (hnew : ¬s.Known p) (hfree : ∀ t, s.pc t ≠ .sendFound p)
    (hperm : (passed ++ queue.filterMap Task.message).Perm (p :: (s.passed ++ s.waiting)))
    (hqueue : queue = s.queue ∨ queue = s.queue ++ [p.task]) :
    { s with passed := passed, queue := queue }.Ordered := by
  have hmem : ∀ {q}, q ∈ passed ++ queue.filterMap Task.message ↔
      q = p ∨ q ∈ s.passed ++ s.waiting := by
    intro q
    rw [hperm.mem_iff, List.mem_cons]
  have hahead : ∀ {l}, l ⊆ s.returned → Ahead l s.queue → Ahead l queue := by
    intro l hl ha
    rcases hqueue with rfl | rfl
    · exact ha
    · refine ha.push fun q hq hpq => hnew ?_
      obtain rfl : p = q := by simpa using congrArg Task.message hpq
      exact hs.returned (hl hq)
  refine ⟨hperm.nodup_iff.2 (List.nodup_cons.2 ⟨hnew, hs.nodup⟩), fun q hq => ?_, hs.found_lt,
    fun ht hq => ?_, hs.found_inj, fun ht => hmem.2 (.inr (hs.returning ht)),
    fun q hq => hmem.2 (.inr (hs.returned hq)), hs.begun,
    fun ht => ⟨(hs.shutting ht).1, hahead (hs.shutting ht).1 (hs.shutting ht).2⟩,
    ⟨hs.must.1, hahead hs.must.1 hs.must.2⟩, fun hc => ⟨fun task ht => ?_, (hs.connected hc).2⟩⟩
  · rcases hmem.1 hq with rfl | hq
    · exact hnext
    · exact hs.fresh q hq
  · rcases hmem.1 hq with rfl | hq
    · exact hfree _ ht
    · exact hs.found_new ht hq
  · rcases hqueue with rfl | rfl
    · exact (hs.connected hc).1 task ht
    · rcases List.mem_append.1 ht with ht | ht
      · exact (hs.connected hc).1 task ht
      · rw [List.mem_singleton.1 ht]
        exact nofun

/-- A functor that carries no message is pushed. -/
theorem Ordered.pushOther {task : Task} (hs : s.Ordered) (hm : task.message = none)
    (hc : task.functor = .shutdownInLoop → s.connected = false) :
    { s with queue := s.queue ++ [task] }.Ordered := by
  have hw : { s with queue := s.queue ++ [task] }.waiting = s.waiting := by
    simp [waiting, List.filterMap_append, hm]
  have hahead : ∀ {l}, Ahead l s.queue → Ahead l (s.queue ++ [task]) := fun ha =>
    ha.push fun q _ hq => by rw [hq] at hm; cases hm
  refine ⟨hw ▸ hs.nodup, hw ▸ hs.fresh, hs.found_lt, hw ▸ hs.found_new, hs.found_inj,
    hw ▸ hs.returning, hw ▸ hs.returned, hs.begun,
    fun ht => ⟨(hs.shutting ht).1, hahead (hs.shutting ht).2⟩, ⟨hs.must.1, hahead hs.must.2⟩,
    fun h => ⟨fun task' ht => ?_, (hs.connected h).2⟩⟩
  rcases List.mem_append.1 ht with ht | ht
  · exact (hs.connected h).1 task' ht
  · rw [List.mem_singleton.1 ht]
    intro hf
    have hfalse := hc hf
    simp only at h
    rw [hfalse] at h
    cases h

/-- The head of the queue leaves it: a message is passed on. -/
theorem Ordered.pop {task : Task} {queue : List Task} (hs : s.Ordered)
    (hq : s.queue = task :: queue) :
    { s with passed := s.passed ++ task.message.toList, queue := queue }.Ordered := by
  have hw : s.passed ++ task.message.toList ++ queue.filterMap Task.message =
      s.passed ++ s.waiting := by
    rw [waiting, hq, List.filterMap_cons, List.append_assoc]
    cases task.message <;> rfl
  have hahead : ∀ {l}, Ahead l s.queue → Ahead l queue := fun ha => Ahead.tail (hq ▸ ha)
  refine ⟨hw.symm ▸ hs.nodup, hw.symm ▸ hs.fresh, hs.found_lt, hw.symm ▸ hs.found_new, hs.found_inj,
    hw.symm ▸ hs.returning, hw.symm ▸ hs.returned, hs.begun,
    fun ht => ⟨(hs.shutting ht).1, hahead (hs.shutting ht).2⟩, ⟨hs.must.1, hahead hs.must.2⟩,
    fun h => ⟨fun task' ht => (hs.connected h).1 task' ?_, (hs.connected h).2⟩⟩
  rw [hq]
  exact List.mem_cons_of_mem _ ht

/-- The ticket of a caller in `send` is its own. -/
theorem Ordered.not_found_idle {t : Tid} {p : Ticket} (hs : s.Ordered)
    (hpc : s.pc t = .sendFound p) (t' : Tid) : (s.setPc t .idle).pc t' ≠ .sendFound p := by
  rw [pc_setPc]
  split_ifs with he
  · exact nofun
  · exact fun h => he (hs.found_inj h hpc)

/-- **Steps** keep the messages in order. -/
theorem Ordered.step (hs : s.Ordered) (h : Step s u) : u.Ordered := by
  cases h with
  | stay => exact hs
  | @find t message hpc hc =>
    have hnext : { s with nextTicket := s.nextTicket + 1 }.Ordered :=
      ⟨hs.nodup, fun p hp => Nat.lt_succ_of_lt (hs.fresh p hp),
        fun h => Nat.lt_succ_of_lt (hs.found_lt h), hs.found_new, hs.found_inj, hs.returning,
        hs.returned, hs.begun, hs.shutting, hs.must, hs.connected⟩
    refine hnext.setPc ⟨fun {p} hp => ?_, nofun, nofun, nofun, nofun⟩
    obtain rfl := CallPoint.sendFound.inj hp
    -- the ticket is a new one
    refine ⟨Nat.lt_succ_self _, fun hk => ?_, fun t' _ hf => ?_⟩
    · exact absurd (hs.fresh _ hk) (lt_irrefl _)
    · exact absurd (hs.found_lt hf) (lt_irrefl _)
  | @push t p hpc =>
    have henter := (hs.setPc (.idle s t)).enter s.passed (s.queue ++ [p.task]) (hs.found_lt hpc)
      (hs.found_new hpc) (hs.not_found_idle hpc) ?_ (.inr rfl)
    · rw [← setPc_setPc _ t .idle]
      refine henter.setPc ⟨nofun, fun hp => ?_, nofun, nofun, nofun⟩
      obtain rfl := CallPoint.sendReturning.inj hp
      simp [Known, waiting]
    · rw [List.filterMap_append, ← List.append_assoc]
      exact List.perm_append_singleton p _
  | @pass t p hpc =>
    have henter := (hs.setPc (.idle s t)).enter (s.passed ++ [p]) s.queue (hs.found_lt hpc)
      (hs.found_new hpc) (hs.not_found_idle hpc) ?_ (.inl rfl)
    · rw [← setPc_setPc _ t .idle]
      refine henter.setPc ⟨nofun, fun hp => ?_, nofun, nofun, nofun⟩
      obtain rfl := CallPoint.sendReturning.inj hp
      simp [Known]
    · rw [List.append_assoc]
      exact List.perm_middle
  | @sendReturn t p hpc =>
    have hsub : ∀ {l : List Ticket}, l ⊆ s.returned → l ⊆ s.returned ++ [p] := fun hl =>
      List.Subset.trans hl (List.subset_append_left _ _)
    have hret : { s with returned := s.returned ++ [p] }.Ordered :=
      ⟨hs.nodup, hs.fresh, hs.found_lt, hs.found_new, hs.found_inj, hs.returning,
        List.append_subset.2
          ⟨hs.returned, List.cons_subset.2 ⟨hs.returning hpc, List.nil_subset _⟩⟩,
        fun ht => hsub (hs.begun ht), fun ht => ⟨hsub (hs.shutting ht).1, (hs.shutting ht).2⟩,
        ⟨hsub hs.must.1, hs.must.2⟩, hs.connected⟩
    exact hret.setPc (.idle _ t)
  | @begin t =>
    exact hs.setPc ⟨nofun, nofun, fun hl => CallPoint.shutdownBegun.inj hl ▸ List.Subset.refl _,
      nofun, nofun⟩
  | @test t before hpc =>
    refine hs.setPc ?_
    split_ifs with hc
    · refine ⟨nofun, nofun, nofun, fun hl => ?_, nofun⟩
      obtain rfl := CallPoint.shutdownFound.inj hl
      -- the connection was connected, so no `shutdownInLoop` is queued
      exact ⟨hs.begun hpc, .of_no_shutdown (hs.connected hc).1⟩
    · exact .idle s t
  | @store t before hpc =>
    obtain ⟨hsub, hahead⟩ := hs.shutting hpc
    have hstore : { s with connected := false, must := s.must ++ before }.Ordered :=
      ⟨hs.nodup, hs.fresh, hs.found_lt, hs.found_new, hs.found_inj, hs.returning, hs.returned,
        hs.begun, hs.shutting, ⟨List.append_subset.2 ⟨hs.must.1, hsub⟩, hs.must.2.append hahead⟩,
        nofun⟩
    exact hstore.setPc ⟨nofun, nofun, nofun, nofun, fun _ => rfl⟩
  | @request t hpc =>
    -- a caller at this point has stored `kDisconnecting`
    have hc : s.connected = false := by
      by_contra hne
      exact (hs.connected (by simpa using hne)).2 t hpc
    exact (hs.setPc (.idle s t)).pushOther rfl fun _ => hc
  | @direct t hpc => exact hs.setPc (.idle s t)
  | complete => exact hs.pushOther rfl nofun
  | pop hq => exact hs.pop hq

end SendQueue

end Jiangbo
