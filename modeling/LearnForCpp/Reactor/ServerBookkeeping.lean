import Mathlib
import LearnForCpp.Reactor.QuietCalls
import LearnForCpp.Reactor.ServerSystem

/-!
# The bookkeeping of a server

A connection of a server goes through four stages: open; closed, with its `connectDestoryed` in the
queue; destroyed, with its channel still registered; and removed.  `Stage` is the stage of one
record, `Inv` says of a whole server that every connection is at one of them and that `connections_`
has the names of the open ones.  A call that `Quiet` describes keeps every stage, and three steps
move a connection on: a read at the end of the stream, the functor `connectDestoryed` and its end.

`handleClose` runs while events are handled, once for each connection, and its functor runs before
the next `epoll_wait`: so no event is ever dispatched to a closed connection.
-/

namespace Jiangbo

open ConnCtx (Quiet)

namespace Active

/-- `EPOLLRDHUP` is reported only together with `EPOLLIN`. -/
def regular : Active → Bool
  | acceptor => true
  | conn _ revents =>
      !Bitmask.test revents EPOLLRDHUP || Bitmask.test revents EPOLLIN

end Active

namespace ServerSystem

/-- `epoll_wait` reports `EPOLLRDHUP` only together with `EPOLLIN`, and `nextConnfd_` does not
overflow. -/
def Regular (s : ServerSystem) : ServerAction → Prop
  | .poll active => ∀ a ∈ active, a.regular = true
  | .work accepted _ _ _ => accepted.isSome = true → s.todo.head? = some .accept →
      s.server.nextConnfd < 2 ^ 31 - 1
  | _ => True

instance (s : ServerSystem) (a : ServerAction) : Decidable (s.Regular a) := by
  cases a <;> unfold Regular <;> infer_instance

/-- The `connectDestoryed` functors of connection number `c` that have not been called. -/
def destroysQueued (s : ServerSystem) (c : ℕ) : ℕ :=
  (s.batch ++ s.pendingFunctors).count ⟨c, .connectDestoryed⟩

/-- The stage of a connection with `queued` functors `connectDestoryed`; `removing` says that the
end of its `connectDestoryed` is still to come. -/
inductive Stage (r : ConnRecord) (queued : ℕ) (removing : Prop) : Prop
  | opened (hclosed : r.closed = false) (hdestroyed : r.destroyed = false) (hlive : r.conn.Live)
      (hqueued : queued = 0) (hremoving : ¬removing)
  | closed (hclosed : r.closed = true) (hdestroyed : r.destroyed = false) (hlive : r.conn.Live)
      (hqueued : queued = 1) (hremoving : ¬removing)
      (hregistered : r.conn.channel.registeredInEpoller = true)
  | destroyed (hclosed : r.closed = true) (hdestroyed : r.destroyed = true)
      (hstate : r.conn.state = .kDisConnected)
      (hevents : r.conn.channel.events = Channel.kNoneEvent)
      (hqueued : queued = 0) (hregistered : r.conn.channel.registeredInEpoller = true ↔ removing)

/-- `name_ + "#" + n` for connection number `c`. -/
def nameOf (s : ServerSystem) (c : ℕ) : String := s.server.name ++ ("#" ++ ((c : ℤ) + 1).repr)

/-- What holds of connection number `c`. -/
structure RecordInv (s : ServerSystem) (c : ℕ) (r : ConnRecord) : Prop where
  name : r.conn.name = s.nameOf c
  loop : r.conn.loop.isInLoopThread s.tid = true
  callbacks : r.callbacks = if r.destroyed then [true, false] else [true]
  stage : Stage r (s.destroysQueued c) (.removeChannel c ∈ s.todo)

/-- What holds of a handler that is still to be called. -/
def Handles (s : ServerSystem) : ServerWork → Prop
  | .accept => True
  | .handler c h => h ≠ .close ∧ ∃ r ∈ s.server.conns[c]?, r.destroyed = false ∧
      r.conn.channel.registeredInEpoller = true ∧ (h = .read → r.closed = false)
  | .removeChannel _ => False

/-- No `connectDestoryed` in a queue. -/
def NoDestroy (tasks : List ServerTask) : Prop := ∀ t ∈ tasks, t.functor ≠ .connectDestoryed

/-- What holds where the loop stands. -/
def PhaseInv (s : ServerSystem) : Prop :=
  match s.phase with
  | .polling => s.todo = [] ∧ s.batch = [] ∧ NoDestroy s.pendingFunctors
  | .handling => s.batch = [] ∧ (∀ w ∈ s.todo, s.Handles w) ∧
      ∀ c, s.todo.count (.handler c .read) ≤ 1
  | .running => NoDestroy s.pendingFunctors ∧ (s.todo = [] ∨ ∃ c, s.todo = [.removeChannel c])

theorem phaseInv_polling {s : ServerSystem} (h : s.phase = .polling) : s.PhaseInv ↔
    s.todo = [] ∧ s.batch = [] ∧ NoDestroy s.pendingFunctors := by rw [PhaseInv, h]

theorem phaseInv_handling {s : ServerSystem} (h : s.phase = .handling) : s.PhaseInv ↔
    s.batch = [] ∧ (∀ w ∈ s.todo, s.Handles w) ∧ ∀ c, s.todo.count (.handler c .read) ≤ 1 := by
  rw [PhaseInv, h]

theorem phaseInv_running {s : ServerSystem} (h : s.phase = .running) : s.PhaseInv ↔
    NoDestroy s.pendingFunctors ∧ (s.todo = [] ∨ ∃ c, s.todo = [.removeChannel c]) := by
  rw [PhaseInv, h]

/-- **The bookkeeping invariant.** -/
structure Inv (s : ServerSystem) : Prop where
  failed : s.failed = none
  nextConnfd : s.server.nextConnfd = s.server.conns.length + 1
  record : ∀ c r, s.server.conns[c]? = some r → s.RecordInv c r
  keys : ∀ name c, s.server.connections name = some c ↔
    ∃ r, s.server.conns[c]? = some r ∧ r.conn.name = name ∧ r.closed = false
  tasks : ∀ t ∈ s.batch ++ s.pendingFunctors, t.conn < s.server.conns.length ∧
    (t.functor = .connectDestoryed ∨ t.functor = .writeComplete)
  phase : s.PhaseInv

/-- The invariant, or an assertion that has nothing to do with closing a connection has failed. -/
def Kept (s : ServerSystem) : Prop :=
  s.Inv ∨ ∃ a, s.failed = some a ∧ (Fault.assertion a).ofClosing = false

variable {s u : ServerSystem} {c d : ℕ} {r : ConnRecord} {x y : ConnCtx} {o : Result ConnCtx}
  {n : ℤ} {ret : Bool}

/-! ### Names -/

theorem nameOf_injective (s : ServerSystem) (h : s.nameOf c = s.nameOf d) : c = d := by
  have h1 := (String.append_right_inj _).1 ((String.append_right_inj _).1 h)
  have h2 := Int.repr_injective h1
  omega

theorem Inv.name_inj (hs : s.Inv) {r' : ConnRecord} (hc : s.server.conns[c]? = some r)
    (hd : s.server.conns[d]? = some r') (h : r.conn.name = r'.conn.name) : c = d := by
  refine s.nameOf_injective ?_
  rw [← (hs.record c r hc).name, ← (hs.record d r' hd).name, h]

/-- The next name is new. -/
theorem Inv.connName_eq (hs : s.Inv) : s.server.connName = s.nameOf s.server.conns.length := by
  rw [TcpServer.connName, hs.nextConnfd]
  rfl

/-! ### Calls that the server does not notice -/

/-- One record is changed, and functors are queued. -/
def replace (c : ℕ) (f : ConnRecord → ConnRecord) (tasks : List ServerTask) (s : ServerSystem) :
    ServerSystem :=
  { s with
    server.conns := s.server.conns.modify c f
    pendingFunctors := s.pendingFunctors ++ tasks }

/-- Such a call replaces the connection and queues write-complete callbacks. -/
theorem absorb_quiet (hq : Quiet r.conn y) : s.absorb c y =
    s.replace c (fun r => { r with conn := y.conn }) (y.queued.map fun f => ⟨c, f⟩) := by
  have hcount : y.calls.count .connection = 0 := List.count_eq_zero.2 hq.connection
  have hclose : y.calls.contains .close = false := by simpa using hq.close
  rw [absorb, if_neg hq.close, adopt, TcpServer.adopt, hcount, hclose, replace]
  simp

/-- The records after one connection was replaced. -/
theorem getElem?_modify_conn {conns : List ConnRecord} {f : ConnRecord → ConnRecord}
    (hr : conns[c]? = some r) {r' : ConnRecord} (h : (conns.modify c f)[d]? = some r') :
    c = d ∧ r' = f r ∨ c ≠ d ∧ conns[d]? = some r' := by
  rw [List.getElem?_modify] at h
  by_cases hcd : c = d
  · subst hcd
    rw [hr] at h
    exact .inl ⟨rfl, by simpa [eq_comm] using h⟩
  · exact .inr ⟨hcd, by simpa [hcd] using h⟩

theorem count_append_writeComplete {tasks : List ServerTask} {fs : List Functor}
    (hq : ∀ f ∈ fs, f = .writeComplete) :
    (tasks ++ fs.map fun f => (⟨c, f⟩ : ServerTask)).count ⟨d, .connectDestoryed⟩ =
      tasks.count ⟨d, .connectDestoryed⟩ := by
  rw [List.count_append, Nat.add_eq_left, List.count_eq_zero]
  intro hm
  obtain ⟨f, hf, he⟩ := List.mem_map.1 hm
  rw [hq f hf] at he
  cases he

theorem exists_modify_conn {conns : List ConnRecord} {f : ConnRecord → ConnRecord}
    {P : ConnRecord → Prop} (hr : conns[c]? = some r) (hP : P (f r) ↔ P r) :
    (∃ r', (conns.modify c f)[d]? = some r' ∧ P r') ↔ ∃ r', conns[d]? = some r' ∧ P r' := by
  by_cases hcd : c = d
  · subst hcd
    simp [hr, hP]
  · simp [hcd]

/-- A record whose queue and whose server have not changed. -/
theorem RecordInv.congr (h : s.RecordInv c r) (hname : u.server.name = s.server.name)
    (htid : u.tid = s.tid) (hq : u.destroysQueued c = s.destroysQueued c)
    (htodo : .removeChannel c ∈ u.todo ↔ .removeChannel c ∈ s.todo) : u.RecordInv c r := by
  refine ⟨?_, htid ▸ h.loop, h.callbacks, ?_⟩
  · rw [nameOf, hname]
    exact h.name
  · rw [hq, htodo]
    exact h.stage

theorem Stage.quiet {queued : ℕ} {removing : Prop} (h : Stage r queued removing)
    (hq : Quiet r.conn y) : Stage { r with conn := y.conn } queued removing := by
  cases h with
  | opened h1 h2 h3 h4 h5 => exact .opened h1 h2 (hq.live h3) h4 h5
  | closed h1 h2 h3 h4 h5 h6 => exact .closed h1 h2 (hq.live h3) h4 h5 (hq.registered h6)
  | destroyed h1 h2 h3 h4 h5 h6 =>
    obtain ⟨hstate, hchannel⟩ := hq.dead h3
    exact .destroyed h1 h2 hstate (hchannel ▸ h4) h5 (hchannel ▸ h6)

/-- Replacing a connection keeps what holds of the handlers to come. -/
theorem Handles.replace {f : ConnRecord → ConnRecord} {tasks : List ServerTask} {w : ServerWork}
    (hw : s.Handles w) (hr : s.server.conns[c]? = some r)
    (hf : (f r).destroyed = r.destroyed ∧ (r.conn.channel.registeredInEpoller = true →
      (f r).conn.channel.registeredInEpoller = true) ∧
      (w = .handler c .read → r.closed = false → (f r).closed = false)) :
    (s.replace c f tasks).Handles w := by
  cases w with
  | accept => trivial
  | removeChannel d => exact hw
  | handler d h =>
    obtain ⟨hne, r', hr', h1, h2, h3⟩ := hw
    refine ⟨hne, ?_⟩
    by_cases hcd : c = d
    · subst hcd
      obtain rfl : r' = r := Option.some.inj (Eq.trans (Eq.symm hr') hr)
      refine ⟨f r', by simp [ServerSystem.replace, hr], hf.1 ▸ h1, hf.2.1 h2, fun hread => ?_⟩
      exact hf.2.2 (by rw [hread]) (h3 hread)
    · refine ⟨r', ?_, h1, h2, h3⟩
      simpa [ServerSystem.replace, hcd] using hr'

theorem noDestroy_append {tasks : List ServerTask} {fs : List Functor} (h : NoDestroy tasks)
    (hq : ∀ f ∈ fs, f = .writeComplete) :
    NoDestroy (tasks ++ fs.map fun f => (⟨c, f⟩ : ServerTask)) := by
  intro t ht
  rcases List.mem_append.1 ht with ht | ht
  · exact h t ht
  · obtain ⟨f, hf, rfl⟩ := List.mem_map.1 ht
    rw [hq f hf]
    nofun

theorem Inv.quiet (hs : s.Inv) (hr : s.server.conns[c]? = some r) (hq : Quiet r.conn y) :
    (s.absorb c y).Inv := by
  rw [absorb_quiet hq]
  generalize hf : (fun r : ConnRecord => { r with conn := y.conn }) = f
  generalize htasks : (y.queued.map fun f => (⟨c, f⟩ : ServerTask)) = tasks
  have hqueued : ∀ e, (s.replace c f tasks).destroysQueued e = s.destroysQueued e := fun e => by
    rw [destroysQueued, replace, ← htasks, ← List.append_assoc]
    exact count_append_writeComplete hq.queued
  refine
    { failed := hs.failed, nextConnfd := ?nextConnfd, record := fun d r' h => ?record,
      keys := fun name d => ?keys, tasks := fun t ht => ?task, phase := ?phase }
  case nextConnfd =>
    rw [replace, List.length_modify]
    exact hs.nextConnfd
  case record =>
    rcases getElem?_modify_conn hr h with ⟨rfl, rfl⟩ | ⟨-, h⟩
    · have hold := (hs.record c r hr).congr (u := s.replace c f tasks) rfl rfl (hqueued c) Iff.rfl
      subst hf
      exact ⟨hq.name.trans hold.name, by rw [hq.loop]; exact hold.loop, hold.callbacks,
        hold.stage.quiet hq⟩
    · exact (hs.record d r' h).congr rfl rfl (hqueued d) Iff.rfl
  case keys =>
    rw [show (s.replace c f tasks).server.connections = s.server.connections from rfl,
      hs.keys name d]
    refine (exists_modify_conn (P := fun r => r.conn.name = name ∧ r.closed = false) hr ?_).symm
    rw [← hf, hq.name]
  case task =>
    rw [replace, List.length_modify]
    rw [replace, ← List.append_assoc] at ht
    rcases List.mem_append.1 ht with ht | ht
    · exact hs.tasks t ht
    · rw [← htasks] at ht
      obtain ⟨g, hg, rfl⟩ := List.mem_map.1 ht
      exact ⟨(List.getElem?_eq_some_iff.1 hr).1, .inr (hq.queued g hg)⟩
  case phase =>
    have hphase := hs.phase
    have hnd : NoDestroy s.pendingFunctors → NoDestroy (s.pendingFunctors ++ tasks) :=
      fun h => htasks ▸ noDestroy_append h hq.queued
    cases hp : s.phase with
    | polling =>
      rw [phaseInv_polling hp] at hphase
      exact (phaseInv_polling (s := s.replace c f tasks) hp).2
        ⟨hphase.1, hphase.2.1, hnd hphase.2.2⟩
    | handling =>
      rw [phaseInv_handling hp] at hphase
      refine (phaseInv_handling (s := s.replace c f tasks) hp).2
        ⟨hphase.1, fun w hw => (hphase.2.1 w hw).replace hr ?_, hphase.2.2⟩
      rw [← hf]
      exact ⟨rfl, hq.registered, fun _ h => h⟩
    | running =>
      rw [phaseInv_running hp] at hphase
      exact (phaseInv_running (s := s.replace c f tasks) hp).2 ⟨hnd hphase.1, hphase.2⟩

/-- The state after a call: it returned, or an assertion failed. -/
theorem after_eq_some (h : s.after c o = some u) : (∃ x, o = .ok x ∧ u = s.absorb c x) ∨
    ∃ a x, o = .fault (.assertion a) x ∧ u = { s.absorb c x with failed := some a } := by
  unfold after at h
  split at h
  · exact .inl ⟨_, rfl, (Option.some.inj h).symm⟩
  · exact .inr ⟨_, _, rfl, (Option.some.inj h).symm⟩
  · cases h

/-- A call on a connection that the server does not notice, or that fails. -/
theorem Inv.after_quiet (hs : s.Inv) (hr : s.server.conns[c]? = some r)
    (hok : ∀ y, o = .ok y → Quiet r.conn y) (hf : o.Faults fun e _ => e.ofClosing = false)
    (h : s.after c o = some u) : u.Kept := by
  rcases after_eq_some h with ⟨x, rfl, rfl⟩ | ⟨a, x, rfl, rfl⟩
  · exact .inl (hs.quiet hr (hok x rfl))
  · exact .inr ⟨a, rfl, hf⟩

/-! ### Closing a connection -/

/-- What a read at the end of the stream leaves of an open connection. -/
def closedRecord (d : TcpConnection) (r : ConnRecord) : ConnRecord :=
  { r with conn := d, closed := true }

/-- The state after `removeConnectionInLoop` of connection number `c`, left as `d` by its call. -/
def afterClose (c : ℕ) (d : TcpConnection) (s : ServerSystem) : ServerSystem :=
  let u := s.replace c (closedRecord d) [⟨c, .connectDestoryed⟩]
  { u with server.connections := Function.update s.server.connections d.name none }

/-- The name of an open connection is a key, so `removeConnectionInLoop` erases it. -/
theorem Inv.absorb_close (hs : s.Inv) (hr : s.server.conns[c]? = some r) (hopen : r.closed = false)
    {d : TcpConnection} (hname : d.name = r.conn.name) :
    s.absorb c ⟨d, [], [.close]⟩ = s.afterClose c d := by
  have hkey : s.server.connections d.name = some c :=
    (hs.keys d.name c).2 ⟨r, hr, hname.symm, hopen⟩
  have hadopt : s.adopt c ⟨d, [], [.close]⟩ =
      { s with server.conns := s.server.conns.modify c (closedRecord d) } := by
    have hf : (fun r : ConnRecord => { r with
        conn := d
        callbacks := r.callbacks ++ List.replicate ([Callback.close].count .connection) d.connected
        closed := r.closed || [Callback.close].contains .close }) = closedRecord d :=
      funext fun r => by simp [closedRecord]
    rw [adopt, TcpServer.adopt, hf, List.map_nil, List.append_nil]
  rw [absorb, if_pos List.mem_cons_self, hadopt, removeConnectionInLoop]
  rw [if_pos (show (s.server.connections d.name).isSome = true by rw [hkey]; rfl)]
  rfl

/-- **Closing.** An open connection whose channel is registered, with no read of it to come, is
closed while events are handled. -/
theorem Inv.close (hs : s.Inv) (hphase : s.phase = .handling)
    (hr : s.server.conns[c]? = some r) (hopen : r.closed = false) {d : TcpConnection}
    (hname : d.name = r.conn.name) (hloop : d.loop = r.conn.loop) (hstate : d.state = r.conn.state)
    (hreg : d.channel.registeredInEpoller = true) (hread : .handler c .read ∉ s.todo) :
    (s.absorb c ⟨d, [], [.close]⟩).Inv := by
  rw [hs.absorb_close hr hopen hname]
  obtain ⟨hbatch, htodo, hcount⟩ := (phaseInv_handling hphase).1 hs.phase
  have hold := hs.record c r hr
  obtain ⟨hdestroyed, hlive, hqueued, hremoving⟩ : r.destroyed = false ∧ r.conn.Live ∧
      s.destroysQueued c = 0 ∧ .removeChannel c ∉ s.todo := by
    -- the record is not closed, so nothing is under way to destroy it
    cases hold.stage with
    | opened h1 h2 h3 h4 h5 => exact ⟨h2, h3, h4, h5⟩
    | closed h1 => rw [hopen] at h1; cases h1
    | destroyed h1 => rw [hopen] at h1; cases h1
  have hq : ∀ e, (s.afterClose c d).destroysQueued e =
      s.destroysQueued e + if c = e then 1 else 0 := fun e => by
    rw [destroysQueued, afterClose, replace, ← List.append_assoc, List.count_append,
      List.count_singleton, destroysQueued]
    simp
  refine
    { failed := hs.failed, nextConnfd := ?nextConnfd, record := fun e r' h => ?record,
      keys := fun name e => ?keys, tasks := fun t ht => ?task, phase := ?phase }
  case nextConnfd =>
    change s.server.nextConnfd = (s.server.conns.modify c (closedRecord d)).length + 1
    rw [List.length_modify]
    exact hs.nextConnfd
  case record =>
    rcases getElem?_modify_conn hr h with ⟨rfl, rfl⟩ | ⟨hne, h⟩
    · refine ⟨hname.trans hold.name, by rw [closedRecord, hloop]; exact hold.loop, hold.callbacks,
        .closed rfl hdestroyed ?_ (by rw [hq, hqueued, if_pos rfl]) hremoving hreg⟩
      rw [closedRecord, TcpConnection.Live, hstate]
      exact hlive
    · refine (hs.record e r' h).congr rfl rfl ?_ Iff.rfl
      rw [hq, if_neg hne, Nat.add_zero]
  case keys =>
    change Function.update s.server.connections d.name none name = some e ↔ _
    by_cases hn : name = d.name
    · subst hn
      rw [Function.update_self]
      refine iff_of_false (by simp) ?_
      rintro ⟨r', h, hname', hopen'⟩
      rcases getElem?_modify_conn hr h with ⟨rfl, rfl⟩ | ⟨hne, h⟩
      · cases hopen'
      -- no other record that is open has the name
      · exact hne (hs.name_inj hr h (hname.symm.trans hname'.symm))
    · rw [Function.update_of_ne hn, hs.keys name e]
      refine (exists_modify_conn (P := fun r => r.conn.name = name ∧ r.closed = false) hr ?_).symm
      exact iff_of_false (by simp [closedRecord]) fun h => hn (h.1.symm.trans hname.symm)
  case task =>
    change t.conn < (s.server.conns.modify c (closedRecord d)).length ∧ _
    rw [List.length_modify]
    rw [afterClose, replace, ← List.append_assoc] at ht
    rcases List.mem_append.1 ht with ht | ht
    · exact hs.tasks t ht
    · rw [List.mem_singleton.1 ht]
      exact ⟨(List.getElem?_eq_some_iff.1 hr).1, .inl rfl⟩
  case phase =>
    refine (phaseInv_handling (s := s.afterClose c d) hphase).2 ⟨hbatch, fun w hw => ?_, hcount⟩
    have hkept : (s.replace c (closedRecord d) []).Handles w := by
      refine (htodo w hw).replace hr ⟨rfl, fun _ => hreg, ?_⟩
      rintro rfl
      exact absurd hw hread
    exact hkept

/-! ### Destroying a connection -/

/-- What the functor `connectDestoryed` leaves of a closed connection. -/
def destroyedRecord (ret : Bool) (r : ConnRecord) : ConnRecord :=
  { r with
    conn := { r.conn with state := .kDisConnected, channel := r.conn.channel.disableAll ret }
    callbacks := r.callbacks ++ [false]
    destroyed := true }

/-- The state after that functor. -/
def afterDestroy (c : ℕ) (ret : Bool) (batch : List ServerTask) (s : ServerSystem) : ServerSystem :=
  { s with
    batch := batch
    todo := [.removeChannel c]
    server.conns := s.server.conns.modify c (destroyedRecord ret) }

theorem modify_congr {conns : List ConnRecord} {f g : ConnRecord → ConnRecord}
    (hr : conns[c]? = some r) (h : f r = g r) : conns.modify c f = conns.modify c g := by
  refine List.ext_getElem? fun e => ?_
  rw [List.getElem?_modify, List.getElem?_modify]
  by_cases hce : c = e
  · subst hce
    simp [hr, h]
  · simp [hce]

/-- A call that tells the owner's `connectionCallback_` and queues nothing. -/
theorem absorb_connection (s : ServerSystem) (c : ℕ) (d : TcpConnection) :
    s.absorb c ⟨d, [], [.connection]⟩ = s.replace c
      (fun r => { r with conn := d, callbacks := r.callbacks ++ [d.connected] }) [] := by
  have hf : (fun r : ConnRecord => { r with
      conn := d
      callbacks := r.callbacks ++
        List.replicate ([Callback.connection].count .connection) d.connected
      closed := r.closed || [Callback.connection].contains .close }) =
      fun r => { r with conn := d, callbacks := r.callbacks ++ [d.connected] } :=
    funext fun r => by simp
  rw [absorb, if_neg (by simp), adopt, TcpServer.adopt, hf, replace, List.map_nil]

/-- The functor, run on a live connection, fails nothing. -/
theorem runTask_destroy {batch : List ServerTask} (hr : s.server.conns[c]? = some r)
    (hlive : r.conn.Live)
    (h : { s with batch := batch }.runTask c r.conn n ret .connectDestoryed = some u) :
    u = s.afterDestroy c ret batch := by
  rw [runTask] at h
  generalize ho : r.conn.enter.connectDestoryed _ ret = o at h
  cases o with
  | fault e x =>
    rcases (ConnCtx.connectDestoryed_faults.of_fault ho).2 with rfl | ⟨-, hdead⟩
    · cases h
    · exact absurd hlive hdead
  | ok y =>
    obtain ⟨-, rfl⟩ := ConnCtx.connectDestoryed_eq_ok ho
    rw [← Option.some.inj h]
    refine (absorb_connection _ c { r.conn with
      state := .kDisConnected, channel := r.conn.channel.disableAll ret }).trans ?_
    rw [replace, List.append_nil, List.modify_modify_eq]
    refine congrArg (fun conns => { s with
      batch := batch, todo := [.removeChannel c], server.conns := conns }) ?_
    exact modify_congr hr rfl

/-- **Destroying.** The functor `connectDestoryed` of a connection, at the head of the batch. -/
theorem Inv.destroy {batch : List ServerTask} (hs : s.Inv) (hphase : s.phase = .running)
    (htodo : s.todo = []) (hbatch : s.batch = ⟨c, .connectDestoryed⟩ :: batch)
    (hr : s.server.conns[c]? = some r)
    (h : { s with batch := batch }.runTask c r.conn n ret .connectDestoryed = some u) : u.Inv := by
  have hold := hs.record c r hr
  have hq : ∀ e, s.destroysQueued e =
      (s.afterDestroy c ret batch).destroysQueued e + if c = e then 1 else 0 := fun e => by
    rw [destroysQueued, hbatch, List.cons_append, List.count_cons, destroysQueued, afterDestroy]
    simp
  have hqc := hq c
  rw [if_pos rfl] at hqc
  obtain ⟨hclosed, hdestroyed, hlive, hqueued, hreg⟩ : r.closed = true ∧ r.destroyed = false ∧
      r.conn.Live ∧ s.destroysQueued c = 1 ∧ r.conn.channel.registeredInEpoller = true := by
    cases hold.stage with
    | opened h1 h2 h3 h4 h5 => omega
    | closed h1 h2 h3 h4 h5 h6 => exact ⟨h1, h2, h3, h4, h6⟩
    | destroyed h1 h2 h3 h4 h5 => omega
  rw [runTask_destroy hr hlive h]
  refine
    { failed := hs.failed, nextConnfd := ?nextConnfd, record := fun e r' he => ?record,
      keys := fun name e => ?keys, tasks := fun t ht => ?task, phase := ?phase }
  case nextConnfd =>
    change s.server.nextConnfd = (s.server.conns.modify c _).length + 1
    rw [List.length_modify]
    exact hs.nextConnfd
  case record =>
    rcases getElem?_modify_conn hr he with ⟨rfl, rfl⟩ | ⟨hne, he⟩
    · refine ⟨hold.name, hold.loop, ?_, .destroyed hclosed rfl rfl ?_ (by omega) ?_⟩
      · rw [destroyedRecord, hold.callbacks, hdestroyed]
        rfl
      · exact Channel.disableAll_events ret _
      · refine iff_of_true ?_ List.mem_cons_self
        rw [destroyedRecord, Channel.disableAll_registered]
        exact hreg
    · refine (hs.record e r' he).congr rfl rfl ?_ ?_
      · rw [hq e, if_neg hne, Nat.add_zero]
      · rw [htodo, afterDestroy]
        simp [Ne.symm hne]
  case keys =>
    change s.server.connections name = some e ↔ _
    rw [hs.keys name e]
    exact (exists_modify_conn (P := fun r => r.conn.name = name ∧ r.closed = false) hr
      Iff.rfl).symm
  case task =>
    change t.conn < (s.server.conns.modify c _).length ∧ _
    rw [List.length_modify]
    refine hs.tasks t ?_
    rw [hbatch]
    exact List.mem_cons_of_mem _ ht
  case phase =>
    exact (phaseInv_running (s := s.afterDestroy c ret batch) hphase).2
      ⟨((phaseInv_running hphase).1 hs.phase).1, .inr ⟨c, rfl⟩⟩

/-! ### The end of `connectDestoryed` -/

/-- A connection whose channel has been removed. -/
def removedRecord (r : ConnRecord) : ConnRecord :=
  { r with conn.channel.registeredInEpoller := false }

/-- The state after the end of `connectDestoryed`. -/
def afterRemove (c : ℕ) (s : ServerSystem) : ServerSystem :=
  { s with todo := [], server.conns := s.server.conns.modify c removedRecord }

/-- What `epollDel` asserts holds of the channel of a connection that is being removed. -/
theorem Inv.removable (hs : s.Inv) (hin : .removeChannel c ∈ s.todo)
    (hr : s.server.conns[c]? = some r) : r.closed = true ∧ r.destroyed = true ∧
      r.conn.state = .kDisConnected ∧ r.conn.channel.events = Channel.kNoneEvent ∧
      s.destroysQueued c = 0 ∧ r.conn.channel.registeredInEpoller = true := by
  cases (hs.record c r hr).stage with
  | opened h1 h2 h3 h4 h5 => exact absurd hin h5
  | closed h1 h2 h3 h4 h5 => exact absurd hin h5
  | destroyed h1 h2 h3 h4 h5 h6 => exact ⟨h1, h2, h3, h4, h5, h6.2 hin⟩

/-- Only the batch leaves a channel to be removed. -/
theorem Inv.removing (hs : s.Inv) (hin : .removeChannel c ∈ s.todo) :
    s.phase = .running ∧ s.todo = [.removeChannel c] := by
  cases hp : s.phase with
  | polling =>
    rw [((phaseInv_polling hp).1 hs.phase).1] at hin
    cases hin
  | handling => exact (((phaseInv_handling hp).1 hs.phase).2.1 _ hin).elim
  | running =>
    rcases ((phaseInv_running hp).1 hs.phase).2 with htodo | ⟨d, htodo⟩
    · rw [htodo] at hin
      cases hin
    · rw [htodo, List.mem_singleton] at hin
      exact ⟨rfl, by rw [htodo, hin]⟩

/-- A call that tells nobody and queues nothing. -/
theorem absorb_enter (s : ServerSystem) (c : ℕ) (d : TcpConnection) :
    s.absorb c d.enter = s.replace c (fun r => { r with conn := d }) [] := by
  have hf : (fun r : ConnRecord => { r with
      conn := d
      callbacks := r.callbacks ++
        List.replicate (([] : List Callback).count .connection) d.connected
      closed := r.closed || ([] : List Callback).contains .close }) =
      fun r => { r with conn := d } :=
    funext fun r => by simp
  rw [absorb, TcpConnection.enter, if_neg List.not_mem_nil, adopt, TcpServer.adopt, hf, replace,
    List.map_nil]

theorem removeChannel_after {todo : List ServerWork} (hr : s.server.conns[c]? = some r)
    (hevents : r.conn.channel.events = Channel.kNoneEvent)
    (hreg : r.conn.channel.registeredInEpoller = true)
    (h : { s with todo := todo }.after c (r.conn.enter.removeChannel true) = some u) :
    u = { s with todo := todo, server.conns := s.server.conns.modify c removedRecord } := by
  have hok : r.conn.enter.removeChannel true =
      .ok { r.conn with channel.registeredInEpoller := false }.enter := by
    rw [ConnCtx.removeChannel, show r.conn.enter.conn.channel = r.conn.channel from rfl,
      Channel.remove_eq true hevents hreg]
    rfl
  rw [hok] at h
  rw [← Option.some.inj h]
  refine (absorb_enter _ c { r.conn with channel.registeredInEpoller := false }).trans ?_
  rw [replace, List.append_nil]
  refine congrArg (fun conns => { s with todo := todo, server.conns := conns }) ?_
  exact modify_congr hr rfl

/-- **Removing.** The end of `connectDestoryed`: what `epollDel` asserts holds. -/
theorem Inv.remove (hs : s.Inv) {todo : List ServerWork} (htodo : s.todo = .removeChannel c :: todo)
    (hr : s.server.conns[c]? = some r)
    (h : { s with todo := todo }.after c (r.conn.enter.removeChannel true) = some u) : u.Inv := by
  have hin : .removeChannel c ∈ s.todo := by simp [htodo]
  obtain ⟨hphase, hlen⟩ := hs.removing hin
  obtain rfl : todo = [] := by rw [htodo] at hlen; exact (List.cons.inj hlen).2
  obtain ⟨hclosed, hdestroyed, hstate, hevents, hqueued, hreg⟩ := hs.removable hin hr
  have hold := hs.record c r hr
  obtain rfl : u = s.afterRemove c := removeChannel_after hr hevents hreg h
  refine
    { failed := hs.failed, nextConnfd := ?nextConnfd, record := fun e r' he => ?record,
      keys := fun name e => ?keys, tasks := fun t ht => ?task, phase := ?phase }
  case nextConnfd =>
    change s.server.nextConnfd = (s.server.conns.modify c _).length + 1
    rw [List.length_modify]
    exact hs.nextConnfd
  case record =>
    rcases getElem?_modify_conn hr he with ⟨rfl, rfl⟩ | ⟨hne, he⟩
    · exact ⟨hold.name, hold.loop, hold.callbacks, .destroyed hclosed hdestroyed hstate hevents
        hqueued (iff_of_false nofun List.not_mem_nil)⟩
    · refine (hs.record e r' he).congr rfl rfl rfl ?_
      rw [hlen, afterRemove]
      simp [Ne.symm hne]
  case keys =>
    change s.server.connections name = some e ↔ _
    rw [hs.keys name e]
    exact (exists_modify_conn (P := fun r => r.conn.name = name ∧ r.closed = false) hr
      Iff.rfl).symm
  case task =>
    change t.conn < (s.server.conns.modify c _).length ∧ _
    rw [List.length_modify]
    exact hs.tasks t ht
  case phase =>
    exact (phaseInv_running (s := s.afterRemove c) hphase).2
      ⟨((phaseInv_running hphase).1 hs.phase).1, .inl rfl⟩

/-! ### Handlers -/

/-- Work that is no end of `connectDestoryed` is left only while events are handled. -/
theorem Inv.handling (hs : s.Inv) {w : ServerWork} {todo : List ServerWork}
    (htodo : s.todo = w :: todo) (hw : ∀ c, w ≠ .removeChannel c) : s.phase = .handling := by
  cases hp : s.phase with
  | polling =>
    rw [((phaseInv_polling hp).1 hs.phase).1] at htodo
    cases htodo
  | handling => rfl
  | running =>
    rcases ((phaseInv_running hp).1 hs.phase).2 with h | ⟨d, h⟩
    · rw [htodo] at h
      cases h
    · rw [htodo] at h
      exact absurd (List.cons.inj h).1 (hw d)

/-- While events are handled, no channel is to be removed. -/
theorem Inv.not_removing (hs : s.Inv) (hphase : s.phase = .handling) :
    .removeChannel c ∉ s.todo := fun hin =>
  ((phaseInv_handling hphase).1 hs.phase).2.1 _ hin

/-- The first handler is taken off. -/
theorem Inv.pop (hs : s.Inv) {w : ServerWork} {todo : List ServerWork}
    (htodo : s.todo = w :: todo) (hphase : s.phase = .handling) :
    { s with todo := todo }.Inv := by
  obtain ⟨hbatch, hhandles, hcount⟩ := (phaseInv_handling hphase).1 hs.phase
  have hsub : ∀ v ∈ todo, v ∈ s.todo := fun v hv => htodo ▸ List.mem_cons_of_mem w hv
  refine ⟨hs.failed, hs.nextConnfd, fun c r hr => ?_, hs.keys, hs.tasks, ?_⟩
  · exact (hs.record c r hr).congr rfl rfl rfl (iff_of_false
      (fun h => hs.not_removing hphase (hsub _ h)) (hs.not_removing hphase))
  · refine (phaseInv_handling (s := { s with todo := todo }) hphase).2
      ⟨hbatch, fun v hv => hhandles v (hsub v hv), fun c => le_trans ?_ (hcount c)⟩
    rw [htodo]
    exact List.count_le_count_cons

/-- A handler of a connection. -/
theorem Inv.handle (hs : s.Inv) {h : Handler} {todo : List ServerWork} {received : Option Bytes}
    (htodo : s.todo = .handler c h :: todo) (hr : s.server.conns[c]? = some r)
    (hu : { s with todo := todo }.handle c r.conn received n ret h = some u) : u.Kept := by
  have hphase := hs.handling htodo nofun
  obtain ⟨-, hhandles, hcount⟩ := (phaseInv_handling hphase).1 hs.phase
  obtain ⟨hclose, r', hr', hdestroyed, hreg, hread⟩ :=
    hhandles (.handler c h) (htodo ▸ List.mem_cons_self)
  obtain rfl : r' = r := Option.some.inj (Eq.trans (Eq.symm hr') hr)
  have hlive : r'.conn.Live := by
    cases (hs.record c r' hr).stage with
    | opened _ _ h3 => exact h3
    | closed _ _ h3 => exact h3
    | destroyed _ h2 => rw [hdestroyed] at h2; cases h2
  have hpop := hs.pop htodo hphase
  cases h with
  | close => exact absurd rfl hclose
  | error => exact hpop.after_quiet hr (fun _ => ConnCtx.handleError_unnoticed) (.ok _) hu
  | write =>
    rw [ServerSystem.handle] at hu
    split_ifs at hu with hn
    exact hpop.after_quiet hr (fun _ => ConnCtx.handleWrite_unnoticed hlive)
      (ConnCtx.handleWrite_faults.mono fun _ _ he => he.of_live hlive) hu
  | read =>
    have hfaults : (r'.conn.enter.handleRead s.tid received ret).Faults
        fun e _ => e.ofClosing = false :=
      ConnCtx.handleRead_faults.mono fun _ _ he => he.1.of_live hlive
    by_cases hend : received = some []
    · subst hend
      rcases after_eq_some hu with ⟨y, hy, rfl⟩ | ⟨a, x, hx, rfl⟩
      · obtain ⟨b, rfl⟩ := ConnCtx.handleRead_eof hy
        refine .inl (hpop.close hphase hr (hread rfl) rfl rfl rfl ?_ fun hin => ?_)
        · exact (Channel.disableAll_registered ret _).trans hreg
        · have hone := hcount c
          have hpos : 0 < todo.count (.handler c .read) := List.count_pos_iff.2 hin
          rw [htodo, List.count_cons_self] at hone
          omega
      · exact .inr ⟨a, rfl, hfaults.of_fault hx⟩
    · exact hpop.after_quiet hr (fun _ => ConnCtx.handleRead_unnoticed hend)
        hfaults hu

/-! ### Accepting -/

/-- `newConnection` fails nothing but the checks of its thread. -/
theorem newConnection_faults {server : TcpServer} {tid : Tid} {a : Accepted} :
    (server.newConnection tid a).Faults fun e _ => e = .notInLoopThread := by
  refine .bind (.check fun _ => rfl) fun _ _ => .bind (.check fun _ => rfl) fun v _ => ?_
  refine Outcome.Faults.zoom (S := fun e _ => e = .notInLoopThread) ?_ fun _ _ => id
  refine .bind (.check fun _ => rfl) fun x hx => .bind (.check fun h => ?_) fun _ _ => .ok _
  obtain ⟨-, rfl⟩ := ConnCtx.assertInLoopThread_eq_ok.1 hx
  cases h

/-- The state after a connection was accepted. -/
def afterAccept (a : Accepted) (s : ServerSystem) : ServerSystem :=
  { s with server := { s.server.register a with
      conns := s.server.conns ++
        [TcpServer.establishedRecord s.server.threadPool.nextLoop s.server.connName a] } }

/-- **Accepting.** A new connection gets a new name. -/
theorem Inv.establish {a : Accepted} (hs : s.Inv) (hphase : s.phase = .handling)
    (hin : s.server.threadPool.nextLoop.isInLoopThread s.tid = true)
    (hmax : s.server.nextConnfd < 2 ^ 31 - 1) : (s.afterAccept a).Inv := by
  obtain ⟨hbatch, hhandles, hcount⟩ := (phaseInv_handling hphase).1 hs.phase
  generalize hrec : TcpServer.establishedRecord s.server.threadPool.nextLoop s.server.connName a = r
  have hconns : (s.afterAccept a).server.conns = s.server.conns ++ [r] := by rw [← hrec]; rfl
  have hget : ∀ {c r'}, (s.server.conns ++ [r])[c]? = some r' →
      s.server.conns[c]? = some r' ∨ c = s.server.conns.length ∧ r' = r := by
    intro c r' h
    rw [List.getElem?_append] at h
    split_ifs at h with hc
    · exact .inl h
    · refine .inr ?_
      obtain ⟨hlt, he⟩ := List.getElem?_eq_some_iff.1 h
      rw [List.length_singleton] at hlt
      exact ⟨by omega, by simpa [eq_comm] using he⟩
  have hold : ∀ {c r'}, s.server.conns[c]? = some r' → (s.server.conns ++ [r])[c]? = some r' :=
    fun h => by rw [List.getElem?_append_left (List.getElem?_eq_some_iff.1 h).1]; exact h
  have hname : r.conn.name = s.nameOf s.server.conns.length := by
    rw [← hs.connName_eq, ← hrec]
    rfl
  refine
    { failed := hs.failed, nextConnfd := ?nextConnfd, record := fun c r' h => ?record,
      keys := fun name c => ?keys, tasks := fun t ht => ?task, phase := ?phase }
  case nextConnfd =>
    rw [hconns, List.length_append, List.length_singleton]
    have hpos := hs.nextConnfd
    change wrap32 (s.server.nextConnfd + 1) = _
    -- the counter does not wrap yet
    rw [wrap32_eq (by omega) (by omega)]
    omega
  case record =>
    rw [hconns] at h
    rcases hget h with h | ⟨rfl, rfl⟩
    · exact (hs.record c r' h).congr rfl rfl rfl Iff.rfl
    · subst hrec
      refine ⟨hname, hin, rfl, .opened rfl rfl (.inl rfl) ?_ (hs.not_removing hphase)⟩
      -- the functors that are queued are about the records there were
      refine List.count_eq_zero.2 fun hmem => ?_
      exact absurd (hs.tasks _ hmem).1 (lt_irrefl _)
  case keys =>
    rw [hconns]
    change Function.update s.server.connections s.server.connName (some s.server.conns.length) name
      = some c ↔ _
    rw [hs.connName_eq]
    by_cases hn : name = s.nameOf s.server.conns.length
    · subst hn
      rw [Function.update_self]
      constructor
      · intro h
        obtain rfl := Option.some.inj h
        exact ⟨r, by simp, hname, by rw [← hrec]; rfl⟩
      · rintro ⟨r', h, hname', -⟩
        rcases hget h with h | ⟨rfl, -⟩
        · rw [(hs.record c r' h).name] at hname'
          -- two records of one name are the same one
          rw [s.nameOf_injective hname']
        · rfl
    · rw [Function.update_of_ne hn, hs.keys name c]
      constructor
      · rintro ⟨r', h, h'⟩
        exact ⟨r', hold h, h'⟩
      · rintro ⟨r', h, h'⟩
        rcases hget h with h | ⟨rfl, rfl⟩
        · exact ⟨r', h, h'⟩
        · exact absurd (h'.1.symm.trans hname) hn
  case task =>
    rw [hconns, List.length_append]
    exact ⟨Nat.lt_add_right _ (hs.tasks t ht).1, (hs.tasks t ht).2⟩
  case phase =>
    refine (phaseInv_handling (s := s.afterAccept a) hphase).2 ⟨hbatch, fun w hw => ?_, hcount⟩
    cases w with
    | accept => trivial
    | removeChannel c => exact hhandles _ hw
    | handler c h =>
      obtain ⟨hne, r', hr', h'⟩ := hhandles _ hw
      exact ⟨hne, r', by rw [hconns]; exact hold hr', h'⟩

/-- `Acceptor::handleRead`. -/
theorem Inv.accept (hs : s.Inv) {todo : List ServerWork} {accepted : Option Accepted}
    (htodo : s.todo = .accept :: todo)
    (hmax : accepted.isSome = true → s.server.nextConnfd < 2 ^ 31 - 1)
    (hu : { s with todo := todo }.accept accepted = some u) : u.Kept := by
  have hphase := hs.handling htodo nofun
  have hpop := hs.pop htodo hphase
  unfold ServerSystem.accept at hu
  split at hu
  · rw [← Option.some.inj hu]
    exact .inl hpop
  · split at hu
    · rename_i a server hserver
      obtain ⟨-, hin, rfl⟩ := TcpServer.newConnection_eq_ok hserver
      rw [← Option.some.inj hu]
      exact .inl (hpop.establish hphase hin (hmax rfl))
    · rename_i a b server hserver
      cases newConnection_faults.of_fault hserver
    · cases hu

/-! ### The loop -/

theorem count_works_le (active : List Active) (c : ℕ) :
    (active.flatMap Active.works).count (.handler c .read) ≤
      (active.filterMap Active.conn?).count c := by
  induction active with
  | nil => exact le_rfl
  | cons a active ih =>
    rw [List.flatMap_cons, List.count_append]
    cases a with
    | acceptor =>
      rw [List.filterMap_cons_none (f := Active.conn?) (a := Active.acceptor) rfl]
      simpa [Active.works] using ih
    | conn d revents =>
      have hone : (Active.works (.conn d revents)).count (.handler c .read) ≤
          if d = c then 1 else 0 := by
        rw [Active.works, Channel.handleEvent]
        split_ifs <;> simp_all
      rw [List.filterMap_cons_some (f := Active.conn?) (a := Active.conn d revents) rfl,
        List.count_cons]
      simp only [beq_iff_eq]
      omega

/-- Between two iterations of the loop a connection whose channel is registered is open. -/
theorem Inv.opened (hs : s.Inv) (hphase : s.phase = .polling) (hr : s.server.conns[c]? = some r)
    (hreg : r.conn.channel.registeredInEpoller = true) :
    r.closed = false ∧ r.destroyed = false := by
  obtain ⟨htodo, hbatch, hnd⟩ := (phaseInv_polling hphase).1 hs.phase
  have hzero : s.destroysQueued c = 0 := by
    rw [destroysQueued, hbatch, List.nil_append, List.count_eq_zero]
    exact fun hmem => hnd _ hmem rfl
  cases (hs.record c r hr).stage with
  | opened h1 h2 => exact ⟨h1, h2⟩
  | closed h1 h2 h3 h4 => omega
  | destroyed h1 h2 h3 h4 h5 h6 =>
    have hin := h6.1 hreg
    rw [htodo] at hin
    cases hin

/-- The return of `epoll_wait`. -/
theorem Inv.poll (hs : s.Inv) {active : List Active} (hphase : s.phase = .polling)
    (hnodup : (active.filterMap Active.conn?).Nodup)
    (hactive : ∀ c ∈ active.filterMap Active.conn?, ∃ r ∈ s.server.conns[c]?,
      r.conn.channel.registeredInEpoller = true) (hregular : ∀ a ∈ active, a.regular = true) :
    { s with phase := .handling, todo := active.flatMap Active.works }.Inv := by
  obtain ⟨htodo, hbatch, -⟩ := (phaseInv_polling hphase).1 hs.phase
  have hhandles : ∀ w ∈ active.flatMap Active.works, Handles
      { s with phase := .handling, todo := active.flatMap Active.works } w := by
    intro w hw
    obtain ⟨a, ha, hw⟩ := List.mem_flatMap.1 hw
    cases a with
    | acceptor => rw [List.mem_singleton.1 hw]; trivial
    | conn c revents =>
      obtain ⟨h, hh, rfl⟩ := List.mem_map.1 hw
      obtain ⟨r, hr, hreg⟩ := hactive c (List.mem_filterMap.2 ⟨_, ha, rfl⟩)
      obtain ⟨hclosed, hdestroyed⟩ := hs.opened hphase hr hreg
      refine ⟨?_, r, hr, hdestroyed, hreg, fun _ => hclosed⟩
      rintro rfl
      have hreg := hregular _ ha
      rw [Active.regular] at hreg
      rw [Channel.handleEvent] at hh
      split_ifs at hh <;> simp_all
  refine ⟨hs.failed, hs.nextConnfd, fun c r hr => ?_, hs.keys, hs.tasks, ?_⟩
  · refine (hs.record c r hr).congr rfl rfl rfl (iff_of_false (fun hin => hhandles _ hin) ?_)
    rw [htodo]
    exact List.not_mem_nil
  · refine (phaseInv_handling rfl).2 ⟨hbatch, hhandles, fun c => ?_⟩
    exact (count_works_le active c).trans (List.nodup_iff_count_le_one.1 hnodup c)

/-- A call of the user in the thread of the loop. -/
theorem Inv.user (hs : s.Inv) {op : UserOp} (hr : s.server.conns[c]? = some r)
    (hu : s.user c r.conn n ret op = some u) : u.Kept := by
  have hin := (hs.record c r hr).loop
  have hadopt : ∀ {d : TcpConnection}, Quiet r.conn d.enter → s.adopt c d.enter = u → u.Kept := by
    rintro d hq rfl
    have hk := hs.quiet hr hq
    rw [absorb, if_neg hq.close] at hk
    exact .inl hk
  cases op with
  | send message =>
    rw [ServerSystem.user] at hu
    split_ifs at hu
    exact hs.after_quiet hr (fun _ => ConnCtx.send_unnoticed hin) ConnCtx.send_faults hu
  | shutdown =>
    exact hs.after_quiet hr (fun _ => ConnCtx.shutdown_unnoticed hin) ConnCtx.shutdown_faults hu
  | setWriteCompleteCallback callback =>
    exact hadopt (d := { r.conn with writeCompleteCallback := callback })
      (ConnCtx.enter_unnoticed rfl rfl rfl rfl) (Option.some.inj hu)
  | inputBuffer op =>
    unfold ServerSystem.user at hu
    dsimp only at hu
    split at hu
    · rename_i b hb
      exact hadopt (d := { r.conn with inputBuffer := b }) (ConnCtx.enter_unnoticed rfl rfl rfl rfl)
        (Option.some.inj hu)
    · cases hu

/-- The swap of `doPendingFunctions`. -/
theorem Inv.swap (hs : s.Inv) (hphase : s.phase = .handling) (htodo : s.todo = []) :
    { s with phase := .running, batch := s.pendingFunctors, pendingFunctors := [] }.Inv := by
  obtain ⟨hbatch, -, -⟩ := (phaseInv_handling hphase).1 hs.phase
  refine ⟨hs.failed, hs.nextConnfd, fun c r hr => ?_, hs.keys, fun t ht => ?_, ?_⟩
  · refine (hs.record c r hr).congr rfl rfl ?_ Iff.rfl
    rw [destroysQueued, destroysQueued, hbatch, List.append_nil, List.nil_append]
  · refine hs.tasks t ?_
    rw [hbatch, List.nil_append]
    simpa using ht
  · exact (phaseInv_running rfl).2 ⟨fun t ht => absurd ht List.not_mem_nil, .inl htodo⟩

/-- The next functor of the batch. -/
theorem Inv.call (hs : s.Inv) {task : ServerTask} {batch : List ServerTask}
    (hphase : s.phase = .running) (htodo : s.todo = []) (hbatch : s.batch = task :: batch)
    (hr : s.server.conns[task.conn]? = some r)
    (hu : { s with batch := batch }.runTask task.conn r.conn n ret task.functor = some u) :
    u.Inv := by
  obtain ⟨c, f⟩ := task
  rcases (hs.tasks ⟨c, f⟩ (by simp [hbatch])).2 with hf | hf
  · obtain rfl : f = .connectDestoryed := hf
    exact hs.destroy hphase htodo hbatch hr hu
  · obtain rfl : f = .writeComplete := hf
    rw [← Option.some.inj hu]
    refine ⟨hs.failed, hs.nextConnfd, fun d r' hd => ?_, hs.keys, fun t ht => ?_, ?_⟩
    · refine (hs.record d r' hd).congr rfl rfl ?_ Iff.rfl
      rw [destroysQueued, destroysQueued, hbatch, List.cons_append, List.count_cons]
      simp
    · refine hs.tasks t ?_
      rw [hbatch]
      exact List.mem_cons_of_mem _ ht
    · exact (phaseInv_running (s := { s with batch := batch }) hphase).2
        ((phaseInv_running hphase).1 hs.phase)

/-- The return of `doPendingFunctions`. -/
theorem Inv.finish (hs : s.Inv) (hphase : s.phase = .running) (htodo : s.todo = [])
    (hbatch : s.batch = []) : { s with phase := .polling }.Inv := by
  refine ⟨hs.failed, hs.nextConnfd, fun c r hr => ?_, hs.keys, hs.tasks, ?_⟩
  · exact (hs.record c r hr).congr rfl rfl rfl Iff.rfl
  · exact (phaseInv_polling rfl).2 ⟨htodo, hbatch, ((phaseInv_running hphase).1 hs.phase).1⟩

theorem Inv.next (hs : s.Inv) {a : ServerAction} (ha : s.Regular a) (h : s.next a = some u) :
    u.Kept := by
  have hf : s.failed.isSome = false := by rw [hs.failed]; rfl
  unfold ServerSystem.next at h
  rw [hf, if_neg Bool.false_ne_true] at h
  cases a with
  | poll active =>
    dsimp only at h
    split_ifs at h with hp
    rw [← Option.some.inj h]
    exact .inl (hs.poll hp.1 hp.2.1 hp.2.2 ha)
  | work accepted received n ret =>
    dsimp only at h
    unfold ServerSystem.work at h
    split at h
    · cases h
    · rename_i todo htodo
      exact hs.accept htodo (fun hsome => ha hsome (by rw [htodo]; rfl)) h
    · rename_i c h' todo htodo
      obtain ⟨r, hr, h⟩ := Option.bind_eq_some_iff.1 h
      exact hs.handle htodo hr h
    · rename_i c todo htodo
      obtain ⟨r, hr, h⟩ := Option.bind_eq_some_iff.1 h
      exact .inl (hs.remove htodo hr h)
  | user c op n ret =>
    dsimp only at h
    split_ifs at h
    obtain ⟨r, hr, h⟩ := Option.bind_eq_some_iff.1 h
    exact hs.user hr h
  | swap =>
    dsimp only at h
    split_ifs at h with hp
    rw [← Option.some.inj h]
    exact .inl (hs.swap hp.1 hp.2)
  | call n ret =>
    dsimp only at h
    split at h
    · rename_i task batch hphase htodo hbatch
      obtain ⟨r, hr, h⟩ := Option.bind_eq_some_iff.1 h
      exact .inl (hs.call hphase htodo hbatch hr h)
    · cases h
  | finish =>
    dsimp only at h
    split_ifs at h with hp
    rw [← Option.some.inj h]
    exact .inl (hs.finish hp.1 hp.2.1 hp.2.2)

/-- A server that has just been started. -/
theorem Inv.new {loop : LoopPtr} {name : String} {numThreads : ℕ} {threads : ℕ → Tid} :
    (ServerSystem.new (.listening loop name numThreads threads)).Inv where
  failed := rfl
  nextConnfd := rfl
  record := fun c r h => by cases h
  keys := fun name c => iff_of_false nofun fun ⟨r, h, _⟩ => by cases h
  tasks := fun t ht => absurd ht List.not_mem_nil
  phase := (phaseInv_polling rfl).2 ⟨rfl, rfl, fun t ht => absurd ht List.not_mem_nil⟩

/-- Every state of a regular run keeps the invariant. -/
theorem kept_of_reachable (h : (tcpServers.restrict Regular).Reachable s) : s.Kept := by
  refine h.invariant ?_ ?_
  · rintro s ⟨loop, name, numThreads, threads, server, hstart, rfl⟩
    rw [TcpServer.start_eq] at hstart
    rw [← Outcome.ok.inj hstart]
    exact .inl .new
  · intro s a t hs hn
    obtain ⟨ha, hn⟩ := LTS.restrict_next.1 hn
    rcases hs with hs | ⟨b, hb, -⟩
    · exact hs.next ha hn
    · have hnone : s.next a = none := by simp [ServerSystem.next, hb]
      rw [show tcpServers.next s a = s.next a from rfl, hnone] at hn
      cases hn

/-- The bookkeeping of a server: the keys of `connections_` are the names of the connections that
have not run `handleClose`, and no two connections have one name; a connection that has run it and
is not destroyed has one `connectDestoryed` queued; the connection callback was called once as
connected, and once more, as disconnected, if the connection is destroyed; and what the end of
`connectDestoryed` asserts of a channel holds when it is called. -/
structure Bookkeeping (s : ServerSystem) : Prop where
  keys : ∀ name, (s.server.connections name).isSome = true ↔
    ∃ r ∈ s.server.conns, r.conn.name = name ∧ r.closed = false
  names : (s.server.conns.map fun r => r.conn.name).Nodup
  queued : ∀ c r, s.server.conns[c]? = some r →
    s.destroysQueued c = if r.closed ∧ ¬r.destroyed then 1 else 0
  callbacks : ∀ r ∈ s.server.conns, r.callbacks = if r.destroyed then [true, false] else [true]
  removable : ∀ c r, s.server.conns[c]? = some r → .removeChannel c ∈ s.todo →
    r.conn.channel.isNoneEvent = true ∧ r.conn.channel.registeredInEpoller = true

theorem Inv.bookkeeping (hs : s.Inv) : s.Bookkeeping where
  keys := fun name => by
    rw [Option.isSome_iff_exists]
    constructor
    · rintro ⟨c, hc⟩
      obtain ⟨r, hr, h⟩ := (hs.keys name c).1 hc
      exact ⟨r, List.mem_of_getElem? hr, h⟩
    · rintro ⟨r, hmem, h⟩
      obtain ⟨c, hr⟩ := List.mem_iff_getElem?.1 hmem
      exact ⟨c, (hs.keys name c).2 ⟨r, hr, h⟩⟩
  names := by
    rw [List.nodup_iff_injective_getElem]
    rintro ⟨c, hc⟩ ⟨d, hd⟩ h
    rw [List.length_map] at hc hd
    refine Fin.ext (hs.name_inj (List.getElem?_eq_getElem hc) (List.getElem?_eq_getElem hd) ?_)
    simpa using h
  queued := fun c r hr => by
    cases (hs.record c r hr).stage with
    | opened h1 h2 h3 h4 => simp [h1, h4]
    | closed h1 h2 h3 h4 => simp [h1, h2, h4]
    | destroyed h1 h2 h3 h4 h5 => simp [h2, h5]
  callbacks := fun r hmem => by
    obtain ⟨c, hr⟩ := List.mem_iff_getElem?.1 hmem
    exact (hs.record c r hr).callbacks
  removable := fun c r hr hin => by
    obtain ⟨-, -, -, hevents, -, hreg⟩ := hs.removable hin hr
    exact ⟨by rw [Channel.isNoneEvent, hevents]; rfl, hreg⟩

end ServerSystem

/-- **The bookkeeping of a server.** In every state of a run in which `epoll_wait` reports
`EPOLLRDHUP` only together with `EPOLLIN` and `nextConnfd_` does not overflow, the books are right
until something aborts, and what aborts is none of the assertions of `removeConnectionInLoop`,
`handleClose` and `connectDestoryed`. -/
theorem server_bookkeeping {s : ServerSystem}
    (h : (tcpServers.restrict ServerSystem.Regular).Reachable s) :
    (s.failed = none → s.Bookkeeping) ∧
      ∀ a, s.failed = some a → (Fault.assertion a).ofClosing = false := by
  rcases ServerSystem.kept_of_reachable h with hs | ⟨b, hb, hclosing⟩
  · refine ⟨fun _ => hs.bookkeeping, fun a ha => ?_⟩
    rw [hs.failed] at ha
    cases ha
  · refine ⟨fun hnone => ?_, fun a ha => ?_⟩
    · rw [hb] at hnone
      cases hnone
    · rw [hb] at ha
      rwa [← Option.some.inj ha]

/-- Two sockets are accepted, the first connection reaches the end of its stream, and its
`connectDestoryed` runs. -/
def twoSockets : List ServerAction :=
  [.poll [.acceptor], .work (some (socketSeven ⟨0, 0⟩)) none 0 true, .swap, .finish,
    .poll [.acceptor], .work (some { socketSeven ⟨0, 0⟩ with sockfd := 8 }) none 0 true, .swap,
    .finish, .poll [.conn 1 EPOLLIN, .conn 0 (EPOLLIN ||| EPOLLRDHUP)],
    .work none (some [42]) 0 true, .user 1 .shutdown 0 true, .work none (some []) 0 true,
    .swap, .call 0 true]

/-- After that run one of the two connections is left in the books. -/
theorem server_bookkeeping_two_sockets : ∃ s : ServerSystem, s.Bookkeeping ∧
    (s.server.conns.map fun r => r.callbacks) = [[true, false], [true]] ∧
      (s.server.conns.map fun r => (s.server.connections r.conn.name)) = [none, some 1] := by
  obtain ⟨s, hs, hconns⟩ := Option.map_eq_some_iff.1 (by decide +kernel :
    (((tcpServers.restrict ServerSystem.Regular).run
      (.new (.listening ⟨1⟩ "0.0.0.0:80" 0 fun _ => 0)) twoSockets).map fun s =>
        (s.failed, s.server.conns.map fun r => r.callbacks,
          s.server.conns.map fun r => s.server.connections r.conn.name)) =
      some (none, [[true, false], [true]], [none, some 1]))
  obtain ⟨hf, hcallbacks, hnames⟩ := Prod.mk.inj hconns |>.imp id Prod.mk.inj
  have hinit : (tcpServers.restrict ServerSystem.Regular).init
      (.new (.listening ⟨1⟩ "0.0.0.0:80" 0 fun _ => 0)) :=
    ⟨⟨1⟩, "0.0.0.0:80", 0, fun _ => 0, _, TcpServer.start_eq _ _ _ _, rfl⟩
  have hreach := LTS.Reachable.of_run (.init hinit) _ hs
  exact ⟨s, (server_bookkeeping hreach).1 hf, hcallbacks, hnames⟩

end Jiangbo
