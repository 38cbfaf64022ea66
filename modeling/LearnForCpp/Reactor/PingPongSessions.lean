import LearnForCpp.Lib.Transition
import LearnForCpp.Thread.Atomic

/-!
# The sessions of the ping-pong client

`Client` in `example/pingpong_client.cc` has sessions in the threads of an `EventLoopThreadPool`.
They count their connections in `numConnected_`: `onConnect` increments it and compares with
`sessionCount_`, `onDisconnect` decrements it and then reads it, and ends the main loop at zero.
The decrement and the read are two instructions, and any session may run between them.

A `TcpClient` that does not retry calls the connection callback at most twice, for the
establishment and for the end.  The totals, which `onDisconnect` reads from the sessions without
a lock, are left out.
-/

namespace Jiangbo

/-- Where a session stands. -/
inductive SessionStage
  /-- Not yet connected. -/
  | starting
  /-- `onConnect` has returned. -/
  | connected
  /-- In `onDisconnect`, after the decrement. -/
  | leaving
  /-- `onDisconnect` has returned. -/
  | ended
  deriving DecidableEq

/-- A call that a session makes on its `Client`. -/
inductive SessionAction (ι : Type*)
  | onConnect (i : ι)
  /-- `onDisconnect`: `numConnected_.decrement()`. -/
  | decrement (i : ι)
  /-- `onDisconnect`: `numConnected_.get()` and what follows. -/
  | get (i : ι)
  deriving DecidableEq

/-- A `Client` with the sessions `ι`. -/
structure PingPongClient (ι : Type*) where
  numConnected : AtomicInt32
  stage : ι → SessionStage
  /-- How often "all connected" was logged. -/
  allConnected : ℕ
  /-- The calls of `loop_->quit()`. -/
  quits : ℕ

namespace PingPongClient

variable {ι : Type*} [Fintype ι] [DecidableEq ι]

def new : PingPongClient ι := ⟨.new, fun _ => .starting, 0, 0⟩

/-- `sessionCount_`. -/
def sessionCount (ι : Type*) [Fintype ι] : BitVec 32 := Fintype.card ι

def onConnect (i : ι) (c : PingPongClient ι) : PingPongClient ι :=
  let (n, numConnected) := c.numConnected.incrementAndGet
  { c with
    numConnected
    stage := Function.update c.stage i .connected
    allConnected := if n = sessionCount ι then c.allConnected + 1 else c.allConnected }

def decrement (i : ι) (c : PingPongClient ι) : PingPongClient ι :=
  { c with
    numConnected := c.numConnected.decrement
    stage := Function.update c.stage i .leaving }

def get (i : ι) (c : PingPongClient ι) : PingPongClient ι :=
  let (n, numConnected) := c.numConnected.get
  { c with
    numConnected
    stage := Function.update c.stage i .ended
    quits := if n = 0 then c.quits + 1 else c.quits }

/-- One step. -/
def next (c : PingPongClient ι) : SessionAction ι → Option (PingPongClient ι)
  | .onConnect i => if c.stage i = .starting then some (c.onConnect i) else none
  | .decrement i => if c.stage i = .connected then some (c.decrement i) else none
  | .get i => if c.stage i = .leaving then some (c.get i) else none

/-- The sessions that are connected. -/
def online (c : PingPongClient ι) : Finset ι := Finset.univ.filter fun i => c.stage i = .connected

end PingPongClient

/-- The runs of a client. -/
def pingPongClients (ι : Type*) [Fintype ι] [DecidableEq ι] :
    LTS (PingPongClient ι) (SessionAction ι) where
  init c := c = .new
  next := PingPongClient.next

namespace PingPongClient

variable {ι : Type*} [Fintype ι] [DecidableEq ι] {c c' : PingPongClient ι} {i j : ι}
  {a : SessionAction ι}

omit [DecidableEq ι] in
theorem mem_online : i ∈ c.online ↔ c.stage i = .connected := by simp [online]

/-! ### What a step does with the sessions -/

@[simp] theorem onConnect_stage :
    (c.onConnect i).stage = Function.update c.stage i .connected := rfl

omit [Fintype ι] in
@[simp] theorem decrement_stage :
    (c.decrement i).stage = Function.update c.stage i .leaving := rfl

omit [Fintype ι] in
@[simp] theorem get_stage : (c.get i).stage = Function.update c.stage i .ended := rfl

theorem onConnect_allConnected : (c.onConnect i).allConnected =
    if c.numConnected.incrementAndGet.1 = sessionCount ι then c.allConnected + 1
    else c.allConnected := rfl

omit [Fintype ι] in
theorem decrement_numConnected :
    (c.decrement i).numConnected = c.numConnected.decrement := rfl

omit [Fintype ι] in
theorem decrement_allConnected : (c.decrement i).allConnected = c.allConnected := by
  rw [decrement]

omit [Fintype ι] in
theorem get_numConnected : (c.get i).numConnected = c.numConnected :=
  AtomicIntegerT.get_snd c.numConnected

omit [Fintype ι] in
theorem get_quits :
    (c.get i).quits = if c.numConnected.get.1 = 0 then c.quits + 1 else c.quits := rfl

theorem online_onConnect : (c.onConnect i).online = insert i c.online := by
  ext j
  rw [Finset.mem_insert, mem_online, mem_online]
  by_cases hj : j = i
  · simp [hj]
  · simp [hj]

/-- A session that is not connected afterwards is gone. -/
theorem online_update {k : SessionStage} (hk : k ≠ .connected)
    (hstage : c'.stage = Function.update c.stage i k) : c'.online = c.online.erase i := by
  ext j
  rw [Finset.mem_erase, mem_online, mem_online, hstage]
  by_cases hj : j = i
  · simp [hj, hk]
  · simp [hj]

omit [Fintype ι] in
/-- No session comes back to the start. -/
theorem not_starting {k : SessionStage} (h : ∀ j, c.stage j ≠ .starting) (hk : k ≠ .starting)
    (hstage : c'.stage = Function.update c.stage i k) (j : ι) : c'.stage j ≠ .starting := by
  rw [hstage]
  by_cases hji : j = i
  · simpa [hji] using hk
  · simpa [hji] using h j

/-! ### The invariant -/

/-- `numConnected_` is the number of connected sessions; the log "all connected" comes once, and
when nobody is connected any more and nobody about to read `numConnected_`, `quit` was called. -/
structure Inv (c : PingPongClient ι) : Prop where
  counted : c.numConnected.value.toNat = c.online.card
  logged : c.allConnected = 0 ∨ c.allConnected = 1 ∧ ∀ i, c.stage i ≠ .starting
  finished : c.online = ∅ → (∀ i, c.stage i ≠ .leaving) → ∀ i, c.stage i = .ended → 0 < c.quits

omit [DecidableEq ι] in
theorem new_inv : (new : PingPongClient ι).Inv where
  counted := by simp [new, AtomicIntegerT.new, online]
  logged := .inl rfl
  finished _ _ _ hi := nomatch hi

/-- The value that `incrementAndGet` returns. -/
theorem Inv.increment (hcount : Fintype.card ι < 2 ^ 31) (hc : c.Inv) (hi : c.stage i = .starting) :
    c.numConnected.incrementAndGet.1.toNat = (c.onConnect i).online.card ∧
      (c.onConnect i).online.card = c.online.card + 1 := by
  have hnot : i ∉ c.online := by simp [mem_online, hi]
  have hcard := Finset.card_insert_of_notMem hnot
  have hle := Finset.card_le_univ (insert i c.online)
  rw [online_onConnect, hcard, AtomicIntegerT.incrementAndGet_toNat (by rw [hc.counted]; omega),
    hc.counted]
  exact ⟨rfl, rfl⟩

/-- It is `sessionCount_` when all are connected. -/
theorem Inv.increment_eq_sessionCount (hcount : Fintype.card ι < 2 ^ 31) (hc : c.Inv)
    (hi : c.stage i = .starting) : c.numConnected.incrementAndGet.1 = sessionCount ι ↔
      (c.onConnect i).online = Finset.univ := by
  rw [← Finset.card_eq_iff_eq_univ, ← (hc.increment hcount hi).1, BitVec.toNat_eq, sessionCount]
  simp only [BitVec.natCast_eq_ofNat, BitVec.toNat_ofNat]
  rw [Nat.mod_eq_of_lt (by omega)]

theorem Inv.onConnect (hcount : Fintype.card ι < 2 ^ 31) (hc : c.Inv)
    (hi : c.stage i = .starting) : (c.onConnect i).Inv where
  counted := (hc.increment hcount hi).1
  logged := by
    have hall := hc.increment_eq_sessionCount hcount hi
    rcases hc.logged with h0 | ⟨-, hall0⟩
    · by_cases hn : c.numConnected.incrementAndGet.1 = sessionCount ι
      · refine .inr ⟨?_, fun j hj => ?_⟩
        · rw [onConnect_allConnected, if_pos hn, h0]
        · have := Finset.mem_univ j
          rw [← hall.1 hn, mem_online, hj] at this
          cases this
      · left
        rw [onConnect_allConnected, if_neg hn, h0]
    · exact absurd hi (hall0 i)
  finished h := by
    rw [online_onConnect] at h
    exact absurd h (Finset.insert_ne_empty i _)

theorem Inv.decrement (hc : c.Inv) (hi : c.stage i = .connected) : (c.decrement i).Inv where
  counted := by
    have hmem : i ∈ c.online := mem_online.2 hi
    have hpos := Finset.card_pos.2 ⟨i, hmem⟩
    rw [online_update (i := i) (by simp) (decrement_stage (c := c)),
      Finset.card_erase_of_mem hmem, ← hc.counted]
    rw [← hc.counted] at hpos
    rw [decrement_numConnected, AtomicIntegerT.decrement_toNat hpos]
  logged := by
    rw [decrement_allConnected]
    exact hc.logged.imp_right fun h => ⟨h.1, not_starting h.2 (by simp) decrement_stage⟩
  finished _ h := absurd (by simp) (h i)

omit [DecidableEq ι] in
theorem Inv.get_eq_zero (hc : c.Inv) : c.numConnected.get.1 = 0 ↔ c.online = ∅ := by
  rw [AtomicIntegerT.get_fst, ← Finset.card_eq_zero, ← hc.counted, BitVec.toNat_eq]
  rfl

theorem Inv.get (hc : c.Inv) (hi : c.stage i = .leaving) : (c.get i).Inv := by
  have honline : (c.get i).online = c.online := by
    rw [online_update (i := i) (by simp) (get_stage (c := c)), Finset.erase_eq_of_notMem]
    simp [mem_online, hi]
  refine ⟨?_, hc.logged.imp_right fun h => ⟨h.1, ?_⟩, fun h _ _ _ => ?_⟩
  · rw [honline, get_numConnected, hc.counted]
  · exact not_starting h.2 (by simp) get_stage
  · rw [honline] at h
    rw [get_quits, if_pos (hc.get_eq_zero.2 h)]
    exact Nat.succ_pos _

/-- The cases of a step, with their guards. -/
inductive Moves (c : PingPongClient ι) : SessionAction ι → PingPongClient ι → Prop
  | onConnect {i : ι} (hi : c.stage i = .starting) : Moves c (.onConnect i) (c.onConnect i)
  | decrement {i : ι} (hi : c.stage i = .connected) : Moves c (.decrement i) (c.decrement i)
  | get {i : ι} (hi : c.stage i = .leaving) : Moves c (.get i) (c.get i)

theorem next_moves (h : c.next a = some c') : Moves c a c' := by
  cases a with
  | onConnect i =>
    simp only [next, Option.ite_none_right_eq_some, Option.some.injEq] at h
    exact h.2 ▸ .onConnect h.1
  | decrement i =>
    simp only [next, Option.ite_none_right_eq_some, Option.some.injEq] at h
    exact h.2 ▸ .decrement h.1
  | get i =>
    simp only [next, Option.ite_none_right_eq_some, Option.some.injEq] at h
    exact h.2 ▸ .get h.1

theorem Inv.next (hcount : Fintype.card ι < 2 ^ 31) (hc : c.Inv) (h : c.next a = some c') :
    c'.Inv := by
  cases next_moves h with
  | onConnect hi => exact hc.onConnect hcount hi
  | decrement hi => exact hc.decrement hi
  | get hi => exact hc.get hi

theorem inv_of_reachable (hcount : Fintype.card ι < 2 ^ 31)
    (h : (pingPongClients ι).Reachable c) : c.Inv :=
  h.invariant (fun _ h0 => h0 ▸ new_inv) fun _ _ _ hc hn => hc.next hcount hn

end PingPongClient

/-- **The sessions are counted exactly.** For every number of sessions that fits `sessionCount_` and
every interleaving of their threads: `numConnected_` is the number of connected sessions; "all
connected" is logged at most once, by the `onConnect` after which all of them are connected; the
main loop is told to quit only when none is, and has been told so when all of them have ended. -/
theorem ping_pong_sessions {ι : Type*} [Fintype ι] [DecidableEq ι]
    (hcount : Fintype.card ι < 2 ^ 31) {c : PingPongClient ι}
    (h : (pingPongClients ι).Reachable c) :
    c.numConnected.value.toNat = c.online.card ∧ c.allConnected ≤ 1 ∧
      (∀ i c', c.next (.onConnect i) = some c' →
        (c'.allConnected = c.allConnected + 1 ↔ ∀ j, c'.stage j = .connected)) ∧
      (∀ i c', c.next (.get i) = some c' →
        (c'.quits = c.quits + 1 ↔ ∀ j, c.stage j ≠ .connected)) ∧
      (Nonempty ι → (∀ i, c.stage i = .ended) → 0 < c.quits) := by
  have hc := PingPongClient.inv_of_reachable hcount h
  refine ⟨hc.counted, ?_, fun i c' hn => ?_, fun i c' hn => ?_, fun ⟨i⟩ hall => ?_⟩
  · rcases hc.logged with h0 | h1
    · omega
    · exact h1.1.le
  · cases PingPongClient.next_moves hn with | onConnect hi =>
    have hall : (c.onConnect i).online = Finset.univ ↔
        ∀ j, (c.onConnect i).stage j = .connected := by
      simp only [Finset.eq_univ_iff_forall, PingPongClient.mem_online]
    rw [← hall, ← hc.increment_eq_sessionCount hcount hi, PingPongClient.onConnect_allConnected]
    split_ifs with h1
    · exact iff_of_true rfl h1
    · exact iff_of_false (Nat.succ_ne_self _).symm h1
  · cases PingPongClient.next_moves hn with | get hi =>
    have hnone : c.online = ∅ ↔ ∀ j, c.stage j ≠ .connected := by
      simp only [Finset.eq_empty_iff_forall_notMem, PingPongClient.mem_online]
    rw [← hnone, ← hc.get_eq_zero, PingPongClient.get_quits]
    split_ifs with h1
    · exact iff_of_true rfl h1
    · exact iff_of_false (Nat.succ_ne_self _).symm h1
  · refine hc.finished ?_ (fun j hj => ?_) i (hall i)
    · rw [Finset.eq_empty_iff_forall_notMem]
      intro j hj
      rw [PingPongClient.mem_online, hall j] at hj
      cases hj
    · rw [hall j] at hj
      cases hj

/-- Both of two sessions connect and leave; their last steps are interleaved. -/
def twoSessions : List (SessionAction Bool) :=
  [.onConnect false, .onConnect true, .decrement false, .decrement true, .get true, .get false]

theorem ping_pong_sessions_two : ∃ c, (pingPongClients Bool).run .new twoSessions = some c ∧
    c.allConnected = 1 ∧ 0 < c.quits := by
  obtain ⟨c, hrun, hlog, hstage⟩ : ∃ c, (pingPongClients Bool).run .new twoSessions = some c ∧
      c.allConnected = 1 ∧ ∀ i, c.stage i = .ended := by
    obtain ⟨c, hc, h⟩ := Option.map_eq_some_iff.1 (by decide +kernel :
      ((pingPongClients Bool).run .new twoSessions).map
        (fun c => decide (c.allConnected = 1 ∧ ∀ i, c.stage i = .ended)) = some true)
    exact ⟨c, hc, of_decide_eq_true h⟩
  have h := ping_pong_sessions (by decide) (.of_run (.init rfl) twoSessions hrun)
  exact ⟨c, hrun, hlog, h.2.2.2.2 ⟨true⟩ hstage⟩

end Jiangbo
