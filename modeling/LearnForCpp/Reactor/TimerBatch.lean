import LearnForCpp.Reactor.TimerOwnership

/-!
# Timers run once

Over the runs of `timerQueues`: no timer is lost, duplicated or fired early.  `Inv` is the
ownership of `TimerOwnership.lean` for the phase the loop thread is in, and each member function
has one lemma that says how it ends in an owned state: it never fails.

`timers_kept` says this of every reachable state, and of every batch from its clock reading to its
end what it runs, what it leaves and what it puts back.
-/

namespace Jiangbo

namespace TimerQueue

/-- The entries of the batch whose callback has been called. -/
def ran (s : TimerQueue) : List Entry :=
  match s.phase with
  | .idle => []
  | .running _ ran _ => ran

/-- The entries of the batch whose callback is still to be called. -/
def rest (s : TimerQueue) : List Entry :=
  match s.phase with
  | .idle => []
  | .running _ _ rest => rest

theorem ran_idle {s : TimerQueue} (h : s.phase = .idle) : s.ran = [] := by rw [ran, h]
theorem rest_idle {s : TimerQueue} (h : s.phase = .idle) : s.rest = [] := by rw [rest, h]

theorem ran_running {s : TimerQueue} {now : ℤ} {ran rest : List Entry}
    (h : s.phase = .running now ran rest) : s.ran = ran := by rw [TimerQueue.ran, h]

theorem rest_running {s : TimerQueue} {now : ℤ} {ran rest : List Entry}
    (h : s.phase = .running now ran rest) : s.rest = rest := by rw [TimerQueue.rest, h]

/-- Nothing has failed, and every timer is owned. -/
structure Inv (s : TimerQueue) : Prop where
  failed : s.failed = none
  owns : s.timers.Owns s.timerlist.toList s.ran s.rest

theorem new_inv : (new : TimerQueue).Inv where
  failed := rfl
  owns := {
    nodup := List.nodup_nil
    entry := fun _ h => absurd h List.not_mem_nil
    handed := fun _ h => absurd h List.not_mem_nil
    heap := fun _ _ h => nomatch h
    inj := fun _ _ _ h => nomatch h
    added_nodup := List.nodup_nil
    added_lt := fun _ h => absurd h List.not_mem_nil
    fired := fun _ h => absurd h List.not_mem_nil
    oneShot := fun _ h => absurd h List.not_mem_nil
    repeating := fun _ h => absurd h List.not_mem_nil }

/-! ### How the member functions end -/

variable {s u : TimerQueue} {p : ℕ} {t : Timer} {now clock : ℤ} {ran rest es : List Entry}

theorem deref_eq (h : s.timers.heap p = some t) (k : Timer → Result TimerQueue) :
    s.deref p k = k t := by
  rw [deref, h]

/-- `insert` of a timer that has no entry. -/
theorem insert_eq (h : s.timers.heap p = some t) (hp : ∀ e ∈ s.timerlist.toList, e.second ≠ p) :
    s.insert p = .ok { s with timerlist := (s.timerlist.insert ⟨t.expiration, p⟩).1 } := by
  rw [insert, deref_eq h]
  exact Outcome.check_pos (SortedSet.insert_snd.2 fun hm => hp _ hm rfl) _ _

theorem addTimerInLoop_eq (h : s.timers.heap p = some t)
    (hp : ∀ e ∈ s.timerlist.toList, e.second ≠ p) :
    s.addTimerInLoop p clock = .ok
      (let u := { s with timerlist := (s.timerlist.insert ⟨t.expiration, p⟩).1 }
       if s.earlyestChange t.expiration then u.resetTimerfd t.expiration clock else u) := by
  rw [addTimerInLoop, deref_eq h]
  dsimp only
  rw [insert_eq h hp, Outcome.bind_ok]

/-- Before the sentry are the entries that have expired: no address reaches `UINTPTR_MAX`. -/
theorem lt_sentry {e : Entry} (h : e.second < uintptrMax) : e < sentry now ↔ e.first ≤ now := by
  rw [Entry.lt_iff, le_iff_lt_or_eq]
  exact or_congr_right (and_iff_left h)

theorem getexpiration_eq (h : ∀ e ∈ s.timerlist, e.second < uintptrMax) :
    s.getexpiration now =
      .ok { s with timerlist := s.timerlist.eraseBefore (sentry now) } := by
  have hall : ((s.timerlist.eraseBefore (sentry now)).begin.all fun e => now < e.first) = true := by
    rw [Option.all_eq_true]
    intro e he
    obtain ⟨hm, hle⟩ := SortedSet.mem_eraseBefore.1 (SortedSet.begin_mem he)
    rw [← not_lt, lt_sentry (h e hm), not_le] at hle
    exact decide_eq_true hle
  rw [getexpiration, Outcome.check_pos hall, Outcome.bind_ok]

theorem beginBatch_eq (h : ∀ e ∈ s.timerlist, e.second < uintptrMax) :
    s.beginBatch now = .ok { s.readTimerfd with
      timerlist := s.timerlist.eraseBefore (sentry now)
      phase := .running now [] (s.expirated now) } := by
  rw [beginBatch]
  dsimp only
  rw [getexpiration_eq (s := s.readTimerfd) h, Outcome.bind_ok]
  rfl

/-- What the loop of `reset` does with the batch `es`. -/
structure ResetTo (now : ℤ) (es : List Entry) (s u : TimerQueue) : Prop where
  owns : u.timers.Owns u.timerlist.toList [] []
  mem : ∀ f, f ∈ u.timerlist ↔ f ∈ s.timerlist ∨ ∃ e ∈ es, ∃ t, s.timers.heap e.second = some t ∧
    t.repeats = true ∧ f = ⟨(t.restart now).expiration, e.second⟩
  batch : ∀ e ∈ es, ∀ t, s.timers.heap e.second = some t →
    u.timers.heap e.second = if t.repeats then some (t.restart now) else none
  other : ∀ p, (∀ e ∈ es, e.second ≠ p) → u.timers.heap p = s.timers.heap p
  timerfd : u.timerfd = s.timerfd
  phase : u.phase = s.phase
  failed : u.failed = s.failed

/-- The state after the turn of the entry `e`, whose timer is `t`. -/
def turn (now : ℤ) (e : Entry) (t : Timer) (s : TimerQueue) : TimerQueue :=
  if t.repeats then
    { s with
      timers := s.timers.set e.second (t.restart now)
      timerlist := (s.timerlist.insert ⟨(t.restart now).expiration, e.second⟩).1 }
  else { s with timers := s.timers.free e.second }

theorem turn_heap (e : Entry) (t : Timer) : (s.turn now e t).timers.heap =
    Function.update s.timers.heap e.second (if t.repeats then some (t.restart now) else none) := by
  unfold turn
  split_ifs <;> rfl

theorem mem_turn {e f : Entry} : f ∈ (s.turn now e t).timerlist ↔
    f ∈ s.timerlist ∨ t.repeats = true ∧ f = ⟨(t.restart now).expiration, e.second⟩ := by
  unfold turn
  split_ifs with hr
  · rw [SortedSet.mem_insert, or_comm, and_iff_right hr]
  · exact ⟨.inl, fun h => h.resolve_right fun h => hr h.1⟩

theorem resetEach_cons {e : Entry} (h : s.timers.Owns s.timerlist.toList (e :: es) [])
    (ht : s.timers.heap e.second = some t) :
    s.resetEach now (e :: es) = (s.turn now e t).resetEach now es := by
  rw [resetEach, deref_eq ht, turn]
  split_ifs with hr
  · have hset : (s.timers.set e.second (t.restart now)).heap e.second = some (t.restart now) :=
      Function.update_self _ _ _
    rw [insert_eq (s := { s with timers := s.timers.set e.second (t.restart now) }) hset
      fun f hf => h.head_ne.1 f (List.mem_append_left _ hf), Outcome.bind_ok]
  · rw [Outcome.bind_ok]

theorem turn_owns {e : Entry} (h : s.timers.Owns s.timerlist.toList (e :: es) [])
    (ht : s.timers.heap e.second = some t) :
    (s.turn now e t).timers.Owns (s.turn now e t).timerlist.toList es [] := by
  unfold turn
  split_ifs with hr
  · refine (h.restart ht hr now).perm (SortedSet.insert_perm fun hm => ?_).symm
    exact h.head_ne.1 _ (List.mem_append_left _ hm) rfl
  · exact h.free ht (by simpa using hr)

theorem resetEach_spec (h : s.timers.Owns s.timerlist.toList es []) :
    ∃ u, s.resetEach now es = .ok u ∧ ResetTo now es s u := by
  induction es generalizing s with
  | nil => exact ⟨s, rfl, h, by simp, by simp, fun _ _ => rfl, rfl, rfl, rfl⟩
  | cons e es ih =>
    obtain ⟨t, ht, -, -⟩ := h.entry e (by simp)
    obtain ⟨u, hu, hto⟩ := ih (s := s.turn now e t) (turn_owns h ht)
    rw [resetEach_cons h ht]
    -- the turn of one entry touches no timer of the entries behind it
    have hne : ∀ f ∈ es, f.second ≠ e.second :=
      fun f hf => h.head_ne.1 f (List.mem_append_right _ hf)
    have hheap : ∀ q, q ≠ e.second → (s.turn now e t).timers.heap q = s.timers.heap q :=
      fun q hq => by rw [turn_heap, Function.update_of_ne hq]
    refine ⟨u, hu, hto.owns, fun f => ?_, fun f hf t' ht' => ?_, fun q hq => ?_, ?_, ?_, ?_⟩
    · rw [hto.mem, mem_turn, or_assoc]
      refine or_congr_right ⟨?_, ?_⟩
      · rintro (⟨hr, rfl⟩ | ⟨g, hg, t', ht', hf⟩)
        · exact ⟨e, List.mem_cons_self, t, ht, hr, rfl⟩
        · exact ⟨g, List.mem_cons_of_mem e hg, t', hheap _ (hne g hg) ▸ ht', hf⟩
      · rintro ⟨g, hg, t', ht', hr, hf⟩
        rcases List.mem_cons.1 hg with rfl | hg
        · obtain rfl : t' = t := Option.some.inj (ht'.symm.trans ht)
          exact .inl ⟨hr, hf⟩
        · exact .inr ⟨g, hg, t', (hheap _ (hne g hg)).trans ht', hr, hf⟩
    · rcases List.mem_cons.1 hf with rfl | hf
      · obtain rfl : t' = t := Option.some.inj (ht'.symm.trans ht)
        rw [hto.other _ hne, turn_heap, Function.update_self]
      · exact hto.batch f hf t' ((hheap _ (hne f hf)).trans ht')
    · rw [hto.other q fun f hf => hq f (List.mem_cons_of_mem e hf),
        hheap q (hq e List.mem_cons_self).symm]
    · rw [hto.timerfd, turn]; split_ifs <;> rfl
    · rw [hto.phase, turn]; split_ifs <;> rfl
    · rw [hto.failed, turn]; split_ifs <;> rfl

/-! ### What a step does in an owned state -/

/-- The state after `addTimerInLoop` of the timer `t` at `p`. -/
def inserted (p : ℕ) (t : Timer) (clock : ℤ) (s : TimerQueue) : TimerQueue :=
  let u := { s with
    timers := s.timers.take p
    timerlist := (s.timerlist.insert ⟨t.expiration, p⟩).1 }
  if s.earlyestChange t.expiration then u.resetTimerfd t.expiration clock else u

theorem inserted_eq (p : ℕ) (t : Timer) (clock : ℤ) (s : TimerQueue) :
    ∃ timerfd, s.inserted p t clock = { s with
      timers := s.timers.take p
      timerlist := (s.timerlist.insert ⟨t.expiration, p⟩).1
      timerfd := timerfd } := by
  unfold inserted
  dsimp only
  split_ifs
  · exact ⟨_, rfl⟩
  · exact ⟨s.timerfd, rfl⟩

theorem rearm_eq (clock : ℤ) (s : TimerQueue) :
    ∃ timerfd, s.rearm clock = { s with timerfd := timerfd } := by
  unfold rearm
  dsimp only
  split_ifs
  · exact ⟨_, rfl⟩
  · exact ⟨s.timerfd, rfl⟩

/-- The steps in an owned state: none fails. -/
inductive Effect (s : TimerQueue) : TimerAction → TimerQueue → Prop
  | newTimer {p : ℕ} {when : ℤ} {interval : Float.Model} (hfree : s.timers.heap p = none)
      (hp : p < uintptrMax) :
      Effect s (.newTimer p when interval) { s with timers := s.timers.create p when interval }
  | addTimerInLoop {p : ℕ} {clock : ℤ} {t : Timer} (hp : p ∈ s.timers.handed)
      (ht : s.timers.heap p = some t) (hne : ∀ e ∈ s.timerlist.toList, e.second ≠ p) :
      Effect s (.addTimerInLoop p clock) (s.inserted p t clock)
  | handleRead {now : ℤ} (hphase : s.phase = .idle) :
      Effect s (.handleRead now) { s.readTimerfd with
        timerlist := s.timerlist.eraseBefore (sentry now)
        phase := .running now [] (s.expirated now) }
  | run {now : ℤ} {ran rest : List Entry} {e : Entry} {t : Timer}
      (hphase : s.phase = .running now ran (e :: rest)) (ht : s.timers.heap e.second = some t) :
      Effect s .run { s with phase := .running now (ran ++ [e]) rest, timers := s.timers.fire t }
  | reset {clock now : ℤ} {ran : List Entry} {u : TimerQueue}
      (hphase : s.phase = .running now ran [])
      (hu : ResetTo now ran { s with phase := .idle } u) :
      Effect s (.reset clock) (u.rearm clock)

theorem Inv.address_lt (hs : s.Inv) {e : Entry} (he : e ∈ s.timerlist) : e.second < uintptrMax := by
  obtain ⟨t, ht, -⟩ := hs.owns.entry e (List.mem_append_left _ (List.mem_append_left _ he))
  exact (hs.owns.heap _ t ht).1

theorem Inv.effect {a : TimerAction} (hs : s.Inv) (h : Step s a u) : Effect s a u := by
  cases h with
  | newTimer hfree hp => exact .newTimer hfree hp
  | @addTimerInLoop p clock hp =>
    obtain ⟨t, ht, -⟩ := hs.owns.handed p hp
    have hne : ∀ e ∈ s.timerlist.toList, e.second ≠ p := fun e he =>
      (List.nodup_append.1 hs.owns.nodup).2.2 _ (List.mem_map_of_mem (by simp [he])) p hp
    rw [addTimerInLoop_eq (s := { s with timers := s.timers.take p }) ht hne]
    exact .addTimerInLoop hp ht hne
  | handleRead hphase =>
    rw [beginBatch_eq fun e he => hs.address_lt he]
    exact .handleRead hphase
  | @run now ran rest e hphase =>
    obtain ⟨t, ht, -⟩ := hs.owns.entry e (by rw [rest_running hphase]; simp)
    rw [runTimer, deref_eq (s := { s with phase := .running now (ran ++ [e]) rest }) ht]
    exact .run hphase ht
  | @reset clock now ran hphase =>
    have ho := hs.owns
    rw [ran_running hphase, rest_running hphase] at ho
    obtain ⟨u, hu, hto⟩ : ∃ u, { s with phase := .idle }.resetEach now ran = .ok u ∧
        ResetTo now ran { s with phase := .idle } u :=
      resetEach_spec (s := { s with phase := .idle }) ho
    rw [TimerQueue.reset, hu, Outcome.bind_ok]
    exact .reset hphase hto

theorem Inv.of_effect {a : TimerAction} (hs : s.Inv) (h : Effect s a u) : u.Inv := by
  cases h with
  | newTimer hfree hp => exact ⟨hs.failed, hs.owns.create hfree hp⟩
  | @addTimerInLoop p clock t hp ht hne =>
    obtain ⟨timerfd, hu⟩ := inserted_eq p t clock s
    rw [hu]
    exact ⟨hs.failed, (hs.owns.add hp ht).perm (SortedSet.insert_perm fun hm => hne _ hm rfl).symm⟩
  | @handleRead now hphase =>
    have ho := hs.owns
    rw [ran_idle hphase, rest_idle hphase, ← s.timerlist.before_append (sentry now)] at ho
    exact ⟨hs.failed, ho.extract⟩
  | run hphase ht =>
    have ho := hs.owns
    rw [ran_running hphase, rest_running hphase] at ho
    exact ⟨hs.failed, ho.fire ht⟩
  | @reset clock now ran v hphase hu =>
    obtain ⟨timerfd, hv⟩ := rearm_eq clock v
    have hidle : (v.rearm clock).phase = .idle := by rw [hv]; exact hu.phase
    refine ⟨by rw [hv]; exact hu.failed.trans hs.failed, ?_⟩
    rw [ran_idle hidle, rest_idle hidle, hv]
    exact hu.owns

theorem Inv.next {a : TimerAction} (hs : s.Inv) (h : s.next a = some u) : Effect s a u ∧ u.Inv :=
  have he := hs.effect (next_step h)
  ⟨he, hs.of_effect he⟩

theorem inv_of_reachable (h : timerQueues.Reachable s) : s.Inv :=
  h.invariant (fun _ h0 => h0 ▸ new_inv) fun _ _ _ hs hn => (hs.next hn).2

/-! ### What holds of every state -/

/-- Every timer that was added is where it should be, exactly once. -/
structure Kept (s : TimerQueue) : Prop where
  /-- Nothing has failed: no use after `delete`, no failed assertion. -/
  failed : s.failed = none
  /-- An entry belongs to a live timer and carries its expiration. -/
  entry : ∀ e ∈ s.timerlist.toList ++ s.ran ++ s.rest,
    ∃ t, s.timers.heap e.second = some t ∧ t.expiration = e.first ∧ s.timers.WasAdded t
  oneShot_once : ∀ t ∈ s.timers.added, t.repeats = false →
    s.timers.fired.count t.sequence ≤ 1
  oneShot_present : ∀ t ∈ s.timers.added, t.repeats = false →
    s.timers.tally t.sequence s.timerlist.toList =
      if t.sequence ∈ s.timers.fired ∨ 0 < s.timers.tally t.sequence s.rest then 0 else 1
  repeating_present : ∀ t ∈ s.timers.added, t.repeats = true →
    s.timers.tally t.sequence s.timerlist.toList =
      if 0 < s.timers.tally t.sequence (s.ran ++ s.rest) then 0 else 1

theorem Inv.kept (hs : s.Inv) : s.Kept where
  failed := hs.failed
  entry := hs.owns.entry
  oneShot_once t ht hr := by
    have := hs.owns.oneShot t ht hr
    omega
  oneShot_present t ht hr := by
    have h1 := hs.owns.oneShot t ht hr
    rw [Timers.tally_append] at h1
    split_ifs with h <;> rw [← List.count_pos_iff] at h <;> omega
  repeating_present t ht hr := by
    have h1 := hs.owns.repeating t ht hr
    rw [List.append_assoc, Timers.tally_append] at h1
    split_ifs <;> omega

/-! ### What holds of every batch -/

theorem mem_expirated (hs : s.Inv) {e : Entry} :
    e ∈ s.expirated now ↔ e ∈ s.timerlist ∧ e.first ≤ now := by
  rw [expirated, SortedSet.mem_before]
  exact and_congr_right fun he => lt_sentry (hs.address_lt he)

theorem mem_left (hs : s.Inv) {e : Entry} :
    e ∈ s.timerlist.eraseBefore (sentry now) ↔ e ∈ s.timerlist ∧ now < e.first := by
  rw [SortedSet.mem_eraseBefore]
  exact and_congr_right fun he => by rw [← not_lt, lt_sentry (hs.address_lt he), not_le]

/-- In the middle of the batch that `handleRead` began in `s` at the reading `now`. -/
structure Midway (s : TimerQueue) (now : ℤ) (u : TimerQueue) : Prop where
  inv : u.Inv
  phase : ∃ ran rest, u.phase = .running now ran rest ∧ ran ++ rest = s.expirated now ∧
    u.timers.fired.map some =
      s.timers.fired.map some ++ ran.map fun e => s.timers.sequenceAt e.second
  heap : ∀ e ∈ s.expirated now, u.timers.heap e.second = s.timers.heap e.second

theorem Midway.next {v : TimerQueue} {a : TimerAction} (h : Midway s now u)
    (ha : ∀ clock, a ≠ .reset clock) (hn : u.next a = some v) : Midway s now v := by
  obtain ⟨he, hv⟩ := h.inv.next hn
  obtain ⟨ran, rest, hphase, hdue, hfired⟩ := h.phase
  cases he with
  | @newTimer p when interval hfree hp =>
    refine ⟨hv, ⟨ran, rest, hphase, hdue, hfired⟩, fun e he => ?_⟩
    rw [← h.heap e he]
    refine Function.update_of_ne (h.inv.owns.ne_of_free hfree ?_) _ _
    rw [ran_running hphase, rest_running hphase, List.append_assoc, hdue]
    exact List.mem_append_right _ he
  | @addTimerInLoop p clock t hp ht hne =>
    obtain ⟨timerfd, hu⟩ := inserted_eq p t clock u
    rw [hu] at hv ⊢
    exact ⟨hv, ⟨ran, rest, hphase, hdue, hfired⟩, h.heap⟩
  | handleRead hidle =>
    rw [hidle] at hphase
    cases hphase
  | @run now' ran' rest' e t hrun ht =>
    obtain ⟨rfl, rfl, rfl⟩ : now' = now ∧ ran' = ran ∧ e :: rest' = rest := by
      simpa using hrun.symm.trans hphase
    refine ⟨hv, ⟨ran' ++ [e], rest', rfl, by simpa using hdue, ?_⟩, h.heap⟩
    have hdue' : e ∈ s.expirated now' := by simp [← hdue]
    have hseq : s.timers.sequenceAt e.second = some t.sequence :=
      Timers.sequenceAt_eq ((h.heap e hdue').symm.trans ht)
    change (u.timers.fired ++ [t.sequence]).map some = _
    rw [List.map_append, hfired, List.map_append, List.append_assoc, List.map_singleton,
      List.map_singleton, hseq]
  | @reset clock _ _ _ _ _ => exact absurd rfl (ha clock)

/-- What a batch does that begins in `s` at the reading `now`: `s1` is the state after the
extraction, `s2` the one after the last callback and `s3` the end. -/
structure RunsBatch (s : TimerQueue) (now : ℤ) (s1 s2 s3 : TimerQueue) : Prop where
  /-- The timers of the batch are those that have expired. -/
  due : ∀ e, e ∈ s.expirated now ↔ e ∈ s.timerlist ∧ e.first ≤ now
  sorted : (s.expirated now).Pairwise fun e f => e.first ≤ f.first
  /-- The others stay. -/
  left : ∀ e, e ∈ s1.timerlist ↔ e ∈ s.timerlist ∧ now < e.first
  /-- The batch is run as a whole, once, and in order. -/
  fired : s2.timers.fired.map some = s.timers.fired.map some ++
    (s.expirated now).map fun e => s.timers.sequenceAt e.second
  /-- A repeating timer is put back, an interval after the reading. -/
  restarted : ∀ e ∈ s.expirated now, ∀ t, s.timers.heap e.second = some t → t.repeats = true →
    s3.timers.heap e.second = some { t with expiration := Timestamp.addTime now t.interval } ∧
      ⟨Timestamp.addTime now t.interval, e.second⟩ ∈ s3.timerlist ∧
      (InInt64 (now + Timestamp.microSeconds t.interval) →
        Timestamp.addTime now t.interval = now + Timestamp.microSeconds t.interval)
  /-- A one-shot timer is deleted. -/
  deleted : ∀ e ∈ s.expirated now, ∀ t, s.timers.heap e.second = some t → t.repeats = false →
    s3.timers.heap e.second = none

theorem Inv.runsBatch (hs : s.Inv) {s1 s2 s3 : TimerQueue}
    {mid : List (Transition TimerQueue TimerAction)} (h1 : s.next (.handleRead now) = some s1)
    (h2 : timerQueues.Steps s1 mid s2) (hmid : ∀ e ∈ mid, ∀ clock, e.action ≠ .reset clock)
    (h3 : s2.next (.reset clock) = some s3) : RunsBatch s now s1 s2 s3 := by
  obtain ⟨he1, hi1⟩ := hs.next h1
  cases he1 with | handleRead hidle =>
  have hm : Midway s now s2 := by
    refine h2.invariant (C := fun e => ∀ clock, e.action ≠ .reset clock) (I := Midway s now)
      ⟨hi1, ⟨[], _, rfl, rfl, by simp [readTimerfd]⟩, fun _ _ => rfl⟩ hmid ?_
    exact fun _ _ _ hu ha hn => hu.next ha hn
  obtain ⟨ran, rest, hphase, hdue, hfired⟩ := hm.phase
  cases (hm.inv.next h3).1 with | @reset _ now' ran' v hphase' hv =>
  obtain ⟨rfl, rfl, rfl⟩ : now' = now ∧ ran' = ran ∧ rest = [] := by
    simpa [eq_comm] using hphase'.symm.trans hphase
  rw [List.append_nil] at hdue
  subst hdue
  obtain ⟨timerfd, hr⟩ := rearm_eq clock v
  rw [hr]
  refine ⟨fun e => mem_expirated hs, ?_, fun e => mem_left hs, hfired, fun e he t ht hrep => ?_,
    fun e he t ht hrep => ?_⟩
  · exact (s.timerlist.before_sorted _).imp fun h => Entry.first_le h.le
  · have ht2 := (hm.heap e he).trans ht
    refine ⟨?_, ?_, fun hin => Timestamp.addTime_eq hin⟩
    · have := hv.batch e he t ht2
      rw [if_pos hrep, Timer.restart, if_pos hrep] at this
      exact this
    · refine (hv.mem _).2 (.inr ⟨e, he, t, ht2, hrep, ?_⟩)
      rw [Timer.restart_expiration hrep]
  · have := hv.batch e he t ((hm.heap e he).trans ht)
    rw [hrep] at this
    exact this

end TimerQueue

/-- **Timers are neither lost nor duplicated, and none fires early.** In every reachable state
nothing has failed and every timer is where it should be, exactly once; and every batch from there
runs exactly the timers that have expired, in the order of expiration, puts the repeating ones back
and deletes the others. -/
theorem timers_kept {s : TimerQueue} (h : timerQueues.Reachable s) :
    s.Kept ∧ ∀ {now clock : ℤ} {s1 s2 s3 : TimerQueue}
      {mid : List (Transition TimerQueue TimerAction)},
      timerQueues.next s (.handleRead now) = some s1 → timerQueues.Steps s1 mid s2 →
      (∀ e ∈ mid, ∀ clock, e.action ≠ .reset clock) →
      timerQueues.next s2 (.reset clock) = some s3 → s.RunsBatch now s1 s2 s3 :=
  have hs := TimerQueue.inv_of_reachable h
  ⟨hs.kept, fun h1 h2 hmid h3 => hs.runsBatch h1 h2 hmid h3⟩

/-- Two timers that expire together, the second of them repeating, and a later one. -/
def threeTimers : List TimerAction :=
  [.newTimer 64 10 (.ofNat 0), .addTimerInLoop 64 5, .newTimer 32 10 (.ofScientific 5 (-1)),
    .addTimerInLoop 32 5, .newTimer 96 30 (.ofNat 0), .addTimerInLoop 96 5]

/-- The callbacks of the two; the first adds a timer with a negative timestamp. -/
def twoCallbacks : List TimerAction :=
  [.run, .newTimer 16 (-7) (.ofNat 0), .addTimerInLoop 16 11, .run]

/-- The batch at the time at which both expire. -/
theorem timers_kept_of_tie : ∃ s s1 s2 s3 mid,
    timerQueues.run .new threeTimers = some s ∧ s.Kept ∧
    timerQueues.next s (.handleRead 10) = some s1 ∧ timerQueues.Steps s1 mid s2 ∧
    mid.map Transition.action = twoCallbacks ∧ timerQueues.next s2 (.reset 12) = some s3 ∧
    s.RunsBatch 10 s1 s2 s3 := by
  obtain ⟨s3, h3⟩ := Option.isSome_iff_exists.1 (by decide +kernel :
    (timerQueues.run .new (threeTimers ++ .handleRead 10 :: (twoCallbacks ++ [.reset 12]))).isSome =
      true)
  rw [LTS.run_append] at h3
  obtain ⟨s, hs, h3⟩ := Option.bind_eq_some_iff.1 h3
  obtain ⟨s1, h1, h3⟩ := Option.bind_eq_some_iff.1 h3
  rw [LTS.run_append] at h3
  obtain ⟨s2, h2, h3⟩ := Option.bind_eq_some_iff.1 h3
  obtain ⟨s3, h3, -⟩ := Option.bind_eq_some_iff.1 h3
  obtain ⟨mid, hmid, hacts⟩ := LTS.exists_steps_of_run h2
  have hr : ∀ e ∈ mid, ∀ clock, e.action ≠ .reset clock := by
    intro e he clock hc
    have hm : e.action ∈ twoCallbacks := hacts ▸ List.mem_map_of_mem he
    rw [hc] at hm
    simp [twoCallbacks] at hm
  have h := timers_kept (LTS.Reachable.of_run (.init rfl) threeTimers hs)
  exact ⟨s, s1, s2, s3, mid, hs, h.1, h1, hmid, hacts, h3, h.2 h1 hmid hr h3⟩

end Jiangbo
