import LearnForCpp.Thread.QueueOrder

/-!
# Lost wake-ups of `threadsafe_queue_version_2`

`push` changes the predicate and notifies without `head_mutex_`, so that both may happen between a
consumer's predicate and its sleep; the notification is lost then.  As long as no consumer goes to
sleep on such a value, the values, the notifications and the sleepers stay `Covered`.
-/

namespace Jiangbo

namespace QueuePc

variable {V : Type*} {p : QueuePc V}

theorem inPush (h : p.activity = .notifying) : p.InPush := by
  cases p with
  | notifying => trivial
  | locking k => cases k <;> cases h
  | locked k => cases k <;> cases h
  | gotTail k n wasEmpty => cases k <;> cases h
  | popping k => cases k <;> cases h
  | _ => cases h

theorem asleep_of_activity (h : p.activity = .asleep) : p.Asleep := by
  cases p with
  | asleep byValue => trivial
  | locking k => cases k <;> cases h
  | locked k => cases k <;> cases h
  | gotTail k n wasEmpty => cases k <;> cases h
  | popping k => cases k <;> cases h
  | _ => cases h

theorem activity_of_asleep (h : p.Asleep) : p.activity = .asleep := by
  cases p with
  | asleep byValue => rfl
  | _ => exact h.elim

end QueuePc

namespace ThreadsafeQueue

variable {T V : Type*} [Fintype T] {s u : ThreadsafeQueue T V} {t : T} {p : QueuePc V}

/-- All calls of `push` have returned, and a consumer sleeps although the queue is not empty and no
consumer is awake. -/
def Stranded (s : ThreadsafeQueue T V) : Prop :=
  (∀ t, ¬(s.pc t).InPush) ∧ s.head ≠ some s.tail ∧ (∃ t, (s.pc t).Asleep) ∧
    ∀ t, (s.pc t).activity ≠ .awake

/-- The number of values in the queue. -/
def items (s : ThreadsafeQueue T V) : ℕ := s.pushed.length - s.popped.length

/-- What a consumer that goes to sleep must find: there are as many notifications still to be sent
as sleepers, itself included, or as many notifications and other consumers awake as values. -/
def SleepsCovered [DecidableEq T] (s : ThreadsafeQueue T V) : QueueAction T V → Prop
  | .sleep t =>
      Activity.Covered s.items (Function.update (QueuePc.activity ∘ s.pc) t .asleep)
  | _ => True

instance [DecidableEq T] (s : ThreadsafeQueue T V) :
    (a : QueueAction T V) → Decidable (s.SleepsCovered a)
  | .sleep _ => inferInstanceAs (Decidable (Activity.Covered ..))
  | .push _ _ | .link _ _ | .notifyOne _ _ | .call _ _ | .lock _ | .getTail _ | .compare _
  | .move _ _ | .popHead _ | .wake _ => isTrue trivial

/-- No wake-up has been lost. -/
def Covered (s : ThreadsafeQueue T V) : Prop :=
  Activity.Covered s.items (QueuePc.activity ∘ s.pc)

omit [Fintype T] in
theorem Shape.items_eq {a : ℕ} {cells : List (ℕ × V)} {q : List V} (hs : s.Shape a cells q) :
    s.items = cells.length := by
  have horder := congrArg List.length hs.order
  simp only [List.length_append, List.length_map] at horder
  have hlength := hs.length
  unfold items
  omega

theorem Covered.not_stranded (h : s.Covered) (hs : s.Inv) : ¬s.Stranded := by
  rintro ⟨hpush, hhead, ⟨t, ht⟩, hawake⟩
  obtain ⟨⟨a, cells, q, hs⟩, -⟩ := hs
  have hitems : 0 < s.items := by
    rw [hs.items_eq, List.length_pos_iff]
    intro hcells
    rw [hs.head, hs.linked.eq_iff.2 hcells] at hhead
    exact hhead rfl
  exact Activity.Covered.not_stranded h hitems (fun v hv => hpush v (QueuePc.inPush hv)) hawake t
    (QueuePc.activity_of_asleep ht)

variable [DecidableEq T]

/-- A thread goes on, and the others need not know. -/
theorem Covered.goesOn (h : s.Covered) (hp : p.activity = (s.pc t).activity) :
    Activity.Covered s.items (QueuePc.activity ∘ Function.update s.pc t p) := by
  rw [Function.comp_update, hp,
    show (s.pc t).activity = (QueuePc.activity ∘ s.pc) t from rfl, Function.update_eq_self]
  exact h

theorem Covered.call {k : HeadCall} (h : s.Covered) (hpc : (s.pc t).activity = .away) :
    (s.setPc t (.locking k)).Covered := by
  unfold Covered
  show Activity.Covered s.items (QueuePc.activity ∘ Function.update s.pc t (.locking k))
  cases k with
  | waitAndPop byValue =>
    rw [Function.comp_update]
    exact Activity.Covered.enter h hpc
  | tryPop => exact h.goesOn hpc.symm
  | empty => exact h.goesOn hpc.symm

theorem Covered.link {n : ℕ} {v : V} (h : s.Covered) (hs : s.Inv) (hpc : s.pc t = .pushing v) :
    { s with
      node := Function.update (Function.update s.node n .empty) s.tail ⟨some v, some n⟩
      allocated := insert n s.allocated
      tail := n
      pc := Function.update s.pc t .notifying
      pushed := s.pushed ++ [v] }.Covered := by
  obtain ⟨⟨a, cells, q, hs⟩, -⟩ := hs
  have horder := congrArg List.length hs.order
  simp only [List.length_append, List.length_map] at horder
  have hitems : (s.pushed ++ [v]).length - s.popped.length = s.items + 1 := by
    rw [List.length_append, items, List.length_singleton]
    omega
  show Activity.Covered ((s.pushed ++ [v]).length - s.popped.length)
    (QueuePc.activity ∘ Function.update s.pc t .notifying)
  rw [hitems, Function.comp_update]
  exact Activity.Covered.push h (congrArg QueuePc.activity hpc)

theorem Covered.notifyOne {woken : Option T} (h : s.Covered)
    (hn : s.notifyOne t woken = some u) : u.Covered := by
  unfold ThreadsafeQueue.notifyOne at hn
  split at hn
  · rename_i hpc
    split_ifs at hn with hnone
    cases hn
    show Activity.Covered s.items (QueuePc.activity ∘ Function.update s.pc t .idle)
    rw [Function.comp_update]
    exact Activity.Covered.notify_none (fun v hv => hnone v (QueuePc.asleep_of_activity hv))
      (congrArg QueuePc.activity hpc)
  · rename_i v hpc
    split at hn
    · rename_i byValue hv
      cases hn
      show Activity.Covered s.items (QueuePc.activity ∘
        Function.update (Function.update s.pc t .idle) v (.locking (.waitAndPop byValue)))
      rw [Function.comp_update, Function.comp_update]
      exact Activity.Covered.notify h (congrArg QueuePc.activity hpc)
        (congrArg QueuePc.activity hv)
    · cases hn
  · cases hn

theorem Covered.compare (h : s.Covered) (hn : s.compare t = some u) : u.Covered := by
  unfold ThreadsafeQueue.compare at hn
  split at hn
  · rename_i hpc
    cases hn
    exact h.goesOn (by rw [hpc]; rfl)
  · rename_i hpc
    cases hn
    split_ifs
    · exact h.goesOn (by rw [hpc]; rfl)
    · exact h.goesOn (by rw [hpc]; rfl)
  · rename_i hpc
    cases hn
    split_ifs
    · exact h.goesOn (by rw [hpc]; rfl)
    · exact h.goesOn (by rw [hpc]; rfl)
  · cases hn

theorem Covered.move {w : V} (h : s.Covered) (hn : s.move t w = some u) : u.Covered := by
  unfold ThreadsafeQueue.move at hn
  split at hn
  · rename_i hpc
    split at hn
    · cases hn
      exact h
    · split at hn
      · cases hn
        exact h
      · cases hn
        exact h.goesOn (by rw [hpc]; rfl)
  · cases hn

/-- A value is popped; the thread is a consumer or not. -/
theorem Covered.popHead {value : Option V} (h : s.Covered) (hs : s.Inv)
    (hpc : (∃ k, s.pc t = .popping k) ∨ ∃ v, s.pc t = .moved v) :
    (s.popHead t value).Covered := by
  obtain ⟨⟨a, cells, q, hs⟩, -⟩ := hs
  have hcells : 0 < cells.length := by
    rw [List.length_pos_iff]
    rcases hpc with ⟨k, hpc⟩ | ⟨v, hpc⟩
    · exact hs.popping t k hpc
    · obtain ⟨c, w, rest, rfl, -⟩ := hs.moved t v hpc
      simp
  have hitems :
      s.pushed.length - (s.popped ++ [value.or (s.node a).data]).length + 1 = s.items := by
    have heq := hs.items_eq
    rw [List.length_append, List.length_singleton]
    unfold items at heq ⊢
    omega
  have hactivity : (s.pc t).activity = .awake ∨ (s.pc t).activity = .away := by
    rcases hpc with ⟨k, hpc⟩ | ⟨v, hpc⟩
    · rw [hpc]
      cases k <;> simp [QueuePc.activity, HeadCall.activity]
    · exact .inl (by rw [hpc]; rfl)
  simp only [ThreadsafeQueue.popHead, hs.head]
  show Activity.Covered (s.pushed.length - (s.popped ++ [value.or (s.node a).data]).length)
    (QueuePc.activity ∘ Function.update s.pc t .idle)
  rcases hactivity with hawake | haway
  · rw [Function.comp_update]
    refine Activity.Covered.take ?_ hawake
    rw [hitems]
    exact h
  · exact (h.goesOn (p := .idle) haway.symm).of_le (by omega)

/-- What holds between two steps, as long as the consumers that go to sleep are covered. -/
theorem Covered.step {action : QueueAction T V} (h : s.Covered) (hs : s.Inv)
    (hcovered : s.SleepsCovered action) (hn : s.next action = some u) : u.Covered := by
  cases action with
  | push t v =>
    simp only [next] at hn
    split at hn
    · rename_i hpc
      cases hn
      exact h.goesOn (by rw [hpc]; rfl)
    · cases hn
  | link t n =>
    simp only [next, ThreadsafeQueue.link] at hn
    split at hn
    · rename_i v hpc
      split_ifs at hn
      cases hn
      exact h.link hs hpc
    · cases hn
  | notifyOne t woken => exact h.notifyOne hn
  | call t k =>
    simp only [next] at hn
    split at hn
    · rename_i hpc
      cases hn
      exact h.call (by rw [hpc]; rfl)
    · cases hn
  | lock t =>
    simp only [next] at hn
    split at hn
    · rename_i k hmutex hpc
      cases hn
      exact h.goesOn (by rw [hpc]; rfl)
    · cases hn
  | getTail t =>
    simp only [next] at hn
    split at hn
    · rename_i k hpc
      cases hn
      exact h.goesOn (by rw [hpc]; rfl)
    · cases hn
  | compare t => exact h.compare hn
  | sleep t =>
    simp only [next] at hn
    split at hn
    · rename_i byValue hpc
      cases hn
      -- the one step that may uncover a value: this is what is assumed of it
      show Activity.Covered s.items (QueuePc.activity ∘ Function.update s.pc t (.asleep byValue))
      rw [Function.comp_update]
      exact hcovered
    · cases hn
  | move t w => exact h.move hn
  | popHead t =>
    simp only [next] at hn
    split at hn
    · cases hn
      exact h.popHead hs (.inl ⟨_, ‹_›⟩)
    · cases hn
      exact h.popHead hs (.inl ⟨_, ‹_›⟩)
    · cases hn
      exact h.popHead hs (.inr ⟨_, ‹_›⟩)
    · cases hn
  | wake t =>
    simp only [next] at hn
    split at hn
    · rename_i byValue hpc
      cases hn
      show Activity.Covered s.items
        (QueuePc.activity ∘ Function.update s.pc t (.locking (.waitAndPop byValue)))
      rw [Function.comp_update]
      exact Activity.Covered.wake h (congrArg QueuePc.activity hpc)
    · cases hn

end ThreadsafeQueue

/-- **Wake-ups are not lost while no consumer goes to sleep on a value that nobody else is there
for.** No consumer is left asleep beside a value then. -/
theorem never_stranded {T V : Type*} [Fintype T] [DecidableEq T] {s : ThreadsafeQueue T V}
    (h : ((threadsafeQueues T V).restrict ThreadsafeQueue.SleepsCovered).Reachable s) :
    ¬s.Stranded := by
  have hs : s.Inv ∧ s.Covered := by
    refine h.invariant (I := fun s => s.Inv ∧ s.Covered) (fun s hs => ?_) fun s a u hs hn => ?_
    · rw [show s = .new from hs]
      exact ⟨⟨⟨0, [], [], ThreadsafeQueue.new_shape⟩, rfl⟩, Activity.Covered.init fun _ => rfl⟩
    · obtain ⟨hc, hn⟩ := LTS.restrict_next.1 hn
      exact ⟨hs.1.step hn, hs.2.step hs.1 hc hn⟩
  exact hs.2.not_stranded hs.1

/-- A consumer sleeps, and is woken up by the push that follows. -/
theorem never_stranded_notified : ∃ s : ThreadsafeQueue Bool ℕ,
    ((threadsafeQueues Bool ℕ).restrict ThreadsafeQueue.SleepsCovered).Reachable s ∧
      s.pushed = [5] ∧ s.pc false = .locking (.waitAndPop false) ∧ ¬s.Stranded := by
  let acts : List (QueueAction Bool ℕ) :=
    [.call false (.waitAndPop false), .lock false, .getTail false, .compare false, .sleep false,
      .push true 5, .link true 1, .notifyOne true (some false)]
  obtain ⟨s, hs, hend⟩ := Option.map_eq_some_iff.1 (by decide +kernel :
    (((threadsafeQueues Bool ℕ).restrict ThreadsafeQueue.SleepsCovered).run .new
      acts).map (fun s => (s.pushed, s.pc false)) =
        some ([5], .locking (.waitAndPop false)))
  simp only [Prod.mk.injEq] at hend
  have hreachable := LTS.Reachable.of_run (.init rfl) acts hs
  exact ⟨s, hreachable, hend.1, hend.2, never_stranded hreachable⟩

/-- The push and its notification come between the consumer's predicate and its sleep. -/
theorem stranded_after_push : ∃ s : ThreadsafeQueue Bool ℕ,
    (threadsafeQueues Bool ℕ).Reachable s ∧ s.Stranded := by
  let acts : List (QueueAction Bool ℕ) :=
    [.call false (.waitAndPop false), .lock false, .getTail false, .compare false, .push true 5,
      .link true 1, .notifyOne true none, .sleep false]
  obtain ⟨s, hs, hend⟩ := Option.map_eq_some_iff.1 (by decide +kernel :
    ((threadsafeQueues Bool ℕ).run .new acts).map
      (fun s => (s.head, s.tail, s.pc false, s.pc true)) =
        some (some 0, 1, .asleep false, .idle))
  simp only [Prod.mk.injEq] at hend
  obtain ⟨hhead, htail, hfalse, htrue⟩ := hend
  refine ⟨s, LTS.Reachable.of_run (.init rfl) acts hs, ?_, by simp [hhead, htail],
    ⟨false, by rw [hfalse]; trivial⟩, ?_⟩
  · simp [hfalse, htrue, QueuePc.InPush]
  · simp [hfalse, htrue, QueuePc.activity]

end Jiangbo
