import LearnForCpp.Thread.HierarchicalMutex

/-!
# Mutexes are locked downwards

The values of the mutexes that a thread holds fall from each to the next, and
`this_thread_hierarchy_value` is the last of them.  A thread that waits for a mutex has a greater
value than the thread that it waits for, so that no threads wait for each other in a cycle.
-/

namespace Jiangbo

namespace MutexSystem

variable {T M : Type*}

/-! ### Nested mutexes -/

/-- The value of the mutex that was locked last. -/
def top (value : M → UInt64) : List M → UInt64
  | [] => ULONG_MAX
  | m :: _ => value m

/-- Each mutex remembers the value of the one before it, and has a smaller one. -/
def Nested (value previous : M → UInt64) : List M → Prop
  | [] => True
  | m :: ms => previous m = top value ms ∧ value m < top value ms ∧ Nested value previous ms

variable {value previous previous' : M → UInt64} {m : M} {ms : List M}

/-- The last one has the least value. -/
theorem Nested.top_le (h : Nested value previous ms) : ∀ m ∈ ms, top value ms ≤ value m := by
  induction ms with
  | nil => simp
  | cons x ms ih =>
    obtain ⟨-, hlt, hms⟩ := h
    intro m hm
    rcases List.mem_cons.1 hm with rfl | hm
    · exact UInt64.le_refl _
    · exact UInt64.le_trans (UInt64.le_of_lt hlt) (ih hms m hm)

theorem Nested.pairwise (h : Nested value previous ms) :
    ms.Pairwise fun m n => value m < value n := by
  induction ms with
  | nil => exact List.Pairwise.nil
  | cons x ms ih =>
    obtain ⟨-, hlt, hms⟩ := h
    exact List.pairwise_cons.2 ⟨fun m hm => UInt64.lt_of_lt_of_le hlt (hms.top_le m hm), ih hms⟩

/-- A mutex that may be locked is not held. -/
theorem Nested.not_mem (h : Nested value previous ms) (hm : value m < top value ms) : m ∉ ms :=
  fun hmem => UInt64.lt_irrefl _ (UInt64.lt_of_lt_of_le hm (h.top_le m hmem))

theorem Nested.congr (h : Nested value previous ms) (heq : ∀ m ∈ ms, previous' m = previous m) :
    Nested value previous' ms := by
  induction ms with
  | nil => trivial
  | cons x ms ih =>
    obtain ⟨hx, hms⟩ := List.forall_mem_cons.1 heq
    exact ⟨hx.trans h.1, h.2.1, ih h.2.2 hms⟩

/-- Only the last mutex has the value of the last mutex. -/
theorem Nested.eq_cons (h : Nested value previous ms) (hm : m ∈ ms) (heq : top value ms = value m) :
    ∃ rest, ms = m :: rest := by
  cases ms with
  | nil => simp at hm
  | cons x rest =>
    obtain ⟨-, hlt, hrest⟩ := h
    rcases List.mem_cons.1 hm with rfl | hm
    · exact ⟨rest, rfl⟩
    · have hle := UInt64.lt_of_lt_of_le hlt (hrest.top_le m hm)
      rw [← heq] at hle
      exact absurd hle (UInt64.lt_irrefl _)

/-! ### The invariant -/

/-- A thread nests its mutexes, and has their `internal_mutex`es. -/
structure Own (value : M → UInt64) (s : MutexSystem T M) (t : T) : Prop where
  nested : Nested value s.previousHierarchyValue (s.held t)
  this : s.thisThreadHierarchyValue t = top value (s.held t)
  owner : ∀ m ∈ s.held t, s.internalMutex m = some t
  owned : ∀ m, s.internalMutex m = some t →
    m ∈ s.held t ∨ s.pc t = .locked m ∨ s.pc t = .unlocking m
  checked : ∀ m, (s.pc t = .locking m ∨ s.pc t = .trying m ∨ s.pc t = .locked m) →
    value m < top value (s.held t)
  locked : ∀ m, s.pc t = .locked m → s.internalMutex m = some t
  unlocking : ∀ m, s.pc t = .unlocking m → s.internalMutex m = some t ∧ m ∉ s.held t

/-- Every thread does. -/
def Inv (value : M → UInt64) (s : MutexSystem T M) : Prop := ∀ t, s.Own value t

variable {s u : MutexSystem T M} {t v : T} {n : M}

theorem new_inv : (new : MutexSystem T M).Inv value := by
  intro t
  constructor
  all_goals simp [new, Nested, top]

/-- A mutex that a thread asks for is in no hands that the thread knows of. -/
theorem Inv.not_mem_of_owner (hs : s.Inv value) (howner : s.internalMutex m = some t)
    (hm : m ∉ s.held t) (v : T) : m ∉ s.held v := by
  intro hmem
  have hv := (hs v).owner m hmem
  rw [howner] at hv
  cases hv
  exact hm hmem

/-- What another thread does leaves a thread its mutexes. -/
theorem Own.frame (h : s.Own value v) (hpc : u.pc v = s.pc v) (hheld : u.held v = s.held v)
    (hthis : u.thisThreadHierarchyValue v = s.thisThreadHierarchyValue v)
    (hmutex : ∀ n, u.internalMutex n = some v ↔ s.internalMutex n = some v)
    (hprevious : ∀ n ∈ s.held v, u.previousHierarchyValue n = s.previousHierarchyValue n) :
    u.Own value v := by
  refine
    { nested := ?nested, this := ?this, owner := ?owner, owned := ?owned, checked := ?checked,
      locked := ?locked, unlocking := ?unlocking }
  case nested =>
    rw [hheld]
    exact h.nested.congr hprevious
  case this =>
    rw [hthis, hheld]
    exact h.this
  case owner =>
    intro n hn
    rw [hheld] at hn
    exact (hmutex n).2 (h.owner n hn)
  case owned =>
    intro n hn
    rw [hpc, hheld]
    exact h.owned n ((hmutex n).1 hn)
  case checked =>
    intro n hn
    rw [hpc] at hn
    rw [hheld]
    exact h.checked n hn
  case locked =>
    intro n hn
    rw [hpc] at hn
    exact (hmutex n).2 (h.locked n hn)
  case unlocking =>
    intro n hn
    rw [hpc] at hn
    rw [hheld]
    exact ⟨(hmutex n).2 (h.unlocking n hn).1, (h.unlocking n hn).2⟩

/-! ### Waiting -/

/-- The thread `t` is blocked in `lock` on a mutex that `v` has. -/
def Waits (s : MutexSystem T M) (t v : T) : Prop :=
  ∃ m, s.pc t = .locking m ∧ s.internalMutex m = some v

/-- A thread has a greater value than a blocked one that it waits for. -/
theorem Inv.lt_of_waits (hs : s.Inv value) (h : s.Waits t v)
    (hv : ∃ n, s.pc v = .locking n) :
    s.thisThreadHierarchyValue v < s.thisThreadHierarchyValue t := by
  obtain ⟨m, hpc, howner⟩ := h
  obtain ⟨n, hn⟩ := hv
  have hm : m ∈ s.held v := by
    rcases (hs v).owned m howner with h | h | h
    · exact h
    · rw [hn] at h
      cases h
    · rw [hn] at h
      cases h
  rw [(hs v).this, (hs t).this]
  exact UInt64.lt_of_le_of_lt ((hs v).nested.top_le m hm) ((hs t).checked m (.inl hpc))

theorem Inv.not_cycle (hs : s.Inv value) (t : T) : ¬Relation.TransGen s.Waits t t := by
  -- the values fall along the threads that wait, as far as these are blocked themselves
  have hfall : ∀ v, Relation.TransGen s.Waits t v → (∃ n, s.pc v = .locking n) →
      s.thisThreadHierarchyValue v < s.thisThreadHierarchyValue t := by
    intro v h
    induction h with
    | single h => exact hs.lt_of_waits h
    | tail _ h ih =>
      intro hv
      obtain ⟨m, hpc, howner⟩ := h
      exact UInt64.lt_trans (hs.lt_of_waits ⟨m, hpc, howner⟩ hv) (ih ⟨m, hpc⟩)
  intro h
  obtain ⟨v, ⟨m, hpc, -⟩, -⟩ := Relation.TransGen.head'_iff.1 h
  exact UInt64.lt_irrefl _ (hfall t h ⟨m, hpc⟩)

/-! ### Steps -/

/-- Giving `internal_mutex` to a thread, or taking it from one, is nothing to the others. -/
theorem update_eq_some_iff [DecidableEq M] {o : Option T} (ho : o = none ∨ o = some t)
    (hm : s.internalMutex m = none ∨ s.internalMutex m = some t) (hv : v ≠ t) (n : M) :
    Function.update s.internalMutex m o n = some v ↔ s.internalMutex n = some v := by
  by_cases hn : n = m
  · subst hn
    rw [Function.update_self]
    refine iff_of_false ?_ ?_
    · rcases ho with rfl | rfl <;> simp [Ne.symm hv]
    · rcases hm with hm | hm <;> simp [hm, Ne.symm hv]
  · rw [Function.update_of_ne hn]

section Steps

variable [DecidableEq T]

/-- A thread goes to another place where it does not have `internal_mutex` for the call. -/
theorem Inv.moved {p : MutexPc M} (hs : s.Inv value)
    (hold : ∀ m, s.pc t ≠ .locked m ∧ s.pc t ≠ .unlocking m)
    (hnew : ∀ m, p ≠ .locked m ∧ p ≠ .unlocking m)
    (hchecked : ∀ m, p = .locking m ∨ p = .trying m → value m < top value (s.held t)) :
    (s.setPc t p).Inv value := by
  intro v
  by_cases hv : v = t
  · subst hv
    have hself : (s.setPc v p).pc v = p := Function.update_self ..
    refine ⟨(hs v).nested, (hs v).this, (hs v).owner, ?_, ?_, ?_, ?_⟩
    · intro m hm
      rcases (hs v).owned m hm with h | h | h
      · exact .inl h
      · exact absurd h (hold m).1
      · exact absurd h (hold m).2
    · intro m h
      rw [hself] at h
      rcases h with h | h | h
      · exact hchecked m (.inl h)
      · exact hchecked m (.inr h)
      · exact absurd h (hnew m).1
    · exact fun m h => absurd (hself.symm.trans h) (hnew m).1
    · exact fun m h => absurd (hself.symm.trans h) (hnew m).2
  · exact (hs v).frame (Function.update_of_ne hv ..) rfl rfl (fun _ => Iff.rfl) fun _ _ => rfl

/-- `unlock` restores the value of the mutex before. -/
theorem Inv.restored (hs : s.Inv value) (hpc : s.pc t = .idle) (hheld : s.held t = m :: ms) :
    { s with
      pc := Function.update s.pc t (.unlocking m)
      thisThreadHierarchyValue :=
        Function.update s.thisThreadHierarchyValue t (s.previousHierarchyValue m)
      held := Function.update s.held t ms }.Inv value := by
  intro v
  by_cases hv : v = t
  · subst hv
    have hnested := (hs v).nested
    have howner := (hs v).owner
    have howned := (hs v).owned
    rw [hheld] at hnested howner howned
    obtain ⟨hprevious, hlt, hms⟩ := hnested
    constructor
    all_goals simp only [Function.update_self]
    · exact hms
    · exact hprevious
    · exact fun n hn => howner n (List.mem_cons_of_mem _ hn)
    · intro n hn
      rcases howned n hn with h | h | h
      · rcases List.mem_cons.1 h with rfl | h
        · exact .inr (.inr rfl)
        · exact .inl h
      · simp [hpc] at h
      · simp [hpc] at h
    · simp
    · simp
    · intro n h
      cases h
      exact ⟨howner m List.mem_cons_self, hms.not_mem hlt⟩
  · exact (hs v).frame (Function.update_of_ne hv ..) (Function.update_of_ne hv ..)
      (Function.update_of_ne hv ..) (fun _ => Iff.rfl) fun _ _ => rfl

variable [DecidableEq M]

/-- `internal_mutex` is locked. -/
theorem Inv.acquired (hs : s.Inv value) (hpc : s.pc t = .locking m ∨ s.pc t = .trying m)
    (hfree : s.internalMutex m = none) :
    { s with
      pc := Function.update s.pc t (.locked m)
      internalMutex := Function.update s.internalMutex m (some t) }.Inv value := by
  intro v
  by_cases hv : v = t
  · subst hv
    have howner : ∀ n, n ≠ m → Function.update s.internalMutex m (some v) n = s.internalMutex n :=
      fun n hn => Function.update_of_ne hn ..
    refine
      { nested := (hs v).nested, this := (hs v).this, owner := ?owner, owned := ?owned,
        checked := ?checked, locked := ?locked, unlocking := ?unlocking }
    case owner =>
      intro n hn
      have hne : n ≠ m := by
        rintro rfl
        rw [(hs v).owner n hn] at hfree
        cases hfree
      exact (howner n hne).trans ((hs v).owner n hn)
    case owned =>
      intro n h
      dsimp only at h ⊢
      by_cases hn : n = m
      · subst hn
        exact .inr (.inl (Function.update_self ..))
      · rw [howner n hn] at h
        rcases (hs v).owned n h with h | h | h
        · exact .inl h
        · rcases hpc with hpc | hpc <;> simp [hpc] at h
        · rcases hpc with hpc | hpc <;> simp [hpc] at h
    case checked =>
      intro n h
      simp only [Function.update_self, MutexPc.locked.injEq, reduceCtorEq, false_or] at h
      subst h
      exact (hs v).checked m (hpc.imp_right .inl)
    case locked =>
      intro n h
      simp only [Function.update_self, MutexPc.locked.injEq] at h
      subst h
      exact Function.update_self ..
    case unlocking =>
      intro n h
      simp at h
  · exact (hs v).frame (Function.update_of_ne hv ..) rfl rfl
      (update_eq_some_iff (.inr rfl) (.inl hfree) hv) fun _ _ => rfl

/-- `update_hierarchy_value`: the mutex is held from here on. -/
theorem Inv.updated (hs : s.Inv value) (hpc : s.pc t = .locked m) :
    { s with
      pc := Function.update s.pc t .idle
      previousHierarchyValue :=
        Function.update s.previousHierarchyValue m (s.thisThreadHierarchyValue t)
      thisThreadHierarchyValue := Function.update s.thisThreadHierarchyValue t (value m)
      held := Function.update s.held t (m :: s.held t) }.Inv value := by
  have hlt := (hs t).checked m (.inr (.inr hpc))
  have hmem := hs.not_mem_of_owner ((hs t).locked m hpc) ((hs t).nested.not_mem hlt)
  have hprevious : ∀ v, ∀ n ∈ s.held v, Function.update s.previousHierarchyValue m
      (s.thisThreadHierarchyValue t) n = s.previousHierarchyValue n := by
    refine fun v n hn => Function.update_of_ne ?_ ..
    rintro rfl
    exact hmem v hn
  intro v
  by_cases hv : v = t
  · subst hv
    constructor
    all_goals simp only [Function.update_self]
    · exact ⟨by rw [Function.update_self, (hs v).this], hlt, (hs v).nested.congr (hprevious v)⟩
    · rfl
    · intro n hn
      rcases List.mem_cons.1 hn with rfl | hn
      · exact (hs v).locked n hpc
      · exact (hs v).owner n hn
    · intro n h
      rcases (hs v).owned n h with h | h | h
      · exact .inl (List.mem_cons_of_mem _ h)
      · rw [hpc] at h
        cases h
        exact .inl List.mem_cons_self
      · simp [hpc] at h
    · simp
    · simp
    · simp
  · exact (hs v).frame (Function.update_of_ne hv ..) (Function.update_of_ne hv ..)
      (Function.update_of_ne hv ..) (fun _ => Iff.rfl) (hprevious v)

/-- `internal_mutex` is unlocked. -/
theorem Inv.released (hs : s.Inv value) (hpc : s.pc t = .unlocking m) :
    { s with
      pc := Function.update s.pc t .idle
      internalMutex := Function.update s.internalMutex m none }.Inv value := by
  obtain ⟨howner, hm⟩ := (hs t).unlocking m hpc
  intro v
  by_cases hv : v = t
  · subst hv
    refine
      { nested := (hs v).nested, this := (hs v).this, owner := ?owner, owned := ?owned,
        checked := ?checked, locked := ?locked, unlocking := ?unlocking }
    case owner =>
      intro n hn
      have hne : n ≠ m := by
        rintro rfl
        exact hm hn
      exact (Function.update_of_ne hne ..).trans ((hs v).owner n hn)
    case owned =>
      intro n h
      dsimp only at h ⊢
      by_cases hn : n = m
      · subst hn
        rw [Function.update_self] at h
        cases h
      · rw [Function.update_of_ne hn] at h
        rcases (hs v).owned n h with h | h | h
        · exact .inl h
        · simp [hpc] at h
        · rw [hpc] at h
          cases h
          exact absurd rfl hn
    case checked =>
      intro n h
      simp at h
    case locked =>
      intro n h
      simp at h
    case unlocking =>
      intro n h
      simp at h
  · exact (hs v).frame (Function.update_of_ne hv ..) rfl rfl
      (update_eq_some_iff (.inl rfl) (.inr howner) hv) fun _ _ => rfl

theorem Inv.step {a : MutexAction T M} (hs : s.Inv value) (h : s.next value a = some u) :
    u.Inv value := by
  cases a with
  | lock t m =>
    simp only [next] at h
    split_ifs at h with hpc hthrows
    · cases h
      exact hs
    · cases h
      refine hs.moved (fun n => by simp [hpc]) (fun n => by simp) fun n hn => ?_
      obtain rfl : m = n := by simpa using hn
      rw [← (hs t).this]
      exact UInt64.not_le.1 hthrows
  | acquire t m =>
    simp only [next] at h
    split_ifs at h with hpc
    cases h
    exact hs.acquired (.inl hpc.1) hpc.2
  | tryLock t m =>
    simp only [next] at h
    split_ifs at h with hpc hthrows
    · cases h
      exact hs
    · cases h
      refine hs.moved (fun n => by simp [hpc]) (fun n => by simp) fun n hn => ?_
      obtain rfl : m = n := by simpa using hn
      rw [← (hs t).this]
      exact UInt64.not_le.1 hthrows
  | tryAcquire t m success =>
    simp only [next] at h
    split_ifs at h with hpc hsuccess hfree
    · cases h
      exact hs.acquired (.inr hpc) hfree
    · cases h
      exact hs.moved (fun n => by simp [hpc]) (fun n => by simp) fun n hn => by simp at hn
  | updateHierarchyValue t m =>
    simp only [next] at h
    split_ifs at h with hpc
    cases h
    exact hs.updated hpc
  | unlock t m =>
    simp only [next] at h
    split_ifs at h with hpc hthrows
    · cases h
      exact hs
    · cases h
      rw [not_not, (hs t).this] at hthrows
      obtain ⟨ms, hms⟩ := (hs t).nested.eq_cons hpc.2 hthrows
      rw [hms, List.erase_cons_head]
      exact hs.restored hpc.1 hms
  | release t m =>
    simp only [next] at h
    split_ifs at h with hpc
    cases h
    exact hs.released hpc

end Steps

end MutexSystem

/-- **The hierarchy.** In every reachable state the mutexes of each thread were locked in the order
of falling values, and its value is that of the last one; a call that throws changes nothing; a
mutex that is unlocked is the last one, and the value becomes that of the one before; and no
threads are blocked in a cycle. -/
theorem hierarchy_kept {T M : Type*} [DecidableEq T] [DecidableEq M] {value : M → UInt64}
    {s : MutexSystem T M} (h : (hierarchicalMutexes T value).Reachable s) :
    (∀ t, (s.held t).Pairwise fun m n => value m < value n) ∧
      (∀ t, s.thisThreadHierarchyValue t = MutexSystem.top value (s.held t)) ∧
      (∀ t, ∀ m ∈ s.held t, s.internalMutex m = some t) ∧
      (∀ a u, s.next value a = some u → s.Throws value a → u = s) ∧
      (∀ t m u, s.next value (.unlock t m) = some u → ¬s.Throws value (.unlock t m) →
        s.held t = m :: u.held t ∧
          u.thisThreadHierarchyValue t = MutexSystem.top value (u.held t)) ∧
      ∀ t, ¬Relation.TransGen s.Waits t t := by
  have hs : s.Inv value := by
    refine h.invariant (fun s hs => ?_) fun s a u hs hn => hs.step hn
    rw [show s = .new from hs]
    exact MutexSystem.new_inv
  refine ⟨fun t => (hs t).nested.pairwise, fun t => (hs t).this, fun t => (hs t).owner,
    fun a u hu hthrows => ?_, fun t m u hu hthrows => ?_, hs.not_cycle⟩
  · cases a with
    | lock t m =>
      simp only [MutexSystem.next] at hu
      split_ifs at hu with hpc hv
      · exact (Option.some.inj hu).symm
      · exact absurd hthrows hv
    | tryLock t m =>
      simp only [MutexSystem.next] at hu
      split_ifs at hu with hpc hv
      · exact (Option.some.inj hu).symm
      · exact absurd hthrows hv
    | unlock t m =>
      simp only [MutexSystem.next] at hu
      split_ifs at hu with hpc hv
      · exact (Option.some.inj hu).symm
      · exact absurd hthrows hv
    | acquire t m => exact hthrows.elim
    | tryAcquire t m success => exact hthrows.elim
    | updateHierarchyValue t m => exact hthrows.elim
    | release t m => exact hthrows.elim
  · have hu' := hs.step hu
    refine ⟨?_, (hu' t).this⟩
    simp only [MutexSystem.next] at hu
    split_ifs at hu with hpc hv
    · exact absurd hv hthrows
    · cases hu
      rw [not_not, (hs t).this] at hv
      obtain ⟨ms, hms⟩ := (hs t).nested.eq_cons hpc.2 hv
      simp only [hms, Function.update_self, List.erase_cons_head]

/-- A thread that holds two mutexes, and another that waits for the first of them. -/
theorem hierarchy_kept_blocked : ∃ s : MutexSystem Bool Bool,
    (hierarchicalMutexes Bool fun m => if m then 10000 else 5000).Reachable s ∧
      s.held true = [false, true] ∧ s.Waits false true ∧
      ∀ t, ¬Relation.TransGen s.Waits t t := by
  let acts : List (MutexAction Bool Bool) :=
    [.lock true true, .acquire true true, .updateHierarchyValue true true, .lock false true,
      .tryLock true false, .tryAcquire true false true, .updateHierarchyValue true false]
  obtain ⟨s, hs, hend⟩ := Option.map_eq_some_iff.1 (by decide +kernel :
    ((hierarchicalMutexes Bool fun m => if m then 10000 else 5000).run .new acts).map
      (fun s => (s.held true, s.pc false, s.internalMutex true)) =
        some ([false, true], .locking true, some true))
  simp only [Prod.mk.injEq] at hend
  have hreachable := LTS.Reachable.of_run (.init rfl) acts hs
  exact ⟨s, hreachable, hend.1, ⟨true, hend.2.1, hend.2.2⟩,
    (hierarchy_kept hreachable).2.2.2.2.2⟩

end Jiangbo
