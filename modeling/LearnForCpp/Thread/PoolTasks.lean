import LearnForCpp.Thread.ThreadPool

/-!
# What becomes of the functors

Every functor that was pushed to a `threadpool` is in `tasks_`, with one worker that is about to
invoke it, or called, until a worker takes one: `if(!task) task();` drops a functor, and calls the
empty one that `take` returns when there is none.
-/

namespace Jiangbo

namespace ThreadPool

variable {F : Type*} {s u : ThreadPool F} {w n : ℕ} {p : WorkerPc F}

/-- The worker has the functor number `n`. -/
def Holds (s : ThreadPool F) (w n : ℕ) : Prop := ∃ task, s.pc w = .holding (some n) task

/-- The next step of the worker invokes the functor number `n`. -/
def Invokes (s : ThreadPool F) (w n : ℕ) : Prop :=
  ∃ u, s.call w = some u ∧ u.invoked = s.invoked ++ [n]

/-- The functor number `n` is in `tasks_`, or one worker has it and is about to invoke it, or it was
called once. -/
inductive Placed (s : ThreadPool F) (n : ℕ) : Prop
  | waits : n ∈ s.tasks.map Prod.fst → (∀ w, ¬s.Holds w n) → n ∉ s.invoked → Placed s n
  | held (w : ℕ) : n ∉ s.tasks.map Prod.fst → s.Invokes w n → (∀ v, s.Holds v n → v = w) →
      n ∉ s.invoked → Placed s n
  | called : n ∉ s.tasks.map Prod.fst → (∀ w, ¬s.Holds w n) → s.invoked.count n = 1 → Placed s n

/-- No functor is lost or called twice, they leave `tasks_` in the order of the pushes, and no
worker has called an empty one. -/
structure Kept (s : ThreadPool F) : Prop where
  placed : ∀ n < s.pushes, s.Placed n
  order : (s.taken ++ s.tasks.map Prod.fst).Pairwise (· < ·)
  nonempty : s.terminated = false

/-- What else holds between two steps. -/
structure Inv (s : ThreadPool F) : Prop extends s.Kept where
  numbered : ∀ n ∈ s.taken ++ s.tasks.map Prod.fst, n < s.pushes
  holding : ∀ w n task, s.pc w = .holding (some n) task → n < s.pushes
  invoked : ∀ n ∈ s.invoked, n < s.pushes
  /-- What a worker has taken is an empty functor. -/
  nothing : ∀ w n task, s.pc w = .holding n task → task = none
  unborn : ∀ w, s.threads ≤ w → s.pc w = .unborn

theorem new_inv : (new : ThreadPool F).Inv where
  placed n hn := by simp [new] at hn
  order := by simp [new]
  nonempty := rfl
  numbered n hn := by simp [new] at hn
  holding w n task h := by simp [new] at h
  invoked n hn := by simp [new] at hn
  nothing w n task h := by simp [new] at h
  unborn w _ := rfl

/-- A worker is about to invoke a functor exactly if this is empty. -/
theorem invokes_iff : s.Invokes w n ↔ s.pc w = .holding (some n) none := by
  unfold Invokes ThreadPool.call
  constructor
  · rintro ⟨u, hu, hinvoked⟩
    split at hu
    · rename_i number hpc
      cases hu
      cases number with
      | none => simp at hinvoked
      | some m =>
        have hm : m = n := by simpa using hinvoked
        rw [hpc, hm]
    · cases hu
      simp [setPc] at hinvoked
    · cases hu
  · intro hpc
    rw [hpc]
    exact ⟨_, rfl, rfl⟩

theorem Invokes.of_pc_eq (h : s.Invokes w n) (hpc : u.pc w = s.pc w) : u.Invokes w n :=
  invokes_iff.2 (hpc.trans (invokes_iff.1 h))

/-- Only the functors and who has them matter. -/
theorem Placed.congr (h : s.Placed n) (htasks : u.tasks.map Prod.fst = s.tasks.map Prod.fst)
    (hhands : ∀ w task, u.pc w = .holding (some n) task ↔ s.pc w = .holding (some n) task)
    (hinvoked : u.invoked = s.invoked) : u.Placed n := by
  have hholds : ∀ w, u.Holds w n ↔ s.Holds w n := fun w => exists_congr (hhands w)
  cases h with
  | waits h1 h2 h3 =>
    exact .waits (htasks ▸ h1) (fun w => mt (hholds w).1 (h2 w)) (hinvoked ▸ h3)
  | held w h1 h2 h3 h4 =>
    have hw : u.Invokes w n := invokes_iff.2 ((hhands w none).2 (invokes_iff.1 h2))
    exact .held w (htasks ▸ h1) hw (fun v hv => h3 v ((hholds v).1 hv)) (hinvoked ▸ h4)
  | called h1 h2 h3 =>
    exact .called (htasks ▸ h1) (fun w => mt (hholds w).1 (h2 w)) (hinvoked ▸ h3)

/-- The workers have the functors that they had. -/
def SameHands (s u : ThreadPool F) : Prop :=
  ∀ w n task, u.pc w = .holding (some n) task ↔ s.pc w = .holding (some n) task

theorem SameHands.update (hold : ∀ n task, s.pc w ≠ .holding (some n) task)
    (hnew : ∀ n task, p ≠ .holding (some n) task) (hpc : u.pc = Function.update s.pc w p) :
    SameHands s u := by
  intro v n task
  rw [hpc]
  by_cases hv : v = w
  · subst hv
    rw [Function.update_self]
    exact iff_of_false (hnew n task) (hold n task)
  · rw [Function.update_of_ne hv]

/-- The threads and the owner go on, and the functors stay where they are. -/
theorem Inv.same (hs : s.Inv) (hhands : SameHands s u)
    (hu : u.tasks = s.tasks ∧ u.terminated = s.terminated ∧ u.pushes = s.pushes ∧
      u.taken = s.taken ∧ u.invoked = s.invoked)
    (hnothing : ∀ w n task, u.pc w = .holding n task → task = none)
    (hunborn : ∀ w, u.threads ≤ w → u.pc w = .unborn) : u.Inv := by
  obtain ⟨htasks, hterminated, hpushes, htaken, hinvoked⟩ := hu
  refine ⟨⟨fun n hn => ?_, ?_, hterminated.trans hs.nonempty⟩, ?_, ?_, ?_, hnothing, hunborn⟩
  · rw [hpushes] at hn
    exact (hs.placed n hn).congr (by rw [htasks]) (fun w => hhands w n) hinvoked
  · rw [htaken, htasks]
    exact hs.order
  · rw [htaken, htasks, hpushes]
    exact hs.numbered
  · intro w n task h
    rw [hpushes]
    exact hs.holding w n task ((hhands w n task).1 h)
  · rw [hinvoked, hpushes]
    exact hs.invoked

theorem Inv.unborn_update (hs : s.Inv) (hw : s.pc w ≠ .unborn) :
    ∀ v, s.threads ≤ v → Function.update s.pc w p v = .unborn := by
  intro v hv
  have hne : v ≠ w := by
    rintro rfl
    exact hw (hs.unborn v hv)
  rw [Function.update_of_ne hne]
  exact hs.unborn v hv

theorem Inv.nothing_update (hs : s.Inv) (hp : ∀ n task, p = .holding n task → task = none) :
    ∀ v n task, Function.update s.pc w p v = .holding n task → task = none := by
  intro v n task h
  by_cases hv : v = w
  · subst hv
    rw [Function.update_self] at h
    exact hp n task h
  · rw [Function.update_of_ne hv] at h
    exact hs.nothing v n task h

/-- A worker goes on, and had no functor and gets none. -/
theorem Inv.goesOn (hs : s.Inv) (hw : s.pc w ≠ .unborn)
    (hold : ∀ n task, s.pc w ≠ .holding (some n) task)
    (hnew : ∀ n task, p ≠ .holding (some n) task)
    (hp : ∀ n task, p = .holding n task → task = none) (mutex : Option ℕ) :
    { s with mutex := mutex, pc := Function.update s.pc w p }.Inv :=
  hs.same (.update hold hnew rfl) ⟨rfl, rfl, rfl, rfl, rfl⟩ (hs.nothing_update hp)
    (hs.unborn_update hw)

/-- The owner goes on. -/
theorem Inv.ownerGoesOn (hs : s.Inv) (running : Bool) (threadsNum : ℤ) (owner : PoolOwner) :
    { s with running := running, threadsNum := threadsNum, owner := owner }.Inv :=
  hs.same (fun _ _ _ => Iff.rfl) ⟨rfl, rfl, rfl, rfl, rfl⟩ hs.nothing hs.unborn

/-! ### Steps -/

theorem Inv.spawn (hs : s.Inv) (h : s.spawn = some u) : u.Inv := by
  unfold ThreadPool.spawn at h
  split at h
  · split_ifs at h
    · cases h
      refine hs.same (.update (w := s.threads) (p := .test) ?_ (by simp) rfl)
        ⟨rfl, rfl, rfl, rfl, rfl⟩ (hs.nothing_update (by simp)) fun v hv => ?_
      · rw [hs.unborn s.threads le_rfl]
        simp
      · have hv' : s.threads + 1 ≤ v := hv
        exact (Function.update_of_ne (by omega) ..).trans (hs.unborn v (by omega))
    · cases h
      exact hs.ownerGoesOn ..
  · cases h

theorem Inv.notifyOne {woken : Option ℕ} (hs : s.Inv) (h : s.notifyOne woken = some u) :
    u.Inv := by
  unfold ThreadPool.notifyOne at h
  split at h
  · split_ifs at h
    cases h
    exact hs
  · split at h
    · rename_i w hw
      cases h
      exact hs.goesOn (by simp [hw]) (by simp [hw]) (by simp) (by simp) s.mutex
    · cases h

/-- A functor is called in `push`. -/
theorem Inv.calledAtOnce (hs : s.Inv) :
    { s with invoked := s.invoked ++ [s.pushes], pushes := s.pushes + 1 }.Inv := by
  have hnew : s.pushes ∉ s.invoked := fun h => lt_irrefl _ (hs.invoked _ h)
  refine ⟨⟨fun n hn => ?_, hs.order, hs.nonempty⟩, ?_, ?_, ?_, hs.nothing, hs.unborn⟩
  · rcases Nat.lt_succ_iff_lt_or_eq.1 hn with hn | rfl
    · have hne : n ≠ s.pushes := Nat.ne_of_lt hn
      have hcount : (s.invoked ++ [s.pushes]).count n = s.invoked.count n := by
        simp [List.count_append, Ne.symm hne]
      cases hs.placed n hn with
      | waits h1 h2 h3 => exact .waits h1 h2 (by simp [h3, hne])
      | held w h1 h2 h3 h4 =>
        exact .held w h1 (h2.of_pc_eq rfl) h3 (by simp [h4, hne])
      | called h1 h2 h3 => exact .called h1 h2 (hcount.trans h3)
    · refine .called (fun h => ?_) (fun w ⟨task, h⟩ => ?_) ?_
      · exact lt_irrefl _ (hs.numbered _ (List.mem_append_right _ h))
      · exact lt_irrefl _ (hs.holding w _ task h)
      · simp [List.count_append, List.count_eq_zero.2 hnew]
  · exact fun n hn => Nat.lt_succ_of_lt (hs.numbered n hn)
  · exact fun w n task h => Nat.lt_succ_of_lt (hs.holding w n task h)
  · intro n hn
    rcases List.mem_append.1 hn with hn | hn
    · exact Nat.lt_succ_of_lt (hs.invoked n hn)
    · rw [List.mem_singleton.1 hn]
      exact Nat.lt_succ_self _

/-- A functor comes to the end of `tasks_`. -/
theorem Inv.queued (hs : s.Inv) (cb : Option F) :
    { s with tasks := s.tasks ++ [(s.pushes, cb)], pushes := s.pushes + 1 }.Inv := by
  have hnumbered : ∀ n ∈ s.taken ++ (s.tasks ++ [(s.pushes, cb)]).map Prod.fst,
      n ∈ s.taken ++ s.tasks.map Prod.fst ∨ n = s.pushes := by
    intro n hn
    simpa [or_assoc] using hn
  refine ⟨⟨fun n hn => ?_, ?_, hs.nonempty⟩, ?_, ?_, ?_, hs.nothing, hs.unborn⟩
  · rcases Nat.lt_succ_iff_lt_or_eq.1 hn with hn | rfl
    · have hne : n ≠ s.pushes := Nat.ne_of_lt hn
      have hmem : n ∈ (s.tasks ++ [(s.pushes, cb)]).map Prod.fst ↔ n ∈ s.tasks.map Prod.fst := by
        rw [List.map_append, List.mem_append]
        simp [hne]
      cases hs.placed n hn with
      | waits h1 h2 h3 => exact .waits (hmem.2 h1) h2 h3
      | held w h1 h2 h3 h4 =>
        exact .held w (mt hmem.1 h1) (h2.of_pc_eq rfl) h3 h4
      | called h1 h2 h3 => exact .called (mt hmem.1 h1) h2 h3
    · refine .waits (by simp) (fun w ⟨task, h⟩ => ?_) fun h => ?_
      · exact lt_irrefl _ (hs.holding w _ task h)
      · exact lt_irrefl _ (hs.invoked _ h)
  · show (s.taken ++ (s.tasks ++ [(s.pushes, cb)]).map Prod.fst).Pairwise (· < ·)
    rw [List.map_append, ← List.append_assoc]
    refine List.pairwise_append.2 ⟨hs.order, List.pairwise_singleton .., fun m hm n hn => ?_⟩
    rw [List.mem_singleton.1 hn]
    exact hs.numbered m hm
  · intro n hn
    rcases hnumbered n hn with hn | rfl
    · exact Nat.lt_succ_of_lt (hs.numbered n hn)
    · exact Nat.lt_succ_self _
  · exact fun w n task h => Nat.lt_succ_of_lt (hs.holding w n task h)
  · exact fun n hn => Nat.lt_succ_of_lt (hs.invoked n hn)

theorem Inv.push {cb : Option F} {woken : Option ℕ} (hs : s.Inv)
    (h : s.push cb woken = some u) : u.Inv := by
  unfold ThreadPool.push at h
  split at h
  · cases h
  · cases h
  · split_ifs at h
    · cases h
      exact hs.calledAtOnce
    · exact (hs.queued cb).notifyOne h

theorem Inv.seeks (hs : s.Inv) (h : s.Seeks w p u) : u.Inv := by
  obtain ⟨⟨mutex, rfl⟩, hborn, hbefore, hafter, -⟩ := h
  exact hs.goesOn hborn (fun n => hbefore (some n)) (fun n => hafter (some n))
    (fun n task hp => absurd hp (hafter n task)) mutex

/-- The end of `take` with the functor number `n`: it was with nobody, and no other functor has this
number. -/
theorem Inv.front {task : Option F} {rest : List (ℕ × Option F)} (hs : s.Inv)
    (htasks : s.tasks = (n, task) :: rest) :
    n < s.pushes ∧ n ∉ rest.map Prod.fst ∧ (∀ v, ¬s.Holds v n) ∧ n ∉ s.invoked := by
  have horder := hs.order
  have hnumbered := hs.numbered
  rw [htasks, List.map_cons] at horder hnumbered
  have hn : n < s.pushes := hnumbered n (by simp)
  refine ⟨hn, fun hmem => ?_, ?_⟩
  · -- the numbers in `tasks_` go up, so none is there twice
    have hlt := List.rel_of_pairwise_cons (List.pairwise_append.1 horder).2.1 hmem
    exact lt_irrefl n hlt
  · cases hs.placed n hn with
    | waits h1 h2 h3 => exact ⟨h2, h3⟩
    | held w h1 => simp [htasks] at h1
    | called h1 => simp [htasks] at h1

/-- An empty functor leaves `tasks_`. -/
theorem Inv.taken {rest : List (ℕ × Option F)} (hs : s.Inv) (hpc : s.pc w = .taking)
    (htasks : s.tasks = (n, none) :: rest) :
    { s with
      mutex := none
      pc := Function.update s.pc w (.holding (some n) none)
      tasks := rest
      taken := s.taken ++ [n] }.Inv := by
  obtain ⟨hn, hrest, hnobody, hinvoked⟩ := hs.front htasks
  have horder := hs.order
  have hnumbered := hs.numbered
  rw [htasks, List.map_cons] at horder hnumbered
  have hself : Function.update s.pc w (.holding (some n) none) w = .holding (some n) none :=
    Function.update_self ..
  have hother : ∀ v, v ≠ w → Function.update s.pc w (.holding (some n) none) v = s.pc v :=
    fun v hv => Function.update_of_ne hv ..
  refine ⟨⟨fun m hm => ?_, ?_, hs.nonempty⟩, ?_, ?_, hs.invoked, hs.nothing_update (by simp),
    hs.unborn_update (by simp [hpc])⟩
  · by_cases hmn : m = n
    · -- the worker has the functor now, and nobody had it before
      subst hmn
      refine .held w hrest (invokes_iff.2 hself) (fun v hv => ?_) hinvoked
      by_contra hvw
      obtain ⟨task, hv⟩ := hv
      exact hnobody v ⟨task, (hother v hvw).symm.trans hv⟩
    · -- the other functors are held by the workers that held them before
      have hmem : m ∈ s.tasks.map Prod.fst ↔ m ∈ rest.map Prod.fst := by
        rw [htasks, List.map_cons, List.mem_cons]
        simp [hmn]
      have hhands : ∀ v task, Function.update s.pc w (.holding (some n) none) v =
          .holding (some m) task ↔ s.pc v = .holding (some m) task := by
        intro v task
        by_cases hvw : v = w
        · subst hvw
          rw [hself, hpc]
          simp [Ne.symm hmn]
        · rw [hother v hvw]
      cases hs.placed m hm with
      | waits h1 h2 h3 =>
        exact .waits (hmem.1 h1) (fun v ⟨task, h⟩ => h2 v ⟨task, (hhands v task).1 h⟩) h3
      | held v h1 h2 h3 h4 =>
        refine .held v (mt hmem.2 h1) (invokes_iff.2 ((hhands v none).2 (invokes_iff.1 h2)))
          (fun v' hv' => ?_) h4
        obtain ⟨task, h⟩ := hv'
        exact h3 v' ⟨task, (hhands v' task).1 h⟩
      | called h1 h2 h3 =>
        exact .called (mt hmem.2 h1) (fun v ⟨task, h⟩ => h2 v ⟨task, (hhands v task).1 h⟩) h3
  · simpa using horder
  · simpa using hnumbered
  · intro v m task h
    by_cases hvw : v = w
    · subst hvw
      cases hself.symm.trans h
      exact hn
    · exact hs.holding v m task ((hother v hvw).symm.trans h)

/-- A worker that has taken a functor which is not empty can only drop it. -/
theorem Inv.not_kept_of_taken {f : F} {rest : List (ℕ × Option F)} (hs : s.Inv)
    (htasks : s.tasks = (n, some f) :: rest) :
    ¬{ s with
      mutex := none
      pc := Function.update s.pc w (.holding (some n) (some f))
      tasks := rest
      taken := s.taken ++ [n] }.Kept := by
  obtain ⟨hn, hrest, -, -⟩ := hs.front htasks
  have hself : Function.update s.pc w (.holding (some n) (some f)) w = .holding (some n) (some f) :=
    Function.update_self ..
  intro hu
  cases hu.placed n hn with
  | waits h1 => exact hrest h1
  | held v h1 h2 h3 =>
    have hpc := invokes_iff.1 h2
    rw [← h3 w ⟨_, hself⟩] at hpc
    cases hself.symm.trans hpc
  | called h1 h2 => exact h2 w ⟨_, hself⟩

/-! ### The steps that go wrong -/

/-- No worker takes a functor, unless an empty one, nor comes to `if(!task) task();`. -/
def Harmless (s : ThreadPool F) : PoolAction F → Prop
  | .take _ => ∀ n f rest, s.tasks ≠ (n, some f) :: rest
  | .call _ => False
  | _ => True

theorem Inv.take_iff (hs : s.Inv) (h : s.take w = some u) :
    (u.Kept ↔ s.Harmless (.take w)) ∧ (s.Harmless (.take w) → u.Inv) := by
  unfold ThreadPool.take at h
  split at h
  · rename_i hpc htasks
    cases h
    have hu : { s with mutex := none, pc := Function.update s.pc w (.holding none none) }.Inv :=
      hs.goesOn (by simp [hpc]) (by simp [hpc]) (by simp) (by simp) none
    exact ⟨iff_of_true hu.toKept (by simp [Harmless, htasks]), fun _ => hu⟩
  · rename_i n task rest hpc htasks
    cases h
    cases task with
    | none =>
      have hu := hs.taken hpc htasks
      exact ⟨iff_of_true hu.toKept (by simp [Harmless, htasks]), fun _ => hu⟩
    | some f =>
      have hbad : ¬s.Harmless (.take w) := fun hc => hc n f rest htasks
      exact ⟨iff_of_false (hs.not_kept_of_taken htasks) hbad, fun hc => absurd hc hbad⟩
  · cases h

/-- What comes to `if(!task) task();` is an empty functor, and is called. -/
theorem Inv.not_kept_of_call (hs : s.Inv) (h : s.call w = some u) : ¬u.Kept := by
  intro hu
  unfold ThreadPool.call at h
  split at h
  · cases h
    exact absurd hu.nonempty (by simp)
  · rename_i number f hpc
    exact absurd (hs.nothing w number _ hpc) (by simp)
  · cases h

theorem Inv.step {a : PoolAction F} (hs : s.Inv) (ha : s.Harmless a) (h : s.next a = some u) :
    u.Inv := by
  unfold next at h
  split_ifs at h with hover
  cases a with
  | setThreadsnum n =>
    simp only [stepAction] at h
    split_ifs at h
    cases h
    exact hs.ownerGoesOn s.running n s.owner
  | start =>
    simp only [stepAction] at h
    split_ifs at h
    cases h
    exact hs.ownerGoesOn true s.threadsNum (.starting 0)
  | spawn => exact hs.spawn h
  | push cb woken => exact hs.push h
  | stop =>
    simp only [stepAction] at h
    split_ifs at h
    cases h
    unfold ThreadPool.stop
    split_ifs
    · exact hs.ownerGoesOn false s.threadsNum (.joining false 0)
    · exact hs.ownerGoesOn s.running s.threadsNum (.aborted false)
  | destroy =>
    simp only [stepAction] at h
    split_ifs at h
    cases h
    unfold ThreadPool.stop
    split_ifs
    · exact hs.ownerGoesOn false s.threadsNum (.joining true 0)
    · exact hs.ownerGoesOn s.running s.threadsNum (.aborted true)
  | join =>
    simp only [stepAction, ThreadPool.join] at h
    split at h
    · split_ifs at h
      · split at h
        · cases h
          exact hs.ownerGoesOn s.running s.threadsNum _
        · cases h
      · cases h
        exact hs.ownerGoesOn s.running s.threadsNum _
      · cases h
        exact hs.ownerGoesOn s.running s.threadsNum _
    · cases h
  | loopTest w => exact (exists_seeks rfl h).elim fun p hp => hs.seeks hp
  | lock w => exact (exists_seeks rfl h).elim fun p hp => hs.seeks hp
  | waitTest w => exact (exists_seeks rfl h).elim fun p hp => hs.seeks hp
  | sleep w => exact (exists_seeks rfl h).elim fun p hp => hs.seeks hp
  | wake w => exact (exists_seeks rfl h).elim fun p hp => hs.seeks hp
  | take w => exact (hs.take_iff h).2 ha
  | call w => exact ha.elim

/-- **One step.** -/
theorem Inv.kept_iff {a : PoolAction F} (hs : s.Inv) (h : s.next a = some u) :
    u.Kept ↔ s.Harmless a := by
  have hnext := h
  unfold next at h
  split_ifs at h
  cases a with
  | take w => exact (hs.take_iff h).1
  | call w => exact iff_of_false (hs.not_kept_of_call h) id
  | _ => exact iff_of_true (hs.step (by trivial) hnext).toKept trivial

end ThreadPool

/-- **When the functors are kept.** In every state of a run each functor that was pushed is in
`tasks_`, with a worker that is about to invoke it, or called once, they leave `tasks_` in order,
and no worker calls an empty one, exactly if no worker takes a functor that is not empty or comes to
`if(!task) task();`. -/
theorem functors_kept_iff {F : Type*} {s t : ThreadPool F}
    {run : List (Transition (ThreadPool F) (PoolAction F))} (h0 : (threadPools F).init s)
    (h : (threadPools F).Steps s run t) :
    (∀ e ∈ run, e.target.Kept) ↔ ∀ e ∈ run, e.source.Harmless e.action := by
  refine h.forall_iff (I := ThreadPool.Inv) (C := ThreadPool.Harmless) (L := fun _ _ u => u.Kept)
    ?_ (fun s a u hs hn => hs.kept_iff hn) fun s a u hs ha hn => hs.step ha hn
  rw [show s = .new from h0]
  exact ThreadPool.new_inv

/-- A push wakes up the worker that waits for a functor. -/
theorem functors_kept_woken :
    ∃ (run : List (Transition (ThreadPool ℕ) (PoolAction ℕ))) (t : ThreadPool ℕ),
    (threadPools ℕ).Steps .new run t ∧ t.pc 0 = .taking ∧ ∀ e ∈ run, e.target.Kept := by
  let acts : List (PoolAction ℕ) :=
    [.setThreadsnum 1, .start, .spawn, .spawn, .loopTest 0, .lock 0, .waitTest 0, .sleep 0,
      .push (some 7) (some 0), .lock 0, .waitTest 0]
  obtain ⟨t, ht, hend⟩ := Option.map_eq_some_iff.1 (by decide +kernel :
    ((threadPools ℕ).run .new acts).map (fun s => s.pc 0) = some .taking)
  obtain ⟨run, hrun, hcalls⟩ := LTS.exists_steps_forall
    (P := fun a => ∀ s : ThreadPool ℕ, s.Harmless a) ht (by simp [acts, ThreadPool.Harmless])
  exact ⟨run, t, hrun, hend, (functors_kept_iff rfl hrun).2 fun e he => hcalls e he _⟩

/-- A worker takes the only functor, and can only drop it. -/
theorem functor_dropped : ∃ s : ThreadPool ℕ, (threadPools ℕ).Reachable s ∧ s.running = true ∧
    s.pushes = 1 ∧ s.pc 0 = .holding (some 0) (some 7) ∧ ¬s.Kept := by
  let acts : List (PoolAction ℕ) :=
    [.setThreadsnum 1, .start, .spawn, .spawn, .push (some 7) none, .loopTest 0, .lock 0,
      .waitTest 0, .take 0]
  obtain ⟨s, hs, hend⟩ := Option.map_eq_some_iff.1 (by decide +kernel :
    ((threadPools ℕ).run .new acts).map (fun s => (s.running, s.pushes, s.pc 0, s.tasks.isEmpty)) =
      some (true, 1, .holding (some 0) (some 7), true))
  simp only [Prod.mk.injEq] at hend
  obtain ⟨hrunning, hpushes, hpc, htasks⟩ := hend
  refine ⟨s, .of_run (.init rfl) _ hs, hrunning, hpushes, hpc, fun hkept => ?_⟩
  cases hkept.placed 0 (by omega) with
  | waits h1 => simp [List.isEmpty_iff.1 htasks] at h1
  | held w h1 h2 h3 =>
    have hw := ThreadPool.invokes_iff.1 h2
    rw [← h3 0 ⟨_, hpc⟩, hpc] at hw
    cases hw
  | called h1 h2 => exact h2 0 ⟨_, hpc⟩

end Jiangbo
