import LearnForCpp.Thread.ThreadPool

/-!
# Stopping a `threadpool`

`stop` clears `running_` and joins, but does not notify: a worker that sleeps, or that has found
`running_` set and is about to sleep, is not told.  The destructor calls `stop`, whose assertion
wants `running_` set, whether or not the pool runs.
-/

namespace Jiangbo

namespace ThreadPool

variable {F : Type*} {s u : ThreadPool F} {w : ℕ} {p : WorkerPc F}

/-- `stop` waits for a worker that sleeps although `running_` is false. -/
def Stuck (s : ThreadPool F) : Prop :=
  ∃ destroying i, s.owner = .joining destroying i ∧ i < s.threads ∧ s.pc i = .asleep ∧
    s.running = false

/-- The assertion of `stop` has failed in the destructor. -/
def DestructorTrips (s : ThreadPool F) : Prop := s.owner = .aborted true

/-- No worker sleeps, or is about to. -/
def AllAwake (s : ThreadPool F) : Prop := ∀ w < s.threads, (s.pc w).waits = false

instance (s : ThreadPool F) : Decidable s.AllAwake := inferInstanceAs (Decidable (∀ _, _ → _))

/-- The pool is destroyed while it runs, and stopped or destroyed while no worker sleeps or is about
to. -/
def EndsWell (s : ThreadPool F) : PoolAction F → Prop
  | .stop => s.running = true → s.AllAwake
  | .destroy => s.running = true ∧ s.AllAwake
  | _ => True

instance (s : ThreadPool F) : (a : PoolAction F) → Decidable (s.EndsWell a)
  | .stop => inferInstanceAs (Decidable (_ → _))
  | .destroy => inferInstanceAs (Decidable (_ ∧ _))
  | .setThreadsnum _ | .start | .spawn | .push _ _ | .join | .loopTest _ | .lock _ | .waitTest _
  | .sleep _ | .wake _ | .take _ | .call _ => isTrue trivial

/-! ### The invariant -/

/-- Nobody sleeps when `running_` is not set. -/
structure Calm (s : ThreadPool F) : Prop where
  awake : s.running = false → s.AllAwake
  unborn : ∀ w, s.threads ≤ w → s.pc w = .unborn
  joining : ∀ destroying i, s.owner = .joining destroying i → s.running = false
  owner : ¬s.DestructorTrips

theorem new_calm : (new : ThreadPool F).Calm where
  awake _ w hw := by simp [new] at hw
  unborn w _ := rfl
  joining destroying i h := by simp [new] at h
  owner := by simp [DestructorTrips, new]

theorem Calm.not_stuck (hs : s.Calm) : ¬s.Stuck := by
  rintro ⟨destroying, i, -, hi, hasleep, hrunning⟩
  have hawake := hs.awake hrunning i hi
  rw [hasleep] at hawake
  cases hawake

/-- A worker goes on, and does not come to sleep unless `running_` is set. -/
theorem Calm.goesOn (hs : s.Calm) (hw : s.pc w ≠ .unborn)
    (hp : s.running = false → p.waits = false)
    (hu : u.running = s.running ∧ u.threads = s.threads ∧ u.owner = s.owner)
    (hpc : u.pc = Function.update s.pc w p) : u.Calm := by
  obtain ⟨hrunning, hthreads, howner⟩ := hu
  refine ⟨fun hr v hv => ?_, fun v hv => ?_, fun destroying i h => ?_, ?_⟩
  · rw [hrunning] at hr
    rw [hthreads] at hv
    rw [hpc]
    by_cases hvw : v = w
    · subst hvw
      rw [Function.update_self]
      exact hp hr
    · rw [Function.update_of_ne hvw]
      exact hs.awake hr v hv
  · rw [hthreads] at hv
    have hvw : v ≠ w := by
      rintro rfl
      exact hw (hs.unborn v hv)
    rw [hpc, Function.update_of_ne hvw]
    exact hs.unborn v hv
  · rw [hrunning]
    exact hs.joining destroying i (howner ▸ h)
  · unfold DestructorTrips
    rw [howner]
    exact hs.owner

/-- The owner goes on, and the workers stay. -/
theorem Calm.ownerGoesOn {running : Bool} {n : ℤ} {owner : PoolOwner} (hs : s.Calm)
    (hrunning : running = false → s.AllAwake)
    (hjoining : ∀ destroying i, owner = .joining destroying i → running = false)
    (howner : owner ≠ .aborted true) :
    { s with running := running, threadsNum := n, owner := owner }.Calm :=
  ⟨hrunning, hs.unborn, hjoining, howner⟩

/-! ### Steps -/

theorem Calm.spawn (hs : s.Calm) (h : s.spawn = some u) : u.Calm := by
  unfold ThreadPool.spawn at h
  split at h
  · rename_i i howner
    split_ifs at h
    · cases h
      refine ⟨fun hr v hv => ?_, fun v hv => ?_, by simp, by simp [DestructorTrips]⟩
      · show (Function.update s.pc s.threads .test v).waits = false
        by_cases hvw : v = s.threads
        · subst hvw
          rw [Function.update_self]
          rfl
        · rw [Function.update_of_ne hvw]
          have hv' : v < s.threads + 1 := hv
          exact hs.awake hr v (by omega)
      · have hv' : s.threads + 1 ≤ v := hv
        exact (Function.update_of_ne (by omega) ..).trans (hs.unborn v (by omega))
    · cases h
      exact hs.ownerGoesOn (n := s.threadsNum) hs.awake (by simp) (by simp)
  · cases h

theorem Calm.notifyOne {woken : Option ℕ} (hs : s.Calm) (h : s.notifyOne woken = some u) :
    u.Calm := by
  unfold ThreadPool.notifyOne at h
  split at h
  · split_ifs at h
    cases h
    exact hs
  · split at h
    · rename_i w hw
      cases h
      exact hs.goesOn (by simp [hw]) (fun _ => rfl) ⟨rfl, rfl, rfl⟩ rfl
    · cases h

theorem Calm.push {cb : Option F} {woken : Option ℕ} (hs : s.Calm)
    (h : s.push cb woken = some u) : u.Calm := by
  unfold ThreadPool.push at h
  split at h
  · cases h
  · cases h
  · split_ifs at h
    · cases h
      exact ⟨hs.awake, hs.unborn, hs.joining, hs.owner⟩
    · refine Calm.notifyOne ?_ h
      exact ⟨hs.awake, hs.unborn, hs.joining, hs.owner⟩

/-- `stop` is called while no worker sleeps, and by the destructor only while the pool runs. -/
theorem Calm.stop {destroying : Bool} (hs : s.Calm) (hawake : s.running = true → s.AllAwake)
    (hdestroying : destroying = true → s.running = true) : (s.stop destroying).Calm := by
  unfold ThreadPool.stop
  split_ifs with hrunning
  · exact hs.ownerGoesOn (n := s.threadsNum) (fun _ => hawake hrunning)
      (fun _ _ _ => rfl) (by simp)
  · refine hs.ownerGoesOn (n := s.threadsNum) hs.awake (by simp) ?_
    intro h
    cases h
    exact hrunning (hdestroying rfl)

theorem Calm.join (hs : s.Calm) (h : s.join = some u) : u.Calm := by
  unfold ThreadPool.join at h
  split at h
  · rename_i destroying i howner
    split_ifs at h with hi hdestroying
    · split at h
      · cases h
        exact hs.ownerGoesOn (n := s.threadsNum) hs.awake
          (fun _ _ _ => hs.joining destroying i howner) (by simp)
      · cases h
    · cases h
      exact hs.ownerGoesOn (n := s.threadsNum) hs.awake (by simp) (by simp)
    · cases h
      exact hs.ownerGoesOn (n := s.threadsNum) hs.awake (by simp) (by simp)
  · cases h

/-- A worker comes to sleep only after a test that has found `running_` set. -/
theorem Calm.not_waits (hs : s.Calm) (hpc : (s.pc w).waits = true) : s.running = true := by
  by_contra hrunning
  rw [Bool.not_eq_true] at hrunning
  have hw : w < s.threads := by
    by_contra hw
    rw [hs.unborn w (by omega)] at hpc
    cases hpc
  rw [hs.awake hrunning w hw] at hpc
  cases hpc

theorem Calm.seeks (hs : s.Calm) (h : s.Seeks w p u) : u.Calm := by
  obtain ⟨⟨mutex, rfl⟩, hborn, -, -, hwaits⟩ := h
  refine hs.goesOn hborn (fun hrunning => ?_) ⟨rfl, rfl, rfl⟩ rfl
  rw [← Bool.not_eq_true]
  intro hp
  have hset : s.running = true := (hwaits hp).elim hs.not_waits id
  rw [hrunning] at hset
  cases hset

theorem Calm.step {a : PoolAction F} (hs : s.Calm) (hends : s.EndsWell a)
    (h : s.next a = some u) : u.Calm := by
  unfold next at h
  split_ifs at h with hover
  cases a with
  | setThreadsnum n =>
    simp only [stepAction] at h
    split_ifs at h with howner
    cases h
    exact ⟨hs.awake, hs.unborn, hs.joining, hs.owner⟩
  | start =>
    simp only [stepAction] at h
    split_ifs at h
    cases h
    exact hs.ownerGoesOn (n := s.threadsNum) (by simp) (by simp) (by simp)
  | spawn => exact hs.spawn h
  | push cb woken => exact hs.push h
  | stop =>
    simp only [stepAction] at h
    split_ifs at h
    cases h
    exact hs.stop hends (by simp)
  | destroy =>
    simp only [stepAction] at h
    split_ifs at h
    cases h
    -- the destructor asserts that the pool runs
    exact hs.stop (fun _ => hends.2) fun _ => hends.1
  | join => exact hs.join h
  | loopTest w => exact (exists_seeks rfl h).elim fun p hp => hs.seeks hp
  | lock w => exact (exists_seeks rfl h).elim fun p hp => hs.seeks hp
  | waitTest w => exact (exists_seeks rfl h).elim fun p hp => hs.seeks hp
  | sleep w => exact (exists_seeks rfl h).elim fun p hp => hs.seeks hp
  | wake w => exact (exists_seeks rfl h).elim fun p hp => hs.seeks hp
  | take w =>
    simp only [stepAction, ThreadPool.take] at h
    split at h
    · rename_i hpc htasks
      cases h
      exact hs.goesOn (by simp [hpc]) (fun _ => rfl) ⟨rfl, rfl, rfl⟩ rfl
    · rename_i n task rest hpc htasks
      cases h
      exact hs.goesOn (p := .holding (some n) task) (by simp [hpc]) (fun _ => rfl)
        ⟨rfl, rfl, rfl⟩ rfl
    · cases h
  | call w =>
    simp only [stepAction, ThreadPool.call] at h
    split at h
    · cases h
      exact ⟨hs.awake, hs.unborn, hs.joining, hs.owner⟩
    · rename_i hpc
      cases h
      exact hs.goesOn (by simp [hpc]) (fun _ => rfl) ⟨rfl, rfl, rfl⟩ rfl
    · cases h

end ThreadPool

/-- **When a shutdown gets through.** While the pool is destroyed only when it runs, and stopped or
destroyed only when no worker sleeps or is about to, `stop` does not wait for a worker that sleeps,
and its assertion holds in the destructor. -/
theorem shutdown_gets_through {F : Type*} {s : ThreadPool F}
    (h : ((threadPools F).restrict ThreadPool.EndsWell).Reachable s) :
    ¬s.Stuck ∧ ¬s.DestructorTrips := by
  have hs : s.Calm := by
    refine h.invariant (fun s hs => ?_) fun s a u hs hn => ?_
    · rw [show s = .new from hs]
      exact ThreadPool.new_calm
    · obtain ⟨hends, hn⟩ := LTS.restrict_next.1 hn
      exact hs.step hends hn
  exact ⟨hs.not_stuck, hs.owner⟩

/-- The pool is destroyed while its worker is at the test of `threadFunc`. -/
theorem shutdown_gets_through_destroyed : ∃ s : ThreadPool ℕ,
    ((threadPools ℕ).restrict ThreadPool.EndsWell).Reachable s ∧ s.owner = .destroyed ∧
      s.threads = 1 ∧ ¬s.Stuck ∧ ¬s.DestructorTrips := by
  let acts : List (PoolAction ℕ) :=
    [.setThreadsnum 1, .start, .spawn, .spawn, .destroy, .loopTest 0, .join, .join]
  obtain ⟨s, hs, hend⟩ := Option.map_eq_some_iff.1 (by decide +kernel :
    (((threadPools ℕ).restrict ThreadPool.EndsWell).run .new acts).map
      (fun s => (s.owner, s.threads)) = some (.destroyed, 1))
  simp only [Prod.mk.injEq] at hend
  have hreachable := LTS.Reachable.of_run (.init rfl) acts hs
  exact ⟨s, hreachable, hend.1, hend.2, shutdown_gets_through hreachable⟩

/-- `stop` finds the worker asleep; and the destructor after `stop` fails its assertion. -/
theorem stuck_and_trips :
    (∃ s : ThreadPool ℕ, (threadPools ℕ).Reachable s ∧ s.Stuck) ∧
      ∃ s : ThreadPool ℕ, (threadPools ℕ).Reachable s ∧ s.DestructorTrips := by
  constructor
  · let acts : List (PoolAction ℕ) :=
      [.setThreadsnum 1, .start, .spawn, .spawn, .loopTest 0, .lock 0, .waitTest 0, .sleep 0, .stop]
    obtain ⟨s, hs, hend⟩ := Option.map_eq_some_iff.1 (by decide +kernel :
      ((threadPools ℕ).run .new acts).map
        (fun s => (s.owner, s.threads, s.pc 0, s.running)) =
          some (.joining false 0, 1, .asleep, false))
    simp only [Prod.mk.injEq] at hend
    obtain ⟨howner, hthreads, hpc, hrunning⟩ := hend
    exact ⟨s, LTS.Reachable.of_run (.init rfl) acts hs, false, 0, howner, by omega, hpc, hrunning⟩
  · let acts : List (PoolAction ℕ) :=
      [.setThreadsnum 1, .start, .spawn, .spawn, .stop, .loopTest 0, .join, .join, .destroy]
    obtain ⟨s, hs, hend⟩ := Option.map_eq_some_iff.1 (by decide +kernel :
      ((threadPools ℕ).run .new acts).map (fun s => s.owner) = some (.aborted true))
    exact ⟨s, LTS.Reachable.of_run (.init rfl) acts hs, hend⟩

end Jiangbo
