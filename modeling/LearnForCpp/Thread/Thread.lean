import LearnForCpp.Lib.SharedCell
import LearnForCpp.Lib.Transition

/-!
# `Thread`

`thread/Thread.cc`: a `Thread` object, its owner, and the thread that `start` creates, which runs
`startThread` on a `ThreadData` of its own.  The two share the `pid_t` behind `tid_`: the object
owns it, and the thread holds a weak pointer that `runInThread` locks to write to it.  The access to
the `pid_t` is taken to be atomic.

The owner calls the member functions one after another, in any order, and destroys the object at
any time; a violated assertion ends the run.  Where the thread stands in `startThread` is a
`ThreadPc`; the next step of the thread may come at any time.
-/

namespace Jiangbo

/-- Where the thread stands. -/
inductive ThreadPc
  /-- Before `wkTid_.lock()`. -/
  | lock
  /-- Before `*ptid = tid`. -/
  | store
  /-- Before `ptid.reset()`. -/
  | reset
  /-- Before `t_threadName` is set. -/
  | setName
  /-- Before `func_()`. -/
  | call
  /-- In `func_()`. -/
  | func
  /-- After `func_()`. -/
  | finish
  /-- Before `delete data`. -/
  | delete
  | exited
  deriving DecidableEq

/-- What a thread handle is good for. -/
inductive ThreadHandle
  /-- There is no thread. -/
  | none
  | joinable
  | joined
  | detached
  deriving DecidableEq

/-- Where `t_threadName` points. -/
inductive ThreadName
  /-- To a string literal. -/
  | literal
  /-- Into `name_` of the `ThreadData`. -/
  | data
  deriving DecidableEq

/-- The owner of a `Thread` object. -/
inductive ThreadOwner
  | using
  /-- In `pthread_join`. -/
  | joining
  /-- The object is destroyed. -/
  | gone
  deriving DecidableEq

/-- How a run ends. -/
inductive ThreadFault
  /-- `assert(!started_)` in `start`. -/
  | assertNotStarted
  /-- `assert(started_)` in `join`. -/
  | assertStarted
  /-- `assert(!joined_)` in `join`. -/
  | assertNotJoined
  /-- `pthread_create` fails, and `start` aborts. -/
  | abort
  /-- An access to a deleted object, or a second `delete`. -/
  | useAfterFree
  /-- `pthread_join` or `pthread_detach` of what is no joinable thread. -/
  | notJoinable
  deriving DecidableEq

structure ThreadSystem where
  owner : ThreadOwner
  /-- `name_` is not empty. -/
  named : Bool
  started : Bool
  joined : Bool
  /-- What `tid_` and `wkTid_` point to. -/
  tid : SharedCell ℤ
  handle : ThreadHandle
  /-- `CurrentThread::tid()` in the thread. -/
  number : ℤ
  pc : ThreadPc
  /-- The `ThreadData` exists. -/
  data : Bool
  threadName : ThreadName
  /-- The calls of `func_`. -/
  calls : ℕ
  failed : Option ThreadFault
  deriving DecidableEq

inductive ThreadSystemAction
  /-- `start()`: whether `pthread_create` creates a thread, and the number of the thread. -/
  | start (created : Bool) (number : ℤ)
  | join
  /-- The return of `pthread_join`. -/
  | joinReturn
  /-- `~Thread()`. -/
  | destroy
  /-- The next step of the thread. -/
  | step
  deriving DecidableEq

namespace ThreadSystem

/-- After the constructor. -/
def new (named : Bool) : ThreadSystem where
  owner := .using
  named := named
  started := false
  joined := false
  tid := .new 0
  handle := .none
  number := 0
  pc := .lock
  data := false
  threadName := .literal
  calls := 0
  failed := none

def fail (e : ThreadFault) (s : ThreadSystem) : ThreadSystem := { s with failed := some e }

def start (created : Bool) (number : ℤ) (s : ThreadSystem) : ThreadSystem :=
  if s.started then s.fail .assertNotStarted
  else
    let s := { s with started := true, data := true }
    if created then { s with handle := .joinable, number }
    else { s with started := false, data := false }.fail .abort

def join (s : ThreadSystem) : ThreadSystem :=
  if !s.started then s.fail .assertStarted
  else if s.joined then s.fail .assertNotJoined
  else
    let s := { s with joined := true }
    if s.handle = .joinable then { s with owner := .joining } else s.fail .notJoinable

/-- `pthread_detach`, where the destructor calls it. -/
def detach (s : ThreadSystem) : ThreadSystem :=
  if s.started && !s.joined then
    if s.handle = .joinable then { s with handle := .detached } else s.fail .notJoinable
  else s

/-- `tid_` or `ptid` lets go of the `pid_t`. -/
def release (s : ThreadSystem) : ThreadSystem :=
  match s.tid.release with
  | some tid => { s with tid }
  | none => s.fail .useAfterFree

/-- `~Thread()`: its body, and then the members. -/
def destroy (s : ThreadSystem) : ThreadSystem := { s.detach.release with owner := .gone }

/-- One step of the thread, whose every access to its `ThreadData` needs it. -/
def step (s : ThreadSystem) : ThreadSystem :=
  match s.pc with
  | .lock =>
      if s.data then
        { s with tid := s.tid.lock.2, pc := if s.tid.lock.1 then .store else .setName }
      else s.fail .useAfterFree
  | .store =>
      match s.tid.set s.number with
      | some tid => { s with tid, pc := .reset }
      | none => s.fail .useAfterFree
  | .reset => { s.release with pc := .setName }
  | .setName =>
      if s.data then { s with threadName := if s.named then .data else .literal, pc := .call }
      else s.fail .useAfterFree
  | .call =>
      if s.data then { s with calls := s.calls + 1, pc := .func } else s.fail .useAfterFree
  | .func => { s with pc := .finish }
  | .finish => { s with threadName := .literal, pc := .delete }
  | .delete => if s.data then { s with data := false, pc := .exited } else s.fail .useAfterFree
  | .exited => s

def next (s : ThreadSystem) (a : ThreadSystemAction) : Option ThreadSystem :=
  if s.failed.isSome then none
  else
    match a, s.owner with
    | .start created number, .using => some (s.start created number)
    | .join, .using => some s.join
    | .joinReturn, .joining =>
        if s.pc = .exited then some { s with handle := .joined, owner := .using } else none
    | .destroy, .using => some s.destroy
    | .step, _ => if s.handle ≠ .none ∧ s.pc ≠ .exited then some s.step else none
    | _, _ => none

end ThreadSystem

/-- The runs of a `Thread` object. -/
def threadSystems : LTS ThreadSystem ThreadSystemAction where
  init s := ∃ named, s = .new named
  next := ThreadSystem.next

namespace ThreadSystem

variable {s t : ThreadSystem} {a : ThreadSystemAction}

/-! ### The invariant -/

/-- The handle that belongs to the flags. -/
def handleOf : ThreadOwner → Bool → Bool → ThreadHandle
  | _, false, _ => .none
  | .using, true, false => .joinable
  | .using, true, true => .joined
  | .joining, true, _ => .joinable
  | .gone, true, false => .detached
  | .gone, true, true => .joined

/-- `ptid` owns the `pid_t`. -/
def locked (s : ThreadSystem) : Bool := s.pc = .store ∨ s.pc = .reset

/-- What holds as long as nothing has failed. -/
structure Inv (s : ThreadSystem) : Prop where
  handle : s.handle = handleOf s.owner s.started s.joined
  flags : s.joined = true → s.started = true
  joining : s.owner = .joining → s.joined = true
  unstarted : s.handle = .none → s.pc = .lock
  returned : s.handle = .joined → s.pc = .exited
  owners : s.tid.owners = (if s.owner = .gone then 0 else 1) + s.locked.toNat
  number : s.owner ≠ .gone → s.pc ≠ .lock → s.pc ≠ .store → s.tid.get = some s.number
  data : s.data = true ↔ s.handle ≠ .none ∧ s.pc ≠ .exited
  name : s.threadName = .data → s.pc = .call ∨ s.pc = .func ∨ s.pc = .finish
  calls : s.calls = if s.pc = .func ∨ s.pc = .finish ∨ s.pc = .delete ∨ s.pc = .exited then 1 else 0

theorem new_inv (named : Bool) : (new named).Inv where
  handle := rfl
  flags h := nomatch h
  joining h := nomatch h
  unstarted _ := rfl
  returned h := nomatch h
  owners := rfl
  number _ h := absurd rfl h
  data := by simp [new]
  name h := nomatch h
  calls := rfl

/-- A run that has failed has done so by a wrong call, or because there was no thread to be had. -/
def Misused (s : ThreadSystem) : Prop :=
  s.failed = some .assertNotStarted ∨ s.failed = some .assertStarted ∨
    s.failed = some .assertNotJoined ∨ s.failed = some .abort

/-- The cases of a step, with their guards. -/
inductive Moves (s : ThreadSystem) : ThreadSystemAction → ThreadSystem → Prop
  | start {created : Bool} {number : ℤ} (hw : s.owner = .using) :
      Moves s (.start created number) (s.start created number)
  | join (hw : s.owner = .using) : Moves s .join s.join
  | joinReturn (hw : s.owner = .joining) (hpc : s.pc = .exited) :
      Moves s .joinReturn { s with handle := .joined, owner := .using }
  | destroy (hw : s.owner = .using) : Moves s .destroy s.destroy
  | step (hhandle : s.handle ≠ .none) (hpc : s.pc ≠ .exited) : Moves s .step s.step

theorem next_moves (h : s.next a = some t) : s.failed = none ∧ Moves s a t := by
  unfold next at h
  by_cases hf : s.failed.isSome = true
  · rw [if_pos hf] at h
    cases h
  rw [if_neg hf] at h
  refine ⟨by simpa using hf, ?_⟩
  split at h
  · cases h
    exact .start ‹_›
  · cases h
    exact .join ‹_›
  · split_ifs at h with hpc
    cases h
    exact .joinReturn ‹_› hpc
  · cases h
    exact .destroy ‹_›
  · split_ifs at h with hstep
    cases h
    exact .step hstep.1 hstep.2
  · cases h

/-! ### What the owner does -/

theorem Inv.start {created : Bool} {number : ℤ} (hs : s.Inv) (hf : s.failed = none)
    (hw : s.owner = .using) : ((s.start created number).failed = none ∧
      (s.start created number).Inv) ∨ (s.start created number).Misused := by
  by_cases hstarted : s.started = true
  · rw [ThreadSystem.start, if_pos hstarted]
    exact .inr (.inl rfl)
  rw [ThreadSystem.start, if_neg hstarted]
  cases created with
  | false => exact .inr (.inr (.inr (.inr rfl)))
  | true =>
    have hjoined : s.joined = false := by simpa using mt hs.flags hstarted
    have hhandle : s.handle = .none := by
      rw [hs.handle, Bool.eq_false_of_not_eq_true hstarted]
      cases s.owner <;> rfl
    have hpc := hs.unstarted hhandle
    refine .inl ⟨hf, ?_⟩
    exact
      { handle := by simp [handleOf, hw, hjoined]
        flags := fun _ => rfl
        joining := hs.joining
        unstarted := fun h => nomatch h
        returned := fun h => nomatch h
        owners := hs.owners
        number := fun _ h => absurd hpc h
        data := by simp [hpc]
        name := hs.name
        calls := hs.calls }

theorem Inv.join (hs : s.Inv) (hf : s.failed = none) (hw : s.owner = .using) :
    (s.join.failed = none ∧ s.join.Inv) ∨ s.join.Misused := by
  by_cases hstarted : s.started = true
  · by_cases hjoined : s.joined = true
    · have hjoin : s.join = s.fail .assertNotJoined := by
        rw [ThreadSystem.join, hstarted, if_pos hjoined]
        rfl
      rw [hjoin]
      exact .inr (.inr (.inr (.inl rfl)))
    · have hhandle : s.handle = .joinable := by
        rw [hs.handle, hw, hstarted, Bool.eq_false_of_not_eq_true hjoined]
        rfl
      have hjoin : s.join = { s with joined := true, owner := .joining } := by
        rw [ThreadSystem.join, hstarted, if_neg hjoined]
        exact if_pos hhandle
      rw [hjoin]
      refine .inl ⟨hf, ?_⟩
      exact
        { handle := by simp [handleOf, hhandle, hstarted]
          flags := fun _ => hstarted
          joining := fun _ => rfl
          unstarted := hs.unstarted
          returned := hs.returned
          owners := by rw [hs.owners, hw]; rfl
          number := fun _ => hs.number (by simp [hw])
          data := hs.data
          name := hs.name
          calls := hs.calls }
  · have hjoin : s.join = s.fail .assertStarted := by
      rw [ThreadSystem.join, Bool.eq_false_of_not_eq_true hstarted]
      rfl
    rw [hjoin]
    exact .inr (.inr (.inl rfl))

theorem Inv.joinReturn (hs : s.Inv) (hw : s.owner = .joining) (hpc : s.pc = .exited) :
    { s with handle := .joined, owner := .using }.Inv := by
  have hjoined := hs.joining hw
  have hstarted := hs.flags hjoined
  have hhandle : s.handle = .joinable := by rw [hs.handle, hw, hstarted]; rfl
  exact
    { handle := by simp [handleOf, hstarted, hjoined]
      flags := hs.flags
      joining := fun h => nomatch h
      unstarted := fun h => nomatch h
      returned := fun _ => hpc
      owners := by rw [hs.owners, hw]; rfl
      number := fun _ => hs.number (by simp [hw])
      data := by simpa [hhandle] using hs.data
      name := hs.name
      calls := hs.calls }

theorem handleOf_gone (started joined : Bool) :
    (handleOf .gone started joined = .none ↔ handleOf .using started joined = .none) ∧
      (handleOf .gone started joined = .joined ↔ handleOf .using started joined = .joined) := by
  cases started <;> cases joined <;> decide

/-- `~Thread()` detaches a thread that was not joined. -/
theorem Inv.detach (hs : s.Inv) (hw : s.owner = .using) :
    s.detach = { s with handle := handleOf .gone s.started s.joined } := by
  have hhandle := hs.handle
  rw [hw] at hhandle
  by_cases h : s.started = true ∧ s.joined = false
  · have hjoinable : s.handle = .joinable := by rw [hhandle, h.1, h.2]; rfl
    rw [ThreadSystem.detach, if_pos (by simp [h]), if_pos hjoinable, h.1, h.2]
    rfl
  · have hsame : handleOf .gone s.started s.joined = s.handle := by
      rw [hhandle]
      revert h
      cases s.started <;> cases s.joined <;> decide
    rw [ThreadSystem.detach, if_neg (by simpa using h), hsame]

/-- One owner less of the `pid_t`. -/
theorem exists_release (h : 0 < s.tid.owners) : ∃ tid, s.release = { s with tid := tid } ∧
    tid.owners + 1 = s.tid.owners ∧ (0 < tid.owners → tid.get = s.tid.get) := by
  obtain ⟨tid, htid, howners, hget⟩ := SharedCell.exists_release h
  exact ⟨tid, by rw [release, htid], howners, hget⟩

theorem Inv.destroy (hs : s.Inv) (hf : s.failed = none) (hw : s.owner = .using) :
    s.destroy.failed = none ∧ s.destroy.Inv := by
  have howners := hs.owners
  rw [if_neg (by simp [hw])] at howners
  obtain ⟨tid, htid, hless, -⟩ := exists_release (s := s.detach) (by
    rw [hs.detach hw]
    change 0 < s.tid.owners
    omega)
  rw [hs.detach hw] at htid hless
  have hdestroy : s.destroy = { s with
      owner := .gone, handle := handleOf .gone s.started s.joined, tid := tid } := by
    rw [ThreadSystem.destroy, hs.detach hw, htid]
  rw [hdestroy]
  have hhandle := hs.handle
  rw [hw] at hhandle
  obtain ⟨hnone, hjoined⟩ := handleOf_gone s.started s.joined
  rw [← hhandle] at hnone hjoined
  refine ⟨hf, ?_⟩
  exact
    { handle := rfl
      flags := hs.flags
      joining := fun h => nomatch h
      unstarted := fun h => hs.unstarted (hnone.1 h)
      returned := fun h => hs.returned (hjoined.1 h)
      owners := by
        change tid.owners + 1 = s.tid.owners at hless
        change tid.owners = 0 + s.locked.toNat
        omega
      number := fun h => absurd rfl h
      data := hs.data.trans (and_congr_left' (not_congr hnone.symm))
      name := hs.name
      calls := hs.calls }

/-! ### What the thread does -/

/-- The thread goes on to `pc`, and the owner does not notice. -/
theorem Inv.goesOn {tid : SharedCell ℤ} {pc : ThreadPc} {data : Bool} {threadName : ThreadName}
    {calls : ℕ} (hs : s.Inv) (hhandle : s.handle ≠ .none) (hpc : s.pc ≠ .exited)
    (howners : tid.owners = (if s.owner = .gone then 0 else 1) +
      (decide (pc = .store ∨ pc = .reset)).toNat)
    (hnumber : s.owner ≠ .gone → pc ≠ .lock → pc ≠ .store → tid.get = some s.number)
    (hdata : data = true ↔ pc ≠ .exited)
    (hname : threadName = .data → pc = .call ∨ pc = .func ∨ pc = .finish)
    (hcalls : calls = if pc = .func ∨ pc = .finish ∨ pc = .delete ∨ pc = .exited then 1 else 0) :
    Inv { s with tid := tid, pc := pc, data := data, threadName := threadName,
                 calls := calls } where
  handle := hs.handle
  flags := hs.flags
  joining := hs.joining
  unstarted h := absurd h hhandle
  returned h := absurd (hs.returned h) hpc
  owners := howners
  number := hnumber
  data := hdata.trans (and_iff_right hhandle).symm
  name := hname
  calls := hcalls

/-- The steps that the thread has left, at most. -/
def left : ThreadPc → ℕ
  | .lock => 8
  | .store => 7
  | .reset => 6
  | .setName => 5
  | .call => 4
  | .func => 3
  | .finish => 2
  | .delete => 1
  | .exited => 0

/-- A step of the thread finds what it needs, and brings it closer to its end. -/
structure Advances (s t : ThreadSystem) : Prop where
  failed : t.failed = none
  inv : t.Inv
  left : left t.pc < left s.pc
  handle : t.handle = s.handle
  owner : t.owner = s.owner

/-- `wkTid_.lock()` succeeds exactly if the `Thread` object still exists. -/
theorem Inv.lock (hs : s.Inv) (hf : s.failed = none) (hhandle : s.handle ≠ .none)
    (hpc : s.pc ≠ .exited) (hp : s.pc = .lock) : Advances s s.step := by
  have hdata : s.data = true := hs.data.2 ⟨hhandle, hpc⟩
  have howners := hs.owners
  have hcalls := hs.calls
  have hname := hs.name
  have hlock := SharedCell.owners_lock (c := s.tid)
  simp only [locked, hp, reduceCtorEq, or_self, decide_false, Bool.toNat_false, add_zero, if_false]
    at howners hcalls hname
  have hgone : s.tid.lock.1 = true ↔ s.owner ≠ .gone := by
    rw [SharedCell.lock_fst, howners]
    split_ifs with h <;> simp [h]
  have hstep : s.step = { s with
      tid := s.tid.lock.2, pc := if s.tid.lock.1 then .store else .setName } := by
    rw [ThreadSystem.step, hp]
    exact if_pos hdata
  rw [hstep]
  refine ⟨hf, hs.goesOn hhandle hpc ?_ (fun h _ h2 => ?_) ?_ (fun h => (hname h).elim) ?_, ?_, rfl,
    rfl⟩
  · rw [hlock, howners]
    by_cases h : s.owner = .gone
    · have h1 := mt hgone.1 (not_not.2 h)
      simp [h, h1]
    · simp [h, hgone.2 h]
  · rw [if_pos (hgone.2 h)] at h2
    exact absurd rfl h2
  · refine iff_of_true hdata ?_
    split_ifs <;> simp
  · rw [hcalls]
    split_ifs <;> simp_all
  · rw [hp]
    split_ifs <;> simp [ThreadSystem.left]

theorem Inv.step (hs : s.Inv) (hf : s.failed = none) (hhandle : s.handle ≠ .none)
    (hpc : s.pc ≠ .exited) : Advances s s.step := by
  have hdata : s.data = true := hs.data.2 ⟨hhandle, hpc⟩
  have howners := hs.owners
  have hnumber := hs.number
  have hname := hs.name
  have hcalls := hs.calls
  cases hp : s.pc with
  | lock => exact hs.lock hf hhandle hpc hp
  | store =>
    simp only [locked, hp, reduceCtorEq, true_or, decide_true, Bool.toNat_true, or_self, if_false]
      at howners hcalls hname
    obtain ⟨tid, hset, hsame, hget⟩ := SharedCell.exists_set (c := s.tid) (by omega) s.number
    have hstep : s.step = { s with tid := tid, pc := .reset } := by
      simp only [ThreadSystem.step, hp, hset]
    rw [hstep]
    exact ⟨hf, hs.goesOn hhandle hpc (by rw [hsame, howners]; rfl) (fun _ _ _ => hget)
      (by simp [hdata]) (fun h => (hname h).elim) hcalls, by simp [hp, ThreadSystem.left], rfl, rfl⟩
  | reset =>
    simp only [locked, hp, reduceCtorEq, or_true, decide_true, Bool.toNat_true, or_self, if_false]
      at howners hcalls hname
    obtain ⟨tid, hrelease, hless, hget⟩ := exists_release (s := s) (by omega)
    have hstep : s.step = { s with tid := tid, pc := .setName } := by
      simp only [ThreadSystem.step, hp, hrelease]
    rw [hstep]
    refine ⟨hf, hs.goesOn hhandle hpc ?_ (fun h _ _ => ?_) (by simp [hdata])
      (fun h => (hname h).elim) hcalls, by simp [hp, ThreadSystem.left], rfl, rfl⟩
    · simp only [reduceCtorEq, or_self, decide_false, Bool.toNat_false]
      omega
    · rw [if_neg h] at howners
      rw [hget (by omega)]
      exact hnumber h (by simp [hp]) (by simp [hp])
  | setName =>
    simp only [locked, hp, reduceCtorEq, or_self, decide_false, if_false] at howners hcalls
    have hstep : s.step = { s with
        threadName := if s.named then .data else .literal, pc := .call } := by
      simp only [ThreadSystem.step, hp, hdata, if_true]
    rw [hstep]
    exact ⟨hf, hs.goesOn hhandle hpc howners (fun h _ _ => hnumber h (by simp [hp]) (by simp [hp]))
      (by simp [hdata]) (fun _ => .inl rfl) hcalls,
      by simp [hp, ThreadSystem.left], rfl, rfl⟩
  | call =>
    simp only [locked, hp, reduceCtorEq, or_self, decide_false, if_false] at howners hcalls
    have hstep : s.step = { s with calls := s.calls + 1, pc := .func } := by
      simp only [ThreadSystem.step, hp, hdata, if_true]
    rw [hstep, hcalls]
    exact ⟨hf, hs.goesOn hhandle hpc howners (fun h _ _ => hnumber h (by simp [hp]) (by simp [hp]))
      (by simp [hdata]) (fun _ => .inr (.inl rfl)) rfl,
      by simp [hp, ThreadSystem.left], rfl, rfl⟩
  | func =>
    simp only [locked, hp, reduceCtorEq, or_self, decide_false, true_or, if_true]
      at howners hcalls
    have hstep : s.step = { s with pc := .finish } := by simp only [ThreadSystem.step, hp]
    rw [hstep]
    exact ⟨hf, hs.goesOn hhandle hpc howners (fun h _ _ => hnumber h (by simp [hp]) (by simp [hp]))
      (by simp [hdata]) (fun _ => .inr (.inr rfl)) hcalls,
      by simp [hp, ThreadSystem.left], rfl, rfl⟩
  | finish =>
    simp only [locked, hp, reduceCtorEq, or_self, decide_false, true_or, or_true, if_true]
      at howners hcalls
    have hstep : s.step = { s with threadName := .literal, pc := .delete } := by
      simp only [ThreadSystem.step, hp]
    rw [hstep]
    exact ⟨hf, hs.goesOn hhandle hpc howners (fun h _ _ => hnumber h (by simp [hp]) (by simp [hp]))
      (by simp [hdata]) (fun h => nomatch h) hcalls,
      by simp [hp, ThreadSystem.left], rfl, rfl⟩
  | delete =>
    simp only [locked, hp, reduceCtorEq, or_self, decide_false, true_or, or_true, if_true]
      at howners hcalls hname
    have hstep : s.step = { s with data := false, pc := .exited } := by
      simp only [ThreadSystem.step, hp, hdata, if_true]
    rw [hstep]
    exact ⟨hf, hs.goesOn hhandle hpc howners (fun h _ _ => hnumber h (by simp [hp]) (by simp [hp]))
      (by simp) (fun h => (hname h).elim) hcalls,
      by simp [hp, ThreadSystem.left], rfl, rfl⟩
  | exited => exact absurd hp hpc

/-- Every step keeps the invariant, or is a misuse. -/
theorem Inv.next (hs : s.Inv) (h : s.next a = some t) : (t.failed = none ∧ t.Inv) ∨ t.Misused := by
  obtain ⟨hf, hmoves⟩ := next_moves h
  cases hmoves with
  | start hw => exact hs.start hf hw
  | join hw => exact hs.join hf hw
  | joinReturn hw hpc => exact .inl ⟨hf, hs.joinReturn hw hpc⟩
  | destroy hw => exact .inl (hs.destroy hf hw)
  | step hhandle hpc =>
    have hstep := hs.step hf hhandle hpc
    exact .inl ⟨hstep.failed, hstep.inv⟩

theorem inv_of_reachable (h : threadSystems.Reachable s) :
    (s.failed = none ∧ s.Inv) ∨ s.Misused := by
  refine h.invariant (I := fun s => (s.failed = none ∧ s.Inv) ∨ s.Misused) (fun s h0 => ?_)
    fun s a t hs hn => ?_
  · obtain ⟨named, rfl⟩ := h0
    exact .inl ⟨rfl, new_inv named⟩
  · change s.next a = some t at hn
    have hf := (next_moves hn).1
    rcases hs with hs | hs
    · exact hs.2.next hn
    · simp [Misused, hf] at hs

/-! ### The thread comes to its end -/

/-- Alone, the thread runs to its end. -/
theorem Inv.leads_exited (hs : s.Inv) (hf : s.failed = none) (hhandle : s.handle ≠ .none) :
    ∃ t, threadSystems.Leads (· = .step) s t ∧ t.pc = .exited ∧ t.failed = none ∧
      t.owner = s.owner := by
  induction hn : left s.pc using Nat.strong_induction_on generalizing s with
  | _ n ih =>
    by_cases hpc : s.pc = .exited
    · exact ⟨s, .refl s, hpc, hf, rfl⟩
    · have hstep := hs.step hf hhandle hpc
      have hnext : threadSystems.next s .step = some s.step := by
        change s.next .step = _
        rw [ThreadSystem.next, hf]
        simp [hhandle, hpc]
      obtain ⟨t, hleads, hexit, hft, howner⟩ := ih _ (hn ▸ hstep.left) hstep.inv hstep.failed
        (hstep.handle ▸ hhandle) rfl
      have hfirst : threadSystems.Leads (· = .step) s s.step := .single rfl hnext
      exact ⟨t, hfirst.trans hleads, hexit, hft, howner.trans hstep.owner⟩

/-- What a `Thread` guarantees while nothing has failed. -/
structure Kept (s : ThreadSystem) : Prop where
  /-- The `pid_t` lives as long as the object, or until the thread has written to it. -/
  tid : s.tid = .deleted ↔ s.owner = .gone ∧ s.pc ≠ .store ∧ s.pc ≠ .reset
  /-- The `ThreadData` lives from `start` until the thread deletes it at its end. -/
  data : s.data = true ↔ s.handle ≠ .none ∧ s.pc ≠ .exited
  /-- The name of the thread does not outlive it. -/
  name : s.threadName = .data → s.data = true
  once : s.calls ≤ 1
  /-- A thread at its end, joined or detached, has called the function. -/
  exited : s.pc = .exited → s.calls = 1
  /-- A thread that was made comes to its end by itself. -/
  ends : s.handle ≠ .none → ∃ t, threadSystems.Leads (· = .step) s t ∧ t.pc = .exited ∧
    t.failed = none
  /-- After `join` the function has been called, and `tid()` is the number of the thread. -/
  joined : s.handle = .joined → s.pc = .exited ∧ s.calls = 1 ∧
    (s.owner ≠ .gone → s.tid.get = some s.number)
  /-- The destructor leaves no thread that somebody would have to join. -/
  gone : s.owner = .gone → s.handle ≠ .joinable
  /-- A `join` that waits can return, when the thread has gone on by itself. -/
  returns : s.owner = .joining → ∃ t, threadSystems.Leads (· = .step) s t ∧
    (t.next .joinReturn).isSome = true

theorem Inv.kept (hs : s.Inv) (hf : s.failed = none) : s.Kept where
  tid := by
    rw [← SharedCell.owners_eq_zero, hs.owners, locked]
    by_cases h1 : s.owner = .gone <;> by_cases h2 : s.pc = .store <;>
      by_cases h3 : s.pc = .reset <;> simp [h1, h2, h3]
  data := hs.data
  name h := by
    rw [hs.data]
    have hpc := hs.name h
    refine ⟨fun hnone => ?_, fun hexit => ?_⟩
    · rw [hs.unstarted hnone] at hpc
      simp at hpc
    · rw [hexit] at hpc
      simp at hpc
  once := by
    rw [hs.calls]
    split_ifs <;> decide
  exited h := by simp [hs.calls, h]
  ends h := by
    obtain ⟨t, hleads, hexit, hft, -⟩ := hs.leads_exited hf h
    exact ⟨t, hleads, hexit, hft⟩
  joined h := by
    have hpc := hs.returned h
    refine ⟨hpc, by simp [hs.calls, hpc], fun hw => ?_⟩
    exact hs.number hw (by simp [hpc]) (by simp [hpc])
  gone h := by
    rw [hs.handle, h]
    cases s.started <;> cases s.joined <;> decide
  returns h := by
    have hhandle : s.handle ≠ .none := by
      rw [hs.handle, h, hs.flags (hs.joining h)]
      exact nofun
    obtain ⟨t, hleads, hexit, hft, howner⟩ := hs.leads_exited hf hhandle
    exact ⟨t, hleads, by simp [ThreadSystem.next, hft, howner.trans h, hexit]⟩

end ThreadSystem

/-- **The life of a thread.** Under every interleaving of the owner's calls, destruction included,
with the steps of the new thread: no access to a deleted object, no `pthread_join` or
`pthread_detach` of what is no joinable thread; and unless the owner has called `start` or `join`
out of turn, or there was no thread to be had, what `Kept` says. -/
theorem thread_lifecycle {s : ThreadSystem} (h : threadSystems.Reachable s) :
    s.failed ≠ some .useAfterFree ∧ s.failed ≠ some .notJoinable ∧
      (s.failed = none → s.Kept) := by
  rcases ThreadSystem.inv_of_reachable h with ⟨hf, hs⟩ | hs
  · exact ⟨by simp [hf], by simp [hf], fun _ => hs.kept hf⟩
  · rcases hs with hs | hs | hs | hs <;> simp [hs]

/-- The object is destroyed while the thread owns the `pid_t`. -/
def destroyedEarly : List ThreadSystemAction :=
  [.start true 7, .step, .destroy, .step, .step, .step, .step, .step, .step, .step]

theorem thread_lifecycle_destroyed_early : ∃ s,
    threadSystems.run (.new true) destroyedEarly = some s ∧ s.tid = .deleted ∧ s.data = false ∧
      s.calls = 1 := by
  obtain ⟨s, hrun, hfailed, hpc, hw⟩ : ∃ s, threadSystems.run (.new true) destroyedEarly = some s ∧
      s.failed = none ∧ s.pc = .exited ∧ s.owner = .gone := by
    obtain ⟨s, hs, h⟩ := Option.map_eq_some_iff.1 (by decide +kernel :
      (threadSystems.run (.new true) destroyedEarly).map
        (fun s => decide (s.failed = none ∧ s.pc = .exited ∧ s.owner = .gone)) = some true)
    exact ⟨s, hs, of_decide_eq_true h⟩
  have h := (thread_lifecycle (.of_run (.init ⟨true, rfl⟩) destroyedEarly hrun)).2.2 hfailed
  refine ⟨s, hrun, h.tid.2 ⟨hw, by simp [hpc], by simp [hpc]⟩, ?_, h.exited hpc⟩
  have hdata := h.data
  simpa [hpc] using hdata

end Jiangbo
