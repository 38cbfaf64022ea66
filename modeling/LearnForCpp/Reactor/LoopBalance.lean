import LearnForCpp.Reactor.TcpServer
import Mathlib.Data.Int.CardIntervalMod

/-!
# How the loops of a pool are handed out

`getNextLoop` of `reactor/EventLoopThreadPool.cc`, call after call.  `newConnection` of
`reactor/TcpServer.cc` takes a loop for each connection and `Client` of `example/pingpong_client.cc`
one for each session: `next_loops_balanced` says that any stretch of calls spreads them evenly.
-/

namespace Jiangbo

namespace EventLoopThreadPool

/-- `getNextLoop()` in the thread `tid`; there is no loop when the assertion fails. -/
def getNextLoop (tid : Tid) (p : EventLoopThreadPool) : Option (LoopPtr × EventLoopThreadPool) :=
  if p.baseLoop.isInLoopThread tid then some (p.nextLoop, p.advance) else none

/-- Calls one after the other. -/
def getNextLoops (tid : Tid) : ℕ → EventLoopThreadPool →
    Option (List LoopPtr × EventLoopThreadPool)
  | 0, p => some ([], p)
  | m + 1, p =>
      (p.getNextLoop tid).bind fun r =>
        (getNextLoops tid m r.2).map fun r' => (r.1 :: r'.1, r'.2)

variable {tid : Tid} {p : EventLoopThreadPool} {k : ℕ}

/-- The loop of call number `k`. -/
def loopAt (p : EventLoopThreadPool) (k : ℕ) : LoopPtr :=
  p.loops.getD (k % p.loops.length) p.baseLoop

/-- `k` calls have been made. -/
def Made (k : ℕ) (p : EventLoopThreadPool) : Prop := p.loops = [] ∨ p.next = k % p.loops.length

theorem Made.nextLoop (h : p.Made k) : p.nextLoop = p.loopAt k := by
  rcases h with h | h
  · simp [EventLoopThreadPool.nextLoop, loopAt, h]
  · rw [EventLoopThreadPool.nextLoop, h, loopAt]

theorem advance_loops : p.advance.loops = p.loops ∧ p.advance.baseLoop = p.baseLoop := by
  unfold advance
  split_ifs <;> exact ⟨rfl, rfl⟩

theorem Made.advance (h : p.Made k) : p.advance.Made (k + 1) := by
  by_cases hloops : p.loops = []
  · exact .inl (advance_loops.1.trans hloops)
  · right
    have hpos := List.length_pos_iff.2 hloops
    have hlt := Nat.mod_lt k hpos
    rw [advance_loops.1, EventLoopThreadPool.advance, if_neg hloops, h.resolve_left hloops]
    dsimp only
    rw [← Nat.mod_add_mod]
    split_ifs with hlast
    · rw [Nat.le_antisymm (by omega : k % p.loops.length + 1 ≤ p.loops.length) hlast, Nat.mod_self]
    · rw [Nat.mod_eq_of_lt (not_le.1 hlast)]

/-- The loops of `m` calls. -/
theorem Made.getNextLoops (h : p.Made k) (hbase : p.baseLoop.isInLoopThread tid = true) (m : ℕ) :
    ∃ q, p.getNextLoops tid m = some ((List.range m).map fun j => p.loopAt (k + j), q) ∧
      q.Made (k + m) ∧ q.loops = p.loops ∧ q.baseLoop = p.baseLoop := by
  induction m generalizing p k with
  | zero => exact ⟨p, rfl, h, rfl, rfl⟩
  | succ m ih =>
    obtain ⟨hloops, hbaseLoop⟩ := advance_loops (p := p)
    obtain ⟨q, hq, hmade, hqloops, hqbase⟩ := ih h.advance (hbaseLoop ▸ hbase)
    refine ⟨q, ?_, ?_, hqloops.trans hloops, hqbase.trans hbaseLoop⟩
    · have hshift : ∀ j, p.advance.loopAt (k + 1 + j) = p.loopAt (k + (j + 1)) := by
        intro j
        rw [loopAt, loopAt, hloops, hbaseLoop, Nat.add_assoc, Nat.add_comm 1 j]
      rw [EventLoopThreadPool.getNextLoops, getNextLoop, if_pos hbase, Option.bind_some, hq,
        Option.map_some, List.range_succ_eq_map, List.map_cons, List.map_map, h.nextLoop]
      simp only [hshift, Nat.add_zero]
      rfl
    · rw [Nat.add_assoc, Nat.add_comm 1 m] at hmade
      exact hmade

end EventLoopThreadPool

theorem countP_range {P : ℕ → Prop} [DecidablePred P] (m : ℕ) :
    (List.range m).countP (fun j => decide (P j)) = Nat.count P m := by
  induction m with
  | zero => rfl
  | succ m ih => simp [List.range_succ, Nat.count_succ, ih]

/-- In `m` numbers one after the other each remainder is found as often as in any others, up to
one. -/
theorem count_window {n i : ℕ} (hi : i < n) (a m : ℕ) :
    m / n ≤ Nat.count (fun j => (a + j) % n = i) m ∧
      Nat.count (fun j => (a + j) % n = i) m ≤ m / n + 1 := by
  have hpos : 0 < n := by omega
  have hmodEq : ∀ k, Nat.count (fun j => j % n = i) k =
      k / n + if i < k % n then 1 else 0 := by
    intro k
    have hcount := Nat.count_modEq_card k hpos i
    simp only [Nat.ModEq, Nat.mod_eq_of_lt hi] at hcount
    exact hcount
  have hadd := Nat.count_add (fun j => j % n = i) a m
  rw [hmodEq, hmodEq, Nat.add_div hpos, Nat.add_mod a m n] at hadd
  have ha := Nat.mod_lt a hpos
  have hm := Nat.mod_lt m hpos
  by_cases hcarry : n ≤ a % n + m % n
  · rw [if_pos hcarry, Nat.mod_eq_sub_mod hcarry, Nat.mod_eq_of_lt (by omega)] at hadd
    split_ifs at hadd <;> omega
  · rw [if_neg hcarry, Nat.mod_eq_of_lt (by omega)] at hadd
    split_ifs at hadd <;> omega

/-- **Round robin.** For every number of threads, and after any number of calls: the calls of
`getNextLoop` take the loops in turn, and the base loop when there are no threads, so that in `m`
calls one after the other each of `n` loops is handed out `m / n` times, or once more. -/
theorem next_loops_balanced (tid : Tid) (base : LoopPtr) (threads : ℕ → Tid)
    (hbase : base.isInLoopThread tid = true) (hthreads : Function.Injective threads) (n a m : ℕ) :
    ∃ p before q loops r,
      ((EventLoopThreadPool.new base).setThreadNum n).start tid threads = .ok p ∧
      p.getNextLoops tid a = some (before, q) ∧ q.getNextLoops tid m = some (loops, r) ∧
      loops = ((List.range m).map fun j => if n = 0 then base else ⟨threads ((a + j) % n)⟩) ∧
      ∀ i < n, m / n ≤ loops.count ⟨threads i⟩ ∧ loops.count ⟨threads i⟩ ≤ m / n + 1 := by
  let p : EventLoopThreadPool := ⟨base, true, n, 0, (List.range n).map fun i => ⟨threads i⟩⟩
  have hp : ((EventLoopThreadPool.new base).setThreadNum n).start tid threads = .ok p := by
    simp [EventLoopThreadPool.start, EventLoopThreadPool.setThreadNum, EventLoopThreadPool.new,
      hbase, p]
  have hmade : p.Made 0 := .inr (Nat.zero_mod _).symm
  obtain ⟨q, hq, hqmade, hqloops, hqbase⟩ := hmade.getNextLoops hbase a
  obtain ⟨r, hr, -⟩ := hqmade.getNextLoops (by rw [hqbase]; exact hbase) m
  have hat : ∀ j, q.loopAt (0 + a + j) = if n = 0 then base else ⟨threads ((a + j) % n)⟩ := by
    intro j
    rw [EventLoopThreadPool.loopAt, hqloops, hqbase, List.length_map, List.length_range,
      Nat.zero_add]
    by_cases hn : n = 0
    · simp [p, hn]
    · have hlt := Nat.mod_lt (a + j) (Nat.pos_of_ne_zero hn)
      simp [p, hn, hlt]
  simp only [hat] at hr
  refine ⟨p, _, q, _, r, hp, hq, hr, rfl, fun i hi => ?_⟩
  have hn : n ≠ 0 := by omega
  have hcount : ((List.range m).map fun j =>
      if n = 0 then base else (⟨threads ((a + j) % n)⟩ : LoopPtr)).count ⟨threads i⟩ =
      Nat.count (fun j => (a + j) % n = i) m := by
    rw [List.count, List.countP_map, ← countP_range]
    congr 1
    funext j
    rw [Function.comp_apply, if_neg hn, Bool.eq_iff_iff, beq_iff_eq, decide_eq_true_iff,
      LoopPtr.mk.injEq, hthreads.eq_iff]
  rw [hcount]
  exact count_window hi a m

/-- Eight sessions in three threads. -/
theorem next_loops_balanced_sessions : ∃ p before q loops r,
    ((EventLoopThreadPool.new ⟨1⟩).setThreadNum 3).start 1 (fun i => 2 + i) = .ok p ∧
      p.getNextLoops 1 0 = some (before, q) ∧ q.getNextLoops 1 8 = some (loops, r) ∧
      loops = [⟨2⟩, ⟨3⟩, ⟨4⟩, ⟨2⟩, ⟨3⟩, ⟨4⟩, ⟨2⟩, ⟨3⟩] := by
  obtain ⟨p, before, q, loops, r, hp, hq, hr, hloops, -⟩ :=
    next_loops_balanced 1 ⟨1⟩ (fun i => 2 + i) (by decide) (fun _ _ h => Nat.add_left_cancel h)
      3 0 8
  exact ⟨p, before, q, loops, r, hp, hq, hr, hloops.trans (by decide)⟩

end Jiangbo
