import LearnForCpp.Thread.ThreadsafeQueue

/-!
# A queue under two locks

The nodes of `threadsafe_queue_version_2` are a linked list with an empty last node, `tail_`, which
only `push` works on.  A thread that pops has `head_mutex_`; what `get_tail` has returned to it
stays a node of the list, whatever is pushed meanwhile, so that the list has a value when the first
node is another one.
-/

namespace Jiangbo

namespace ThreadsafeQueue

open Node (addresses Linked)

variable {T V : Type*} {s u : ThreadsafeQueue T V} {t : T} {a : ℕ} {cells : List (ℕ × V)}
  {q : List V} {p : QueuePc V}

/-! ### The invariant -/

/-- The nodes are a list from `a` with the `cells`, and the queue is `q`: the values of the cells,
except that the first value may have been moved out already. -/
structure Shape (s : ThreadsafeQueue T V) (a : ℕ) (cells : List (ℕ × V)) (q : List V) : Prop where
  head : s.head = some a
  linked : Linked s.node a cells s.tail
  allocated : ∀ n ∈ addresses cells s.tail, n ∈ s.allocated
  order : s.popped ++ q.map some = s.pushed.map some
  length : cells.length = q.length
  moved : ∀ t v, s.pc t = .moved v → ∃ c w rest, cells = (c, w) :: rest ∧ q = v :: rest.map Prod.snd
  values : (∀ t v, s.pc t ≠ .moved v) → cells.map Prod.snd = q
  owner : ∀ t, s.headMutex = some t ↔ (s.pc t).Locked
  gotTail : ∀ t k n wasEmpty, s.pc t = .gotTail k n wasEmpty →
    n ∈ addresses cells s.tail ∧ (a = n → wasEmpty = true)
  popping : ∀ t k, s.pc t = .popping k → cells ≠ []

theorem new_shape : (new : ThreadsafeQueue T V).Shape 0 [] [] where
  head := rfl
  linked := Linked.new rfl
  allocated n hn := by simpa [new] using hn
  order := rfl
  length := rfl
  moved t v h := by simp [new] at h
  values _ := rfl
  owner t := by simp [new, QueuePc.Locked]
  gotTail t k n wasEmpty h := by simp [new] at h
  popping t k h := by simp [new] at h

/-- Only one thread has `head_mutex_`. -/
theorem Shape.not_locked {v : T} (hs : s.Shape a cells q) (ht : (s.pc t).Locked) (hv : v ≠ t) :
    ¬(s.pc v).Locked := by
  intro hlocked
  have h := (hs.owner t).2 ht
  rw [(hs.owner v).2 hlocked] at h
  exact hv (Option.some.inj h)

theorem Shape.eq_iff (hs : s.Shape a cells q) : s.pushed.length = s.popped.length ↔ cells = [] := by
  have horder := congrArg List.length hs.order
  simp only [List.length_append, List.length_map] at horder
  have hlength := hs.length
  rw [← List.length_eq_zero_iff]
  omega

/-- Nobody but the thread with the lock has moved a value out. -/
theorem Shape.values_of_locked (hs : s.Shape a cells q) (ht : (s.pc t).Locked)
    (hmoved : ∀ v, s.pc t ≠ .moved v) : cells.map Prod.snd = q := by
  refine hs.values fun v w hvw => ?_
  by_cases hv : v = t
  · subst hv
    exact hmoved w hvw
  · refine hs.not_locked ht hv ?_
    rw [hvw]
    trivial

/-- Nobody has `head_mutex_`. -/
theorem Shape.of_unlocked (hnone : ∀ v, ¬(s.pc v).Locked) (hmutex : s.headMutex = none)
    (hhead : s.head = some a) (hlinked : Linked s.node a cells s.tail)
    (hallocated : ∀ n ∈ addresses cells s.tail, n ∈ s.allocated)
    (horder : s.popped ++ (cells.map Prod.snd).map some = s.pushed.map some) :
    s.Shape a cells (cells.map Prod.snd) := by
  refine ⟨hhead, hlinked, hallocated, horder, (List.length_map _).symm, ?_, fun _ => rfl, ?_, ?_,
    ?_⟩
  · intro v w h
    exact absurd (by rw [h]; trivial) (hnone v)
  · intro v
    simp [hmutex, hnone v]
  · intro v k n wasEmpty h
    exact absurd (by rw [h]; trivial) (hnone v)
  · intro v k h
    exact absurd (by rw [h]; trivial) (hnone v)

/-- A list whose first node is not what `get_tail` has returned has a value. -/
theorem Shape.ne_nil {k : HeadCall} {n : ℕ} {wasEmpty : Bool} (hs : s.Shape a cells q)
    (hpc : s.pc t = .gotTail k n wasEmpty) (hn : a ≠ n) : cells ≠ [] := by
  rintro rfl
  have hmem := (hs.gotTail t k n wasEmpty hpc).1
  rw [Node.addresses_nil, List.mem_singleton] at hmem
  exact hn ((hs.linked.eq_iff.2 rfl).trans hmem.symm)

variable [DecidableEq T]

/-- A thread goes on, and all else stays. -/
theorem Shape.goesOn (hs : s.Shape a cells q) (hlocked : (s.pc t).Locked ↔ p.Locked)
    (hold : ∀ v, s.pc t ≠ .moved v) (hnew : ∀ v, p ≠ .moved v)
    (hgot : ∀ k n wasEmpty, p = .gotTail k n wasEmpty →
      n ∈ addresses cells s.tail ∧ (a = n → wasEmpty = true))
    (hpopping : ∀ k, p = .popping k → cells ≠ []) : (s.setPc t p).Shape a cells q := by
  have hself : (s.setPc t p).pc t = p := Function.update_self ..
  have hother : ∀ v, v ≠ t → (s.setPc t p).pc v = s.pc v := fun v hv => Function.update_of_ne hv ..
  refine
    { head := hs.head, linked := hs.linked, allocated := hs.allocated, order := hs.order,
      length := hs.length, moved := ?moved, values := ?values, owner := ?owner, gotTail := ?gotTail,
      popping := ?popping }
  case moved =>
    intro v w h
    by_cases hv : v = t
    · subst hv
      exact absurd (hself.symm.trans h) (hnew w)
    · exact hs.moved v w ((hother v hv).symm.trans h)
  case values =>
    intro h
    refine hs.values fun v w hvw => ?_
    by_cases hv : v = t
    · subst hv
      exact hold w hvw
    · exact h v w ((hother v hv).trans hvw)
  case owner =>
    intro v
    by_cases hv : v = t
    · subst hv
      rw [hself, ← hlocked]
      exact hs.owner v
    · rw [hother v hv]
      exact hs.owner v
  case gotTail =>
    intro v k n wasEmpty h
    by_cases hv : v = t
    · subst hv
      exact hgot k n wasEmpty (hself.symm.trans h)
    · exact hs.gotTail v k n wasEmpty ((hother v hv).symm.trans h)
  case popping =>
    intro v k h
    by_cases hv : v = t
    · subst hv
      exact hpopping k (hself.symm.trans h)
    · exact hs.popping v k ((hother v hv).symm.trans h)

theorem Shape.unlocked_update (hs : s.Shape a cells q) (ht : (s.pc t).Locked) (hp : ¬p.Locked) :
    ∀ v, ¬(Function.update s.pc t p v).Locked := by
  intro v
  by_cases hv : v = t
  · subst hv
    rwa [Function.update_self]
  · rw [Function.update_of_ne hv]
    exact hs.not_locked ht hv

/-- `head_mutex_` is unlocked. -/
theorem Shape.unlock (hs : s.Shape a cells q) (ht : (s.pc t).Locked)
    (hmoved : ∀ v, s.pc t ≠ .moved v) (hp : ¬p.Locked) : (s.unlock t p).Shape a cells q := by
  obtain rfl := hs.values_of_locked ht hmoved
  exact Shape.of_unlocked (hs.unlocked_update ht hp) rfl hs.head hs.linked hs.allocated hs.order

/-! ### Steps -/

/-- A thread calls a function, or wakes up, and asks for the lock. -/
theorem Shape.asks (hs : s.Shape a cells q) (hold : ¬(s.pc t).Locked) (hp : ¬p.Locked) :
    (s.setPc t p).Shape a cells q := by
  refine hs.goesOn (iff_of_false hold hp) ?_ ?_ ?_ ?_
  · intro v h
    rw [h] at hold
    exact hold trivial
  · rintro v rfl
    exact hp trivial
  · rintro k n wasEmpty rfl
    exact absurd trivial hp
  · rintro k rfl
    exact absurd trivial hp

theorem Shape.lock {k : HeadCall} (hs : s.Shape a cells q) (hmutex : s.headMutex = none) :
    { s with headMutex := some t, pc := Function.update s.pc t (.locked k) }.Shape a cells q := by
  have hfree : ∀ v, ¬(s.pc v).Locked := by
    intro v hv
    have h := (hs.owner v).2 hv
    rw [hmutex] at h
    cases h
  obtain rfl : cells.map Prod.snd = q := by
    refine hs.values fun v w hvw => hfree v ?_
    rw [hvw]
    trivial
  have hpc : ∀ v, Function.update s.pc t (.locked k) v = s.pc v ∨
      v = t ∧ Function.update s.pc t (.locked k) v = .locked k := by
    intro v
    by_cases hv : v = t
    · subst hv
      exact .inr ⟨rfl, Function.update_self ..⟩
    · exact .inl (Function.update_of_ne hv ..)
  refine ⟨hs.head, hs.linked, hs.allocated, hs.order, hs.length, ?_, fun _ => rfl, ?_, ?_, ?_⟩
  · intro v w h
    dsimp only at h
    rcases hpc v with hv | ⟨-, hv⟩
    · exact hs.moved v w (hv.symm.trans h)
    · rw [hv] at h
      cases h
  · intro v
    dsimp only
    by_cases hv : v = t
    · subst hv
      simp [QueuePc.Locked]
    · rw [Function.update_of_ne hv]
      simp [hfree v, Ne.symm hv]
  · intro v k n wasEmpty h
    dsimp only at h
    rcases hpc v with hv | ⟨-, hv⟩
    · exact hs.gotTail v k n wasEmpty (hv.symm.trans h)
    · rw [hv] at h
      cases h
  · intro v k h
    dsimp only at h
    rcases hpc v with hv | ⟨-, hv⟩
    · exact hs.popping v k (hv.symm.trans h)
    · rw [hv] at h
      cases h

/-- `get_tail` returns a node of the list. -/
theorem Shape.getTail {k : HeadCall} (hs : s.Shape a cells q) (hpc : s.pc t = .locked k) :
    (s.setPc t (.gotTail k s.tail (s.pushed.length == s.popped.length))).Shape a cells q := by
  refine hs.goesOn (by rw [hpc]; exact Iff.rfl) (by simp [hpc]) (by simp) ?_ (by simp)
  rintro k n wasEmpty h
  cases h
  refine ⟨Node.mem_addresses_last, fun heq => ?_⟩
  rw [beq_iff_eq, hs.eq_iff, ← hs.linked.eq_iff]
  exact heq

theorem Shape.compare (hs : s.Shape a cells q) (h : s.compare t = some u) : u.Shape a cells q := by
  unfold ThreadsafeQueue.compare at h
  split at h
  · rename_i hpc
    cases h
    exact hs.unlock (by rw [hpc]; trivial) (by simp [hpc]) id
  · rename_i n wasEmpty hpc
    rw [hs.head] at h
    split_ifs at h with heq
    · cases h
      exact hs.unlock (by rw [hpc]; trivial) (by simp [hpc]) id
    · cases h
      exact hs.goesOn (by rw [hpc]; exact Iff.rfl) (by simp [hpc]) (by simp) (by simp)
        fun k _ => hs.ne_nil hpc fun hn => heq (congrArg some hn)
  · rename_i byValue n wasEmpty hpc
    rw [hs.head] at h
    split_ifs at h with heq
    · cases h
      exact hs.goesOn (by rw [hpc]; exact Iff.rfl) (by simp [hpc]) (by simp) (by simp) (by simp)
    · cases h
      exact hs.goesOn (by rw [hpc]; exact Iff.rfl) (by simp [hpc]) (by simp) (by simp)
        fun k _ => hs.ne_nil hpc fun hn => heq (congrArg some hn)
  · cases h

/-- `push` puts its value into the last node, which no thread that pops looks into. -/
theorem Shape.link {n : ℕ} {v : V} (hs : s.Shape a cells q) (hpc : s.pc t = .pushing v)
    (hn : n ∉ s.allocated) :
    { s with
      node := Function.update (Function.update s.node n .empty) s.tail ⟨some v, some n⟩
      allocated := insert n s.allocated
      tail := n
      pc := Function.update s.pc t .notifying
      pushed := s.pushed ++ [v] }.Shape a (cells ++ [(s.tail, v)]) (q ++ [v]) := by
  have haddresses : addresses (cells ++ [(s.tail, v)]) n = addresses cells s.tail ++ [n] := by
    simp [addresses]
  -- a thread that is not at `notify_one` after the step has not moved
  have hpcs : ∀ w p, Function.update s.pc t .notifying w = p → p ≠ .notifying → s.pc w = p := by
    intro w p h hp
    by_cases hw : w = t
    · subst hw
      rw [Function.update_self] at h
      exact absurd h.symm hp
    · rwa [Function.update_of_ne hw] at h
  refine
    { head := hs.head, linked := hs.linked.push (fun h => hn (hs.allocated n h)) v,
      allocated := ?allocated, order := ?order, length := ?length, moved := ?moved,
      values := ?values, owner := ?owner, gotTail := ?gotTail, popping := ?popping }
  case allocated =>
    intro m hm
    rw [haddresses, List.mem_append, List.mem_singleton] at hm
    rcases hm with hm | rfl
    · exact Finset.mem_insert_of_mem (hs.allocated m hm)
    · exact Finset.mem_insert_self ..
  case order =>
    rw [List.map_append, List.map_append, ← List.append_assoc, hs.order]
  case length =>
    simp [hs.length]
  case moved =>
    intro w x h
    obtain ⟨c, y, rest, rfl, rfl⟩ := hs.moved w x (hpcs w _ h (by simp))
    exact ⟨c, y, rest ++ [(s.tail, v)], by simp, by simp⟩
  case values =>
    intro h
    rw [List.map_append, hs.values fun w x hw => ?_, List.map_singleton]
    refine h w x ?_
    have hwt : w ≠ t := by
      rintro rfl
      rw [hpc] at hw
      cases hw
    exact (Function.update_of_ne hwt ..).trans hw
  case owner =>
    intro w
    dsimp only
    rw [hs.owner w]
    by_cases hw : w = t
    · subst hw
      rw [Function.update_self, hpc]
      exact Iff.rfl
    · rw [Function.update_of_ne hw]
  case gotTail =>
    intro w k m wasEmpty h
    obtain ⟨hm, hwas⟩ := hs.gotTail w k m wasEmpty (hpcs w _ h (by simp))
    refine ⟨?_, hwas⟩
    rw [haddresses]
    exact List.mem_append_left _ hm
  case popping =>
    intro w k h
    simp

/-- The value of the first node is moved out. -/
theorem Shape.move {w : V} (hs : s.Shape a cells q) (h : s.move t w = some u) :
    ∃ cells, u.Shape a cells q ∧ u.failed = s.failed := by
  unfold ThreadsafeQueue.move at h
  split at h
  · rename_i hpc
    obtain ⟨c, v, rest, rfl⟩ : ∃ c v rest, cells = (c, v) :: rest := by
      cases hcells : cells with
      | nil => exact absurd hcells (hs.popping t _ hpc)
      | cons cell rest => exact ⟨cell.1, cell.2, rest, rfl⟩
    have hlocked : (s.pc t).Locked := by
      rw [hpc]
      trivial
    obtain rfl := hs.values_of_locked hlocked (by simp [hpc])
    obtain ⟨rfl, hdata, -⟩ := hs.linked.pop .empty
    simp only [hs.head, hdata] at h
    cases h
    refine ⟨(c, w) :: rest, ⟨rfl, hs.linked.write w, hs.allocated, hs.order, hs.length, ?_, ?_,
      ?_, ?_, ?_⟩, rfl⟩
    · intro x y h
      dsimp only at h
      by_cases hx : x = t
      · subst hx
        rw [Function.update_self] at h
        cases h
        exact ⟨c, w, rest, rfl, rfl⟩
      · rw [Function.update_of_ne hx] at h
        exact absurd (by rw [h]; trivial) (hs.not_locked hlocked hx)
    · intro h
      exact absurd (Function.update_self ..) (h t v)
    · intro x
      dsimp only
      rw [hs.owner x]
      by_cases hx : x = t
      · subst hx
        rw [Function.update_self]
        exact iff_of_true hlocked trivial
      · rw [Function.update_of_ne hx]
    · intro x k n wasEmpty h
      dsimp only at h
      by_cases hx : x = t
      · subst hx
        rw [Function.update_self] at h
        cases h
      · rw [Function.update_of_ne hx] at h
        exact absurd (by rw [h]; trivial) (hs.not_locked hlocked hx)
    · intro x k h
      simp
  · cases h

/-- `pop_head` takes the first node off. -/
theorem Shape.popHead {c : ℕ} {x v : V} {value : Option V} {rest : List (ℕ × V)}
    (hs : s.Shape a ((c, x) :: rest) q) (ht : (s.pc t).Locked)
    (hvalue : value.or (some x) = some v) (hq : q = v :: rest.map Prod.snd) :
    ∃ next, (s.popHead t value).Shape next rest (rest.map Prod.snd) ∧
      (s.popHead t value).failed = s.failed := by
  obtain ⟨rfl, hdata, next, hnext, hlinked⟩ := hs.linked.pop ⟨(s.node a).data, none⟩
  obtain ⟨hc, hnodup⟩ := List.nodup_cons.1 hs.linked.nodup
  have heq : s.popHead t value = { s with
      node := Function.update s.node c ⟨(s.node c).data, none⟩
      allocated := s.allocated.erase c
      headMutex := none
      head := some next
      pc := Function.update s.pc t .idle
      popped := s.popped ++ [some v] } := by
    simp only [ThreadsafeQueue.popHead, hs.head, hnext, hdata, hvalue]
  refine ⟨next, ?_, by rw [heq]⟩
  rw [heq]
  refine Shape.of_unlocked (hs.unlocked_update ht id) rfl rfl hlinked ?_ ?_
  · intro m hm
    refine Finset.mem_erase.2 ⟨?_, hs.allocated m (List.mem_cons_of_mem _ hm)⟩
    rintro rfl
    exact hc hm
  · have horder := hs.order
    rw [hq, List.map_cons] at horder
    simpa using horder

/-- The nodes are a list, and no null pointer has been dereferenced. -/
def Inv (s : ThreadsafeQueue T V) : Prop :=
  (∃ a cells q, s.Shape a cells q) ∧ s.failed = false

theorem Inv.step [Fintype T] {action : QueueAction T V} (hs : s.Inv)
    (h : s.next action = some u) : u.Inv := by
  obtain ⟨⟨a, cells, q, hs⟩, hok⟩ := hs
  cases action with
  | push t v =>
    simp only [next] at h
    split at h
    · rename_i hpc
      cases h
      exact ⟨⟨a, cells, q, hs.asks (by rw [hpc]; exact id) id⟩, hok⟩
    · cases h
  | link t n =>
    simp only [next, ThreadsafeQueue.link] at h
    split at h
    · rename_i v hpc
      split_ifs at h with hn
      cases h
      exact ⟨⟨a, _, _, hs.link hpc hn⟩, hok⟩
    · cases h
  | notifyOne t woken =>
    simp only [next, ThreadsafeQueue.notifyOne] at h
    split at h
    · rename_i hpc
      split_ifs at h
      cases h
      exact ⟨⟨a, cells, q, hs.asks (by rw [hpc]; exact id) id⟩, hok⟩
    · rename_i v hpc
      split at h
      · rename_i byValue hv
        cases h
        have hne : v ≠ t := by
          rintro rfl
          rw [hpc] at hv
          cases hv
        have ht : (s.setPc t .idle).Shape a cells q := hs.asks (by rw [hpc]; exact id) id
        refine ⟨⟨a, cells, q, ht.asks ?_ id⟩, hok⟩
        rw [show (s.setPc t .idle).pc v = s.pc v from Function.update_of_ne hne .., hv]
        exact id
      · cases h
    · cases h
  | call t k =>
    simp only [next] at h
    split at h
    · rename_i hpc
      cases h
      exact ⟨⟨a, cells, q, hs.asks (by rw [hpc]; exact id) id⟩, hok⟩
    · cases h
  | lock t =>
    simp only [next] at h
    split at h
    · rename_i k hmutex hpc
      cases h
      exact ⟨⟨a, cells, q, hs.lock hmutex⟩, hok⟩
    · cases h
  | getTail t =>
    simp only [next] at h
    split at h
    · rename_i k hpc
      cases h
      exact ⟨⟨a, cells, q, hs.getTail hpc⟩, hok⟩
    · cases h
  | compare t =>
    refine ⟨⟨a, cells, q, hs.compare h⟩, ?_⟩
    simp only [next, ThreadsafeQueue.compare] at h
    split at h
    · cases h
      exact hok
    · cases h
      split_ifs <;> exact hok
    · cases h
      exact hok
    · cases h
  | sleep t =>
    simp only [next] at h
    split at h
    · rename_i byValue hpc
      cases h
      exact ⟨⟨a, cells, q, hs.unlock (by rw [hpc]; trivial) (by simp [hpc]) id⟩, hok⟩
    · cases h
  | move t w =>
    obtain ⟨cells', hs', hfailed⟩ := hs.move h
    exact ⟨⟨a, cells', q, hs'⟩, hfailed.trans hok⟩
  | popHead t =>
    simp only [next] at h
    -- the two functions that pop without moving first
    have hpop : ∀ k, s.pc t = .popping k → (s.popHead t none).Inv := by
      intro k hpc
      have hlocked : (s.pc t).Locked := by
        rw [hpc]
        trivial
      obtain rfl := hs.values_of_locked hlocked (by simp [hpc])
      cases hcells : cells with
      | nil => exact absurd hcells (hs.popping t k hpc)
      | cons cell rest =>
        subst hcells
        obtain ⟨next, hnext, hfailed⟩ := hs.popHead hlocked (Option.none_or ..) rfl
        exact ⟨⟨next, rest, _, hnext⟩, hfailed.trans hok⟩
    split at h
    · cases h
      exact hpop _ ‹_›
    · cases h
      exact hpop _ ‹_›
    · rename_i v hpc
      cases h
      -- the value was moved out of the node before, and the caller has it
      obtain ⟨c, w, rest, rfl, hq⟩ := hs.moved t v hpc
      obtain ⟨next, hnext, hfailed⟩ := hs.popHead (by rw [hpc]; trivial) (Option.some_or ..) hq
      exact ⟨⟨next, rest, _, hnext⟩, hfailed.trans hok⟩
    · cases h
  | wake t =>
    simp only [next] at h
    split at h
    · rename_i byValue hpc
      cases h
      exact ⟨⟨a, cells, q, hs.asks (by rw [hpc]; exact id) id⟩, hok⟩
    · cases h

theorem inv_of_reachable [Fintype T] (h : (threadsafeQueues T V).Reachable s) : s.Inv := by
  refine h.invariant (fun s hs => ?_) fun s a u hs hn => hs.step hn
  rw [show s = .new from hs]
  exact ⟨⟨0, [], [], new_shape⟩, rfl⟩

end ThreadsafeQueue

/-- **The queue under two locks.** In every reachable state the nodes from `head_` are a list that
ends with the empty node `tail_`, and while no value has been moved out, what has been popped, then
the values in the list, is what has been pushed; `try_pop` returns null only if the queue was empty
when it called `get_tail`; no null pointer is dereferenced; and a thread that pops finds a node
with a value and a successor, which is not `tail_`. -/
theorem threadsafe_queue_fifo {T V : Type*} [Fintype T] [DecidableEq T] {s : ThreadsafeQueue T V}
    (h : (threadsafeQueues T V).Reachable s) :
    (∃ a cells, s.head = some a ∧ Node.Linked s.node a cells s.tail ∧
        ((∀ t v, s.pc t ≠ .moved v) →
          s.popped ++ (cells.map Prod.snd).map some = s.pushed.map some)) ∧
      (∀ t n wasEmpty, s.pc t = .gotTail .tryPop n wasEmpty → s.head = some n →
        wasEmpty = true) ∧
      s.failed = false ∧
      ∀ t, ((∃ k, s.pc t = .popping k) ∨ ∃ v, s.pc t = .moved v) →
        ∃ a, s.head = some a ∧ a ≠ s.tail ∧ (s.node a).data.isSome ∧ (s.node a).next.isSome := by
  obtain ⟨⟨a, cells, q, hs⟩, hok⟩ := ThreadsafeQueue.inv_of_reachable h
  refine ⟨⟨a, cells, hs.head, hs.linked, fun hmoved => ?_⟩, fun t n wasEmpty hpc hn => ?_, hok,
    fun t hpc => ?_⟩
  · rw [hs.values hmoved]
    exact hs.order
  · rw [hs.head] at hn
    exact (hs.gotTail t _ n wasEmpty hpc).2 (Option.some.inj hn)
  · have hcells : cells ≠ [] := by
      rcases hpc with ⟨k, hpc⟩ | ⟨v, hpc⟩
      · exact hs.popping t k hpc
      · obtain ⟨c, w, rest, rfl, -⟩ := hs.moved t v hpc
        simp
    refine ⟨a, hs.head, fun heq => hcells (hs.linked.eq_iff.1 heq), ?_⟩
    cases cells with
    | nil => exact absurd rfl hcells
    | cons cell rest =>
      obtain ⟨rfl, hdata, next, hnext, -⟩ := hs.linked.pop .empty
      simp [hdata, hnext]

/-- A value is pushed between `get_tail` and the comparison of `try_pop`, and another after that,
with a new node at the address of the first one. -/
theorem threadsafe_queue_fifo_overlapped : ∃ s : ThreadsafeQueue Bool ℕ,
    (threadsafeQueues Bool ℕ).Reachable s ∧ s.pushed = [5, 6, 7] ∧ s.popped = [some 5] ∧
      ∃ a cells, s.head = some a ∧ Node.Linked s.node a cells s.tail := by
  let acts : List (QueueAction Bool ℕ) :=
    [.push true 5, .link true 1, .notifyOne true none, .call false .tryPop, .lock false,
      .getTail false, .push true 6, .link true 2, .notifyOne true none, .compare false,
      .popHead false, .push true 7, .link true 0]
  obtain ⟨s, hs, hend⟩ := Option.map_eq_some_iff.1 (by decide +kernel :
    ((threadsafeQueues Bool ℕ).run .new acts).map (fun s => (s.pushed, s.popped)) =
      some ([5, 6, 7], [some 5]))
  simp only [Prod.mk.injEq] at hend
  have hreachable := LTS.Reachable.of_run (.init rfl) acts hs
  obtain ⟨a, cells, hhead, hlinked, -⟩ := (threadsafe_queue_fifo hreachable).1
  exact ⟨s, hreachable, hend.1, hend.2, a, cells, hhead, hlinked⟩

end Jiangbo
