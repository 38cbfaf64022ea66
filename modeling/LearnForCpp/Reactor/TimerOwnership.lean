import LearnForCpp.Reactor.TimerQueue

/-!
# Who owns a timer

Between `new` and `delete` a timer is in one place: handed to `addTimerInLoop`, waiting in
`timerlist_`, or in the batch of `handleRead`, which is in two parts, the entries whose callback
has been called and the rest.  `Timers.Owns` says so, and what follows from it for the count of
entries and of callbacks of each timer.  Every member function that moves a timer has its rule.
-/

namespace Jiangbo

namespace Timers

def sequenceAt (T : Timers) (p : ℕ) : Option ℕ := (T.heap p).map Timer.sequence

/-- The entries of timer number `k`. -/
def tally (T : Timers) (k : ℕ) (es : List Entry) : ℕ :=
  es.countP fun e => T.sequenceAt e.second = some k

/-- `t` is a timer that was added, up to its expiration. -/
def WasAdded (T : Timers) (t : Timer) : Prop :=
  ∃ a ∈ T.added, a.sequence = t.sequence ∧ a.interval = t.interval

/-- The ownership of the timers by `handed`, by the entries `wait` of `timerlist_` and by those of
a batch. -/
structure Owns (T : Timers) (wait ran rest : List Entry) : Prop where
  nodup : ((wait ++ ran ++ rest).map Entry.second ++ T.handed).Nodup
  entry : ∀ e ∈ wait ++ ran ++ rest,
    ∃ t, T.heap e.second = some t ∧ t.expiration = e.first ∧ T.WasAdded t
  handed : ∀ p ∈ T.handed, ∃ t, T.heap p = some t ∧ t.sequence ∉ T.added.map Timer.sequence
  heap : ∀ p t, T.heap p = some t → p < uintptrMax ∧ t.sequence < T.numCreated
  inj : ∀ p q k, T.sequenceAt p = some k → T.sequenceAt q = some k → p = q
  added_nodup : (T.added.map Timer.sequence).Nodup
  added_lt : ∀ k ∈ T.added.map Timer.sequence, k < T.numCreated
  fired : ∀ k ∈ T.fired, k ∈ T.added.map Timer.sequence
  oneShot : ∀ t ∈ T.added, t.repeats = false →
    T.fired.count t.sequence + T.tally t.sequence (wait ++ rest) = 1
  repeating : ∀ t ∈ T.added, t.repeats = true →
    T.tally t.sequence (wait ++ ran ++ rest) = 1

variable {T U : Timers} {wait wait' ran rest es : List Entry} {e : Entry} {p k : ℕ} {t : Timer}

theorem sequenceAt_eq (h : T.heap p = some t) : T.sequenceAt p = some t.sequence := by
  rw [sequenceAt, h, Option.map_some]

/-! ### Counting entries -/

theorem tally_append (es fs : List Entry) : T.tally k (es ++ fs) = T.tally k es + T.tally k fs :=
  List.countP_append

theorem tally_cons (e : Entry) (es : List Entry) :
    T.tally k (e :: es) = T.tally k es + if T.sequenceAt e.second = some k then 1 else 0 := by
  simp [tally, List.countP_cons]

theorem tally_perm (h : wait.Perm wait') : T.tally k wait = T.tally k wait' :=
  h.countP_eq _

theorem tally_congr (h : ∀ e ∈ es, U.sequenceAt e.second = T.sequenceAt e.second) :
    U.tally k es = T.tally k es :=
  List.countP_congr fun e he => by rw [h e he]

theorem tally_eq_zero (h : ∀ e ∈ es, T.sequenceAt e.second ≠ some k) : T.tally k es = 0 :=
  List.countP_eq_zero.2 fun e he => by simpa using h e he

/-- Another timer lives elsewhere. -/
theorem Owns.sequence_ne (h : T.Owns wait ran rest) (hp : T.sequenceAt p = some k) {q : ℕ}
    (hq : q ≠ p) : T.sequenceAt q ≠ some k := fun hk => hq (h.inj q p k hk hp)

/-! ### Moving entries -/

theorem Owns.perm (h : T.Owns wait ran rest) (hw : wait.Perm wait') : T.Owns wait' ran rest := by
  have h3 : (wait ++ ran ++ rest).Perm (wait' ++ ran ++ rest) :=
    (hw.append_right ran).append_right rest
  refine { h with
    nodup := ((h3.map _).append_right _).nodup_iff.1 h.nodup
    entry := fun e he => h.entry e (h3.mem_iff.2 he)
    oneShot := fun t ht hr => ?_
    repeating := fun t ht hr => ?_ }
  · rw [← tally_perm (hw.append_right rest)]
    exact h.oneShot t ht hr
  · rw [← tally_perm h3]
    exact h.repeating t ht hr

/-- `getexpiration` moves entries from `timerlist_` to the batch. -/
theorem Owns.extract (h : T.Owns (es ++ wait) [] []) : T.Owns wait [] es := by
  have h3 : (es ++ wait ++ [] ++ []).Perm (wait ++ [] ++ es) := by
    simpa using List.perm_append_comm
  refine { h with
    nodup := ((h3.map _).append_right _).nodup_iff.1 h.nodup
    entry := fun e he => h.entry e (h3.mem_iff.2 he)
    oneShot := fun t ht hr => ?_
    repeating := fun t ht hr => ?_ }
  · rw [tally_perm List.perm_append_comm, ← List.append_nil (es ++ wait)]
    exact h.oneShot t ht hr
  · rw [← tally_perm h3]
    exact h.repeating t ht hr

/-- A callback is called. -/
theorem Owns.fire (h : T.Owns wait ran (e :: rest)) (ht : T.heap e.second = some t) :
    (T.fire t).Owns wait (ran ++ [e]) rest := by
  have h3 : wait ++ (ran ++ [e]) ++ rest = wait ++ ran ++ e :: rest := by simp
  obtain ⟨t', ht', -, a, ha, hseq, -⟩ := h.entry e (by simp)
  obtain rfl : t' = t := Option.some.inj (ht'.symm.trans ht)
  refine { h with
    nodup := by rw [h3]; exact h.nodup
    entry := fun f hf => h.entry f (h3 ▸ hf)
    fired := fun k hk => ?_
    oneShot := fun u hu hr => ?_
    repeating := fun u hu hr => ?_ }
  · rcases List.mem_append.1 hk with hk | hk
    · exact h.fired k hk
    · rw [List.mem_singleton.1 hk, ← hseq]
      exact List.mem_map_of_mem ha
  · have hu1 := h.oneShot u hu hr
    rw [tally_append, tally_cons, sequenceAt_eq ht] at hu1
    change (T.fired ++ [t'.sequence]).count u.sequence + T.tally u.sequence (wait ++ rest) = 1
    rw [List.count_append, List.count_singleton, tally_append]
    simp only [Option.some.injEq, beq_iff_eq] at hu1 ⊢
    omega
  · rw [h3]
    exact h.repeating u hu hr

/-! ### Creating and adding -/

theorem sequenceAt_create {when : ℤ} {interval : Float.Model} {q : ℕ} (hq : q ≠ p) :
    (T.create p when interval).sequenceAt q = T.sequenceAt q := by
  simp [sequenceAt, create, hq]

theorem sequenceAt_create_self {when : ℤ} {interval : Float.Model} :
    (T.create p when interval).sequenceAt p = some T.numCreated := by
  simp [sequenceAt, create]

/-- What is owned is not where `new` puts a timer. -/
theorem Owns.ne_of_free (h : T.Owns wait ran rest) (hp : T.heap p = .none)
    (he : e ∈ wait ++ ran ++ rest) : e.second ≠ p := by
  rintro rfl
  obtain ⟨t, ht, -⟩ := h.entry e he
  rw [hp] at ht
  cases ht

theorem Owns.create (h : T.Owns wait ran rest) {when : ℤ} {interval : Float.Model}
    (hp : T.heap p = .none) (hlt : p < uintptrMax) :
    (T.create p when interval).Owns wait ran rest := by
  have hself : (T.create p when interval).heap p = some ⟨interval, when, T.numCreated⟩ :=
    Function.update_self _ _ _
  have hheap : ∀ q, q ≠ p → (T.create p when interval).heap q = T.heap q :=
    fun q hq => Function.update_of_ne hq _ _
  have hhanded : ∀ q ∈ T.handed, q ≠ p := by
    rintro q hq rfl
    obtain ⟨t, ht, -⟩ := h.handed q hq
    rw [hp] at ht
    cases ht
  have htally : ∀ {k es}, es ⊆ wait ++ ran ++ rest →
      (T.create p when interval).tally k es = T.tally k es := fun hes =>
    tally_congr fun e he => sequenceAt_create (h.ne_of_free hp (hes he))
  have hnew : ∀ k, T.sequenceAt k ≠ some T.numCreated := by
    intro q hq
    obtain ⟨t, ht, hk⟩ := Option.map_eq_some_iff.1 hq
    exact absurd (h.heap q t ht).2 (by omega)
  refine
    { nodup := ?nodup, entry := fun e he => ?entry, handed := fun q hq => ?handed,
      heap := fun q t hq => ?heap, inj := fun q r k hq hr => ?inj, added_nodup := h.added_nodup,
      added_lt := fun k hk => (h.added_lt k hk).trans (Nat.lt_succ_self _), fired := h.fired,
      oneShot := fun t ht hr => ?oneShot, repeating := fun t ht hr => ?repeating }
  case nodup =>
    change (_ ++ (T.handed ++ [p])).Nodup
    rw [← List.append_assoc, List.nodup_append]
    refine ⟨h.nodup, List.nodup_singleton p, fun a ha b hb => ?_⟩
    rw [List.mem_singleton.1 hb]
    rcases List.mem_append.1 ha with ha | ha
    · obtain ⟨e, he, rfl⟩ := List.mem_map.1 ha
      exact h.ne_of_free hp he
    · exact hhanded a ha
  case entry =>
    rw [hheap _ (h.ne_of_free hp he)]
    exact h.entry e he
  case handed =>
    rcases List.mem_append.1 hq with hq | hq
    · rw [hheap _ (hhanded q hq)]
      exact h.handed q hq
    · rw [List.mem_singleton.1 hq]
      exact ⟨_, hself, fun hm => absurd (h.added_lt _ hm) (lt_irrefl _)⟩
  case heap =>
    by_cases hqp : q = p
    · subst hqp
      rw [hself] at hq
      cases hq
      exact ⟨hlt, Nat.lt_succ_self T.numCreated⟩
    · rw [hheap q hqp] at hq
      exact ⟨(h.heap q t hq).1, (h.heap q t hq).2.trans (Nat.lt_succ_self _)⟩
  case inj =>
    by_cases hqp : q = p <;> by_cases hrp : r = p
    · rw [hqp, hrp]
    · subst hqp
      rw [sequenceAt_create_self] at hq
      rw [sequenceAt_create hrp, ← hq] at hr
      exact absurd hr (hnew r)
    · subst hrp
      rw [sequenceAt_create_self] at hr
      rw [sequenceAt_create hqp, ← hr] at hq
      exact absurd hq (hnew q)
    · rw [sequenceAt_create hqp] at hq
      rw [sequenceAt_create hrp] at hr
      exact h.inj q r k hq hr
  case oneShot =>
    rw [htally (by simp)]
    exact h.oneShot t ht hr
  case repeating =>
    rw [htally (fun _ he => he)]
    exact h.repeating t ht hr

/-- `addTimerInLoop` moves a timer to `timerlist_`. -/
theorem Owns.add (h : T.Owns wait ran rest) (hp : p ∈ T.handed) (ht : T.heap p = some t) :
    (T.take p).Owns (⟨t.expiration, p⟩ :: wait) ran rest := by
  have hadded : (T.take p).added = T.added ++ [t] := by
    change T.added ++ (T.heap p).toList = _
    rw [ht, Option.toList_some]
  have hseqs : (T.take p).added.map Timer.sequence =
      T.added.map Timer.sequence ++ [t.sequence] := by
    rw [hadded, List.map_append, List.map_singleton]
  obtain ⟨t', ht', hfresh⟩ := h.handed p hp
  obtain rfl : t' = t := Option.some.inj (ht'.symm.trans ht)
  have hseq := sequenceAt_eq ht
  have hnd := List.nodup_append.1 h.nodup
  -- no entry is of the new timer
  have hne : ∀ e ∈ wait ++ ran ++ rest, e.second ≠ p :=
    fun e he => hnd.2.2 _ (List.mem_map_of_mem he) p hp
  have hzero : ∀ es ⊆ wait ++ ran ++ rest, T.tally t'.sequence es = 0 := fun es hes =>
    tally_eq_zero fun e he => h.sequence_ne hseq (hne e (hes he))
  have hold : ∀ u ∈ T.added, T.sequenceAt p ≠ some u.sequence := by
    intro u hu hk
    rw [hseq, Option.some.injEq] at hk
    exact hfresh (hk ▸ List.mem_map_of_mem hu)
  refine { h with
    nodup := ?_
    entry := fun e he => ?_
    handed := fun q hq => ?_
    added_nodup := ?_
    added_lt := fun k hk => ?_
    fired := fun k hk => ?_
    oneShot := fun u hu hr => ?_
    repeating := fun u hu hr => ?_ }
  · have hperm : ((wait ++ ran ++ rest).map Entry.second ++ T.handed).Perm
        (p :: ((wait ++ ran ++ rest).map Entry.second ++ T.handed.erase p)) :=
      ((List.perm_cons_erase hp).append_left _).trans List.perm_middle
    exact hperm.nodup_iff.1 h.nodup
  · rcases List.mem_cons.1 he with rfl | he
    · exact ⟨t', ht, rfl, t', by simp [hadded], rfl, rfl⟩
    · obtain ⟨u, hu, hexp, a, ha, hseqa⟩ := h.entry e he
      exact ⟨u, hu, hexp, a, by simp [hadded, ha], hseqa⟩
  · obtain ⟨hqp, hq⟩ := (List.Nodup.mem_erase_iff hnd.2.1).1 hq
    obtain ⟨u, hu, hn⟩ := h.handed q hq
    refine ⟨u, hu, fun hm => ?_⟩
    rw [hseqs, List.mem_append, List.mem_singleton] at hm
    rcases hm with hm | hm
    · exact hn hm
    · exact h.sequence_ne hseq hqp (hm ▸ sequenceAt_eq hu)
  · rw [hseqs, List.nodup_append]
    refine ⟨h.added_nodup, List.nodup_singleton _, fun a ha b hb => ?_⟩
    rintro rfl
    exact hfresh (List.mem_singleton.1 hb ▸ ha)
  · rw [hseqs, List.mem_append, List.mem_singleton] at hk
    rcases hk with hk | rfl
    · exact h.added_lt k hk
    · exact (h.heap p _ ht).2
  · rw [hseqs]
    exact List.mem_append_left _ (h.fired k hk)
  · change T.fired.count u.sequence + T.tally u.sequence (_ :: (wait ++ rest)) = 1
    rw [tally_cons]
    rw [hadded, List.mem_append, List.mem_singleton] at hu
    rcases hu with hu | rfl
    · rw [if_neg (hold u hu)]
      exact h.oneShot u hu hr
    · rw [if_pos hseq, hzero _ (by simp), List.count_eq_zero.2 fun hm => hfresh (h.fired _ hm)]
  · change T.tally u.sequence (_ :: (wait ++ ran ++ rest)) = 1
    rw [tally_cons]
    rw [hadded, List.mem_append, List.mem_singleton] at hu
    rcases hu with hu | rfl
    · rw [if_neg (hold u hu)]
      exact h.repeating u hu hr
    · rw [if_pos hseq, hzero _ (fun _ he => he)]

/-! ### The end of a batch -/

/-- Writing to a timer leaves the sequence numbers. -/
theorem sequenceAt_set {u : Timer} (ht : T.heap p = some t) (hu : u.sequence = t.sequence) (q : ℕ) :
    (T.set p u).sequenceAt q = T.sequenceAt q := by
  by_cases hq : q = p
  · subst hq
    rw [sequenceAt_eq ht, ← hu]
    exact sequenceAt_eq (Function.update_self _ _ _)
  · simp [sequenceAt, set, hq]

theorem sequenceAt_free {q : ℕ} (hq : q ≠ p) : (T.free p).sequenceAt q = T.sequenceAt q := by
  simp [sequenceAt, free, hq]

/-- A timer in `timerlist_` or in the batch is repeating if and only if it was so when added. -/
theorem Owns.repeats_eq (h : T.Owns wait ran rest) (hadd : T.WasAdded t) {u : Timer}
    (hu : u ∈ T.added) (hk : u.sequence = t.sequence) : u.repeats = t.repeats := by
  obtain ⟨a, ha, hseq, hint⟩ := hadd
  obtain rfl : u = a := List.inj_on_of_nodup_map h.added_nodup hu ha (hk.trans hseq.symm)
  rw [Timer.repeats, Timer.repeats, hint]

/-- The entry that `reset` looks at, in front. -/
theorem perm_head (wait ran : List Entry) (e : Entry) :
    (wait ++ e :: ran ++ []).Perm (e :: (wait ++ ran)) := by simp

/-- In a batch each timer occurs once. -/
theorem Owns.head_ne (h : T.Owns wait (e :: ran) []) :
    (∀ f ∈ wait ++ ran, f.second ≠ e.second) ∧ ∀ p ∈ T.handed, p ≠ e.second := by
  have hnd := (((perm_head wait ran e).map Entry.second).append_right T.handed).nodup_iff.1 h.nodup
  rw [List.map_cons, List.cons_append, List.nodup_cons] at hnd
  refine ⟨fun f hf hfe => hnd.1 ?_, fun p hp hpe => hnd.1 ?_⟩
  · rw [← hfe]
    exact List.mem_append_left _ (List.mem_map_of_mem hf)
  · rw [← hpe]
    exact List.mem_append_right _ hp

/-- `reset` puts a repeating timer back. -/
theorem Owns.restart (h : T.Owns wait (e :: ran) []) (ht : T.heap e.second = some t)
    (hr : t.repeats = true) (now : ℤ) :
    (T.set e.second (t.restart now)).Owns (⟨(t.restart now).expiration, e.second⟩ :: wait) ran
      [] := by
  obtain ⟨hne, hnh⟩ := h.head_ne
  have hself : (T.set e.second (t.restart now)).heap e.second = some (t.restart now) :=
    Function.update_self _ _ _
  have hheap : ∀ q, q ≠ e.second → (T.set e.second (t.restart now)).heap q = T.heap q :=
    fun q hq => Function.update_of_ne hq _ _
  have hseq := sequenceAt_set ht (t.restart_sequence now)
  have htally : ∀ k es, (T.set e.second (t.restart now)).tally k es = T.tally k es :=
    fun k es => tally_congr fun f _ => hseq f.second
  obtain ⟨t', ht', -, hadd⟩ := h.entry e (by simp)
  obtain rfl : t' = t := Option.some.inj (ht'.symm.trans ht)
  refine { h with
    nodup := ?_
    entry := fun f hf => ?_
    handed := fun q hq => ?_
    heap := fun q u hq => ?_
    inj := fun q r k hq hr => h.inj q r k (hseq q ▸ hq) (hseq r ▸ hr)
    oneShot := fun u hu hur => ?_
    repeating := fun u hu hur => ?_ }
  · rw [List.append_nil]
    exact (((perm_head wait ran e).map _).append_right _).nodup_iff.1 h.nodup
  · rw [List.append_nil, List.cons_append] at hf
    rcases List.mem_cons.1 hf with rfl | hf
    · exact ⟨_, hself, rfl, hadd⟩
    · rw [hheap _ (hne f hf)]
      exact h.entry f ((perm_head wait ran e).mem_iff.2 (List.mem_cons_of_mem e hf))
  · rw [hheap q (hnh q hq)]
    exact h.handed q hq
  · by_cases hqe : q = e.second
    · subst hqe
      rw [hself] at hq
      cases hq
      exact h.heap _ t' ht
    · exact h.heap q u (hheap q hqe ▸ hq)
  · have hku : T.sequenceAt e.second ≠ some u.sequence := by
      rw [sequenceAt_eq ht]
      intro hk
      have := h.repeats_eq hadd hu (Option.some.inj hk).symm
      rw [hur, hr] at this
      cases this
    rw [htally, List.cons_append, tally_cons, if_neg hku]
    exact h.oneShot u hu hur
  · have hu1 := h.repeating u hu hur
    rw [tally_perm (perm_head wait ran e), tally_cons] at hu1
    rw [htally, List.append_nil, List.cons_append, tally_cons]
    exact hu1

/-- `reset` deletes a one-shot timer. -/
theorem Owns.free (h : T.Owns wait (e :: ran) []) (ht : T.heap e.second = some t)
    (hr : t.repeats = false) : (T.free e.second).Owns wait ran [] := by
  obtain ⟨hne, hnh⟩ := h.head_ne
  have hheap : ∀ q, q ≠ e.second → (T.free e.second).heap q = T.heap q :=
    fun q hq => Function.update_of_ne hq _ _
  have hself : (T.free e.second).heap e.second = .none := Function.update_self _ _ _
  have hlive : ∀ q t, (T.free e.second).heap q = some t → T.heap q = some t := by
    intro q u hq
    by_cases hqe : q = e.second
    · rw [hqe, hself] at hq
      cases hq
    · exact hheap q hqe ▸ hq
  have hsome : ∀ q k, (T.free e.second).sequenceAt q = some k → T.sequenceAt q = some k := by
    intro q k hq
    obtain ⟨u, hu, rfl⟩ := Option.map_eq_some_iff.1 hq
    exact sequenceAt_eq (hlive q u hu)
  have htally : ∀ k, ∀ es ⊆ wait ++ ran, (T.free e.second).tally k es = T.tally k es :=
    fun k es hes => tally_congr fun f hf => sequenceAt_free (hne f (hes hf))
  obtain ⟨t', ht', -, hadd⟩ := h.entry e (by simp)
  obtain rfl : t' = t := Option.some.inj (ht'.symm.trans ht)
  refine { h with
    nodup := ?_
    entry := fun f hf => ?_
    handed := fun q hq => ?_
    heap := fun q u hq => h.heap q u (hlive q u hq)
    inj := fun q r k hq hr => h.inj q r k (hsome q k hq) (hsome r k hr)
    oneShot := fun u hu hur => ?_
    repeating := fun u hu hur => ?_ }
  · have hnd := (((perm_head wait ran e).map _).append_right _).nodup_iff.1 h.nodup
    rw [List.append_nil]
    exact (List.nodup_cons.1 hnd).2
  · rw [List.append_nil] at hf
    rw [hheap _ (hne f hf)]
    exact h.entry f ((perm_head wait ran e).mem_iff.2 (List.mem_cons_of_mem e hf))
  · rw [hheap q (hnh q hq)]
    exact h.handed q hq
  · rw [htally _ _ (by simp)]
    exact h.oneShot u hu hur
  · have hku : T.sequenceAt e.second ≠ some u.sequence := by
      rw [sequenceAt_eq ht]
      intro hk
      have := h.repeats_eq hadd hu (Option.some.inj hk).symm
      rw [hur, hr] at this
      cases this
    have hu1 := h.repeating u hu hur
    rw [tally_perm (perm_head wait ran e), tally_cons, if_neg hku] at hu1
    rw [List.append_nil, htally _ _ (fun _ he => he)]
    exact hu1

end Timers

end Jiangbo
