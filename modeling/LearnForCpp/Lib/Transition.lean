import Mathlib.Tactic

/-!
# Labelled transition systems

A system is a set of initial states and a partial step function: `next s a` is the state after
action `a`, or `none` when `a` is not enabled in `s`.  What the environment chooses is part of the
action, so a run is a list of actions and every schedule is one of them.

* `Reachable`: the states some run reaches, and `Reachable.invariant`, the induction over runs.
* `Steps`: a run with all its transitions, for laws about single transitions.
* `restrict`: the runs whose every step meets a condition.
* `run_refines`: a system that refines another one step for step does so over whole runs.
* `Steps.forall_iff`: when a law about transitions holds of a run exactly if a condition on the
  steps does.
* `Leads`: one state can be followed by another.
-/

/-- A labelled transition system with states `σ` and actions `α`. -/
structure LTS (σ α : Type*) where
  init : σ → Prop
  next : σ → α → Option σ

/-- One transition of a run: the state before, the action and the state after. -/
structure Transition (σ α : Type*) where
  source : σ
  action : α
  target : σ

namespace LTS

variable {σ α τ β : Type*} (M : LTS σ α)

/-- The states that a run reaches. -/
inductive Reachable : σ → Prop
  | init {s : σ} : M.init s → Reachable s
  | step {s t : σ} (a : α) : Reachable s → M.next s a = some t → Reachable t

/-- A run from a state, as the list of its transitions. -/
inductive Steps : σ → List (Transition σ α) → σ → Prop
  | nil (s : σ) : Steps s [] s
  | cons {s t u : σ} {a : α} {run : List (Transition σ α)} :
      M.next s a = some t → Steps t run u → Steps s (⟨s, a, t⟩ :: run) u

/-- The runs whose every step meets the condition `C`. -/
def restrict (C : σ → α → Prop) [∀ s a, Decidable (C s a)] : LTS σ α where
  init := M.init
  next s a := if C s a then M.next s a else none

/-- The state after a list of actions, when each is enabled in turn. -/
def run : σ → List α → Option σ
  | s, [] => some s
  | s, a :: as => (M.next s a).bind fun t => run t as

variable {M}

/-! ### Invariants -/

/-- **The induction over runs.** What holds initially and is kept by every step holds of every
reachable state. -/
theorem Reachable.invariant {I : σ → Prop} {s : σ} (h : M.Reachable s)
    (h0 : ∀ s, M.init s → I s) (hstep : ∀ s a t, I s → M.next s a = some t → I t) : I s := by
  induction h with
  | init hi => exact h0 _ hi
  | step a _ hn ih => exact hstep _ a _ ih hn

theorem restrict_next {C : σ → α → Prop} [∀ s a, Decidable (C s a)] {s t : σ} {a : α} :
    (M.restrict C).next s a = some t ↔ C s a ∧ M.next s a = some t := by
  by_cases h : C s a <;> simp [restrict, h]

/-! ### Runs -/

theorem Steps.reachable {s t : σ} {run : List (Transition σ α)} (h : M.Steps s run t)
    (hs : M.Reachable s) : M.Reachable t := by
  induction h with
  | nil => exact hs
  | cons hn _ ih => exact ih (.step _ hs hn)

/-- The transitions of a run start in reachable states and are steps. -/
theorem Steps.mem {s t : σ} {run : List (Transition σ α)} (h : M.Steps s run t)
    (hs : M.Reachable s) {e : Transition σ α} (he : e ∈ run) :
    M.Reachable e.source ∧ M.next e.source e.action = some e.target := by
  induction h with
  | nil => simp at he
  | cons hn _ ih =>
    rcases List.mem_cons.1 he with rfl | he
    · exact ⟨hs, hn⟩
    · exact ih (.step _ hs hn) he

/-- What holds at the start of a run and is kept by each of its steps holds at its end. -/
theorem Steps.invariant {I : σ → Prop} {C : Transition σ α → Prop} {s t : σ}
    {run : List (Transition σ α)} (h : M.Steps s run t) (h0 : I s) (hC : ∀ e ∈ run, C e)
    (hstep : ∀ s a t, I s → C ⟨s, a, t⟩ → M.next s a = some t → I t) : I t := by
  induction h with
  | nil => exact h0
  | cons hn _ ih =>
    obtain ⟨hc, hC⟩ := List.forall_mem_cons.1 hC
    exact ih (hstep _ _ _ h0 hc hn) hC

/-- What every step from an invariant state obeys, each step of a run obeys. -/
theorem Steps.forall_of_invariant {I : σ → Prop} {C L : Transition σ α → Prop} {s t : σ}
    {run : List (Transition σ α)} (h : M.Steps s run t) (h0 : I s) (hC : ∀ e ∈ run, C e)
    (hstep : ∀ s a t, I s → C ⟨s, a, t⟩ → M.next s a = some t → I t ∧ L ⟨s, a, t⟩) :
    ∀ e ∈ run, L e := by
  induction h with
  | nil => simp
  | cons hn _ ih =>
    obtain ⟨hc, hC⟩ := List.forall_mem_cons.1 hC
    obtain ⟨hi, hl⟩ := hstep _ _ _ h0 hc hn
    exact List.forall_mem_cons.2 ⟨hl, ih hi hC⟩

/-- The steps of a restricted run meet the condition. -/
theorem Steps.of_restrict {C : σ → α → Prop} [∀ s a, Decidable (C s a)] {s t : σ}
    {run : List (Transition σ α)} (h : (M.restrict C).Steps s run t) :
    M.Steps s run t ∧ ∀ e ∈ run, C e.source e.action := by
  induction h with
  | nil s => exact ⟨.nil s, by simp⟩
  | cons hn _ ih =>
    obtain ⟨hc, hn⟩ := restrict_next.1 hn
    exact ⟨.cons hn ih.1, List.forall_mem_cons.2 ⟨hc, ih.2⟩⟩

/-- What a restricted run reaches. -/
theorem Reachable.of_restrict {C : σ → α → Prop} [∀ s a, Decidable (C s a)] {s : σ}
    (h : (M.restrict C).Reachable s) : M.Reachable s :=
  h.invariant (fun _ hi => .init hi) fun _ a _ hs hn => .step a hs (restrict_next.1 hn).2

/-- **Laws about transitions.** If an invariant makes the law and the condition agree on every
step, and survives the steps that meet the condition, then a run obeys the law exactly when each
of its steps meets the condition. -/
theorem Steps.forall_iff {I : σ → Prop} {C : σ → α → Prop} {L : σ → α → σ → Prop}
    {s t : σ} {run : List (Transition σ α)} (h : M.Steps s run t) (h0 : I s)
    (hiff : ∀ s a t, I s → M.next s a = some t → (L s a t ↔ C s a))
    (hstep : ∀ s a t, I s → C s a → M.next s a = some t → I t) :
    (∀ e ∈ run, L e.source e.action e.target) ↔ ∀ e ∈ run, C e.source e.action := by
  induction h with
  | nil => simp
  | @cons s t u a run hn _ ih =>
    simp only [List.forall_mem_cons]
    rw [hiff s a t h0 hn]
    exact and_congr_right fun hc => ih (hstep s a t h0 hc hn)

/-- **Refinement.** When every step of `M` from an invariant state is, through `f`, the step of
`N` for the same action, so is every run. -/
theorem run_refines {N : LTS τ α} {f : σ → τ} {I : σ → Prop}
    (hstep : ∀ s a t, I s → M.next s a = some t → I t ∧ N.next (f s) a = some (f t))
    {s t : σ} {as : List α} (hs : I s) (h : M.run s as = some t) :
    I t ∧ N.run (f s) as = some (f t) := by
  induction as generalizing s with
  | nil => cases h; exact ⟨hs, rfl⟩
  | cons a as ih =>
    obtain ⟨u, hu, ht⟩ := Option.bind_eq_some_iff.1 h
    obtain ⟨hu', hn⟩ := hstep s a u hs hu
    obtain ⟨ht', hr⟩ := ih hu' ht
    exact ⟨ht', by rw [run, hn, Option.bind_some, hr]⟩

theorem run_append (s : σ) (as bs : List α) :
    M.run s (as ++ bs) = (M.run s as).bind fun t => M.run t bs := by
  induction as generalizing s with
  | nil => rfl
  | cons a as ih =>
    rw [List.cons_append, run, run, Option.bind_assoc]
    exact congrArg _ (funext fun t => ih t)

/-- A list of actions that all take effect is a run. -/
theorem exists_steps_of_run {s t : σ} {as : List α} (h : M.run s as = some t) :
    ∃ run, M.Steps s run t ∧ run.map Transition.action = as := by
  induction as generalizing s with
  | nil => cases h; exact ⟨[], .nil _, rfl⟩
  | cons a as ih =>
    obtain ⟨u, hu, ht⟩ := Option.bind_eq_some_iff.1 h
    obtain ⟨run, hrun, hmap⟩ := ih ht
    exact ⟨⟨s, a, u⟩ :: run, .cons hu hrun, by rw [List.map_cons, hmap]⟩

/-- A list of actions with a property. -/
theorem exists_steps_forall {P : α → Prop} {s t : σ} {as : List α} (h : M.run s as = some t)
    (hP : ∀ a ∈ as, P a) : ∃ run, M.Steps s run t ∧ ∀ e ∈ run, P e.action := by
  obtain ⟨run, hrun, rfl⟩ := exists_steps_of_run h
  exact ⟨run, hrun, fun e he => hP _ (List.mem_map_of_mem he)⟩

/-! ### Measures -/

/-- A measure that each step lowers bounds the length of a run. -/
theorem run_length_le {I : σ → Prop} {C : α → Prop} {m : σ → ℕ}
    (hstep : ∀ s a t, I s → C a → M.next s a = some t → I t ∧ m t < m s) {s t : σ} {as : List α}
    (hs : I s) (hC : ∀ a ∈ as, C a) (h : M.run s as = some t) : as.length + m t ≤ m s := by
  induction as generalizing s with
  | nil => cases h; simp
  | cons a as ih =>
    obtain ⟨u, hu, ht⟩ := Option.bind_eq_some_iff.1 h
    obtain ⟨ha, hC⟩ := List.forall_mem_cons.1 hC
    obtain ⟨hi, hlt⟩ := hstep s a u hs ha hu
    have hrest := ih hi hC ht
    rw [List.length_cons]
    omega

/-- Where some step lowers the measure until `Q` holds, a run gets there. -/
theorem exists_run {I Q : σ → Prop} {m : σ → ℕ}
    (hstep : ∀ s, I s → ¬Q s → ∃ a t, M.next s a = some t ∧ I t ∧ m t < m s) {s : σ} (hs : I s) :
    ∃ as t, M.run s as = some t ∧ I t ∧ Q t := by
  induction hk : m s using Nat.strong_induction_on generalizing s with
  | _ k ih =>
    by_cases hq : Q s
    · exact ⟨[], s, rfl, hs, hq⟩
    · obtain ⟨a, u, hu, hi, hlt⟩ := hstep s hs hq
      obtain ⟨as, t, ht, h⟩ := ih (m u) (hk ▸ hlt) hi rfl
      exact ⟨a :: as, t, by rw [run, hu, Option.bind_some, ht], h⟩

/-! ### What a run can lead to -/

variable (M) in
/-- Some run with actions in `P` leads from one state to the other. -/
def Leads (P : α → Prop) : σ → σ → Prop :=
  Relation.ReflTransGen fun s t => ∃ a, P a ∧ M.next s a = some t

theorem Leads.refl {P : α → Prop} (s : σ) : M.Leads P s s := Relation.ReflTransGen.refl

theorem Leads.single {P : α → Prop} {s t : σ} {a : α} (ha : P a) (h : M.next s a = some t) :
    M.Leads P s t := Relation.ReflTransGen.single ⟨a, ha, h⟩

theorem Leads.trans {P : α → Prop} {s t u : σ} (h : M.Leads P s t) (h' : M.Leads P t u) :
    M.Leads P s u := Relation.ReflTransGen.trans h h'

theorem Leads.exists_steps {P : α → Prop} {s t : σ} (h : M.Leads P s t) :
    ∃ run, M.Steps s run t ∧ ∀ e ∈ run, P e.action := by
  induction h using Relation.ReflTransGen.head_induction_on with
  | refl => exact ⟨[], .nil _, by simp⟩
  | head hstep _ ih =>
    obtain ⟨a, ha, hn⟩ := hstep
    obtain ⟨run, hrun, hP⟩ := ih
    exact ⟨_, .cons hn hrun, List.forall_mem_cons.2 ⟨ha, hP⟩⟩

theorem Reachable.of_run {s t : σ} (hs : M.Reachable s) (as : List α)
    (h : M.run s as = some t) : M.Reachable t := by
  obtain ⟨run, hrun, -⟩ := exists_steps_of_run h
  exact hrun.reachable hs

end LTS
