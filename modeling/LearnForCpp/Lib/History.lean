import LearnForCpp.Lib.Transition

/-!
# The order of events

Conditions on the order in which things happened.  A history is the list of the events so far, the
newest first.

* `Since p q`: some event was a `p`, and none after it was a `q`.
* `Along C`: every event of a list meets `C`, which also sees the events before it.
* `Steps.forall_iff_along`: when a law about the transitions of a run holds exactly if a condition
  on their order does.
* `recorded`: the runs along which a condition holds.
-/

section Since

variable {ε : Type*} (p q : ε → Prop) (e : ε) (past : List ε)

/-- Some event was a `p`, and none after it was a `q`. -/
def Since : List ε → Prop
  | [] => False
  | e :: past => p e ∨ ¬q e ∧ Since past

instance Since.decidable [DecidablePred p] [DecidablePred q] : DecidablePred (Since p q)
  | [] => inferInstanceAs (Decidable False)
  | e :: past =>
      have := Since.decidable past
      inferInstanceAs (Decidable (p e ∨ ¬q e ∧ Since p q past))

@[simp] theorem since_nil : ¬Since p q [] := id

theorem since_cons : Since p q (e :: past) ↔ p e ∨ ¬q e ∧ Since p q past := Iff.rfl

variable {p q e past}

/-- The event itself. -/
theorem since_cons_of_pos (h : p e) : Since p q (e :: past) := .inl h

theorem Since.cons (h : Since p q past) (hq : ¬q e) : Since p q (e :: past) := .inr ⟨hq, h⟩

end Since

section Along

variable {ε : Type*} {C : List ε → ε → Prop}

/-- Every event meets `C`, given the events before it. -/
def Along (C : List ε → ε → Prop) : List ε → List ε → Prop
  | _, [] => True
  | past, e :: rest => C past e ∧ Along C (e :: past) rest

end Along

namespace LTS

variable {σ α : Type*} {M : LTS σ α}

/-- **Laws and the order of events.** If an invariant makes the law and the condition agree on every
step, and survives the steps that meet the condition, then a run obeys the law exactly when each of
its steps meets the condition. -/
theorem Steps.forall_iff_along {I : List (Transition σ α) → σ → Prop}
    {C : List (Transition σ α) → Transition σ α → Prop} {L : Transition σ α → Prop} {s t : σ}
    {past run : List (Transition σ α)} (h : M.Steps s run t) (h0 : I past s)
    (hiff : ∀ past s a t, I past s → M.next s a = some t → (L ⟨s, a, t⟩ ↔ C past ⟨s, a, t⟩))
    (hstep : ∀ past s a t, I past s → C past ⟨s, a, t⟩ → M.next s a = some t →
      I (⟨s, a, t⟩ :: past) t) :
    (∀ e ∈ run, L e) ↔ Along C past run := by
  induction h generalizing past with
  | nil => simp [Along]
  | cons hn _ ih =>
    rw [List.forall_mem_cons, Along, hiff past _ _ _ h0 hn]
    exact and_congr_right fun hc => ih (hstep past _ _ _ h0 hc hn)

/-- The runs that keep a history and meet `C` at every step. -/
def recorded (M : LTS σ α) (C : List (Transition σ α) → Transition σ α → Prop)
    [∀ past e, Decidable (C past e)] : LTS (List (Transition σ α) × σ) α where
  init x := x.1 = [] ∧ M.init x.2
  next x a := (M.next x.2 a).bind fun t =>
    if C x.1 ⟨x.2, a, t⟩ then some (⟨x.2, a, t⟩ :: x.1, t) else none

theorem exists_along_of_run {C : List (Transition σ α) → Transition σ α → Prop}
    [∀ past e, Decidable (C past e)] {x y : List (Transition σ α) × σ} {as : List α}
    (h : (M.recorded C).run x as = some y) :
    ∃ run, M.Steps x.2 run y.2 ∧ Along C x.1 run := by
  induction as generalizing x with
  | nil =>
    cases h
    exact ⟨[], .nil _, trivial⟩
  | cons a as ih =>
    obtain ⟨z, hz, h⟩ := Option.bind_eq_some_iff.1 h
    obtain ⟨t, ht, hz⟩ := Option.bind_eq_some_iff.1 hz
    split_ifs at hz with hc
    cases hz
    obtain ⟨run, hrun, halong⟩ := ih h
    exact ⟨_, .cons ht hrun, hc, halong⟩

end LTS
