import Mathlib.Tactic

/-!
# Statements that end normally or by a fault

`Outcome ε σ` is how an imperative statement ends on a state of type `σ`: normally, or by a
fault of kind `ε` (a failed assertion, an exception, an abort) that leaves the state reached so
far behind.  `bind` is sequencing, `check` an assertion, and `zoom` runs a statement of a
component inside the state that owns it.

`o.Ends P Q` is the postcondition of a statement: `P` of the state when it ends normally, `Q` of
the fault and of the state left behind otherwise.
-/

/-- How a statement ends: normally, or by a fault that leaves a state behind. -/
inductive Outcome (ε σ : Type*) where
  | ok (s : σ)
  | fault (e : ε) (s : σ)
  deriving DecidableEq

namespace Outcome

variable {ε σ τ : Type*}

/-- Sequencing: a fault skips the rest. -/
def bind (o : Outcome ε σ) (k : σ → Outcome ε σ) : Outcome ε σ :=
  match o with
  | ok s => k s
  | fault e s => fault e s

/-- An assertion: the state is unchanged, and a false `p` is the fault `e`. -/
def check (p : Bool) (e : ε) (s : σ) : Outcome ε σ := if p then ok s else fault e s

/-- A statement of a component, run inside the state that owns the component. -/
def zoom (put : τ → σ) : Outcome ε τ → Outcome ε σ
  | ok t => ok (put t)
  | fault e t => fault e (put t)

/-- The state left behind, whichever way the statement ended. -/
def state : Outcome ε σ → σ
  | ok s => s
  | fault _ s => s

/-- The fault, when there is one. -/
def fault? : Outcome ε σ → Option ε
  | ok _ => none
  | fault e _ => some e

@[simp] theorem bind_ok (s : σ) (k : σ → Outcome ε σ) : (ok s : Outcome ε σ).bind k = k s := rfl

@[simp] theorem bind_fault (e : ε) (s : σ) (k : σ → Outcome ε σ) :
    (fault e s).bind k = fault e s := rfl

@[simp] theorem zoom_ok (put : τ → σ) (t : τ) : (ok t : Outcome ε τ).zoom put = ok (put t) := rfl

@[simp] theorem zoom_fault (put : τ → σ) (e : ε) (t : τ) :
    (fault e t).zoom put = fault e (put t) := rfl

@[simp] theorem state_ok (s : σ) : (ok s : Outcome ε σ).state = s := rfl
@[simp] theorem state_fault (e : ε) (s : σ) : (fault e s).state = s := rfl
@[simp] theorem fault?_ok (s : σ) : (ok s : Outcome ε σ).fault? = none := rfl
@[simp] theorem fault?_fault (e : ε) (s : σ) : (fault e s).fault? = some e := rfl

@[simp] theorem check_true (e : ε) (s : σ) : check true e s = ok s := rfl
@[simp] theorem check_false (e : ε) (s : σ) : check false e s = fault e s := rfl

/-- A statement without a fault ended normally. -/
theorem eq_ok_state {o : Outcome ε σ} (h : o.fault? = none) : o = ok o.state := by
  cases o with
  | ok s => rfl
  | fault e s => cases h

theorem check_pos {p : Bool} (h : p = true) (e : ε) (s : σ) : check p e s = ok s := by
  subst h; rfl

theorem check_neg {p : Bool} (h : p = false) (e : ε) (s : σ) : check p e s = fault e s := by
  subst h; rfl

/-- An assertion that ended normally was true. -/
theorem check_eq_ok {p : Bool} {e : ε} {s t : σ} : check p e s = ok t ↔ p = true ∧ s = t := by
  cases p <;> simp [check]

/-- A sequence that ended normally has a middle state. -/
theorem bind_eq_ok {o : Outcome ε σ} {k : σ → Outcome ε σ} {t : σ} :
    o.bind k = ok t ↔ ∃ s, o = ok s ∧ k s = ok t := by
  cases o <;> simp

theorem zoom_eq_ok {o : Outcome ε τ} {put : τ → σ} {s : σ} :
    o.zoom put = ok s ↔ ∃ t, o = ok t ∧ put t = s := by
  cases o <;> simp

/-! ### Postconditions -/

/-- `P` of the state when the statement ends normally, `Q` of the fault otherwise. -/
def Ends (o : Outcome ε σ) (P : σ → Prop) (Q : ε → σ → Prop) : Prop :=
  match o with
  | ok s => P s
  | fault e s => Q e s

variable {P P' : σ → Prop} {Q Q' : ε → σ → Prop}

@[simp] theorem ends_ok (s : σ) : (ok s : Outcome ε σ).Ends P Q ↔ P s := Iff.rfl
@[simp] theorem ends_fault (e : ε) (s : σ) : (fault e s).Ends P Q ↔ Q e s := Iff.rfl

/-- The rule of assertions. -/
theorem Ends.check {p : Bool} {e : ε} {s : σ} (hP : p = true → P s) (hQ : p = false → Q e s) :
    (Outcome.check p e s).Ends P Q := by
  cases p with
  | true => exact hP rfl
  | false => exact hQ rfl

/-- The rule of sequencing. -/
theorem Ends.bind {o : Outcome ε σ} {k : σ → Outcome ε σ} (h : o.Ends P Q)
    (hk : ∀ s, P s → (k s).Ends P' Q) : (o.bind k).Ends P' Q := by
  cases o with
  | ok s => exact hk s h
  | fault e s => exact h

/-- The rule of consequence. -/
theorem Ends.mono {o : Outcome ε σ} (h : o.Ends P Q) (hP : ∀ s, P s → P' s)
    (hQ : ∀ e s, Q e s → Q' e s) : o.Ends P' Q' := by
  cases o with
  | ok s => exact hP s h
  | fault e s => exact hQ e s h

/-- The rule of components. -/
theorem Ends.zoom {o : Outcome ε τ} {put : τ → σ} {R : τ → Prop} {S : ε → τ → Prop}
    (h : o.Ends R S) (hP : ∀ t, R t → P (put t)) (hQ : ∀ e t, S e t → Q e (put t)) :
    (o.zoom put).Ends P Q := by
  cases o with
  | ok t => exact hP t h
  | fault e t => exact hQ e t h

/-- A postcondition of both ends holds of the state left behind. -/
theorem Ends.state {o : Outcome ε σ} (h : o.Ends P fun _ => P) : P o.state := by
  cases o with
  | ok s => exact h
  | fault e s => exact h

theorem Ends.of_ok {o : Outcome ε σ} {s : σ} (h : o.Ends P Q) (ho : o = ok s) : P s := by
  subst ho; exact h

/-! ### Faults -/

/-- `Q` of every fault in which the statement may end. -/
def Faults (o : Outcome ε σ) (Q : ε → σ → Prop) : Prop := o.Ends (fun _ => True) Q

theorem Faults.ok (s : σ) : (ok s : Outcome ε σ).Faults Q := trivial

theorem Faults.check {p : Bool} {e : ε} {s : σ} (h : p = false → Q e s) :
    (Outcome.check p e s).Faults Q :=
  Ends.check (fun _ => trivial) h

theorem Faults.bind {o : Outcome ε σ} {k : σ → Outcome ε σ} (h : o.Faults Q)
    (hk : ∀ s, o = .ok s → (k s).Faults Q) : (o.bind k).Faults Q := by
  cases o with
  | ok s => exact hk s rfl
  | fault e s => exact h

theorem Faults.zoom {o : Outcome ε τ} {put : τ → σ} {S : ε → τ → Prop} (h : o.Faults S)
    (hS : ∀ e t, S e t → Q e (put t)) : (o.zoom put).Faults Q :=
  Ends.zoom h (fun _ _ => trivial) hS

theorem Faults.mono {o : Outcome ε σ} (h : o.Faults Q) (hQ : ∀ e s, Q e s → Q' e s) :
    o.Faults Q' :=
  Ends.mono h (fun _ => id) hQ

theorem Faults.of_fault {o : Outcome ε σ} {e : ε} {s : σ} (h : o.Faults Q)
    (ho : o = .fault e s) : Q e s := by
  subst ho; exact h

end Outcome
