import LearnForCpp.Lib.Transition
import Mathlib.Data.Fintype.Card

/-!
# A reference-counted pointer

The class `SharedPtr` of `thread/test/shared_ptr_test.cc` with its default deleter, for which the
copy constructor and the assignment are the ones that are written there.  A program has pointers
`P`, and makes, copies, assigns and destroys them in any order; every object is handed to one
constructor when `new` has made it, and holds no pointers itself.  There are fewer pointers than an
`int` counts.

The assignment increments the counter of its source without a look at the source:
`shared_ptr_counts` says that nothing else goes wrong, and that the counters are right until then.
-/

namespace Jiangbo

/-- The addresses of the object and of its counter; `none` is `NULL`. -/
structure SharedPtr where
  ptr : Option ℕ
  pCount : Option ℕ
  deriving DecidableEq

/-- A program with the pointers `P`. -/
structure PtrProgram (P : Type*) where
  /-- The pointers that are constructed. -/
  vars : P → Option SharedPtr
  /-- How many objects `new` has made. -/
  made : ℕ
  /-- The objects that are not deleted. -/
  objects : ℕ → Bool
  /-- The counters that are not deleted. -/
  counts : ℕ → Option ℤ
  /-- Memory was used that is not there. -/
  crashed : Bool

inductive PtrAction (P : Type*)
  /-- `SharedPtr p(new T)`. -/
  | construct (p : P)
  /-- `SharedPtr p`. -/
  | empty (p : P)
  /-- `SharedPtr p(q)`. -/
  | copy (p q : P)
  /-- `p = q`. -/
  | assign (p q : P)
  /-- `~SharedPtr`. -/
  | destroy (p : P)

namespace PtrProgram

variable {P : Type*} [DecidableEq P]

def new : PtrProgram P := ⟨fun _ => none, 0, fun _ => false, fun _ => none, false⟩

def setVar (p : P) (v : Option SharedPtr) (s : PtrProgram P) : PtrProgram P :=
  { s with vars := Function.update s.vars p v }

/-- `GetRef()`; there is no counter behind `NULL`, and none that is deleted. -/
def getRef (v : SharedPtr) (s : PtrProgram P) : Option (ℕ × ℤ) :=
  v.pCount.bind fun c => (s.counts c).map fun n => (c, n)

def setCount (c : ℕ) (n : ℤ) (s : PtrProgram P) : PtrProgram P :=
  { s with counts := Function.update s.counts c (some n) }

/-- The deleter of the object `i`, and `delete _pCount`. -/
def delete (i c : ℕ) (s : PtrProgram P) : PtrProgram P :=
  { s with
    objects := Function.update s.objects i false
    counts := Function.update s.counts c none }

/-- `++ GetRef()`. -/
def addRef (v : SharedPtr) (s : PtrProgram P) : Option (PtrProgram P) :=
  (s.getRef v).map fun r => s.setCount r.1 (r.2 + 1)

/-- `Release()`, with what is left of the pointer. -/
def release (v : SharedPtr) (s : PtrProgram P) : Option (SharedPtr × PtrProgram P) :=
  match v.ptr with
  | none => some (v, s)
  | some i =>
      (s.getRef v).bind fun r =>
        if r.2 - 1 = 0 then
          if s.objects i then some (⟨none, none⟩, s.delete i r.1) else none
        else some (v, s.setCount r.1 (r.2 - 1))

/-- `SharedPtr(T *ptr)` with a new object. -/
def construct (p : P) (s : PtrProgram P) : PtrProgram P :=
  { s with
    made := s.made + 1
    objects := Function.update s.objects s.made true
    counts := Function.update s.counts s.made (some 1)
    vars := Function.update s.vars p (some ⟨some s.made, some s.made⟩) }

/-- The copy constructor. -/
def copy (p : P) (w : SharedPtr) (s : PtrProgram P) : Option (PtrProgram P) :=
  let s := s.setVar p (some w)
  match w.ptr with
  | none => some s
  | some _ => s.addRef w

/-- `operator=`. -/
def assign (p q : P) (v w : SharedPtr) (s : PtrProgram P) : Option (PtrProgram P) :=
  if p = q then some s
  else (s.release v).bind fun r => (r.2.setVar p (some w)).addRef w

/-- The destructor. -/
def destroy (p : P) (v : SharedPtr) (s : PtrProgram P) : Option (PtrProgram P) :=
  (s.release v).map fun r => r.2.setVar p none

/-- A step that may crash. -/
def ended (o : Option (PtrProgram P)) (s : PtrProgram P) : PtrProgram P :=
  o.getD { s with crashed := true }

/-- One step. -/
def next (s : PtrProgram P) (a : PtrAction P) : Option (PtrProgram P) :=
  if s.crashed then none
  else
    match a with
    | .construct p => if s.vars p = none then some (s.construct p) else none
    | .empty p => if s.vars p = none then some (s.setVar p (some ⟨none, none⟩)) else none
    | .copy p q =>
        match s.vars p, s.vars q with
        | none, some w => some (s.ended (s.copy p w))
        | _, _ => none
    | .assign p q =>
        match s.vars p, s.vars q with
        | some v, some w => some (s.ended (s.assign p q v w))
        | _, _ => none
    | .destroy p =>
        match s.vars p with
        | some v => some (s.ended (s.destroy p v))
        | none => none

/-- The object that a pointer points to. -/
def target (s : PtrProgram P) (p : P) : Option ℕ := (s.vars p).bind SharedPtr.ptr

/-- The step assigns an empty pointer to another one. -/
def AssignsEmpty (s : PtrProgram P) : PtrAction P → Prop
  | .assign p q => p ≠ q ∧ s.target q = none
  | _ => False

/-- How many pointers point to the object. -/
def refs [Fintype P] (s : PtrProgram P) (i : ℕ) : ℕ :=
  (Finset.univ.filter fun p => s.target p = some i).card

end PtrProgram

/-- The runs of a program. -/
def ptrPrograms (P : Type*) [DecidableEq P] : LTS (PtrProgram P) (PtrAction P) where
  init s := s = .new
  next := PtrProgram.next

namespace PtrProgram

variable {P : Type*} [DecidableEq P] {s t : PtrProgram P} {p q : P} {v w : SharedPtr} {i : ℕ}
  {r : ℕ → ℕ} {a : PtrAction P}

/-! ### Counting pointers -/

theorem target_update {o : Option SharedPtr} (hvars : t.vars = Function.update s.vars p o) :
    t.target = Function.update s.target p (o.bind SharedPtr.ptr) := by
  funext u
  by_cases hu : u = p
  · subst hu
    rw [target, hvars, Function.update_self, Function.update_self]
  · rw [target, hvars, Function.update_of_ne hu, Function.update_of_ne hu, target]

section Refs

variable [Fintype P]

omit [DecidableEq P] in
theorem refs_pos : 0 < s.refs i ↔ ∃ p, s.target p = some i := by
  simp [refs, Finset.card_pos, Finset.filter_nonempty_iff]

/-- When a pointer is set, its old object loses a reference and its new one gets it. -/
theorem refs_update {o : Option ℕ} (htarget : t.target = Function.update s.target p o) (i : ℕ) :
    t.refs i + (if s.target p = some i then 1 else 0) =
      s.refs i + if o = some i then 1 else 0 := by
  have hset : (Finset.univ.filter fun u => t.target u = some i) =
      if o = some i then insert p (Finset.univ.filter fun u => s.target u = some i)
      else (Finset.univ.filter fun u => s.target u = some i).erase p := by
    ext u
    by_cases hu : u = p
    · subst hu
      by_cases ho : o = some i <;> simp [htarget, ho]
    · by_cases ho : o = some i <;> simp [htarget, ho, hu]
  have hmem : p ∈ (Finset.univ.filter fun u => s.target u = some i) ↔ s.target p = some i := by simp
  have hpos : s.target p = some i → 0 < s.refs i := fun h => refs_pos.2 ⟨p, h⟩
  rw [refs, hset]
  by_cases ho : o = some i
  · rw [if_pos ho, if_pos ho]
    by_cases hp : s.target p = some i
    · rw [if_pos hp, Finset.insert_eq_of_mem (hmem.2 hp), refs]
    · rw [if_neg hp, Finset.card_insert_of_notMem (mt hmem.1 hp), refs]
  · rw [if_neg ho, if_neg ho]
    by_cases hp : s.target p = some i
    · have := hpos hp
      rw [if_pos hp, Finset.card_erase_of_mem (hmem.2 hp)]
      change s.refs i - 1 + 1 = s.refs i + 0
      omega
    · rw [if_neg hp, Finset.erase_eq_of_notMem (mt hmem.1 hp), refs]

end Refs

/-! ### The counters -/

/-- Object `i` has `r i` references: it is there when there are any, and its counter shows them. -/
def Holds (r : ℕ → ℕ) (s : PtrProgram P) : Prop :=
  ∀ i, s.counts i = (if r i = 0 then none else some (r i : ℤ)) ∧ (s.objects i = true ↔ 0 < r i)

/-- Only the heap is changed. -/
structure SameVars (s t : PtrProgram P) : Prop where
  vars : t.vars = s.vars
  made : t.made = s.made
  crashed : t.crashed = s.crashed

omit [DecidableEq P] in
theorem Holds.getRef (h : s.Holds r) (hsame : v.pCount = v.ptr) (hi : v.ptr = some i)
    (hpos : 0 < r i) : s.getRef v = some (i, (r i : ℤ)) := by
  rw [PtrProgram.getRef, hsame, hi, Option.bind_some, (h i).1, if_neg hpos.ne']
  rfl

omit [DecidableEq P] in
/-- An increment is one reference more. -/
theorem Holds.addRef (h : s.Holds r) (hsame : v.pCount = v.ptr) (hi : v.ptr = some i)
    (hpos : 0 < r i) : ∃ t, s.addRef v = some t ∧ s.SameVars t ∧
      t.Holds fun j => r j + if v.ptr = some j then 1 else 0 := by
  refine ⟨s.setCount i (r i + 1), by rw [PtrProgram.addRef, h.getRef hsame hi hpos]; rfl,
    ⟨rfl, rfl, rfl⟩, fun j => ?_⟩
  have halive := (h j).2
  by_cases hj : j = i
  · subst hj
    simp only [setCount, hi, Function.update_self, if_true]
    exact ⟨by simp, by rw [halive]; omega⟩
  · have hij : v.ptr ≠ some j := fun hij => hj (Option.some.inj (hij.symm.trans hi))
    simp only [setCount, Function.update_of_ne hj, if_neg hij, Nat.add_zero]
    exact h j

omit [DecidableEq P] in
/-- `Release()` takes a reference away, and with the last one the object and the counter. -/
theorem Holds.release (h : s.Holds r) (hsame : v.pCount = v.ptr)
    (hpos : ∀ i, v.ptr = some i → 0 < r i) : ∃ v' t, s.release v = some (v', t) ∧ s.SameVars t ∧
      t.Holds fun j => r j - if v.ptr = some j then 1 else 0 := by
  cases hv : v.ptr with
  | none =>
    refine ⟨v, s, by rw [PtrProgram.release, hv], ⟨rfl, rfl, rfl⟩, ?_⟩
    simpa using h
  | some i =>
    have hi := hpos i hv
    have hother : ∀ j, j ≠ i → r j - (if some i = some j then 1 else 0) = r j := by
      intro j hj
      rw [if_neg fun hij => hj (Option.some.inj hij).symm, Nat.sub_zero]
    have hrelease : s.release v = if (r i : ℤ) - 1 = 0 then
        if s.objects i then some (⟨none, none⟩, s.delete i i) else none
        else some (v, s.setCount i (r i - 1)) := by
      rw [PtrProgram.release, hv]
      dsimp only
      rw [h.getRef hsame hv hi, Option.bind_some]
    by_cases hlast : r i = 1
    · refine ⟨_, s.delete i i, by rw [hrelease, if_pos (by omega), if_pos ((h i).2.2 hi)],
        ⟨rfl, rfl, rfl⟩, fun j => ?_⟩
      by_cases hj : j = i
      · subst hj
        simp [delete, hlast]
      · simp only [delete, Function.update_of_ne hj, hother j hj]
        exact h j
    · refine ⟨v, s.setCount i (r i - 1), by rw [hrelease, if_neg (by omega)], ⟨rfl, rfl, rfl⟩,
        fun j => ?_⟩
      have halive := (h j).2
      by_cases hj : j = i
      · subst hj
        have hcast : (r j : ℤ) - 1 = (r j - 1 : ℕ) := by omega
        simp only [setCount, Function.update_self, if_true]
        exact ⟨by rw [if_neg (by omega), hcast], by rw [halive]; omega⟩
      · simp only [setCount, Function.update_of_ne hj, hother j hj]
        exact h j

/-! ### The invariant -/

variable [Fintype P]

/-- The counters show how many pointers there are. -/
structure Inv (s : PtrProgram P) : Prop where
  ok : s.crashed = false
  same : ∀ p v, s.vars p = some v → v.pCount = v.ptr
  made : ∀ p i, s.target p = some i → i < s.made
  holds : s.Holds s.refs

omit [DecidableEq P] in
theorem new_inv : (new : PtrProgram P).Inv where
  ok := rfl
  same p v h := by cases h
  made p i h := by cases h
  holds i := by simp [new, refs, target]

/-- A step sets one pointer, and the heap follows it. -/
theorem Inv.of_update (hs : s.Inv) (hok : t.crashed = false) (hmade : s.made ≤ t.made)
    {o : Option SharedPtr} (hvars : t.vars = Function.update s.vars p o)
    (hsame : ∀ v, o = some v → v.pCount = v.ptr)
    (htarget : ∀ i, o.bind SharedPtr.ptr = some i → i < t.made)
    (hholds : t.Holds fun i => s.refs i - (if s.target p = some i then 1 else 0) +
      if o.bind SharedPtr.ptr = some i then 1 else 0) : t.Inv where
  ok := hok
  same u v hu := by
    rw [hvars] at hu
    by_cases hup : u = p
    · subst hup
      rw [Function.update_self] at hu
      exact hsame v hu
    · rw [Function.update_of_ne hup] at hu
      exact hs.same u v hu
  made u i hu := by
    rw [target_update hvars] at hu
    by_cases hup : u = p
    · subst hup
      rw [Function.update_self] at hu
      exact htarget i hu
    · rw [Function.update_of_ne hup] at hu
      exact (hs.made u i hu).trans_le hmade
  holds i := by
    have hupdate := refs_update (target_update hvars) i
    have hrefs : t.refs i = s.refs i - (if s.target p = some i then 1 else 0) +
        if o.bind SharedPtr.ptr = some i then 1 else 0 := by
      by_cases hp : s.target p = some i
      · have hpos := refs_pos.2 ⟨p, hp⟩
        rw [if_pos hp] at hupdate ⊢
        omega
      · rw [if_neg hp] at hupdate ⊢
        omega
    rw [hrefs]
    exact hholds i

theorem Inv.construct (hs : s.Inv) (hp : s.vars p = none) : (s.construct p).Inv := by
  have htarget : s.target p = none := by rw [target, hp, Option.bind_none]
  have hmade : s.refs s.made = 0 := by
    by_contra h
    obtain ⟨u, hu⟩ := refs_pos.1 (Nat.pos_of_ne_zero h)
    exact lt_irrefl _ (hs.made u _ hu)
  have hheap : (s.construct p).Holds fun i => s.refs i + if some s.made = some i then 1 else 0 := by
    intro i
    by_cases hi : i = s.made
    · subst hi
      simp [PtrProgram.construct, hmade]
    · have hne : some s.made ≠ some i := fun h => hi (Option.some.inj h).symm
      simp only [PtrProgram.construct, Function.update_of_ne hi, if_neg hne, Nat.add_zero]
      exact hs.holds i
  refine hs.of_update (t := s.construct p) hs.ok (Nat.le_succ _) rfl ?_ ?_ ?_
  · rintro v ⟨⟩
    rfl
  · rintro i ⟨⟩
    exact Nat.lt_succ_self _
  · simpa [htarget] using hheap

theorem Inv.empty (hs : s.Inv) (hp : s.vars p = none) :
    (s.setVar p (some ⟨none, none⟩)).Inv := by
  have htarget : s.target p = none := by rw [target, hp, Option.bind_none]
  refine hs.of_update (t := s.setVar p (some ⟨none, none⟩)) hs.ok le_rfl rfl ?_ ?_ ?_
  · rintro v ⟨⟩
    rfl
  · rintro i ⟨⟩
  · have hsame : (s.setVar p (some ⟨none, none⟩)).Holds s.refs := hs.holds
    simpa [htarget] using hsame

/-- The copy constructor does not crash. -/
theorem Inv.copy (hs : s.Inv) (hp : s.vars p = none) (hq : s.vars q = some w) :
    ∃ t, s.copy p w = some t ∧ t.Inv := by
  have htarget : s.target p = none := by rw [target, hp, Option.bind_none]
  have hw : s.target q = w.ptr := by rw [target, hq, Option.bind_some]
  have hsame := hs.same q w hq
  have hset : (s.setVar p (some w)).Holds s.refs := hs.holds
  obtain ⟨t, ht, hvars, hholds⟩ : ∃ t, s.copy p w = some t ∧ (s.setVar p (some w)).SameVars t ∧
      t.Holds fun j => s.refs j + if w.ptr = some j then 1 else 0 := by
    cases hptr : w.ptr with
    | none => exact ⟨_, by rw [PtrProgram.copy, hptr], ⟨rfl, rfl, rfl⟩, by simpa using hset⟩
    | some i =>
      obtain ⟨t, ht, hvars, hholds⟩ :=
        hset.addRef hsame hptr (refs_pos.2 ⟨q, hw.trans hptr⟩)
      exact ⟨t, by rw [PtrProgram.copy, hptr]; exact ht, hvars, hptr ▸ hholds⟩
  refine ⟨t, ht, hs.of_update (hvars.crashed.trans hs.ok) hvars.made.ge hvars.vars ?_ ?_ ?_⟩
  · rintro v ⟨⟩
    exact hsame
  · intro i hi
    rw [hvars.made]
    exact hs.made q i (hw.trans hi)
  · simpa [htarget] using hholds

/-- The assignment crashes exactly if its source is empty. -/
theorem Inv.assign (hs : s.Inv) (hp : s.vars p = some v) (hq : s.vars q = some w) :
    (p ≠ q ∧ w.ptr = none → s.assign p q v w = none) ∧
      (¬(p ≠ q ∧ w.ptr = none) → ∃ t, s.assign p q v w = some t ∧ t.Inv) := by
  have hv : s.target p = v.ptr := by rw [target, hp, Option.bind_some]
  have hw : s.target q = w.ptr := by rw [target, hq, Option.bind_some]
  have hsame := hs.same q w hq
  obtain ⟨v', u, hrelease, hvars, hholds⟩ := hs.holds.release (hs.same p v hp)
    fun i hi => refs_pos.2 ⟨p, hv.trans hi⟩
  have hassign : p ≠ q → s.assign p q v w = (u.setVar p (some w)).addRef w := by
    intro hpq
    rw [PtrProgram.assign, if_neg hpq, hrelease, Option.bind_some]
  constructor
  · rintro ⟨hpq, hnull⟩
    rw [hassign hpq, addRef, getRef, hsame, hnull]
    rfl
  · intro h
    by_cases hpq : p = q
    · exact ⟨s, by rw [PtrProgram.assign, if_pos hpq], hs⟩
    obtain ⟨i, hi⟩ := Option.ne_none_iff_exists'.1 fun hnull => h ⟨hpq, hnull⟩
    -- the object of the source survives the release
    have hpos : 0 < s.refs i - if v.ptr = some i then 1 else 0 := by
      have hupdate := refs_update (target_update (s := s) (t := s.setVar p none) rfl) i
      have hother : 0 < (s.setVar p none).refs i := refs_pos.2 ⟨q, by
        rw [target_update (s := s) (t := s.setVar p none) rfl,
          Function.update_of_ne (Ne.symm hpq)]
        exact hw.trans hi⟩
      rw [hv, Option.bind_none, if_neg (Option.some_ne_none i).symm] at hupdate
      omega
    have hset : (u.setVar p (some w)).Holds fun j =>
      s.refs j - if v.ptr = some j then 1 else 0 := hholds
    obtain ⟨t, ht, hvars', hholds'⟩ := hset.addRef hsame hi hpos
    have hupdated : t.vars = Function.update s.vars p (some w) := by
      rw [hvars'.vars, setVar, hvars.vars]
    refine ⟨t, by rw [hassign hpq, ht], hs.of_update ?_ ?_ hupdated ?_ ?_ ?_⟩
    · exact hvars'.crashed.trans (hvars.crashed.trans hs.ok)
    · exact (hvars'.made.trans hvars.made).ge
    · rintro x ⟨⟩
      exact hsame
    · intro j hj
      rw [hvars'.made, setVar, hvars.made]
      exact hs.made q j (hw.trans hj)
    · simpa [hv] using hholds'

/-- The destructor does not crash. -/
theorem Inv.destroy (hs : s.Inv) (hp : s.vars p = some v) :
    ∃ t, s.destroy p v = some t ∧ t.Inv := by
  have hv : s.target p = v.ptr := by rw [target, hp, Option.bind_some]
  obtain ⟨v', u, hrelease, hvars, hholds⟩ := hs.holds.release (hs.same p v hp)
    fun i hi => refs_pos.2 ⟨p, hv.trans hi⟩
  refine ⟨u.setVar p none, by rw [PtrProgram.destroy, hrelease, Option.map_some],
    hs.of_update (p := p) (o := none) (hvars.crashed.trans hs.ok) hvars.made.ge ?_ ?_ ?_ ?_⟩
  · rw [setVar, hvars.vars]
  · rintro x ⟨⟩
  · rintro x ⟨⟩
  · have hsame : (u.setVar p none).Holds fun j => s.refs j - if v.ptr = some j then 1 else 0 :=
      hholds
    simpa [hv] using hsame

/-- A step crashes exactly if it assigns an empty pointer, and otherwise keeps the invariant. -/
theorem Inv.next (hs : s.Inv) (hn : s.next a = some t) :
    (t.crashed = true ↔ s.AssignsEmpty a) ∧ (¬s.AssignsEmpty a → t.Inv) := by
  unfold PtrProgram.next at hn
  rw [hs.ok] at hn
  cases a with
  | construct p =>
    obtain ⟨hp, hn⟩ := Option.ite_none_right_eq_some.1 hn
    obtain rfl := Option.some.inj hn
    have hinv := hs.construct hp
    exact ⟨iff_of_false (hinv.ok ▸ Bool.false_ne_true) id, fun _ => hinv⟩
  | empty p =>
    obtain ⟨hp, hn⟩ := Option.ite_none_right_eq_some.1 hn
    obtain rfl := Option.some.inj hn
    have hinv := hs.empty hp
    exact ⟨iff_of_false (hinv.ok ▸ Bool.false_ne_true) id, fun _ => hinv⟩
  | copy p q =>
    cases hp : s.vars p with
    | some v => simp [hp] at hn
    | none =>
      cases hq : s.vars q with
      | none => simp [hp, hq] at hn
      | some w =>
        obtain ⟨u, hu, hinv⟩ := hs.copy hp hq
        simp only [hp, hq, hu, ended, Option.getD_some] at hn
        obtain rfl := Option.some.inj hn
        exact ⟨iff_of_false (hinv.ok ▸ Bool.false_ne_true) id, fun _ => hinv⟩
  | assign p q =>
    cases hp : s.vars p with
    | none => simp [hp] at hn
    | some v =>
      cases hq : s.vars q with
      | none => simp [hp, hq] at hn
      | some w =>
        have hw : s.target q = w.ptr := by rw [target, hq, Option.bind_some]
        obtain ⟨hcrash, hok⟩ := hs.assign hp hq
        simp only [AssignsEmpty, hw]
        simp only [hp, hq, ended] at hn
        by_cases h : p ≠ q ∧ w.ptr = none
        · rw [hcrash h] at hn
          obtain rfl := Option.some.inj hn
          exact ⟨iff_of_true rfl h, fun hno => absurd h hno⟩
        · obtain ⟨u, hu, hinv⟩ := hok h
          rw [hu] at hn
          obtain rfl := Option.some.inj hn
          exact ⟨iff_of_false (hinv.ok ▸ Bool.false_ne_true) h, fun _ => hinv⟩
  | destroy p =>
    cases hp : s.vars p with
    | none => simp [hp] at hn
    | some v =>
      obtain ⟨u, hu, hinv⟩ := hs.destroy hp
      simp only [hp, hu, ended, Option.getD_some] at hn
      obtain rfl := Option.some.inj hn
      exact ⟨iff_of_false (hinv.ok ▸ Bool.false_ne_true) id, fun _ => hinv⟩

omit [Fintype P] in
theorem next_running (hn : s.next a = some t) : s.crashed = false := by
  unfold PtrProgram.next at hn
  split_ifs at hn with hcrashed
  exact eq_false_of_ne_true hcrashed

omit [Fintype P] in
/-- Nothing follows a crash. -/
theorem crashed_iff {run : List (Transition (PtrProgram P) (PtrAction P))}
    (h : (ptrPrograms P).Steps s run t) (hs : s.crashed = false) :
    t.crashed = false ↔ ∀ e ∈ run, e.target.crashed = false := by
  induction h with
  | nil => simp [hs]
  | @cons s u t a run hn hsteps ih =>
    rw [List.forall_mem_cons]
    by_cases hu : u.crashed = false
    · exact (ih hu).trans (and_iff_right hu).symm
    · cases hsteps with
      | nil => exact iff_of_false hu fun h => hu h.1
      | cons hn' => exact absurd (next_running hn') hu

end PtrProgram

/-- **Reference counting.** For every number of pointers and every order of their construction,
copies, assignments and destruction: a run uses memory that is not there exactly if one of its steps
assigns an empty pointer to another one.  Until then an object is there exactly as long as a pointer
points to it, and its counter is the number of these pointers. -/
theorem shared_ptr_counts {P : Type*} [DecidableEq P] [Fintype P] {s t : PtrProgram P}
    {run : List (Transition (PtrProgram P) (PtrAction P))} (h0 : (ptrPrograms P).init s)
    (h : (ptrPrograms P).Steps s run t) :
    (t.crashed = false ↔ ∀ e ∈ run, ¬e.source.AssignsEmpty e.action) ∧
      (t.crashed = false → ∀ i, (t.objects i = true ↔ ∃ p, t.target p = some i) ∧
        t.counts i = if t.refs i = 0 then none else some (t.refs i : ℤ)) := by
  have hs : s.Inv := h0 ▸ PtrProgram.new_inv
  have hiff : t.crashed = false ↔ ∀ e ∈ run, ¬e.source.AssignsEmpty e.action := by
    rw [PtrProgram.crashed_iff h hs.ok]
    refine h.forall_iff (I := PtrProgram.Inv) (C := fun s a => ¬s.AssignsEmpty a)
      (L := fun _ _ t => t.crashed = false) hs ?_ ?_
    · intro s a t hs hn
      rw [← (hs.next hn).1, Bool.not_eq_true]
    · exact fun s a t hs hsafe hn => (hs.next hn).2 hsafe
  refine ⟨hiff, fun hok i => ?_⟩
  have ht : t.Inv := h.invariant (I := PtrProgram.Inv)
    (C := fun e => ¬e.source.AssignsEmpty e.action) hs (hiff.1 hok)
    fun s a t hs hsafe hn => (hs.next hn).2 hsafe
  exact ⟨((ht.holds i).2).trans PtrProgram.refs_pos, (ht.holds i).1⟩

/-- One object has two pointers at the end, one of them by an assignment that deletes another
object. -/
def twoObjects : List (PtrAction (Fin 3)) :=
  [.construct 0, .copy 1 0, .construct 2, .assign 2 1, .destroy 0]

theorem shared_ptr_counts_two_objects : ∃ t,
    (ptrPrograms (Fin 3)).run .new twoObjects = some t ∧ t.objects 0 = true ∧ t.objects 1 = false ∧
      t.counts 0 = some 2 := by
  obtain ⟨t, ht, hok, h0, h1, hrefs⟩ : ∃ t, (ptrPrograms (Fin 3)).run .new twoObjects = some t ∧
      t.crashed = false ∧ t.target 1 = some 0 ∧ (∀ p, t.target p ≠ some 1) ∧ t.refs 0 = 2 := by
    obtain ⟨t, ht, h⟩ := Option.map_eq_some_iff.1 (by decide +kernel :
      ((ptrPrograms (Fin 3)).run .new twoObjects).map (fun t => decide (t.crashed = false ∧
        t.target 1 = some 0 ∧ (∀ p, t.target p ≠ some 1) ∧ t.refs 0 = 2)) = some true)
    exact ⟨t, ht, of_decide_eq_true h⟩
  obtain ⟨run, hrun, -⟩ := LTS.exists_steps_of_run ht
  have h := (shared_ptr_counts rfl hrun).2 hok
  refine ⟨t, ht, (h 0).1.2 ⟨1, h0⟩, eq_false_of_ne_true fun halive => ?_, ?_⟩
  · obtain ⟨p, hp⟩ := (h 1).1.1 halive
    exact h1 p hp
  · rw [(h 0).2, hrefs]
    rfl

end Jiangbo
