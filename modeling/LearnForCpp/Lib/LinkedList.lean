import Mathlib.Tactic

/-!
# Linked lists with an empty last node

Nodes at addresses `A`, each with an optional value and an optional successor.  A list leads from
its first node along the successors to its last node, which is empty and is kept for the next value
to be added.

* `Chain node a cells b`: the nodes from `a` to `b`, as the addresses with their values.
* `Linked`: such a list, with the empty last node and all addresses different.
* `Linked.push`, `Linked.pop`, `Linked.write`: what the operations make of it.
-/

/-- A node of a linked list. -/
structure Node (A V : Type*) where
  data : Option V
  next : Option A
  deriving DecidableEq

namespace Node

variable {A V : Type*}

def empty : Node A V := ⟨none, none⟩

/-- The successors lead from `a` through `cells` to `b`. -/
def Chain (node : A → Node A V) : A → List (A × V) → A → Prop
  | a, [], b => a = b
  | a, (c, v) :: cells, b =>
      c = a ∧ (node a).data = some v ∧ ∃ next, (node a).next = some next ∧ Chain node next cells b

/-- The addresses of a list, the last one included. -/
def addresses (cells : List (A × V)) (b : A) : List A := cells.map Prod.fst ++ [b]

variable {node node' : A → Node A V} {a b c n : A} {v w : V} {cells : List (A × V)}

@[simp] theorem addresses_nil : addresses ([] : List (A × V)) b = [b] := rfl

@[simp] theorem addresses_cons :
    addresses ((c, v) :: cells) b = c :: addresses cells b := rfl

theorem mem_addresses_last : b ∈ addresses cells b := by simp [addresses]

/-- Only the nodes of the list matter. -/
theorem Chain.congr (h : Chain node a cells b) (heq : ∀ x ∈ cells.map Prod.fst, node' x = node x) :
    Chain node' a cells b := by
  induction cells generalizing a with
  | nil => exact h
  | cons cell cells ih =>
    obtain ⟨rfl, hdata, next, hnext, hrest⟩ := h
    obtain ⟨hcell, hcells⟩ := List.forall_mem_cons.1 heq
    refine ⟨rfl, ?_, next, ?_, ih hrest hcells⟩
    · rw [hcell, hdata]
    · rw [hcell, hnext]

/-- The last node gets a value and a successor. -/
theorem Chain.snoc (h : Chain node a cells b) (hb : node b = ⟨some v, some n⟩) :
    Chain node a (cells ++ [(b, v)]) n := by
  induction cells generalizing a with
  | nil =>
    obtain rfl : a = b := h
    exact ⟨rfl, by rw [hb], n, by rw [hb], rfl⟩
  | cons cell cells ih =>
    obtain ⟨hc, hdata, next, hnext, hrest⟩ := h
    exact ⟨hc, hdata, next, hnext, ih hrest⟩

/-- A list with an empty last node, whose nodes are all different. -/
structure Linked (node : A → Node A V) (a : A) (cells : List (A × V)) (b : A) : Prop where
  chain : Chain node a cells b
  last : node b = empty
  nodup : (addresses cells b).Nodup

/-- The first node is the last one when there is no value. -/
theorem Linked.eq_iff (h : Linked node a cells b) : a = b ↔ cells = [] := by
  cases cells with
  | nil => exact iff_of_true h.chain rfl
  | cons cell cells =>
    obtain ⟨rfl, -⟩ := h.chain
    refine iff_of_false ?_ (by simp)
    rintro rfl
    exact (List.nodup_cons.1 h.nodup).1 mem_addresses_last

theorem Linked.new (h : node b = empty) : Linked node b [] b :=
  ⟨rfl, h, by simp⟩

/-- All nodes but the last have a value and a successor. -/
theorem Linked.cell (h : Linked node a cells b) : ∀ cell ∈ cells,
    (node cell.1).data = some cell.2 ∧ (node cell.1).next.isSome := by
  have hchain := h.chain
  clear h
  induction cells generalizing a with
  | nil => simp
  | cons cell cells ih =>
    obtain ⟨rfl, hdata, next, hnext, hrest⟩ := hchain
    exact List.forall_mem_cons.2 ⟨⟨hdata, by simp [hnext]⟩, ih hrest⟩

variable [DecidableEq A]

/-- A value goes into the last node, and a new node `n` becomes the last. -/
theorem Linked.push (h : Linked node a cells b) (hn : n ∉ addresses cells b) (v : V) :
    Linked (Function.update (Function.update node n empty) b ⟨some v, some n⟩) a
      (cells ++ [(b, v)]) n := by
  have hnb : n ≠ b := by
    rintro rfl
    exact hn mem_addresses_last
  have hnodup := h.nodup
  simp only [addresses, List.mem_append, not_or] at hn
  refine ⟨Chain.snoc (h.chain.congr fun x hx => ?_) (Function.update_self ..), ?_, ?_⟩
  · have hxb : x ≠ b := by
      rintro rfl
      exact List.disjoint_of_nodup_append hnodup hx (List.mem_singleton_self x)
    have hxn : x ≠ n := by
      rintro rfl
      exact hn.1 hx
    rw [Function.update_of_ne hxb, Function.update_of_ne hxn]
  · rw [Function.update_of_ne hnb, Function.update_self]
  · rw [addresses, List.map_append, List.map_singleton]
    refine List.Nodup.append hnodup (List.nodup_singleton n) ?_
    rw [List.disjoint_singleton, List.mem_append, not_or]
    exact hn

/-- The first node is taken off, and may be written to. -/
theorem Linked.pop (h : Linked node a ((c, v) :: cells) b) (x : Node A V) :
    c = a ∧ (node a).data = some v ∧ ∃ next, (node a).next = some next ∧
      Linked (Function.update node a x) next cells b := by
  obtain ⟨rfl, hdata, next, hnext, hrest⟩ := h.chain
  obtain ⟨hc, hnodup⟩ := List.nodup_cons.1 h.nodup
  refine ⟨rfl, hdata, next, hnext, hrest.congr fun y hy => ?_, ?_, hnodup⟩
  · refine Function.update_of_ne ?_ ..
    rintro rfl
    exact hc (List.mem_append_left _ hy)
  · rw [Function.update_of_ne, h.last]
    rintro rfl
    exact hc mem_addresses_last

/-- The value of the first node is replaced. -/
theorem Linked.write (h : Linked node a ((c, v) :: cells) b) (w : V) :
    Linked (Function.update node a ⟨some w, (node a).next⟩) a ((c, w) :: cells) b := by
  obtain ⟨rfl, -, next, hnext, hrest⟩ := h.pop ⟨some w, (node a).next⟩
  refine ⟨⟨rfl, ?_, next, ?_, hrest.chain⟩, hrest.last, h.nodup⟩
  · rw [Function.update_self]
  · rw [Function.update_self, hnext]

end Node
