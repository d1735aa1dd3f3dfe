/-
The nodes of a tree: the sides of each, the order in which a node comes after its sides, and the
callbacks that a node was given.
-/
import BagAlgebra.Value.Basic

namespace BagAlgebra

namespace Expr

/-- The sides of a node, left before right. -/
def sides : Expr → List Expr
  | .bare _ => []
  | .terminal _ => []
  | .selection child _ => [child]
  | .projection child _ => [child]
  | .join left right _ _ => [left, right]
  | .product left right _ => [left, right]
  | .union left right => [left, right]
  | .filter _ left right _ => [left, right]

/-- What holds of a tree if it holds of the sides of its root holds of all trees. -/
theorem sides_induction {P : Expr → Prop} (h : ∀ e : Expr, (∀ s ∈ e.sides, P s) → P e) :
    ∀ e : Expr, P e
  | .bare _ => h _ fun _ hs => by cases hs
  | .terminal _ => h _ fun _ hs => by cases hs
  | .selection child _ => h _ fun s hs => List.mem_singleton.1 hs ▸ sides_induction h child
  | .projection child _ => h _ fun s hs => List.mem_singleton.1 hs ▸ sides_induction h child
  | .join left right _ _ => h _ <| List.forall_mem_cons.2
      ⟨sides_induction h left, List.forall_mem_singleton.2 (sides_induction h right)⟩
  | .product left right _ => h _ <| List.forall_mem_cons.2
      ⟨sides_induction h left, List.forall_mem_singleton.2 (sides_induction h right)⟩
  | .union left right => h _ <| List.forall_mem_cons.2
      ⟨sides_induction h left, List.forall_mem_singleton.2 (sides_induction h right)⟩
  | .filter _ left right _ => h _ <| List.forall_mem_cons.2
      ⟨sides_induction h left, List.forall_mem_singleton.2 (sides_induction h right)⟩

/-- The nodes of a tree, each after its sides. -/
def postorder : Expr → List Expr
  | .bare serial => [.bare serial]
  | .terminal rows => [.terminal rows]
  | .selection child predicate => child.postorder ++ [.selection child predicate]
  | .projection child mapper => child.postorder ++ [.projection child mapper]
  | .join left right predicate mapper =>
    left.postorder ++ right.postorder ++ [.join left right predicate mapper]
  | .product left right mapper => left.postorder ++ right.postorder ++ [.product left right mapper]
  | .union left right => left.postorder ++ right.postorder ++ [.union left right]
  | .filter kind left right strategy =>
    left.postorder ++ right.postorder ++ [.filter kind left right strategy]
termination_by structural e => e

theorem postorder_eq (e : Expr) : e.postorder = e.sides.flatMap postorder ++ [e] := by
  cases e <;> simp [postorder, sides]

/-- The nodes of a tree are those of its sides, and itself. -/
theorem mem_postorder_iff {e node : Expr} :
    node ∈ e.postorder ↔ (∃ s ∈ e.sides, node ∈ s.postorder) ∨ node = e := by
  rw [postorder_eq, List.mem_append, List.mem_flatMap, List.mem_singleton]

theorem mem_postorder_self (e : Expr) : e ∈ e.postorder := mem_postorder_iff.2 (.inr rfl)

theorem mem_postorder_of_side {e s node : Expr} (hs : s ∈ e.sides) (hn : node ∈ s.postorder) :
    node ∈ e.postorder :=
  mem_postorder_iff.2 (.inl ⟨s, hs, hn⟩)

/-- What holds of every node holds of those of the sides, and of the root. -/
theorem forall_postorder_iff {P : Expr → Prop} {e : Expr} :
    (∀ node ∈ e.postorder, P node) ↔ (∀ s ∈ e.sides, ∀ node ∈ s.postorder, P node) ∧ P e := by
  constructor
  · intro h
    exact ⟨fun s hs node hn => h node (mem_postorder_of_side hs hn), h e e.mem_postorder_self⟩
  · rintro ⟨hs, he⟩ node hn
    rcases mem_postorder_iff.1 hn with ⟨s, hm, hn⟩ | rfl
    · exact hs s hm node hn
    · exact he

/-- The leaves of an inner node are those of its sides. -/
theorem leaf_iff_sides {e : Expr} (hi : e.sides ≠ []) {rows : List Value} :
    .terminal rows ∈ e.postorder ↔ ∃ s ∈ e.sides, .terminal rows ∈ s.postorder := by
  rw [mem_postorder_iff, or_iff_left]
  rintro rfl
  exact hi rfl

/-- The bare expressions among the leaves of a tree. -/
def bares : Expr → List Nat
  | .bare serial => [serial]
  | .terminal _ => []
  | .selection child _ => child.bares
  | .projection child _ => child.bares
  | .join left right _ _ => left.bares ++ right.bares
  | .product left right _ => left.bares ++ right.bares
  | .union left right => left.bares ++ right.bares
  | .filter _ left right _ => left.bares ++ right.bares
termination_by structural e => e

/-- The predicate and the mapper that a node was given, where its operator has them. -/
def callbacks : Expr → List Callback
  | .selection _ predicate => [predicate]
  | .projection _ mapper => [mapper]
  | .join _ _ predicate mapper => [predicate, mapper]
  | .product _ _ mapper => [mapper]
  | _ => []

end Expr

end BagAlgebra
