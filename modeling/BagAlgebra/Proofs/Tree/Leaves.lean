/-
The leaves of the trees that can be made: the rows of each have one shape, which was checked when the
leaf was made and which no change of a list inside a row can alter.
-/
import BagAlgebra.Proofs.Row.Uniform
import BagAlgebra.Proofs.Tree.Built

namespace BagAlgebra

/-- Every leaf of a tree has uniform rows. -/
def Expr.UniformLeaves (e : Expr) : Prop := ∀ rows, .terminal rows ∈ e.postorder → Uniform rows

namespace Expr

theorem UniformLeaves.side {e s : Expr} (h : e.UniformLeaves) (hs : s ∈ e.sides) :
    s.UniformLeaves := by
  intro rows hr
  exact h rows (mem_postorder_of_side hs hr)

/-- An inner node has the leaves of its sides. -/
theorem uniformLeaves_inner {e : Expr} (hi : e.sides ≠ []) (hs : ∀ s ∈ e.sides, s.UniformLeaves) :
    e.UniformLeaves := by
  intro rows hr
  obtain ⟨s, hm, hr⟩ := (leaf_iff_sides hi).1 hr
  exact hs s hm rows hr

end Expr

/-! ## Changed lists -/

theorem replaceCellItems_eq_map (cell : Nat) (items vs : List Value) :
    replaceCellItems cell items vs = vs.map (Value.replaceCell cell items) := by
  induction vs with
  | nil => rfl
  | cons v vs ih => rw [replaceCellItems, ih, List.map_cons]

theorem shape_replaceCell (cell : Nat) (items : List Value) (v : Value) :
    (v.replaceCell cell items).shape = v.shape := by
  cases v with
  | tuple vs =>
    rw [Value.replaceCell, Value.shape, Value.shape, replaceCellItems_eq_map, List.length_map]
  | list c vs =>
    rw [Value.replaceCell]
    split <;> rfl
  | _ => rfl

theorem Uniform.replaceCell {rows : List Value} (h : Uniform rows) (cell : Nat)
    (items : List Value) : Uniform (replaceCellItems cell items rows) := by
  obtain ⟨shape, h⟩ := h
  refine ⟨shape, fun row hr => ?_⟩
  rw [replaceCellItems_eq_map] at hr
  obtain ⟨v, hv, rfl⟩ := List.mem_map.1 hr
  rw [shape_replaceCell, h v hv]

theorem Expr.UniformLeaves.replaceCell (cell : Nat) (items : List Value) {e : Expr}
    (h : e.UniformLeaves) : (e.replaceCell cell items).UniformLeaves := by
  induction e using Expr.sides_induction with
  | h e ih =>
    by_cases hi : e.sides = []
    · cases e with
      | terminal rows =>
        intro rows' hr
        cases List.mem_singleton.1 hr
        exact (h rows (Expr.mem_postorder_self _)).replaceCell cell items
      | bare serial =>
        intro rows hr
        cases List.mem_singleton.1 hr
      | _ => cases hi
    · refine uniformLeaves_inner ?_ ?_
      · rw [sides_replaceCell]
        exact fun hn => hi (List.map_eq_nil_iff.1 hn)
      · rw [sides_replaceCell]
        intro s hm
        obtain ⟨side, hside, rfl⟩ := List.mem_map.1 hm
        exact ih side hside (h.side hside)

theorem uniformLeaves_invariant : Expr.Invariant Expr.UniformLeaves where
  bare serial rows hr := by cases List.mem_singleton.1 hr
  leaf h := by
    obtain ⟨hu, rfl⟩ := ofRows_ok_iff.1 h
    intro rows hr
    cases List.mem_singleton.1 hr
    exact hu
  inner h hs := Expr.uniformLeaves_inner h.inner hs
  changed cell items _ h := h.replaceCell cell items

/-- The leaves of trees that can be made are uniform. -/
theorem Expr.Built.uniformLeaves {e : Expr} (h : e.Built) : e.UniformLeaves :=
  h.invariant uniformLeaves_invariant

/-- Any uniform rows make a leaf. -/
theorem built_terminal {rows : List Value} (h : Uniform rows) : (Expr.terminal rows).Built := by
  have made : makeNode .terminal [(.rows, .list none rows)] = pure (.terminal rows) :=
    ofItems_list h none
  refine Expr.built_of_makeNode ?_ made
  exact List.forall_mem_singleton.2 (treeHas_of_none rfl)

end BagAlgebra
