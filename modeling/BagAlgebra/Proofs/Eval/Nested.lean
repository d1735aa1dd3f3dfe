/-
Constructors called on what other constructors make. The first call that fails ends the whole, and the tree
that is built in the end is evaluated. Where everything that is built is pure, what comes of it is told from
the inside out: the rows of either side, if they share one shape, are combined by the operator over them,
whenever their shapes are compared.
-/
import BagAlgebra.Proofs.Eval.Compared

namespace BagAlgebra

/-- These rows come of the calls: a tree is built, and it has them from any store. -/
def Yields (made : Except Fault Expr) (rows : List Value) : Prop :=
  ∀ store, buildThenEval made store = .ok rows

/-- Whatever the calls build is pure. -/
def Steady (made : Except Fault Expr) : Prop := ∀ e, made = .ok e → e.Pure

section Calls

variable {made left right : Except Fault Expr} {rows : List Value}

theorem steady_ok {e : Expr} (h : e.Pure) : Steady (.ok e) := by
  rintro _ ⟨⟩
  exact h

theorem yields_iff : Yields made rows ↔ ∃ e, made = .ok e ∧ e.eval.Gives (.ok rows) := by
  constructor
  · intro h
    obtain ⟨e, rfl, -⟩ := ok_of_bind (h .empty)
    exact ⟨e, rfl, h⟩
  · rintro ⟨e, rfl, h⟩
    exact h

/-- Rows that come of steady calls from one store come of them from any. -/
theorem Steady.yields (h : Steady made) {store : Store} (hb : buildThenEval made store = .ok rows) :
    Yields made rows := by
  obtain ⟨e, rfl, hrows⟩ := ok_of_bind hb
  exact fun store' => ((h e rfl).stable store' store).trans hrows

theorem Yields.unique {rows' : List Value} (h : Yields made rows) (h' : Yields made rows') :
    rows = rows' := by
  cases (h .empty).symm.trans (h' .empty)
  rfl

/-! ## Operators that compare their sides -/

namespace Comparing

variable (op : Comparing)

/-- The call of the constructor on sides that calls make, those of the left side first. -/
def makeOn (left right : Except Fault Expr) : Except Fault Expr := do
  let l ← left
  let r ← right
  op.make l r

theorem pure_node {l r : Expr} (hl : l.Pure) (hr : r.Pure) : (op.node l r).Pure := by
  cases op with
  | union => exact Expr.pure_union hl hr
  | filter kind strategy => exact Expr.pure_filter hl hr

theorem steady_makeOn (hl : Steady left) (hr : Steady right) : Steady (op.makeOn left right) := by
  intro e h
  obtain ⟨l, hml, h⟩ := ok_of_bind h
  obtain ⟨r, hmr, h⟩ := ok_of_bind h
  rw [op.make_ok h]
  exact op.pure_node (hl l hml) (hr r hmr)

/-- The rows of an operator over pure sides: those of the sides share one shape, and it combines them. -/
theorem node_gives_iff {l r : Expr} (hl : l.Pure) (hr : r.Pure) :
    (op.node l r).eval.Gives (.ok rows) ↔
      ∃ lefts rights, l.eval.Gives (.ok lefts) ∧ r.eval.Gives (.ok rights) ∧
        Uniform (lefts ++ rights) ∧ rows = op.combine lefts rights := by
  constructor
  · intro hg
    obtain ⟨lefts, rights, hlefts, hrights, hu, rfl⟩ := (op.node_ok_iff l r).1 (hg .empty)
    have hrights' : r.eval.Gives (.ok rights) := fun store => (hr.stable store _).trans hrights
    exact ⟨lefts, rights, hl.stable.gives_iff.2 hlefts, hrights', hu, rfl⟩
  · rintro ⟨lefts, rights, hlefts, hrights, hu, rfl⟩ store
    exact (op.node_ok_iff l r).2 ⟨lefts, rights, hlefts store, hrights _, hu, rfl⟩

/-- What comes of an operator over steady sides: the sides have rows of one shape, and it combines them. -/
theorem yields_makeOn_iff (hl : Steady left) (hr : Steady right) :
    Yields (op.makeOn left right) rows ↔
      ∃ lefts rights, Yields left lefts ∧ Yields right rights ∧ Uniform (lefts ++ rights) ∧
        rows = op.combine lefts rights := by
  constructor
  · intro h
    obtain ⟨e, he, hg⟩ := yields_iff.1 h
    obtain ⟨l, rfl, hmade⟩ := ok_of_bind he
    obtain ⟨r, rfl, hmade⟩ := ok_of_bind hmade
    rw [op.make_ok hmade] at hg
    exact (op.node_gives_iff (hl l rfl) (hr r rfl)).1 hg
  · rintro ⟨lefts, rights, hlefts, hrights, hu, rfl⟩ store
    obtain ⟨l, rfl, hlefts⟩ := yields_iff.1 hlefts
    obtain ⟨r, rfl, hrights⟩ := yields_iff.1 hrights
    exact (op.buildThenEval_ok_iff l r).2 ⟨lefts, rights, hlefts store, hrights _, hu, rfl⟩

end Comparing

end Calls

end BagAlgebra
