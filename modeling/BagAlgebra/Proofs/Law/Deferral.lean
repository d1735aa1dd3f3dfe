/-
The time at which shapes are compared. Two leaves are compared when the node over them is built, and
other sides when the node is evaluated. A selection that keeps every row moves the comparison from the
one time to the other and does nothing else: the same sides are refused, with the same fault, and the
others have the same rows.
-/
import BagAlgebra.Proofs.Eval.Compared
import BagAlgebra.Proofs.Tree.Leaves

namespace BagAlgebra

/-! ## Leaves in selections -/

/-- A predicate holds of every one of the rows, whatever it comes to in which store. -/
def HoldsOn (predicate : Callback) (rows : List Value) : Prop :=
  ∀ row ∈ rows, ∀ store, ∃ verdict,
    (predicate.call [row] store).result = .ok verdict ∧ verdict.truthy = true

/-- A leaf in a selection that keeps all its rows. -/
inductive Wrapped (rows : List Value) : Expr → Prop where
  | mk {predicate : Callback} {e : Expr} (holds : HoldsOn predicate rows)
      (made : Expr.makeSelection (.expr (.terminal rows)) (.callable predicate) = .ok e) :
      Wrapped rows e

/-- Two leaves of which one or both are in a selection that keeps all their rows. -/
inductive SomeWrapped (ls rs : List Value) : Expr → Expr → Prop where
  | left {l : Expr} (hl : Wrapped ls l) : SomeWrapped ls rs l (.terminal rs)
  | right {r : Expr} (hr : Wrapped rs r) : SomeWrapped ls rs (.terminal ls) r
  | both {l r : Expr} (hl : Wrapped ls l) (hr : Wrapped rs r) : SomeWrapped ls rs l r

theorem keepWhere_all {predicate : Callback} {rows : List Value} (h : HoldsOn predicate rows) :
    (keepWhere predicate rows).Gives (.ok rows) := by
  induction rows with
  | nil => exact Run.gives_pure _
  | cons row rows ih =>
    intro store
    obtain ⟨hrow, hrows⟩ := List.forall_mem_cons.1 h
    obtain ⟨verdict, hv, ht⟩ := hrow store
    rw [keepWhere, Run.result_then, hv, ok_bind, Run.result_then, ih hrows, ok_bind, if_pos ht]
    rfl

namespace Wrapped

variable {rows : List Value} {e : Expr}

theorem selection (h : Wrapped rows e) :
    ∃ predicate, HoldsOn predicate rows ∧ e = .selection (.terminal rows) predicate := by
  obtain @⟨predicate, _, holds, made⟩ := h
  obtain ⟨child, hc, made⟩ := ok_of_bind made
  obtain ⟨f, hf, made⟩ := ok_of_bind made
  cases hc
  cases (requireCallback_ok hf).1
  cases made
  exact ⟨predicate, holds, rfl⟩

theorem gives (h : Wrapped rows e) : e.eval.Gives (.ok rows) := by
  obtain ⟨predicate, holds, rfl⟩ := h.selection
  exact (Run.gives_pure rows).bind
    ((keepWhere_all holds).bind ((Run.gives_emit _).bind (Run.gives_pure _)))

theorem inner (h : Wrapped rows e) : e.storedRows? = none := by
  obtain ⟨predicate, -, rfl⟩ := h.selection
  rfl

end Wrapped

namespace SomeWrapped

variable {ls rs : List Value} {l r : Expr}

theorem gives (h : SomeWrapped ls rs l r) : l.eval.Gives (.ok ls) ∧ r.eval.Gives (.ok rs) := by
  cases h with
  | left hl => exact ⟨hl.gives, Run.gives_pure rs⟩
  | right hr => exact ⟨Run.gives_pure ls, hr.gives⟩
  | both hl hr => exact ⟨hl.gives, hr.gives⟩

theorem inner (h : SomeWrapped ls rs l r) : l.storedRows? = none ∨ r.storedRows? = none := by
  cases h with
  | left hl => exact .inl hl.inner
  | right hr => exact .inr hr.inner
  | both hl _ => exact .inl hl.inner

end SomeWrapped

/-! ## Early and late -/

namespace Comparing

variable (op : Comparing) {ls rs : List Value}

/-- A node of which a side is no leaf is built without a look at the rows. -/
theorem make_inner {l r : Expr} (h : l.storedRows? = none ∨ r.storedRows? = none) :
    op.make l r = .ok (op.node l r) := by
  rw [make_eq, compareStored_of_inner h]
  rfl

/-- Whatever is built over sides that have rows comes to the check of these rows. -/
theorem gives_of_make {l r tree : Expr} (h : op.make l r = .ok tree) (hl : l.eval.Gives (.ok ls))
    (hr : r.eval.Gives (.ok rs)) : tree.eval.Gives (do
      requireSharedShape op.operator ls rs
      return op.combine ls rs) := by
  intro store
  rw [← op.buildThenEval_gives hl hr store, h]
  rfl

/-- Two leaves under one operator. If their rows share one shape the node is built, and its evaluation has
rows; otherwise the node is not built, for a fault of the schema. If one leaf or both are in selections that
keep all their rows, the node is built in any case, and its evaluation has the same rows or the same
fault. -/
theorem comparison_deferred (hl : (Expr.terminal ls).Built) (hr : (Expr.terminal rs).Built) :
    (Uniform (ls ++ rs) ∧ ∃ tree rows, op.make (.terminal ls) (.terminal rs) = .ok tree ∧
      tree.eval.Gives (.ok rows) ∧
        ∀ l r, SomeWrapped ls rs l r →
          ∃ late, op.make l r = .ok late ∧ late.eval.Gives (.ok rows)) ∨
    ¬ Uniform (ls ++ rs) ∧ ∃ fault, op.make (.terminal ls) (.terminal rs) = .error fault ∧
      fault.kind = .schema ∧
        ∀ l r, SomeWrapped ls rs l r →
          ∃ late, op.make l r = .ok late ∧ late.eval.Gives (.error fault) := by
  have ul : Uniform ls := hl.uniformLeaves ls (Expr.mem_postorder_self _)
  have ur : Uniform rs := hr.uniformLeaves rs (Expr.mem_postorder_self _)
  have hleaves := op.make_eq (.terminal ls) (.terminal rs)
  change op.make _ _ = (do requireSharedShape op.operator ls rs; _) at hleaves
  obtain ⟨hs, hu⟩ | ⟨fault, hs, hk, hu⟩ := requireSharedShape_cases op.operator ul ur
  · rw [hs] at hleaves
    have hg := op.gives_of_make hleaves (Run.gives_pure ls) (Run.gives_pure rs)
    rw [hs] at hg
    refine .inl ⟨hu, _, _, hleaves, hg, fun l r h => ?_⟩
    have hm := op.make_inner h.inner
    have hg' := op.gives_of_make hm h.gives.1 h.gives.2
    rw [hs] at hg'
    exact ⟨_, hm, hg'⟩
  · rw [hs] at hleaves
    refine .inr ⟨hu, fault, hleaves, hk, fun l r h => ?_⟩
    have hm := op.make_inner h.inner
    have hg := op.gives_of_make hm h.gives.1 h.gives.2
    rw [hs] at hg
    exact ⟨_, hm, hg⟩

/-- Pairs against a row that is no tuple, the pairs also in a selection by a predicate that is never zero. -/
theorem comparison_deferred_pairs :
    let ls : List Value := [.tuple [.int 1, .null], .tuple [.nan 4, .list none []]]
    let rs : List Value := [.list none [.int 1, .null]]
    let keep : Callback := .function ⟨0, .named, "keep"⟩ [.required "x"] (.literal (.int 1)) []
    let op : Comparing := .filter .difference .hash
    (Expr.terminal ls).Built ∧ (Expr.terminal rs).Built ∧
      SomeWrapped ls rs (.selection (.terminal ls) keep) (.terminal rs) ∧
      op.make (.terminal ls) (.terminal rs)
        = .error (.shapeMismatch (.filter .difference) (.fields 2) .scalar) ∧
      ∃ late, op.make (.selection (.terminal ls) keep) (.terminal rs) = .ok late ∧
        late.eval.Gives (.error (.shapeMismatch (.filter .difference) (.fields 2) .scalar)) := by
  intro ls rs keep op
  have hl : (Expr.terminal ls).Built := built_terminal ⟨.fields 2, by simp [ls, Value.shape]⟩
  have hr : (Expr.terminal rs).Built := built_terminal ⟨.scalar, by simp [rs, Value.shape]⟩
  have made := Expr.makeSelection_usable (rfl : keep.usableOn 1 = true) (.terminal ls)
  have hw : SomeWrapped ls rs (.selection (.terminal ls) keep) (.terminal rs) :=
    .left (.mk (fun _ _ _ => ⟨.int 1, rfl, rfl⟩) made)
  have hm : op.make (.terminal ls) (.terminal rs)
      = .error (.shapeMismatch (.filter .difference) (.fields 2) .scalar) := rfl
  refine ⟨hl, hr, hw, hm, ?_⟩
  obtain ⟨-, _, _, ht, -⟩ | ⟨-, fault, hf, -, hlate⟩ := op.comparison_deferred hl hr
  · cases hm.symm.trans ht
  · cases hm.symm.trans hf
    exact hlate _ _ hw

end Comparing

end BagAlgebra
