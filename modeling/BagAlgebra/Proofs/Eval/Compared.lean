/-
Unions and filters: the operators that compare the shapes of the rows of their two sides. Two leaves are
compared when the node is built and other sides when it is evaluated, but either way the same rows are
refused with the same fault. So to build such a node and evaluate it comes to what the evaluation of the
node alone would come to.
-/
import BagAlgebra.Proofs.Eval.Pure
import BagAlgebra.Proofs.Row.Misfit
import BagAlgebra.Proofs.Tree.Steps

namespace BagAlgebra

/-- What comes of a tree that is built and then evaluated: the fault of the constructor, or the result of
the evaluation. -/
def buildThenEval (made : Except Fault Expr) (store : Store) : Except Fault (List Value) :=
  made >>= fun e => (e.eval store).result

/-- An operator that compares the rows of its sides. -/
inductive Comparing where
  | union
  | filter (kind : FilterKind) (strategy : Strategy)

namespace Comparing

def operator : Comparing → Operator
  | .union => .union
  | .filter kind _ => .filter kind

/-- The node over two sides. -/
def node : Comparing → Expr → Expr → Expr
  | .union, left, right => .union left right
  | .filter kind strategy, left, right => .filter kind left right strategy

/-- The call of the node's constructor. -/
def make : Comparing → Expr → Expr → Except Fault Expr
  | .union, left, right => Expr.makeUnion (.expr left) (.expr right)
  | .filter kind strategy, left, right =>
    Expr.makeFilter kind (.expr left) (.expr right) (.text strategy.name)

/-- The rows that the node gives for those of its sides. -/
def combine : Comparing → List Value → List Value → List Value
  | .union, lefts, rights => lefts ++ rights
  | .filter kind _, lefts, rights => lefts.filter fun row => occurs row rights == kind.keepsMatches

variable (op : Comparing) (left right : Expr)

theorem left_mem_sides : left ∈ (op.node left right).sides := by
  cases op <;> exact List.mem_cons_self ..

theorem right_mem_sides : right ∈ (op.node left right).sides := by
  cases op <;> exact List.mem_cons_of_mem _ (List.mem_singleton_self _)

theorem make_eq : op.make left right = do
    Expr.compareStored op.operator left right
    return op.node left right := by
  cases op with
  | union => rfl
  | filter kind strategy => exact makeFilter_expr kind left right strategy

theorem result_node (store : Store) :
    ((op.node left right).eval store).result = do
      let lefts ← (left.eval store).result
      let rights ← (right.eval (left.eval store).store).result
      requireSharedShape op.operator lefts rights
      return op.combine lefts rights := by
  cases op with
  | union =>
    show ((Expr.union left right).eval store).result = _
    rw [Expr.eval_union, Run.result_then]
    refine bind_congr fun lefts => ?_
    rw [Run.result_then]
    exact bind_congr fun rights => Run.result_lift_then _ _ _
  | filter kind strategy =>
    show ((Expr.filter kind left right strategy).eval store).result = _
    rw [Expr.eval_filter, Run.result_then]
    refine bind_congr fun lefts => ?_
    rw [Run.result_then]
    refine bind_congr fun rights => ?_
    rw [Run.result_lift_then]
    refine bind_congr fun _ => ?_
    -- the strategy has no say in what is found
    rw [Run.result_then, occurrences_result, ok_bind]
    exact congrArg Except.ok (keepHits_scan _ _ _)

/-- What a constructor refuses, the evaluation would have refused in the same way. -/
theorem buildThenEval_make (store : Store) :
    buildThenEval (op.make left right) store = ((op.node left right).eval store).result := by
  rw [buildThenEval, make_eq]
  cases hc : Expr.compareStored op.operator left right with
  | ok _ => rfl
  | error fault =>
    obtain ⟨lefts, rights, rfl, rfl, hs⟩ := compareStored_error hc
    rw [result_node]
    show Except.error fault = do
      requireSharedShape op.operator lefts rights
      return op.combine lefts rights
    rw [hs]
    rfl

theorem node_ok_iff {store : Store} {rows : List Value} :
    ((op.node left right).eval store).result = .ok rows ↔
      ∃ lefts rights, (left.eval store).result = .ok lefts ∧
        (right.eval (left.eval store).store).result = .ok rights ∧
        Uniform (lefts ++ rights) ∧ rows = op.combine lefts rights := by
  rw [result_node]
  constructor
  · intro h
    obtain ⟨lefts, hl, h⟩ := ok_of_bind h
    obtain ⟨rights, hr, h⟩ := ok_of_bind h
    obtain ⟨_, hs, h⟩ := ok_of_bind h
    cases h
    exact ⟨lefts, rights, hl, hr, requireSharedShape_ok_iff.1 hs, rfl⟩
  · rintro ⟨lefts, rights, hl, hr, hu, rfl⟩
    rw [hl, ok_bind, hr, ok_bind, requireSharedShape_ok_iff.2 hu]
    rfl

theorem buildThenEval_ok_iff {store : Store} {rows : List Value} :
    buildThenEval (op.make left right) store = .ok rows ↔
      ∃ lefts rights, (left.eval store).result = .ok lefts ∧
        (right.eval (left.eval store).store).result = .ok rights ∧
        Uniform (lefts ++ rights) ∧ rows = op.combine lefts rights := by
  rw [buildThenEval_make, node_ok_iff]

variable {left right}

theorem make_ok {e : Expr} (h : op.make left right = .ok e) : e = op.node left right := by
  rw [make_eq] at h
  obtain ⟨_, -, h⟩ := ok_of_bind h
  cases h
  rfl

/-- A node that could be evaluated can be built. -/
theorem make_of_ok {store : Store} {rows : List Value}
    (h : ((op.node left right).eval store).result = .ok rows) :
    op.make left right = .ok (op.node left right) := by
  rw [← buildThenEval_make] at h
  obtain ⟨e, he, -⟩ := ok_of_bind h
  rw [he, op.make_ok he]

/-- A node leaves the store that its right side leaves. -/
theorem store_node {store : Store} {rows : List Value}
    (h : ((op.node left right).eval store).result = .ok rows) :
    ((op.node left right).eval store).store = (right.eval (left.eval store).store).store := by
  obtain ⟨lefts, rights, hl, hr, hu, -⟩ := (op.node_ok_iff left right).1 h
  cases op with
  | union =>
    show ((Expr.union left right).eval store).store = _
    rw [Expr.eval_union, Run.store_then hl, Run.store_then hr, requireSharedShape_ok_iff.2 hu]
    rfl
  | filter kind strategy =>
    show ((Expr.filter kind left right strategy).eval store).store = _
    rw [Expr.eval_filter, Run.store_then hl, Run.store_then hr, requireSharedShape_ok_iff.2 hu]
    refine (Run.store_then (occurrences_result kind strategy lefts rights _) _).trans ?_
    rw [occurrences_apply kind left right strategy lefts rights []]
    rfl

/-! ## Sides that do not depend on the store -/

theorem buildThenEval_gives {lefts rights : List Value} (hl : left.eval.Gives (.ok lefts))
    (hr : right.eval.Gives (.ok rights)) (store : Store) :
    buildThenEval (op.make left right) store = do
      requireSharedShape op.operator lefts rights
      return op.combine lefts rights := by
  rw [buildThenEval_make, result_node, hl, ok_bind, hr, ok_bind]

/-- What becomes of two sides is the same for every operator and in every store: a side fails, or the rows
of the sides are combined, or they do not share one shape. -/
inductive Fate (left right : Expr) : Prop where
  | side (fault : Fault) (h : left.eval.Gives (.error fault) ∨ right.eval.Gives (.error fault))
      (all : ∀ (op : Comparing) store, buildThenEval (op.make left right) store = .error fault)
  | rows (lefts rights : List Value) (hl : left.eval.Gives (.ok lefts))
      (hr : right.eval.Gives (.ok rights)) (uniform : Uniform (lefts ++ rights))
      (all : ∀ (op : Comparing) store,
        buildThenEval (op.make left right) store = .ok (op.combine lefts rights))
  | shapes (lefts rights : List Value) (hl : left.eval.Gives (.ok lefts))
      (hr : right.eval.Gives (.ok rights)) (mixed : ¬ Uniform (lefts ++ rights))
      (all : ∀ (op : Comparing) store, ∃ fault,
        sharedShapeFault? op.operator lefts rights = some fault ∧
          buildThenEval (op.make left right) store = .error fault)

/-- Where both sides have rows, their shapes decide. -/
theorem fate_of_rows {lefts rights : List Value} (hl : left.eval.Gives (.ok lefts))
    (hr : right.eval.Gives (.ok rights)) : Fate left right := by
  by_cases hu : Uniform (lefts ++ rights)
  · refine .rows lefts rights hl hr hu fun op store => ?_
    rw [op.buildThenEval_gives hl hr, requireSharedShape_ok_iff.2 hu]
    rfl
  · refine .shapes lefts rights hl hr hu fun op store => ?_
    cases hs : requireSharedShape op.operator lefts rights with
    | ok _ => exact absurd (requireSharedShape_ok_iff.1 hs) hu
    | error fault =>
      refine ⟨fault, requireSharedShape_error_iff.1 hs, ?_⟩
      rw [op.buildThenEval_gives hl hr, hs]
      rfl

/-- Pure sides have one fate. -/
theorem fate (hl : left.Pure) (hr : right.Pure) : Fate left right := by
  cases ha : left.eval.answer with
  | error fault =>
    have hg := hl.stable.gives_iff.2 ha
    refine .side fault (.inl hg) fun op store => ?_
    rw [buildThenEval_make, result_node, hg]
    rfl
  | ok lefts =>
    have hg := hl.stable.gives_iff.2 ha
    cases hb : right.eval.answer with
    | error fault =>
      have hg' := hr.stable.gives_iff.2 hb
      refine .side fault (.inr hg') fun op store => ?_
      rw [buildThenEval_make, result_node, hg, ok_bind, hg']
      rfl
    | ok rights => exact fate_of_rows hg (hr.stable.gives_iff.2 hb)

end Comparing

end BagAlgebra
