/-
Selections below the operators that compare their sides. A selection over a union can be made on both of its
sides, and one over an intersection or a difference on the left side. What is selected first adds no shape to
those that are compared, and a side that loses all its rows goes with any other; so where the selection over
the operator has rows, the selections below it lead to the same ones.
-/
import BagAlgebra.Proofs.Eval.Passes

namespace BagAlgebra

namespace Comparing

/-- The constructors of the operator, with the selection made below it: on both sides of a union, and on the
left side of a filter. -/
def pushedDown (predicate : Callback) (a b : Expr) : Comparing → Except Fault Expr
  | .union => union.makeOn (selected predicate (.ok a)) (selected predicate (.ok b))
  | .filter kind strategy => (filter kind strategy).makeOn (selected predicate (.ok a)) (.ok b)

variable (op : Comparing)

/-- No operator makes rows of its own. -/
theorem combine_subset (lefts rights : List Value) : op.combine lefts rights ⊆ lefts ++ rights := by
  cases op with
  | union => exact List.Subset.refl _
  | filter kind strategy =>
    intro row hr
    exact List.mem_append_left _ (List.mem_of_mem_filter hr)

theorem answersOn_make {a b : Expr} {predicate : Callback} (ha : a.Pure) (hb : b.Pure)
    (hpa : predicate.AnswersOn (.ok a)) (hpb : predicate.AnswersOn (.ok b)) :
    predicate.AnswersOn (op.make a b) := by
  intro rows hy row hr
  obtain ⟨lefts, rights, hl, hr', -, rfl⟩ :=
    (op.yields_makeOn_iff (steady_ok ha) (steady_ok hb)).1 hy
  rcases List.mem_append.1 (op.combine_subset lefts rights hr) with hm | hm
  · exact hpa lefts hl row hm
  · exact hpb rights hr' row hm

end Comparing

/-- A selection over a union of pure sides, or over a filter of them, where the predicate has an answer on
each of their rows: if it can be built and evaluated, so can the operator over the selections of its sides,
or over that of its left side, and it has the same rows in the same order. -/
theorem selection_pushes_down {a b : Expr} {predicate : Callback} (ha : a.Pure) (hb : b.Pure)
    (hpa : predicate.AnswersOn (.ok a)) (hpb : predicate.AnswersOn (.ok b)) (op : Comparing)
    (store : Store) {rows : List Value}
    (h : buildThenEval (selected predicate (op.make a b)) store = .ok rows) :
    Yields (op.pushedDown predicate a b) rows := by
  have sa := steady_ok ha
  have sb := steady_ok hb
  have hmake : Steady (op.make a b) := op.steady_makeOn sa sb
  have hans := op.answersOn_make ha hb hpa hpb
  obtain ⟨hu, inner, hi, rfl⟩ :=
    (yields_selected_iff_filter hmake hans).1 ((steady_selected_of_answers hmake hans).yields h)
  obtain ⟨lefts, rights, hl, hr, huni, rfl⟩ := (op.yields_makeOn_iff sa sb).1 hi
  have ssa := steady_selected_of_answers sa hpa
  have hsl : Yields (selected predicate (.ok a)) _ :=
    (yields_selected_iff_filter sa hpa).2 ⟨hu, lefts, hl, rfl⟩
  -- the rows that are left to compare are among those that were compared before
  have hfewer : (lefts.filter fun row => holds (predicate.onRow row)) ⊆ lefts :=
    fun row hm => List.mem_of_mem_filter hm
  cases op with
  | union =>
    have ssb := steady_selected_of_answers sb hpb
    have hsr : Yields (selected predicate (.ok b)) _ :=
      (yields_selected_iff_filter sb hpb).2 ⟨hu, rights, hr, rfl⟩
    refine (Comparing.union.yields_makeOn_iff ssa ssb).2 ⟨_, _, hsl, hsr, huni.subset ?_, ?_⟩
    · exact List.append_subset.2 ⟨List.Subset.trans hfewer (List.subset_append_left ..),
        fun row hm => List.mem_append_right _ (List.mem_of_mem_filter hm)⟩
    · show (lefts ++ rights).filter _ = _
      exact List.filter_append ..
  | filter kind strategy =>
    refine ((Comparing.filter kind strategy).yields_makeOn_iff ssa sb).2
      ⟨_, rights, hsl, hr, huni.subset ?_, ?_⟩
    · exact List.append_subset.2 ⟨List.Subset.trans hfewer (List.subset_append_left ..),
        List.subset_append_right ..⟩
    · -- the two filters of the left rows commute
      show (lefts.filter _).filter _ = (lefts.filter _).filter _
      rw [List.filter_filter, List.filter_filter]
      exact List.filter_congr fun row _ => Bool.and_comm _ _

/-- Pairs, selected by their first item, whatever its type: a number, a truth value, a list, or an object that
is "not a number". One pair of either side cannot be held by a set, and the selection drops that on the left. -/
theorem selection_pushes_down_pairs :
    let first : Callback := .function ⟨0, .named, "first"⟩ [.required "x"]
      (.item (.argument "x") (.literal (.int 0))) []
    let double : Callback :=
      .function ⟨1, .named, "double"⟩ [.required "x"] (.tuple [.argument "x", .argument "x"]) []
    let a : Expr := .terminal [.tuple [.int 1, .bool true], .tuple [.int 0, .list none [.int 2]],
      .tuple [.nan 7, .nan 7], .tuple [.bool false, .int 0]]
    let b : Expr := .projection (.terminal [.bool false, .list none [.int 2], .int 1]) double
    a.Pure ∧ b.Pure ∧ first.AnswersOn (.ok a) ∧ first.AnswersOn (.ok b) ∧
      Yields (Comparing.union.pushedDown first a b) [.tuple [.int 1, .bool true], .tuple [.nan 7, .nan 7],
        .tuple [.list none [.int 2], .list none [.int 2]], .tuple [.int 1, .int 1]] ∧
      Yields ((Comparing.filter .intersection .hash).pushedDown first a b)
        [.tuple [.int 1, .bool true]] ∧
      Yields ((Comparing.filter .difference .scan).pushedDown first a b) [.tuple [.nan 7, .nan 7]] := by
  intro first double a b
  have ha : a.Pure := Expr.pure_terminal _
  have hb : b.Pure := Expr.pure_projection (Expr.pure_terminal _) fun _ _ _ => rfl
  have hpa : first.AnswersOn (.ok a) := by
    intro rows hy row hr
    cases hy .empty
    simp only [List.mem_cons, List.not_mem_nil, or_false] at hr
    rcases hr with rfl | rfl | rfl | rfl <;> exact ⟨_, fun _ => rfl⟩
  have hpb : first.AnswersOn (.ok b) := by
    intro rows hy row hr
    cases hy .empty
    simp only [List.mem_cons, List.not_mem_nil, or_false] at hr
    rcases hr with rfl | rfl | rfl <;> exact ⟨_, fun _ => rfl⟩
  refine ⟨ha, hb, hpa, hpb, ?_, ?_, ?_⟩
  · exact selection_pushes_down ha hb hpa hpb .union .empty rfl
  · exact selection_pushes_down ha hb hpa hpb (.filter .intersection .hash) .empty rfl
  · exact selection_pushes_down ha hb hpa hpb (.filter .difference .scan) .empty rfl

end BagAlgebra
