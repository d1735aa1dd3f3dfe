/-
An expression against itself. Every row matches itself, whatever it holds, and a pure expression gives
the same rows each time it is evaluated: so nothing is left of it in the difference with itself, and all
of it in the intersection.
-/
import BagAlgebra.Proofs.Eval.Pure
import BagAlgebra.Proofs.Row.Uniform
import BagAlgebra.Proofs.Tree.Context

namespace BagAlgebra

theorem filter_occurs_self (rows : List Value) (wanted : Bool) :
    (rows.filter fun row => occurs row rows == wanted) = if wanted then rows else [] := by
  have hself : ∀ row ∈ rows, occurs row rows = true :=
    fun row hr => occurs_iff.2 ⟨row, hr, row.same_refl⟩
  cases wanted with
  | true =>
    rw [if_pos rfl, List.filter_eq_self]
    intro row hr
    rw [hself row hr]; rfl
  | false =>
    rw [if_neg Bool.false_ne_true, List.filter_eq_nil_iff]
    intro row hr
    rw [hself row hr]
    exact Bool.false_ne_true

/-- A filter of an expression against itself is built if the rows of the expression are uniform. -/
theorem makeFilter_self {e : Expr} {store : Store} {rows : List Value}
    (h : (e.eval store).result = .ok rows) (uniform : Uniform rows) (kind : FilterKind)
    (strategy : Strategy) :
    Expr.makeFilter kind (.expr e) (.expr e) (.text strategy.name) = .ok (.filter kind e e strategy) := by
  rw [makeFilter_expr]
  have hc : Expr.compareStored (.filter kind) e e = .ok () := by
    cases e with
    | terminal stored =>
      cases h
      refine requireSharedShape_ok_iff.2 (uniform.subset fun row hr => ?_)
      exact (List.mem_append.1 hr).elim id id
    | _ => rfl
  rw [hc]; rfl

theorem answer_filter_self {e : Expr} (hp : e.Pure) {rows : List Value}
    (h : e.eval.answer = .ok rows) (uniform : Uniform rows) (kind : FilterKind) (strategy : Strategy) :
    (Expr.filter kind e e strategy).eval.answer
      = .ok (if kind.keepsMatches then rows else []) := by
  have hc : requireSharedShape (.filter kind) rows rows = .ok () :=
    requireSharedShape_ok_iff.2 (uniform.subset fun row hr => (List.mem_append.1 hr).elim id id)
  rw [(Expr.pure_filter hp hp).answer_two rfl, h]
  show ((Expr.filter kind e e strategy).work [rows, rows]).answer = _
  rw [Expr.answer_work_filter, hc, filter_occurs_self]
  rfl

/-- The difference of a pure expression with itself can be built and has no rows, and its intersection
with itself can be built and has exactly its rows, whatever they are. -/
theorem filter_self {e : Expr} {store : Store} {rows : List Value} (hp : e.Pure)
    (h : (e.eval store).result = .ok rows) (uniform : Uniform rows) (strategy : Strategy) :
    (∃ tree, Expr.makeFilter .difference (.expr e) (.expr e) (.text strategy.name) = .ok tree ∧
      ∀ store', (tree.eval store').result = .ok []) ∧
    ∃ tree, Expr.makeFilter .intersection (.expr e) (.expr e) (.text strategy.name) = .ok tree ∧
      ∀ store', (tree.eval store').result = .ok rows ∧ (e.eval store').result = .ok rows := by
  have ha : e.eval.answer = .ok rows := by rw [← hp.stable.result_eq store, h]
  have hs : ∀ kind, (Expr.filter kind e e strategy).eval.Stable :=
    fun kind => (Expr.pure_filter hp hp).stable
  refine ⟨⟨_, makeFilter_self h uniform .difference strategy, fun store' => ?_⟩,
    ⟨_, makeFilter_self h uniform .intersection strategy, fun store' => ⟨?_, ?_⟩⟩⟩
  · rw [(hs .difference).result_eq]
    exact answer_filter_self hp ha uniform .difference strategy
  · rw [(hs .intersection).result_eq]
    exact answer_filter_self hp ha uniform .intersection strategy
  · rw [hp.stable.result_eq, ha]

/-- Rows doubled into pairs: numbers of three types, two objects that are "not a number", a list that holds
one of them, and a node over that list. -/
theorem filter_self_doubled :
    let leaf : Expr := .terminal [.int 1, .bool true, .nan 7, .list none [.nan 8], .nan 8,
      .float (.zero true), .expr (.terminal [.list none [.nan 8]])]
    let double : Callback :=
      .function ⟨0, .named, "double"⟩ [.required "x"] (.tuple [.argument "x", .argument "x"]) []
    let e : Expr := .projection leaf double
    let rows : List Value := [.int 1, .bool true, .nan 7, .list none [.nan 8], .nan 8,
      .float (.zero true), .expr (.terminal [.list none [.nan 8]])].map fun v => .tuple [v, v]
    e.Pure ∧ (e.eval .empty).result = .ok rows ∧ Uniform rows ∧
      (∃ tree, Expr.makeFilter .difference (.expr e) (.expr e) (.text Strategy.hash.name) = .ok tree ∧
        ∀ store', (tree.eval store').result = .ok []) ∧
      ∃ tree, Expr.makeFilter .intersection (.expr e) (.expr e) (.text Strategy.hash.name) = .ok tree ∧
        ∀ store', (tree.eval store').result = .ok rows ∧ (e.eval store').result = .ok rows := by
  intro leaf double e rows
  have hp : e.Pure := Expr.pure_projection (Expr.pure_terminal _) fun _ _ _ => rfl
  have hrows : (e.eval .empty).result = .ok rows := rfl
  have huniform : Uniform rows := ⟨.fields 2, by simp [rows, Value.shape]⟩
  exact ⟨hp, hrows, huniform, filter_self hp hrows huniform .hash⟩

end BagAlgebra
