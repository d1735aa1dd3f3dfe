/-
Evaluation of equal trees without callbacks. Stored rows that match row by row have the same shapes, occur in
the same lists and can or cannot be in a set together; so unions and filters decide alike for either, and what
they let through matches row by row again. The evaluations log the same, and end in rows that match or in the
same fault, which is one of the schema.
-/
import BagAlgebra.Proofs.Eval.Compared
import BagAlgebra.Proofs.Eval.Shape
import BagAlgebra.Proofs.Run.InStep
import BagAlgebra.Proofs.Tree.Equality
import Mathlib.Data.List.Forall2

namespace BagAlgebra

/-! ## Rows that match -/

section Lists

variable {lefts lefts' rights rights' : List Value}
  (hl : List.Forall₂ (fun row row' => row.same row' = true) lefts lefts')
  (hr : List.Forall₂ (fun row row' => row.same row' = true) rights rights')

include hl

theorem uniform_of_forall₂ (hu : Uniform lefts) : Uniform lefts' := by
  obtain ⟨shape, hall⟩ := hu
  refine ⟨shape, fun row' hm => ?_⟩
  obtain ⟨row, hrow, hs⟩ := (within_of_forall₂ hl).2 row' hm
  rw [← Value.shape_eq_of_same hs, hall row hrow]

theorem occurs_congr_right (row : Value) : occurs row lefts = occurs row lefts' := by
  obtain ⟨h, h'⟩ := within_of_forall₂ hl
  refine occurs_eq_of_covered (fun r hm => ?_) (fun r' hm => ?_) row
  · obtain ⟨r', hm', hs⟩ := h r hm
    exact occurs_iff.2 ⟨r', hm', Value.same_symm hs⟩
  · exact occurs_iff.2 (h' r' hm)

theorem allHashable_congr : lefts.all Value.hashable = lefts'.all Value.hashable := by
  induction hl with
  | nil => rfl
  | cons hs _ ih => rw [List.all_cons, List.all_cons, Value.hashable_eq_of_same _ hs, ih]

/-- The same hits keep rows that match. -/
theorem keepHits_congr (wanted : Bool) (hits : List Bool) :
    List.Forall₂ (fun row row' => row.same row' = true) (keepHits wanted lefts hits)
      (keepHits wanted lefts' hits) := by
  induction hl generalizing hits with
  | nil => exact .nil
  | cons hs _ ih =>
    cases hits with
    | nil => exact .nil
    | cons hit hits =>
      rw [keepHits, keepHits, List.zip_cons_cons, List.zip_cons_cons, List.filter_cons, List.filter_cons]
      by_cases hw : (hit == wanted) = true
      · rw [if_pos hw, if_pos hw]
        exact .cons hs (ih hits)
      · rw [if_neg hw, if_neg hw]
        exact ih hits

include hr

theorem occurrencesByScan_congr : occurrencesByScan lefts rights = occurrencesByScan lefts' rights' := by
  unfold occurrencesByScan
  induction hl with
  | nil => rfl
  | cons hs _ ih => rw [List.map_cons, List.map_cons, occurs_congr hs, occurs_congr_right hr, ih]

/-- The same rows are found in the same way, and the search starts over in the same cases. -/
theorem occurrences_congr (kind : FilterKind) (strategy : Strategy) :
    occurrences kind strategy lefts rights = occurrences kind strategy lefts' rights' := by
  cases strategy with
  | scan => rw [occurrences, occurrences, occurrencesByScan_congr hl hr]
  | hash =>
    rw [occurrences, occurrences, occurrencesBySet_eq, occurrencesBySet_eq, List.all_append, List.all_append,
      allHashable_congr hl, allHashable_congr hr, occurrencesByScan_congr hl hr]

theorem mismatch?_congr (operator : Operator) :
    mismatch? operator lefts rights = mismatch? operator lefts' rights' := by
  cases hl with
  | nil => rfl
  | cons hs _ =>
    cases hr with
    | nil => rfl
    | cons hs' _ =>
      unfold mismatch?
      simp only [List.head?_cons, Value.shape_eq_of_same hs, Value.shape_eq_of_same hs']

/-- Uniform sides are compared alike: what is reported of them shows their shapes only. -/
theorem requireSharedShape_congr (hul : Uniform lefts) (hur : Uniform rights) (operator : Operator) :
    requireSharedShape operator lefts rights = requireSharedShape operator lefts' rights' := by
  rw [requireSharedShape_eq, requireSharedShape_eq, sharedShapeFault?_of_uniform hul hur,
    sharedShapeFault?_of_uniform (uniform_of_forall₂ hl hul) (uniform_of_forall₂ hr hur),
    mismatch?_congr hl hr]

end Lists

/-! ## Evaluation -/

/-- Uniform rows that match row by row. -/
structure MatchedRows (rows rows' : List Value) : Prop where
  uniform : Uniform rows
  same : List.Forall₂ (fun row row' => row.same row' = true) rows rows'

/-- One log, whatever the stores. -/
def oneLog : Correspondence Event where
  stores _ _ := True
  logs log log' := log = log'
  nil := rfl
  append h h' := by rw [h, h']

theorem inStep_rows {rows rows' : List Value} (h : MatchedRows rows rows') :
    Run.InStep oneLog MatchedRows (pure rows) (pure rows') :=
  fun _ _ _ => ⟨.ok h, rfl, trivial⟩

/-- Sides that are in step are compared alike, and what is let through is uniform. -/
theorem compared_inStep {operator : Operator} {left left' right right' : Expr}
    {next next' : List Value → List Value → Eval (List Value)}
    (hl : Run.InStep oneLog MatchedRows left.eval left'.eval)
    (hr : Run.InStep oneLog MatchedRows right.eval right'.eval)
    (hn : ∀ {lefts lefts' rights rights'}, MatchedRows lefts lefts' → MatchedRows rights rights' →
      Uniform (lefts ++ rights) → Run.InStep oneLog MatchedRows (next lefts rights) (next' lefts' rights')) :
    Run.InStep oneLog MatchedRows
      (do
        let lefts ← left.eval
        let rights ← right.eval
        requireSharedShape operator lefts rights
        next lefts rights)
      (do
        let lefts ← left'.eval
        let rights ← right'.eval
        requireSharedShape operator lefts rights
        next' lefts rights) := by
  refine hl.bind fun lefts lefts' hls => hr.bind fun rights rights' hrs => ?_
  rw [← requireSharedShape_congr hls.same hrs.same hls.uniform hrs.uniform]
  cases hs : requireSharedShape operator lefts rights with
  | error fault => exact fun _ _ _ => ⟨.error fault, rfl, trivial⟩
  | ok _ => exact hn hls hrs (requireSharedShape_ok_iff.1 hs)

theorem occurrences_oneLog (kind : FilterKind) (strategy : Strategy) (lefts rights : List Value) :
    Run.InStep oneLog (fun hits hits' => hits = hits') (occurrences kind strategy lefts rights)
      (occurrences kind strategy lefts rights) := by
  intro _ _ _
  cases strategy with
  | scan => exact ⟨.ok rfl, rfl, trivial⟩
  | hash =>
    rw [occurrences]
    cases occurrencesBySet lefts rights with
    | some hits => exact ⟨.ok rfl, rfl, trivial⟩
    | none => exact ⟨.ok rfl, rfl, trivial⟩

namespace Expr

/-- Every node is a leaf, or combines the rows of its sides without a callback. -/
def CallbackFree (e : Expr) : Prop :=
  ∀ node ∈ e.postorder, node.operator = .terminal ∨ node.operator.comparesRows = true

theorem CallbackFree.side {e s : Expr} (h : e.CallbackFree) (hs : s ∈ e.sides) : s.CallbackFree :=
  (forall_postorder_iff.1 h).1 s hs

theorem CallbackFree.guarded {e : Expr} (h : e.CallbackFree) : e.Guarded := by
  induction e using sides_induction with
  | h e ih =>
    refine (guarded_iff e).2 ⟨?_, .inr fun s hs => ih s hs (h.side hs)⟩
    rcases h e e.mem_postorder_self with ho | ho
    · rw [ho]
      rfl
    · cases hop : e.operator with
      | union | filter _ => rfl
      | _ =>
        rw [hop] at ho
        cases ho

/-- Matching trees are evaluated in step. That the rows are uniform is carried along: a side of mixed rows
would be refused with the text of a row, which need not be that of a row that matches. -/
theorem Matches.inStep {a b : Expr} (h : a.Matches b) (leaves : a.UniformLeaves) (free : a.CallbackFree) :
    Run.InStep oneLog MatchedRows a.eval b.eval := by
  induction h with
  | terminal h => exact inStep_rows ⟨leaves _ (mem_postorder_self _), h⟩
  | @union left _ right _ _ _ ihl ihr =>
    have sl := Comparing.union.left_mem_sides left right
    have sr := Comparing.union.right_mem_sides left right
    refine compared_inStep (ihl (leaves.side sl) (free.side sl)) (ihr (leaves.side sr) (free.side sr)) ?_
    intro _ _ _ _ hl hr hu
    exact inStep_rows ⟨hu, List.rel_append hl.same hr.same⟩
  | @filter left _ right _ kind strategy _ _ ihl ihr =>
    have sl := (Comparing.filter kind strategy).left_mem_sides left right
    have sr := (Comparing.filter kind strategy).right_mem_sides left right
    refine compared_inStep (ihl (leaves.side sl) (free.side sl)) (ihr (leaves.side sr) (free.side sr)) ?_
    intro lefts _ _ _ hl hr hu
    rw [← occurrences_congr hl.same hr.same]
    refine (occurrences_oneLog kind strategy _ _).bind fun hits _ heq => ?_
    subst heq
    exact inStep_rows ⟨hl.uniform.subset (keepHits_subset ..), keepHits_congr hl.same ..⟩
  | _ => rcases free _ (mem_postorder_self _) with h | h <;> cases h

/-- What can fail is the comparison of two sides, each of which is uniform. -/
theorem kind_of_compared (op : Comparing) {left right : Expr} (leaves : (op.node left right).UniformLeaves)
    (free : (op.node left right).CallbackFree)
    (h : ∀ s ∈ (op.node left right).sides, ∀ store fault, (s.eval store).result = .error fault →
      fault.kind = .schema) {store : Store} {fault : Fault}
    (he : ((op.node left right).eval store).result = .error fault) : fault.kind = .schema := by
  have sl := op.left_mem_sides left right
  have sr := op.right_mem_sides left right
  rw [op.result_node] at he
  rcases error_of_bind he with he | ⟨lefts, hl, he⟩
  · exact h left sl _ _ he
  rcases error_of_bind he with he | ⟨rights, hr, he⟩
  · exact h right sr _ _ he
  rcases error_of_bind he with he | ⟨_, -, he⟩
  · have ul : Uniform lefts := uniform_of_answers (leaves.side sl) (free.side sl).guarded ⟨_, hl⟩
    have ur : Uniform rights := uniform_of_answers (leaves.side sr) (free.side sr).guarded ⟨_, hr⟩
    rcases requireSharedShape_cases op.operator ul ur with ⟨hs, -⟩ | ⟨_, hs, hk, -⟩
    · rw [hs] at he
      cases he
    · rw [hs] at he
      cases he
      exact hk
  · cases he

theorem kind_of_error {e : Expr} (leaves : e.UniformLeaves) (free : e.CallbackFree) :
    ∀ (store : Store) (fault : Fault), (e.eval store).result = .error fault → fault.kind = .schema := by
  induction e using sides_induction with
  | h e ih =>
    intro store fault he
    have below := fun s hs => ih s hs (leaves.side hs) (free.side hs)
    cases e with
    | terminal rows => cases he
    | union left right => exact kind_of_compared .union leaves free below he
    | filter kind left right strategy => exact kind_of_compared (.filter kind strategy) leaves free below he
    | _ => rcases free _ (mem_postorder_self _) with h | h <;> cases h

end Expr

/-- Equal trees of leaves, unions and filters evaluate alike, from any stores: both give rows, as many and
matching row by row, or both fail with the same fault of the schema. They log the same. -/
theorem eval_congr {a b : Expr} (built : a.Built) (free : a.CallbackFree)
    (equal : (Value.expr a).equal (.expr b) = true) (store store' : Store) :
    ((∃ rows rows', (a.eval store).result = .ok rows ∧ (b.eval store').result = .ok rows' ∧
        List.Forall₂ (fun row row' => row.same row' = true) rows rows') ∨
      ∃ fault, (a.eval store).result = .error fault ∧ (b.eval store').result = .error fault ∧
        fault.kind = .schema) ∧
    (a.eval store).log = (b.eval store').log := by
  rw [equal_expr, Expr.same_iff_matches] at equal
  obtain ⟨hr, hlog, -⟩ := equal.inStep built.uniformLeaves free store store' trivial
  refine ⟨?_, hlog⟩
  cases ha : (a.eval store).result with
  | ok rows =>
    obtain ⟨rows', hb, hm⟩ := hr.of_ok ha
    exact .inl ⟨rows, rows', rfl, hb, hm.same⟩
  | error fault =>
    have hk : fault.kind = .schema := Expr.kind_of_error built.uniformLeaves free store fault ha
    exact .inr ⟨fault, rfl, hr.of_error ha, hk⟩

/-- Zeros of three types, in keys of dictionaries in lists: no set can hold such rows, so both searches start
over. -/
theorem eval_congr_zeros :
    let row (zero : Value) : Value := .tuple [zero, .list (some 4) [.dict [.mk zero .null]]]
    let lefts (zero zero' : Value) : Expr :=
      .union (.terminal [row zero, row (.int 2)]) (.terminal [row zero'])
    let tree (zero zero' : Value) : Expr :=
      .filter .intersection (lefts zero zero') (.terminal [row zero']) .hash
    let a := tree (.int 0) (.bool false)
    let b := tree (.float (.zero true)) (.int 0)
    a.Built ∧ a.CallbackFree ∧ (Value.expr a).equal (.expr b) = true ∧
      (a.eval .empty).log = [.rescanned .intersection] ∧
      (((∃ rows rows', (a.eval .empty).result = .ok rows ∧ (b.eval .empty).result = .ok rows' ∧
          List.Forall₂ (fun row row' => row.same row' = true) rows rows') ∨
        ∃ fault, (a.eval .empty).result = .error fault ∧ (b.eval .empty).result = .error fault ∧
          fault.kind = .schema) ∧
      (a.eval .empty).log = (b.eval .empty).log) := by
  intro row lefts tree a b
  have shape : ∀ zero, (row zero).shape = .fields 2 := fun _ => rfl
  have leaf : ∀ zeros : List Value, (Expr.terminal (zeros.map row)).Built :=
    fun zeros => built_terminal (uniform_map shape zeros)
  have hlefts : (lefts (.int 0) (.bool false)).Built := by
    have made : makeNode .union [(.left, .expr (.terminal [row (.int 0), row (.int 2)])),
        (.right, .expr (.terminal [row (.bool false)]))] = pure (lefts (.int 0) (.bool false)) := rfl
    refine Expr.built_of_makeNode ?_ made
    exact List.forall_mem_cons.2 ⟨expr_treeHas (leaf [.int 0, .int 2]),
      List.forall_mem_singleton.2 (expr_treeHas (leaf [.bool false]))⟩
  have built : a.Built := by
    have made : makeNode (.filter .intersection) [(.left, .expr (lefts (.int 0) (.bool false))),
        (.right, .expr (.terminal [row (.bool false)])), (.strategy, .text "hash")] = pure a := rfl
    refine Expr.built_of_makeNode ?_ made
    exact List.forall_mem_cons.2 ⟨expr_treeHas hlefts, List.forall_mem_cons.2
      ⟨expr_treeHas (leaf [.bool false]), List.forall_mem_singleton.2 (treeHas_of_none rfl)⟩⟩
  have free : a.CallbackFree := by
    simp [a, tree, lefts, Expr.CallbackFree, Expr.postorder, Expr.operator, Operator.comparesRows]
  have equal : (Value.expr a).equal (.expr b) = true := by decide +kernel
  exact ⟨built, free, equal, rfl, eval_congr built free equal .empty .empty⟩

end BagAlgebra
