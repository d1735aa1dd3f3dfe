/-
The shape of rows that come out of an evaluation. Mappers may give rows of any shapes; but a union and a
filter let uniform rows through only, and a selection keeps them uniform. So where a union or a filter
stands above every node with a mapper, an evaluation that gives rows gives uniform ones, and these can
be stored in a leaf and shown in a table.
-/
import BagAlgebra.Proofs.Eval.RowWise
import BagAlgebra.Proofs.Table.Aligned
import BagAlgebra.Proofs.Tree.Leaves

namespace BagAlgebra

/-! ## Nodes under a comparison -/

namespace Operator

/-- Whether an operator makes new rows with a mapper. -/
def mapsRows : Operator → Bool
  | .projection => true
  | .join => true
  | .product => true
  | _ => false

/-- Whether an operator compares the shapes of the rows of its sides. -/
def comparesRows : Operator → Bool
  | .union => true
  | .filter _ => true
  | _ => false

end Operator

namespace Expr

/-- A node of a tree, with the nodes above it from the root down. -/
inductive Path : Expr → List Expr → Expr → Prop where
  | root (e : Expr) : Path e [] e
  | side {e s node : Expr} {above : List Expr} (hs : s ∈ e.sides) (h : Path s above node) :
      Path e (e :: above) node

/-- Each node with a mapper has a node that compares rows somewhere above it. -/
def Guarded (e : Expr) : Prop :=
  ∀ above node, e.Path above node → node.operator.mapsRows = true →
    ∃ a ∈ above, a.operator.comparesRows = true

/-- A tree is guarded if its root has no mapper, and compares the rows of its sides or has guarded sides. -/
theorem guarded_iff (e : Expr) :
    e.Guarded ↔ e.operator.mapsRows = false ∧
      (e.operator.comparesRows = true ∨ ∀ s ∈ e.sides, s.Guarded) := by
  constructor
  · intro h
    constructor
    · by_contra hm
      obtain ⟨a, ha, _⟩ := h [] e (.root e) (Bool.not_eq_false _ ▸ hm)
      cases ha
    · by_cases hc : e.operator.comparesRows = true
      · exact .inl hc
      · refine .inr fun s hs above node hp hm => ?_
        obtain ⟨a, ha, hac⟩ := h (e :: above) node (.side hs hp) hm
        rcases List.mem_cons.1 ha with rfl | ha
        · exact absurd hac hc
        · exact ⟨a, ha, hac⟩
  · rintro ⟨hm, h⟩ above node hp hn
    cases hp with
    | root =>
      rw [hm] at hn
      cases hn
    | side hs hp =>
      rcases h with hc | hg
      · exact ⟨e, List.mem_cons_self .., hc⟩
      · obtain ⟨a, ha, hac⟩ := hg _ hs _ _ hp hn
        exact ⟨a, List.mem_cons_of_mem _ ha, hac⟩

end Expr

/-! ## Rows that are let through -/

/-- The sides of a node that compares them are uniform, and so is what is made of their rows. -/
theorem uniform_of_compared {operator : Operator} {left right : Expr}
    {next : List Value → List Value → Eval (List Value)}
    (hn : ∀ lefts rights rows, (next lefts rights).Answers rows → rows ⊆ lefts ++ rights)
    {rows : List Value} (h : Run.Answers (do
      let lefts ← left.eval
      let rights ← right.eval
      requireSharedShape operator lefts rights
      next lefts rights) rows) : Uniform rows := by
  obtain ⟨lefts, _, h⟩ := h.of_bind
  obtain ⟨rights, _, h⟩ := h.of_bind
  obtain ⟨_, hc, h⟩ := h.of_bind
  have hu := requireSharedShape_ok_iff.1 (Run.answers_ofExcept hc)
  exact hu.subset (hn lefts rights rows h)

/-- The rows of a guarded tree with uniform leaves are uniform. -/
theorem Expr.uniform_of_answers : ∀ {e : Expr}, e.UniformLeaves → e.Guarded → ∀ {rows : List Value},
    e.eval.Answers rows → Uniform rows
  | .bare _, _, _, _, h => absurd h Run.not_answers_fail
  | .terminal stored, hl, _, _, h => by
    rw [Run.answers_pure h]
    exact hl stored (mem_postorder_self _)
  | .selection child predicate, hl, hg, rows, h => by
    obtain ⟨childRows, hc, h⟩ := h.of_bind
    obtain ⟨kept, hk, h⟩ := h.of_bind
    obtain ⟨_, _, h⟩ := h.of_bind
    rw [Run.answers_pure h]
    have hs : child ∈ (selection child predicate).sides := List.mem_singleton.2 rfl
    rcases ((guarded_iff _).1 hg).2 with hc | hg
    · cases hc
    · exact (uniform_of_answers (hl.side hs) (hg child hs) hc).subset (keepWhere_subset hk)
  | .projection child mapper, _, hg, _, _ => nomatch ((guarded_iff _).1 hg).1
  | .join left right predicate mapper, _, hg, _, _ =>
    nomatch ((guarded_iff _).1 hg).1
  | .product left right mapper, _, hg, _, _ =>
    nomatch ((guarded_iff _).1 hg).1
  | .union left right, _, _, rows, h => by
    refine uniform_of_compared (fun lefts rights rows h => ?_) h
    rw [Run.answers_pure h]
    exact List.Subset.refl _
  | .filter kind left right strategy, _, _, rows, h => by
    refine uniform_of_compared (fun lefts rights rows h => ?_) h
    obtain ⟨hits, _, h⟩ := h.of_bind
    rw [Run.answers_pure h]
    exact List.Subset.trans (keepHits_subset _ _ _) (List.subset_append_left _ _)

/-- If a union or a filter stands above every projection, join and product of a tree that can be made, the
rows of an evaluation that succeeds are uniform. A leaf can be made of the list of them, and its table
under made-up headers is no mismatch of rows and headers, whatever the limit. -/
theorem eval_uniform {e : Expr} (built : e.Built) (guarded : e.Guarded) {store : Store}
    {rows : List Value} (h : (e.eval store).result = .ok rows) :
    Uniform rows ∧ ∀ cell,
      (∀ after, (makeNode .terminal [(.rows, .list cell rows)] after).result = .ok (.terminal rows)) ∧
      ∀ limit after fault,
        (Pretty.render (.list cell rows) .null limit after : Outcome Event String).result = .error fault →
          fault.kind ≠ .schema := by
  have hu : Uniform rows := e.uniform_of_answers built.uniformLeaves guarded ⟨store, h⟩
  refine ⟨hu, fun cell => ⟨fun after => ?_, fun limit after => ?_⟩⟩
  · show ((Expr.ofItems (.list cell rows) : Eval Expr) after).result = _
    rw [ofItems_list hu]
    rfl
  · exact Pretty.render_noMismatch hu cell limit after

/-- A selection above a union above a projection: the projection gives pairs, and so is the other side. -/
theorem eval_uniform_pairs :
    let double : Callback :=
      .function ⟨0, .named, "double"⟩ [.required "x"] (.tuple [.argument "x", .argument "x"]) []
    let pairs : Expr := .projection (.terminal [.int 1, .null]) double
    let both : Expr := .union pairs (.terminal [.tuple [.text "a", .text "b"]])
    let e : Expr := .selection both (.builtin .bool)
    let rows : List Value :=
      [.tuple [.int 1, .int 1], .tuple [.null, .null], .tuple [.text "a", .text "b"]]
    e.Built ∧ e.Guarded ∧ (e.eval .empty).result = .ok rows ∧
      Uniform rows ∧ ∀ cell,
        (∀ after, (makeNode .terminal [(.rows, .list cell rows)] after).result = .ok (.terminal rows)) ∧
        ∀ limit after fault, (Pretty.render (.list cell rows) .null limit after :
          Outcome Event String).result = .error fault → fault.kind ≠ .schema := by
  intro double pairs both e rows
  have hpairs : pairs.Built := by
    have made : makeNode .projection [(.child, .expr (.terminal [.int 1, .null])),
        (.mapper, .callable double)] = pure pairs := rfl
    refine Expr.built_of_makeNode ?_ made
    refine List.forall_mem_cons.2 ⟨expr_treeHas (built_terminal ?_), ?_⟩
    · exact ⟨.scalar, by simp [Value.shape]⟩
    · exact List.forall_mem_singleton.2 (treeHas_of_none rfl)
  have hboth : both.Built := by
    have made : makeNode .union [(.left, .expr pairs),
        (.right, .expr (.terminal [.tuple [.text "a", .text "b"]]))] = pure both := rfl
    refine Expr.built_of_makeNode ?_ made
    refine List.forall_mem_cons.2 ⟨expr_treeHas hpairs, ?_⟩
    refine List.forall_mem_singleton.2 (expr_treeHas (built_terminal ?_))
    exact ⟨.fields 2, by simp [Value.shape]⟩
  have built : e.Built := by
    have made : makeNode .selection [(.child, .expr both), (.predicate, .callable (.builtin .bool))]
        = pure e := rfl
    refine Expr.built_of_makeNode ?_ made
    exact List.forall_mem_cons.2
      ⟨expr_treeHas hboth, List.forall_mem_singleton.2 (treeHas_of_none rfl)⟩
  have guarded : e.Guarded := by
    rw [Expr.guarded_iff]
    refine ⟨rfl, .inr (List.forall_mem_singleton.2 ?_)⟩
    rw [Expr.guarded_iff]
    exact ⟨rfl, .inl rfl⟩
  have hrows : (e.eval .empty).result = .ok rows := rfl
  exact ⟨built, guarded, hrows, eval_uniform built guarded hrows⟩

end BagAlgebra
