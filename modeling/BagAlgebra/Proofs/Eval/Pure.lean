/-
Trees whose callbacks are pure on the rows that they are applied to: what a call comes to, the identity
of any object in it included, depends on its arguments alone. The evaluation of such a tree has one
answer, whatever store it starts from, and the answer of a node is a function of the answers of its
sides.
-/
import BagAlgebra.Proofs.Eval.Effects
import BagAlgebra.Proofs.Run.Stable

namespace BagAlgebra

namespace Expr

/-! ## The own work of a node -/

/-- What a node does with the rows of its sides. -/
def work : Expr → List (List Value) → Eval (List Value)
  | .terminal rows, [] => pure rows
  | .selection _ predicate, [rows] => do
    let kept ← keepWhere predicate rows
    Run.emit (.kept kept.length)
    return kept
  | .projection _ mapper, [rows] => mapRows mapper rows
  | .join _ _ predicate mapper, [lefts, rights] => do
    let rows ← joinRows predicate mapper lefts rights
    Run.emit (.joined lefts.length rights.length rows.length)
    return rows
  | .product _ _ mapper, [lefts, rights] => do
    let rows ← joinRows .always mapper lefts rights
    Run.emit (.joined lefts.length rights.length rows.length)
    return rows
  | .union _ _, [lefts, rights] => do
    requireSharedShape .union lefts rights
    return lefts ++ rights
  | .filter kind _ _ strategy, [lefts, rights] => do
    requireSharedShape (.filter kind) lefts rights
    let hits ← occurrences kind strategy lefts rights
    return keepHits kind.keepsMatches lefts hits
  | _, _ => Run.fail .notImplemented

/-- A node evaluates its sides in order and then does its own work. -/
theorem eval_eq_work (e : Expr) : e.eval = e.sides.mapM eval >>= e.work := by
  cases e <;> simp [eval, evalWith, sides, work]

/-- The callbacks that a node applies to the rows of its sides, and what it applies them to: to each row,
or to each pair of a left and a right row, and a join its mapper only where its predicate can hold. -/
inductive Uses : Expr → List (List Value) → Callback → List Value → Prop where
  | predicate {child : Expr} {predicate : Callback} {rows : List Value} {row : Value}
      (h : row ∈ rows) : Uses (.selection child predicate) [rows] predicate [row]
  | mapper {child : Expr} {mapper : Callback} {rows : List Value} {row : Value}
      (h : row ∈ rows) : Uses (.projection child mapper) [rows] mapper [row]
  | joinPredicate {left right : Expr} {predicate mapper : Callback} {lefts rights : List Value}
      {l r : Value} (hl : l ∈ lefts) (hr : r ∈ rights) :
      Uses (.join left right predicate mapper) [lefts, rights] predicate [l, r]
  | joinMapper {left right : Expr} {predicate mapper : Callback} {lefts rights : List Value}
      {l r verdict : Value} (hl : l ∈ lefts) (hr : r ∈ rights)
      (hv : (predicate.call [l, r]).Answers verdict) (ht : verdict.truthy = true) :
      Uses (.join left right predicate mapper) [lefts, rights] mapper [l, r]
  | productMapper {left right : Expr} {mapper : Callback} {lefts rights : List Value} {l r : Value}
      (hl : l ∈ lefts) (hr : r ∈ rights) :
      Uses (.product left right mapper) [lefts, rights] mapper [l, r]

/-- Every call that a node of the tree makes on rows that its sides can give is stable. -/
def Pure (e : Expr) : Prop :=
  ∀ node ∈ e.postorder, ∀ inputs, (node.sides.mapM eval).Answers inputs →
    ∀ f rows, node.Uses inputs f rows → (f.call rows).Stable

theorem pure_iff (e : Expr) :
    e.Pure ↔ (∀ s ∈ e.sides, s.Pure) ∧ ∀ inputs, (e.sides.mapM eval).Answers inputs →
      ∀ f rows, e.Uses inputs f rows → (f.call rows).Stable :=
  forall_postorder_iff

end Expr

/-! ## Stable work -/

open Run

theorem walk_stable {α : Type} {each : α → Eval (List Value)} {items : List α}
    (h : ∀ a ∈ items, (each a).Stable) : (walk each items).Stable :=
  (stable_mapM h).bind fun _ _ => stable_pure _

theorem keepWhere_stable {predicate : Callback} {rows : List Value}
    (h : ∀ row ∈ rows, (predicate.call [row]).Stable) : (keepWhere predicate rows).Stable := by
  rw [keepWhere_eq_walk]
  exact walk_stable fun row hr => (h row hr).bind fun _ _ => stable_pure _

theorem mapRows_stable {mapper : Callback} {rows : List Value}
    (h : ∀ row ∈ rows, (mapper.call [row]).Stable) : (mapRows mapper rows).Stable := by
  rw [mapRows_eq_mapM]
  exact stable_mapM h

/-- What a join makes of a pair after the verdict on it. -/
def imageIf (mapper : Callback) (pair : Value × Value) (verdict : Value) : Eval (List Value) :=
  if verdict.truthy then return [← mapper.call [pair.1, pair.2]] else return []

theorem imageIf_stable {mapper : Callback} {pair : Value × Value} {verdict : Value}
    (h : verdict.truthy = true → (mapper.call [pair.1, pair.2]).Stable) :
    (imageIf mapper pair verdict).Stable := by
  unfold imageIf
  split
  · rename_i ht
    exact (h ht).bind fun _ _ => stable_pure _
  · exact stable_pure _

theorem joinRows_stable {predicate mapper : Callback} {lefts rights : List Value}
    (hp : ∀ l ∈ lefts, ∀ r ∈ rights, (predicate.call [l, r]).Stable)
    (hm : ∀ l ∈ lefts, ∀ r ∈ rights, ∀ verdict, (predicate.call [l, r]).Answers verdict →
      verdict.truthy = true → (mapper.call [l, r]).Stable) :
    (joinRows predicate mapper lefts rights).Stable := by
  rw [joinRows_eq_walk]
  refine walk_stable fun (l, r) hlr => ?_
  obtain ⟨hl, hr⟩ := List.mem_product.1 hlr
  exact (hp l hl r hr).bind fun verdict hv => imageIf_stable (hm l hl r hr verdict hv)

theorem occurrences_result (kind : FilterKind) (strategy : Strategy) (left right : List Value)
    (store : Store) :
    (occurrences kind strategy left right store).result = .ok (occurrencesByScan left right) := by
  -- any two sides will do: what a filter finds is up to its rows
  rw [occurrences_apply kind (.bare 0) (.bare 0) strategy left right []]

theorem occurrences_stable (kind : FilterKind) (strategy : Strategy) (left right : List Value) :
    (occurrences kind strategy left right).Stable := by
  intro store store'
  rw [occurrences_result, occurrences_result]

theorem always_stable (rows : List Value) : (Callback.always.call rows).Stable := by
  rw [Callback.call]
  split
  · exact stable_pure _
  · exact stable_fail _

theorem emit_stable {α : Type} {run : Eval α} (h : run.Stable) (event : α → Event) :
    Stable (do let a ← run; Run.emit (event a); return a) :=
  h.bind fun _ _ => (stable_emit _).bind fun _ _ => stable_pure _

namespace Expr

/-- The work of a node is stable on rows on which the calls that it makes are. -/
theorem work_stable (e : Expr) (inputs : List (List Value))
    (h : ∀ f rows, e.Uses inputs f rows → (f.call rows).Stable) : (e.work inputs).Stable := by
  unfold work
  split
  · exact stable_pure _
  · exact emit_stable (keepWhere_stable fun row hr => h _ _ (.predicate hr)) _
  · exact mapRows_stable fun row hr => h _ _ (.mapper hr)
  · exact emit_stable (joinRows_stable (fun l hl r hr => h _ _ (.joinPredicate hl hr))
      fun l hl r hr verdict hv ht => h _ _ (.joinMapper hl hr hv ht)) _
  · exact emit_stable (joinRows_stable (fun _ _ _ _ => always_stable _)
      fun l hl r hr _ _ _ => h _ _ (.productMapper hl hr)) _
  · exact (stable_ofExcept _).bind fun _ _ => stable_pure _
  · exact (stable_ofExcept _).bind fun _ _ =>
      (occurrences_stable _ _ _ _).bind fun _ _ => stable_pure _
  · exact stable_fail _

/-- A pure tree has the same rows, or the same fault, from every store. -/
theorem Pure.stable {e : Expr} (h : e.Pure) : e.eval.Stable := by
  induction e using sides_induction with
  | h e ih =>
    obtain ⟨hs, he⟩ := e.pure_iff.1 h
    rw [eval_eq_work]
    exact (stable_mapM fun s hm => ih s hm (hs s hm)).bind fun inputs hi =>
      e.work_stable inputs (he inputs hi)

/-- The answer of a pure tree is made of the answers of its sides. -/
theorem Pure.answer_eq {e : Expr} (h : e.Pure) :
    e.eval.answer = e.sides.mapM (fun s => s.eval.answer) >>= fun inputs => (e.work inputs).answer := by
  obtain ⟨hs, he⟩ := e.pure_iff.1 h
  rw [eval_eq_work, answer_bind fun inputs hi => e.work_stable inputs (he inputs hi),
    answer_mapM fun s hm => (hs s hm).stable]

/-- The answer of a pure node with two sides. -/
theorem Pure.answer_two {e left right : Expr} (h : e.Pure) (hs : e.sides = [left, right]) :
    e.eval.answer = left.eval.answer >>= fun lefts => right.eval.answer >>= fun rights =>
      (e.work [lefts, rights]).answer := by
  rw [h.answer_eq, hs]
  simp only [List.mapM_cons, List.mapM_nil, bind_assoc, pure_bind]

theorem pure_terminal (rows : List Value) : (terminal rows).Pure :=
  (pure_iff _).2 ⟨List.forall_mem_nil _, fun _ _ _ _ hu => by cases hu⟩

theorem pure_projection {child : Expr} {mapper : Callback} (hc : child.Pure)
    (hm : ∀ row, (mapper.call [row]).Stable) : (projection child mapper).Pure := by
  refine (pure_iff _).2 ⟨List.forall_mem_singleton.2 hc, fun _ _ _ _ hu => ?_⟩
  cases hu with
  | mapper _ => exact hm _

theorem pure_union {left right : Expr} (hl : left.Pure) (hr : right.Pure) :
    (union left right).Pure :=
  (pure_iff _).2 ⟨List.forall_mem_cons.2 ⟨hl, List.forall_mem_singleton.2 hr⟩,
    fun _ _ _ _ hu => by cases hu⟩

theorem pure_filter {kind : FilterKind} {left right : Expr} {strategy : Strategy} (hl : left.Pure)
    (hr : right.Pure) : (filter kind left right strategy).Pure :=
  (pure_iff _).2 ⟨List.forall_mem_cons.2 ⟨hl, List.forall_mem_singleton.2 hr⟩,
    fun _ _ _ _ hu => by cases hu⟩

/-- What the work of a filter comes to, whatever its strategy. -/
theorem answer_work_filter (kind : FilterKind) (left right : Expr) (strategy : Strategy)
    (lefts rights : List Value) :
    ((filter kind left right strategy).work [lefts, rights]).answer = do
      requireSharedShape (.filter kind) lefts rights
      return lefts.filter fun row => occurs row rights == kind.keepsMatches := by
  have hstable := occurrences_stable kind strategy lefts rights
  rw [work, answer_bind fun _ _ => hstable.bind fun _ _ => stable_pure _]
  refine bind_congr fun _ => ?_
  rw [answer_bind fun _ _ => stable_pure _, answer, occurrences_result, ← keepHits_scan]
  rfl

end Expr

end BagAlgebra
