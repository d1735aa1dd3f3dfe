/-
The strategies of a tree's filters do not matter. Two trees that differ in strategies alone give the
same rows in the same order, or fail with the same fault, leave the same store, and log the same
events but for the messages that a filter starts over as a scan.
-/
import BagAlgebra.Proofs.Row.Matching
import BagAlgebra.Proofs.Run.InStep

namespace BagAlgebra

/-- Whether an event is the message that a filter starts over as a scan. -/
def Event.isRescan : Event → Bool
  | .rescanned _ => true
  | _ => false

/-- The same tree, but that any of its filters may have another strategy. -/
inductive Expr.UpToStrategy : Expr → Expr → Prop where
  | bare (serial : Nat) : UpToStrategy (.bare serial) (.bare serial)
  | terminal (rows : List Value) : UpToStrategy (.terminal rows) (.terminal rows)
  | selection {child child' : Expr} (predicate : Callback) (h : UpToStrategy child child') :
      UpToStrategy (.selection child predicate) (.selection child' predicate)
  | projection {child child' : Expr} (mapper : Callback) (h : UpToStrategy child child') :
      UpToStrategy (.projection child mapper) (.projection child' mapper)
  | join {left left' right right' : Expr} (predicate mapper : Callback)
      (hl : UpToStrategy left left') (hr : UpToStrategy right right') :
      UpToStrategy (.join left right predicate mapper) (.join left' right' predicate mapper)
  | product {left left' right right' : Expr} (mapper : Callback)
      (hl : UpToStrategy left left') (hr : UpToStrategy right right') :
      UpToStrategy (.product left right mapper) (.product left' right' mapper)
  | union {left left' right right' : Expr}
      (hl : UpToStrategy left left') (hr : UpToStrategy right right') :
      UpToStrategy (.union left right) (.union left' right')
  | filter {left left' right right' : Expr} (kind : FilterKind) (strategy strategy' : Strategy)
      (hl : UpToStrategy left left') (hr : UpToStrategy right right') :
      UpToStrategy (.filter kind left right strategy) (.filter kind left' right' strategy')

/-! ## One filter -/

/-- The same store, and the same log but for the messages of rescans. -/
def butRescans : Correspondence Event where
  stores store store' := store = store'
  logs log log' := log.filter (!·.isRescan) = log'.filter (!·.isRescan)
  nil := rfl
  append h h' := by rw [List.filter_append, List.filter_append, h, h']

/-- Any run is in step with itself. -/
theorem inStep_refl {α : Type} (run : Eval α) :
    Run.InStep butRescans (fun a b => a = b) run run := by
  intro store store' hs
  have hs : store = store' := hs
  subst hs
  refine ⟨?_, rfl, rfl⟩
  cases (run store).result with
  | ok a => exact .ok rfl
  | error fault => exact .error fault

/-- Whatever the strategy, a filter finds what a scan finds. -/
theorem occurrences_inStep_scan (kind : FilterKind) (strategy : Strategy) (left right : List Value) :
    Run.InStep butRescans (fun a b => a = b) (occurrences kind strategy left right)
      (pure (occurrencesByScan left right)) := by
  cases strategy with
  | scan => exact inStep_refl _
  | hash =>
    rw [occurrences, occurrencesBySet_eq]
    by_cases h : (left ++ right).all Value.hashable = true
    · rw [if_pos h]
      exact inStep_refl _
    · rw [if_neg h]
      intro store store' hs
      have hs : store = store' := hs
      subst hs
      exact ⟨.ok rfl, rfl, rfl⟩

theorem occurrences_inStep (kind : FilterKind) (strategy strategy' : Strategy)
    (left right : List Value) :
    Run.InStep butRescans (fun a b => a = b) (occurrences kind strategy left right)
      (occurrences kind strategy' left right) := by
  intro store store' hs
  have hs : store = store' := hs
  subst hs
  -- either strategy does as the scan does
  obtain ⟨h1, h2, h3⟩ := occurrences_inStep_scan kind strategy left right store store rfl
  obtain ⟨h1', h2', h3'⟩ := occurrences_inStep_scan kind strategy' left right store store rfl
  refine ⟨?_, h2.trans h2'.symm, h3.trans h3'.symm⟩
  rw [h1.eq, h1'.eq]
  exact .ok rfl

/-! ## Trees -/

/-- The rows of two sides that are in step, left before right, and what is made of them. -/
theorem sides_inStep {left left' right right' : Expr}
    {next next' : List Value → List Value → Eval (List Value)}
    (hl : Run.InStep butRescans (fun a b => a = b) left.eval left'.eval)
    (hr : Run.InStep butRescans (fun a b => a = b) right.eval right'.eval)
    (hn : ∀ lefts rights, Run.InStep butRescans (fun a b => a = b) (next lefts rights)
      (next' lefts rights)) :
    Run.InStep butRescans (fun a b => a = b)
      (do let lefts ← left.eval; let rights ← right.eval; next lefts rights)
      (do let lefts ← left'.eval; let rights ← right'.eval; next' lefts rights) := by
  refine hl.bind fun lefts lefts' h => ?_
  subst h
  refine hr.bind fun rights rights' h => ?_
  subst h
  exact hn lefts rights

theorem Expr.UpToStrategy.inStep {e e' : Expr} (h : e.UpToStrategy e') :
    Run.InStep butRescans (fun a b => a = b) e.eval e'.eval := by
  induction h with
  | bare serial => exact inStep_refl _
  | terminal rows => exact inStep_refl _
  | selection predicate _ ih =>
    rw [Expr.eval_selection, Expr.eval_selection]
    refine ih.bind fun rows rows' h => ?_
    subst h
    exact inStep_refl _
  | projection mapper _ ih =>
    rw [Expr.eval_projection, Expr.eval_projection]
    refine ih.bind fun rows rows' h => ?_
    subst h
    exact inStep_refl _
  | join predicate mapper _ _ ihl ihr => exact sides_inStep ihl ihr fun _ _ => inStep_refl _
  | product mapper _ _ ihl ihr => exact sides_inStep ihl ihr fun _ _ => inStep_refl _
  | union _ _ ihl ihr => exact sides_inStep ihl ihr fun _ _ => inStep_refl _
  | filter kind strategy strategy' _ _ ihl ihr =>
    refine sides_inStep ihl ihr fun lefts rights => ?_
    -- the shapes are compared before the strategy has a say
    refine (inStep_refl _).bind fun _ _ _ => ?_
    refine (occurrences_inStep kind strategy strategy' lefts rights).bind fun hits hits' h => ?_
    subst h
    exact inStep_refl _

/-- Trees that differ in the strategies of filters alone evaluate alike: the same rows or the same
fault, the same store, and the same log but for the messages of rescans. -/
theorem eval_strategy_independent {e e' : Expr} (h : e.UpToStrategy e') (store : Store) :
    (e.eval store).result = (e'.eval store).result ∧
      (e.eval store).log.filter (!·.isRescan) = (e'.eval store).log.filter (!·.isRescan) ∧
      (e.eval store).store = (e'.eval store).store := by
  obtain ⟨hr, hl, hs⟩ := h.inStep store store rfl
  exact ⟨hr.eq, hl, hs⟩

/-- Equal numbers of three types, one "not a number" on both sides and another on one, and a left row
that no set can hold: by set, the intersection has to start over. -/
theorem eval_strategy_independent_mixed :
    let lefts : Expr := .terminal [.int 1, .nan 7, .list none [], .nan 8, .float (.zero true)]
    let rights : Expr := .terminal [.bool true, .int 1, .nan 7, .int 0]
    let hash : Expr := .filter .intersection lefts rights .hash
    let scan : Expr := .filter .intersection lefts rights .scan
    hash.UpToStrategy scan ∧ (hash.eval .empty).log = [.rescanned .intersection] ∧
      (scan.eval .empty).log = [] ∧
      ((hash.eval .empty).result = (scan.eval .empty).result ∧
        (hash.eval .empty).log.filter (!·.isRescan) = (scan.eval .empty).log.filter (!·.isRescan) ∧
        (hash.eval .empty).store = (scan.eval .empty).store) := by
  intro lefts rights hash scan
  have h : hash.UpToStrategy scan :=
    .filter .intersection .hash .scan (.terminal _) (.terminal _)
  exact ⟨h, rfl, rfl, eval_strategy_independent h .empty⟩

end BagAlgebra
