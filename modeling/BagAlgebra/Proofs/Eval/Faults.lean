/-
Why an evaluation of a tree that can be made fails. Either a predicate or a mapper of the tree failed
on rows that it accepts, or the rows of two sides do not share a shape, or the tree has a bare
expression; and whatever fails is what the evaluation fails with.
-/
import BagAlgebra.Proofs.Eval.Order
import BagAlgebra.Proofs.Tree.Fit

namespace BagAlgebra

/-! ## What the own work of a node consists of -/

/-- The effects that a node may have: its callbacks are applied to as many rows as it has sides, and the
rows of a union or a filter are compared in its name. -/
def Expr.Does (node : Expr) : Effect → Prop
  | .applied f rows _ => rows.length = node.sides.length ∧
      (f ∈ node.callbacks ∨ f = .always ∧ node.sides.length = 2)
  | .compared operator _ _ _ => operator = node.operator ∧ (operator = .union ∨ ∃ kind, operator = .filter kind)
  | .refused serial => node = .bare serial
  | .noted _ => True
  | .finished _ => True

theorem pairs_does {node : Expr} {predicate mapper : Callback} (hs : node.sides.length = 2)
    (hp : predicate ∈ node.callbacks ∨ predicate = .always ∧ node.sides.length = 2)
    (hm : mapper ∈ node.callbacks) {pair : Value × Value} {effects : List Effect}
    {result : Except Fault (List Value)} (h : Pairs predicate mapper pair effects result) :
    ∀ effect ∈ effects, node.Does effect := by
  have first : ∀ reply, node.Does (.applied predicate [pair.1, pair.2] reply) :=
    fun reply => ⟨hs.symm, hp⟩
  cases h with
  | fail fault => exact List.forall_mem_singleton.2 (first _)
  | pass => exact List.forall_mem_singleton.2 (first _)
  | map _ reply =>
    exact List.forall_mem_cons.2 ⟨first _, List.forall_mem_singleton.2 ⟨hs.symm, .inl hm⟩⟩

theorem Expr.Works.does {node : Expr} {inputs : List (List Value)} {effects : List Effect}
    {result : Except Fault (List Value)} (h : node.Works inputs effects result) :
    ∀ effect ∈ effects, node.Does effect := by
  cases h with
  | bare serial => exact List.forall_mem_singleton.2 rfl
  | terminal rows => exact List.forall_mem_nil _
  | selection h =>
    refine h.forall_mem fun row _ effects result h => ?_
    cases h with
    | apply reply => exact List.forall_mem_singleton.2 ⟨rfl, .inl (List.mem_singleton.2 rfl)⟩
  | projection h =>
    refine h.forall_mem fun row _ effects result h => ?_
    cases h with
    | apply => exact List.forall_mem_singleton.2 ⟨rfl, .inl (List.mem_singleton.2 rfl)⟩
  | join h =>
    exact h.forall_mem fun pair _ effects result h => pairs_does rfl (.inl (List.mem_cons_self ..))
      (List.mem_cons_of_mem _ (List.mem_singleton.2 rfl)) h
  | product h =>
    exact h.forall_mem fun pair _ effects result h => pairs_does rfl (.inr ⟨rfl, rfl⟩)
      (List.mem_singleton.2 rfl) h
  | union reply => exact List.forall_mem_singleton.2 ⟨rfl, .inl rfl⟩
  | filter reply => exact List.forall_mem_singleton.2 ⟨rfl, .inr ⟨_, rfl⟩⟩

theorem Expr.Completes.does {node : Expr} {inputs : List (List Value)} {effects : List Effect}
    {result : Except Fault (List Value)} (h : node.Completes inputs effects result) :
    ∀ effect ∈ effects, node.Does effect := by
  cases h with
  | fail h => exact h.does
  | done h =>
    refine List.forall_mem_append.2 ⟨h.does, List.forall_mem_append.2 ⟨fun effect he => ?_, ?_⟩⟩
    · obtain ⟨event, _, rfl⟩ := List.mem_map.1 he
      trivial
    · exact List.forall_mem_singleton.2 trivial

/-- Every effect of an evaluation is one of a node of the tree. -/
theorem Expr.Traces.does (e : Expr) : ∀ effects result, e.Traces effects result →
    ∀ effect ∈ effects, ∃ node ∈ e.postorder, node.Does effect := by
  induction e using Expr.sides_induction with
  | h e ih =>
    have below : ∀ s ∈ e.sides, ∀ effects result, s.Traces effects result →
        ∀ effect ∈ effects, ∃ node ∈ e.postorder, node.Does effect := by
      intro s hs effects result h effect he
      obtain ⟨node, hn, hd⟩ := ih s hs effects result h effect he
      exact ⟨node, mem_postorder_of_side hs hn, hd⟩
    intro effects result h
    cases h with
    | stop h => exact h.forall_mem below
    | root h hr =>
      exact List.forall_mem_append.2
        ⟨h.forall_mem below, fun effect he => ⟨e, e.mem_postorder_self, hr.does effect he⟩⟩

/-! ## Comparisons of shapes -/

/-- A comparison of rows fails with a fault of shapes, but for a row that cannot be shown. -/
def ShapeFault (fault : Fault) (rows : List Value) : Prop :=
  fault.kind = .schema ∨ fault = .badValue ∧ ∃ row ∈ rows, row.printable = false

theorem ShapeFault.mono {fault : Fault} {rows more : List Value} (h : ShapeFault fault rows)
    (hm : ∀ row ∈ rows, row ∈ more) : ShapeFault fault more := by
  rcases h with h | ⟨h, row, hr, hp⟩
  · exact .inl h
  · exact .inr ⟨h, row, hm row hr, hp⟩

theorem requireShape_fault {location : Location} {expected : Shape} {rows : List Value}
    {fault : Fault} (h : requireShape location expected rows = .error fault) :
    ShapeFault fault rows := by
  induction rows with
  | nil => cases h
  | cons row rows ih =>
    rw [requireShape] at h
    split at h
    · exact (ih h).mono fun _ => List.mem_cons_of_mem _
    · rcases error_of_bind h with h | ⟨_, _, h⟩
      · unfold Value.repr? at h
        by_cases hp : row.printable = true
        · rw [if_pos hp] at h
          cases h
        · rw [if_neg hp] at h
          cases h
          exact .inr ⟨rfl, row, List.mem_cons_self .., Bool.eq_false_iff.2 hp⟩
      · cases h
        exact .inl rfl

theorem commonShape_fault {location : Location} {rows : List Value} {fault : Fault}
    (h : commonShape location rows = .error fault) : ShapeFault fault rows := by
  cases rows with
  | nil => cases h
  | cons row rows =>
    rcases error_of_bind h with h | ⟨_, _, h⟩
    · exact (requireShape_fault h).mono fun _ => List.mem_cons_of_mem _
    · cases h

theorem requireSharedShape_fault {operator : Operator} {lefts rights : List Value} {fault : Fault}
    (h : requireSharedShape operator lefts rights = .error fault) :
    ShapeFault fault (lefts ++ rights) := by
  rcases error_of_bind h with h | ⟨_, _, h⟩
  · exact (commonShape_fault h).mono fun _ => List.mem_append_left _
  · rcases error_of_bind h with h | ⟨_, _, h⟩
    · exact (commonShape_fault h).mono fun _ => List.mem_append_right _
    · split at h
      · split at h
        · cases h
        · cases h
          exact .inl rfl
      · cases h

/-! ## Failures -/

/-- What an evaluation that fails is put down to: a predicate or mapper of the tree that failed on rows,
sides of a union or a filter of the tree whose rows do not share a shape, or a bare expression in it. -/
def Expr.Blames (e : Expr) (fault : Fault) : Effect → Prop
  | .applied f _ reply => reply = .error fault ∧ ∃ node ∈ e.postorder, f ∈ node.callbacks
  | .compared operator lefts rights reply => reply = .error fault ∧ ShapeFault fault (lefts ++ rights) ∧
      ∃ node ∈ e.postorder, node.operator = operator ∧ (operator = .union ∨ ∃ kind, operator = .filter kind)
  | .refused serial => fault = .notImplemented ∧ .bare serial ∈ e.postorder
  | .noted _ => False
  | .finished _ => False

/-- A callback of a tree that fits is applied to as many rows as its signature accepts. -/
theorem Expr.Fits.accepts {e node : Expr} (h : e.Fits) (hn : node ∈ e.postorder) {f : Callback}
    {rows : List Value} {reply : Except Fault Value} (hd : node.Does (.applied f rows reply)) :
    f.usableOn rows.length = true := by
  obtain ⟨hl, hf | ⟨rfl, hs⟩⟩ := hd
  · rw [hl]
    exact h node hn f hf
  · rw [hl, hs]; rfl

/-- The predicate that always holds does not fail on two rows. -/
theorem always_call {rows : List Value} (h : rows.length = 2) (store : Store) :
    (Callback.always.call rows store).result = .ok (.bool true) := by
  rw [Callback.call, if_pos h]; rfl

/-- The effect that an evaluation fails in is to blame. -/
theorem blames_of_fault {e node : Expr} {store : Store} {effect : Effect} {fault : Fault}
    (hn : node ∈ e.postorder) (hd : node.Does effect) (hg : effect.Genuine store)
    (hf : effect.fault? = some fault) : e.Blames fault effect := by
  cases effect with
  | applied f rows reply =>
    cases reply with
    | ok v => cases hf
    | error fault' =>
      cases hf
      obtain ⟨hl, hm | ⟨rfl, hs⟩⟩ := hd
      · exact ⟨rfl, node, hn, hm⟩
      · -- the predicate of a product cannot have failed
        have h := (always_call (hl.trans hs) store).symm.trans hg
        cases h
  | compared operator lefts rights reply =>
    cases reply with
    | ok _ => cases hf
    | error fault' =>
      cases hf
      exact ⟨rfl, requireSharedShape_fault hg, node, hn, hd.1.symm, hd.2⟩
  | refused serial =>
    cases hf
    have hd : node = .bare serial := hd
    exact ⟨rfl, hd ▸ hn⟩
  | noted event => cases hf
  | finished visit => cases hf

/-- A fault of a type, or of an expression, comes from a callback. -/
theorem Expr.Blames.of_callback {e : Expr} {fault : Fault} {effect : Effect}
    (h : e.Blames fault effect) (hk : fault.kind = .type ∨ fault.kind = .expression) :
    ∃ f rows, effect = .applied f rows (.error fault) := by
  cases effect with
  | applied f rows reply => exact ⟨f, rows, by rw [h.1]⟩
  | compared operator lefts rights reply =>
    rcases h.2.1 with hs | ⟨rfl, _⟩
    · rw [hs] at hk
      rcases hk with hk | hk <;> cases hk
    · rcases hk with hk | hk <;> cases hk
  | refused serial =>
    obtain ⟨rfl, _⟩ := h
    rcases hk with hk | hk <;> cases hk
  | noted event => cases h
  | finished visit => cases h

theorem EndIn.eq_error {α : Type} {effects : List Effect} {result : Except Fault α}
    (h : EndIn effects result) {effect : Effect} (he : effect ∈ effects) {fault : Fault}
    (hf : effect.fault? = some fault) : result = .error fault := by
  cases result with
  | ok a =>
    rw [h effect he] at hf
    cases hf
  | error fault' =>
    obtain ⟨done, last, rfl, hd, hl⟩ := h
    rcases List.mem_append.1 he with he | he
    · rw [hd effect he] at hf
      cases hf
    · rw [List.mem_singleton.1 he, hl] at hf
      cases hf
      rfl

/-- An account of an evaluation and its failures. -/
structure Expr.Accounted (e : Expr) (store : Store) (effects : List Effect) : Prop where
  /-- The effects are those of the evaluation, which has no others. -/
  carriedOut : e.Effects store effects
  unique : ∀ effects', e.Effects store effects' → effects' = effects
  /-- Where a callback shows its signature, it is only applied to as many rows as that accepts. -/
  accepted : ∀ f rows reply, .applied f rows reply ∈ effects →
    ∀ params, f.params? = some params → Param.accepts params rows.length = true
  /-- What an effect fails with, the evaluation fails with. -/
  passedOn : ∀ effect ∈ effects, ∀ fault, effect.fault? = some fault →
    (e.eval store).result = .error fault
  /-- If the evaluation fails, then in its last effect and in no other, and that one is to blame; a fault
  of a type or of an expression can only be a callback's. -/
  blamed : ∀ fault, (e.eval store).result = .error fault →
    ∃ done last, effects = done ++ [last] ∧ (∀ effect ∈ done, effect.fault? = none) ∧
      e.Blames fault last ∧ (fault.kind = .type ∨ fault.kind = .expression →
        ∃ f rows, last = .applied f rows (.error fault))

/-- Evaluations of trees that can be made fail with nothing but a fault of a callback of the tree, of a
comparison of shapes or of a bare expression, and with whatever of that comes first. -/
theorem eval_faults {e : Expr} (h : e.Built) (store : Store) : ∃ effects, e.Accounted store effects := by
  obtain ⟨effects, he, unique⟩ := e.existsUnique_effects store
  have hend := he.traces.endIn
  have hdoes := he.traces.does
  refine ⟨effects, he, unique, ?_, fun effect hm fault hf => hend.eq_error hm hf, ?_⟩
  · intro f rows reply hm params hp
    obtain ⟨node, hn, hd⟩ := hdoes _ hm
    have hu := h.fits.accepts hn hd
    rw [Callback.usableOn, hp] at hu
    exact hu
  · intro fault hr
    rw [hr] at hend
    obtain ⟨done, last, rfl, hdone, hlast⟩ := hend
    -- the last effect is one of a node, and its reply is the one that it got
    obtain ⟨node, hn, hd⟩ := hdoes last (List.mem_append_right _ (List.mem_singleton.2 rfl))
    obtain ⟨_, mid, _, _, hp, _⟩ := he.performed.split
    have hb := blames_of_fault hn hd hp.genuine hlast
    exact ⟨done, last, rfl, hdone, hb, hb.of_callback⟩

/-- A mapper that fails for the type of its row, below a filter by set. -/
theorem eval_faults_length_of_integer :
    let leaf : Expr := .terminal [.int 1]
    let lengths : Expr := .projection leaf (.builtin .len)
    let tree : Expr := .filter .intersection lengths leaf .hash
    tree.Built ∧ (tree.eval .empty).result = .error .typeMismatch ∧
      ∃ effects, tree.Accounted .empty effects := by
  intro leaf lengths tree
  have plain : ∀ {v : Value} {part : Expr}, v.tree? = none → v.tree? = some part → part.Built := by
    intro v part hn hp
    rw [hn] at hp
    cases hp
  have isTree : ∀ {e part : Expr}, e.Built → (Value.expr e).tree? = some part → part.Built := by
    rintro e part he ⟨⟩
    exact he
  have hleaf : leaf.Built := by
    have made : ((Callee.node .terminal).call [(.rows, .tuple [.int 1])]).Answers (.expr leaf) :=
      ⟨.empty, rfl⟩
    exact .call (List.forall_mem_singleton.2 fun part => plain rfl) made rfl
  have hlengths : lengths.Built := by
    have made : ((Callee.node .projection).call
        [(.child, .expr leaf), (.mapper, .callable (.builtin .len))]).Answers (.expr lengths) :=
      ⟨.empty, rfl⟩
    exact .call (List.forall_mem_cons.2
      ⟨fun part => isTree hleaf, List.forall_mem_singleton.2 fun part => plain rfl⟩) made rfl
  have h : tree.Built := by
    have made : ((Callee.node (.filter .intersection)).call
        [(.left, .expr lengths), (.right, .expr leaf)]).Answers (.expr tree) := ⟨.empty, rfl⟩
    exact .call (List.forall_mem_cons.2
      ⟨fun part => isTree hlengths, List.forall_mem_singleton.2 fun part => isTree hleaf⟩) made rfl
  exact ⟨h, rfl, eval_faults h .empty⟩

end BagAlgebra
