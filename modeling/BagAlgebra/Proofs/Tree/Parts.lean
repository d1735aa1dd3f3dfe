/-
What trees are made of. Each constructor and each operation of a builder either makes a leaf, or a node
whose sides and callbacks are among the values that it was given, after checks that each callback can
be used on as many rows as there are sides. Only a leaf, for which items are collected, takes a run.
-/
import BagAlgebra.Proofs.Run.Answers
import BagAlgebra.Proofs.Tree.Nodes
import BagAlgebra.Script.Term

namespace BagAlgebra

/-- An inner node whose parts are among some values, and whose callbacks can be used on its sides. -/
structure Expr.MadeFrom (e : Expr) (parts : List Value) : Prop where
  inner : e.sides ≠ []
  sides : ∀ s ∈ e.sides, .expr s ∈ parts
  callbacks : ∀ f ∈ e.callbacks, .callable f ∈ parts ∧ f.usableOn e.sides.length = true

theorem Expr.MadeFrom.mono {e : Expr} {parts more : List Value} (h : e.MadeFrom parts)
    (hm : parts ⊆ more) : e.MadeFrom more :=
  ⟨h.inner, fun s hs => hm (h.sides s hs), fun f hf => ⟨hm (h.callbacks f hf).1, (h.callbacks f hf).2⟩⟩

/-! ## Parts -/

theorem require_ok {construct : Construct} {role : Role} {v : Value} {e : Expr}
    (h : Expr.require construct role v = .ok e) : v = .expr e := by
  unfold Expr.require at h
  split at h
  · cases h; rfl
  · cases h

theorem requireCallback_ok {operator : Operator} {role : Role} {rows : Nat} {v : Value}
    {f : Callback} (h : Expr.requireCallback operator role rows v = .ok f) :
    v = .callable f ∧ f.usableOn rows = true := by
  unfold Expr.requireCallback at h
  split at h
  · split at h
    · rename_i hf
      cases h
      exact ⟨rfl, hf⟩
    · obtain ⟨_, _, h⟩ := ok_of_bind h
      cases h
  · cases h

/-! ## Nodes -/

section Nodes

variable {child left right predicate mapper strategy : Value} {e : Expr}

theorem makeSelection_parts (h : Expr.makeSelection child predicate = .ok e) :
    e.MadeFrom [child, predicate] := by
  obtain ⟨c, hc, h⟩ := ok_of_bind h
  obtain ⟨p, hp, h⟩ := ok_of_bind h
  cases h
  obtain ⟨rfl, hu⟩ := requireCallback_ok hp
  rw [require_ok hc]
  constructor
  · simp [Expr.sides]
  · simp [Expr.sides]
  · intro f hf
    rw [List.mem_singleton.1 hf]
    exact ⟨by simp, hu⟩

theorem makeProjection_parts (h : Expr.makeProjection child mapper = .ok e) :
    e.MadeFrom [child, mapper] := by
  obtain ⟨c, hc, h⟩ := ok_of_bind h
  obtain ⟨f, hf, h⟩ := ok_of_bind h
  cases h
  obtain ⟨rfl, hu⟩ := requireCallback_ok hf
  rw [require_ok hc]
  constructor
  · simp [Expr.sides]
  · simp [Expr.sides]
  · intro f hf
    rw [List.mem_singleton.1 hf]
    exact ⟨by simp, hu⟩

theorem makeJoin_parts (h : Expr.makeJoin left right predicate mapper = .ok e) :
    e.MadeFrom [left, right, predicate, mapper] := by
  obtain ⟨l, hl, h⟩ := ok_of_bind h
  obtain ⟨r, hr, h⟩ := ok_of_bind h
  obtain ⟨p, hp, h⟩ := ok_of_bind h
  obtain ⟨f, hf, h⟩ := ok_of_bind h
  cases h
  obtain ⟨rfl, hup⟩ := requireCallback_ok hp
  obtain ⟨rfl, huf⟩ := requireCallback_ok hf
  rw [require_ok hl, require_ok hr]
  constructor
  · simp [Expr.sides]
  · simp [Expr.sides]
  · intro g hg
    rcases List.mem_cons.1 hg with rfl | hg
    · exact ⟨by simp, hup⟩
    · rw [List.mem_singleton.1 hg]
      exact ⟨by simp, huf⟩

theorem makeProduct_parts (h : Expr.makeProduct left right mapper = .ok e) :
    e.MadeFrom [left, right, mapper] := by
  obtain ⟨l, hl, h⟩ := ok_of_bind h
  obtain ⟨r, hr, h⟩ := ok_of_bind h
  obtain ⟨f, hf, h⟩ := ok_of_bind h
  obtain ⟨_, _, h⟩ := ok_of_bind h
  cases h
  obtain ⟨rfl, huf⟩ := requireCallback_ok hf
  rw [require_ok hl, require_ok hr]
  constructor
  · simp [Expr.sides]
  · simp [Expr.sides]
  · intro g hg
    rw [List.mem_singleton.1 hg]
    exact ⟨by simp, huf⟩

theorem makeUnion_parts (h : Expr.makeUnion left right = .ok e) : e.MadeFrom [left, right] := by
  obtain ⟨l, hl, h⟩ := ok_of_bind h
  obtain ⟨r, hr, h⟩ := ok_of_bind h
  obtain ⟨_, _, h⟩ := ok_of_bind h
  cases h
  rw [require_ok hl, require_ok hr]
  constructor
  · simp [Expr.sides]
  · simp [Expr.sides]
  · simp [Expr.callbacks]

theorem makeFilter_parts {kind : FilterKind} (h : Expr.makeFilter kind left right strategy = .ok e) :
    e.MadeFrom [left, right] := by
  obtain ⟨l, hl, h⟩ := ok_of_bind h
  obtain ⟨r, hr, h⟩ := ok_of_bind h
  obtain ⟨_, _, h⟩ := ok_of_bind h
  obtain ⟨_, _, h⟩ := ok_of_bind h
  cases h
  rw [require_ok hl, require_ok hr]
  constructor
  · simp [Expr.sides]
  · simp [Expr.sides]
  · simp [Expr.callbacks]

end Nodes

/-! ## Arguments -/

namespace Arguments

/-- The values of arguments. -/
def values (args : Arguments) : List Value := args.map Prod.snd

theorem mem_values_of_get {args : Arguments} {field : Field} {v : Value}
    (h : args.get field = .ok v) : v ∈ args.values := by
  unfold get at h
  split at h
  · rename_i w hw
    cases h
    obtain ⟨before, after, hargs, _⟩ := List.lookup_eq_some_iff.1 hw
    rw [hargs]
    exact List.mem_map.2 ⟨(field, v), List.mem_append_right _ (List.mem_cons_self ..), rfl⟩
  · cases h

end Arguments

/-! ## Calls -/

/-- How a node is made: not at all, as a bare expression, as a leaf, or from its parts. -/
inductive NodeMade (args : Arguments) : Eval Expr → Prop where
  | refused (fault : Fault) : NodeMade args (Run.fail fault)
  | bare : NodeMade args (do return .bare (← Run.fresh))
  | leaf (rows : Value) (h : rows ∈ args.values ∨ rows = .tuple []) : NodeMade args (Expr.ofItems rows)
  | inner (e : Expr) (h : e.MadeFrom args.values) : NodeMade args (pure e)

theorem nodeMade_ofExcept {args : Arguments} {result : Except Fault Expr}
    (h : ∀ e, result = .ok e → e.MadeFrom args.values) : NodeMade args (Run.ofExcept result) := by
  cases result with
  | error fault => exact .refused fault
  | ok e => exact .inner e (h e rfl)

/-- What is made after a look at the arguments. -/
theorem nodeMade_bind {α : Type} {args : Arguments} {look : Except Fault α} {next : α → Eval Expr}
    (h : ∀ v, look = .ok v → NodeMade args (next v)) :
    NodeMade args (Run.ofExcept look >>= next) := by
  cases look with
  | error fault => exact .refused fault
  | ok v => exact h v rfl

theorem makeNode_made (operator : Operator) (args : Arguments) :
    NodeMade args (makeNode operator args) := by
  have mem : ∀ {field : Field} {v : Value}, args.get field = .ok v → v ∈ args.values :=
    fun h => Arguments.mem_values_of_get h
  cases operator with
  | bare => exact nodeMade_bind fun _ _ => .bare
  | terminal =>
    refine nodeMade_bind fun _ _ => .leaf _ ?_
    unfold Arguments.getD
    cases h : args.lookup .rows with
    -- a leaf that is given no rows is one over an empty tuple
    | none => exact .inr rfl
    | some v =>
      have hg : args.get .rows = .ok v := by rw [Arguments.get, h]
      exact .inl (mem hg)
  | selection =>
    refine nodeMade_bind fun _ _ => nodeMade_bind fun child hc => nodeMade_bind fun predicate hp => ?_
    refine nodeMade_ofExcept fun e he => (makeSelection_parts he).mono ?_
    simp [mem hc, mem hp]
  | projection =>
    refine nodeMade_bind fun _ _ => nodeMade_bind fun child hc => nodeMade_bind fun mapper hf => ?_
    refine nodeMade_ofExcept fun e he => (makeProjection_parts he).mono ?_
    simp [mem hc, mem hf]
  | join =>
    refine nodeMade_bind fun _ _ => nodeMade_bind fun left hl => nodeMade_bind fun right hr => ?_
    refine nodeMade_bind fun predicate hp => nodeMade_bind fun mapper hf => ?_
    refine nodeMade_ofExcept fun e he => (makeJoin_parts he).mono ?_
    simp [mem hl, mem hr, mem hp, mem hf]
  | product =>
    refine nodeMade_bind fun _ _ => nodeMade_bind fun left hl => nodeMade_bind fun right hr => ?_
    refine nodeMade_bind fun mapper hf => nodeMade_ofExcept fun e he => (makeProduct_parts he).mono ?_
    simp [mem hl, mem hr, mem hf]
  | union =>
    refine nodeMade_bind fun _ _ => nodeMade_bind fun left hl => nodeMade_bind fun right hr => ?_
    refine nodeMade_ofExcept fun e he => (makeUnion_parts he).mono ?_
    simp [mem hl, mem hr]
  | filter kind =>
    refine nodeMade_bind fun _ _ => nodeMade_bind fun left hl => nodeMade_bind fun right hr => ?_
    refine nodeMade_ofExcept fun e he => (makeFilter_parts he).mono ?_
    simp [mem hl, mem hr]

/-! ## Builders -/

/-- How an operation makes a builder from another: not at all, from parts at hand, or from parts one of
which is the right side that it takes from a value. -/
inductive BuilderMade (b : Builder) (args : Arguments) : Eval Builder → Prop where
  | refused (fault : Fault) : BuilderMade b args (Run.fail fault)
  | inner (b' : Builder) (h : b'.expression.MadeFrom (.expr b.expression :: args.values)) :
      BuilderMade b args (pure b')
  | joined (right : Value) (next : Expr → Except Fault Builder) (hr : right ∈ args.values)
      (h : ∀ side b', next side = .ok b' →
        b'.expression.MadeFrom (.expr b.expression :: .expr side :: args.values)) :
      BuilderMade b args (Builder.rightSide right >>= fun side => Run.ofExcept (next side))

theorem builderMade_ofExcept {b : Builder} {args : Arguments} {result : Except Fault Builder}
    (h : ∀ b', result = .ok b' → b'.expression.MadeFrom (.expr b.expression :: args.values)) :
    BuilderMade b args (Run.ofExcept result) := by
  cases result with
  | error fault => exact .refused fault
  | ok b' => exact .inner b' (h b' rfl)

theorem builderMade_bind {α : Type} {b : Builder} {args : Arguments} {look : Except Fault α}
    {next : α → Eval Builder} (h : ∀ v, look = .ok v → BuilderMade b args (next v)) :
    BuilderMade b args (Run.ofExcept look >>= next) := by
  cases look with
  | error fault => exact .refused fault
  | ok v => exact h v rfl

/-- A builder over a value is one over its node. -/
theorem builder_make_ok {v : Value} {b : Builder} (h : Builder.make v = .ok b) :
    v = .expr b.expression := by
  obtain ⟨e, he, h⟩ := ok_of_bind h
  cases h
  exact require_ok he

/-- A builder made over a node is one over that node. -/
theorem make_ok {node : Except Fault Expr} {b : Builder}
    (h : (do Builder.make (.expr (← node)) : Except Fault Builder) = .ok b) :
    node = .ok b.expression := by
  obtain ⟨e, he, h⟩ := ok_of_bind h
  cases builder_make_ok h
  exact he

/-- An operation that makes a node of the builder's expression and a right side. -/
theorem builderMade_joined {b : Builder} {args : Arguments} {right : Value} (hr : right ∈ args.values)
    {node : Expr → Except Fault Expr} (h : ∀ side e, node side = .ok e →
      e.MadeFrom (.expr b.expression :: .expr side :: args.values)) :
    BuilderMade b args (do
      let side ← Builder.rightSide right
      let e ← node side
      Builder.make (.expr e)) := by
  -- the two looks that follow the right side are one
  have hj := BuilderMade.joined right (fun side => do Builder.make (.expr (← node side))) hr
    fun side b' hb => h side b'.expression (make_ok hb)
  have hrun : ∀ side, (Run.ofExcept (do Builder.make (.expr (← node side))) : Eval Builder)
      = Run.ofExcept (node side) >>= fun e => Run.ofExcept (Builder.make (.expr e)) := by
    intro side
    cases node side <;> rfl
  rw [funext hrun] at hj
  exact hj

theorem invoke_made (b : Builder) (method : Method) (args : Arguments) :
    BuilderMade b args (b.invoke method args) := by
  have mem : ∀ {field : Field} {v : Value}, args.get field = .ok v → v ∈ args.values :=
    fun h => Arguments.mem_values_of_get h
  cases method with
  | select =>
    refine builderMade_bind fun _ _ => builderMade_bind fun predicate hp => ?_
    refine builderMade_ofExcept fun b' hb => (makeSelection_parts (make_ok hb)).mono ?_
    simp [mem hp]
  | project =>
    refine builderMade_bind fun _ _ => builderMade_bind fun mapper hf => ?_
    refine builderMade_ofExcept fun b' hb => (makeProjection_parts (make_ok hb)).mono ?_
    simp [mem hf]
  | join =>
    refine builderMade_bind fun _ _ => builderMade_bind fun right hr => ?_
    refine builderMade_bind fun predicate hp => builderMade_bind fun mapper hf => ?_
    refine builderMade_joined (mem hr) fun side e he => (makeJoin_parts he).mono ?_
    simp [mem hp, mem hf]
  | product =>
    refine builderMade_bind fun _ _ => builderMade_bind fun right hr => builderMade_bind fun mapper hf => ?_
    refine builderMade_joined (mem hr) fun side e he => (makeProduct_parts he).mono ?_
    simp [mem hf]
  | union =>
    refine builderMade_bind fun _ _ => builderMade_bind fun right hr => ?_
    refine builderMade_joined (mem hr) fun side e he => (makeUnion_parts he).mono ?_
    simp
  | filter kind =>
    refine builderMade_bind fun _ _ => builderMade_bind fun right hr => ?_
    refine builderMade_joined (mem hr) fun side e he => (makeFilter_parts he).mono ?_
    simp

end BagAlgebra
