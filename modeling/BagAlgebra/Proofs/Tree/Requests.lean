/-
Calls of the constructors of nodes with whatever arguments. A constructor checks its arguments in order,
the sides first, then the callbacks or the strategy, and reports the first that fails, under its own name.
Rows are looked at only when all arguments have passed; the join inside a product finds nothing to refuse
that the product has not refused before.
-/
import BagAlgebra.Proofs.Row.Misfit
import BagAlgebra.Proofs.Run.Walks
import BagAlgebra.Proofs.Tree.Checks
import BagAlgebra.Proofs.Tree.Parts

namespace BagAlgebra

/-! ## Requests -/

/-- A call of the constructor of a node, with its arguments. The rows of a terminal and the strategy of a
filter have defaults. -/
inductive Request where
  | bare
  | terminal (rows : Option Value)
  | selection (child predicate : Value)
  | projection (child mapper : Value)
  | join (left right predicate mapper : Value)
  | product (left right mapper : Value)
  | union (left right : Value)
  | filter (kind : FilterKind) (left right : Value) (strategy : Option Value)

namespace Request

def operator : Request → Operator
  | bare => .bare
  | terminal _ => .terminal
  | selection .. => .selection
  | projection .. => .projection
  | join .. => .join
  | product .. => .product
  | union .. => .union
  | filter kind _ _ _ => .filter kind

def arguments : Request → Arguments
  | bare => []
  | terminal rows => rows.toList.map (Field.rows, ·)
  | selection child predicate => [(.child, child), (.predicate, predicate)]
  | projection child mapper => [(.child, child), (.mapper, mapper)]
  | join left right predicate mapper =>
    [(.left, left), (.right, right), (.predicate, predicate), (.mapper, mapper)]
  | product left right mapper => [(.left, left), (.right, right), (.mapper, mapper)]
  | union left right => [(.left, left), (.right, right)]
  | filter _ left right strategy =>
    [(.left, left), (.right, right)] ++ strategy.toList.map (Field.strategy, ·)

/-- The call. -/
def make (r : Request) : Eval Expr := makeNode r.operator r.arguments

/-- The checks of the arguments, in order. -/
def checks : Request → List Check
  | bare => []
  | terminal _ => []
  | selection child predicate => [.side .child child, .callback .predicate predicate 1]
  | projection child mapper => [.side .child child, .callback .mapper mapper 1]
  | join left right predicate mapper =>
    [.side .left left, .side .right right, .callback .predicate predicate 2, .callback .mapper mapper 2]
  | product left right mapper =>
    [.side .left left, .side .right right, .callback .mapper mapper 2]
  | union left right => [.side .left left, .side .right right]
  | filter _ left right strategy =>
    [.side .left left, .side .right right, .strategy (strategy.getD defaultStrategy)]

/-- All parameter lists in the arguments can be written. -/
def Grammatical (r : Request) : Prop := ∀ c ∈ r.checks, c.Grammatical

/-- The call is one that looks at rows. -/
def LooksAtRows : Request → Prop
  | terminal _ => True
  | union .. => True
  | filter .. => True
  | _ => False

/-- What can come of a call after its arguments have passed: only rows can be refused, where they are looked
at, and not as an argument. -/
def Proceeds (r : Request) (made : Except Fault Expr) : Prop :=
  ∀ fault, made = .error fault → r.LooksAtRows ∧ fault.kind ≠ .expression

end Request

/-! ## Constructors -/

/-- A shape is refused, and that is no fault of an argument. -/
theorem compareStored_kind {operator : Operator} {left right : Expr} {fault : Fault}
    (h : Expr.compareStored operator left right = .error fault) : fault.kind ≠ .expression := by
  obtain ⟨lefts, rights, -, -, hs⟩ := compareStored_error h
  obtain hk | ⟨rfl, -⟩ := sharedShapeFault?_kind (requireSharedShape_error_iff.1 hs)
  · rw [hk]
    decide
  · decide

section Constructors

variable {child left right predicate mapper : Value}

theorem makeSelection_vetted (hp : (Check.callback .predicate predicate 1).Grammatical) :
    let r := Request.selection child predicate
    Vetted r.operator r.checks r.Proceeds (Expr.makeSelection child predicate) :=
  (vets_side _ _ child).bind fun _ _ => (vets_callback _ _ hp).bind fun _ _ =>
    vetted_nil fun _ h => nomatch h

theorem makeProjection_vetted (hm : (Check.callback .mapper mapper 1).Grammatical) :
    let r := Request.projection child mapper
    Vetted r.operator r.checks r.Proceeds (Expr.makeProjection child mapper) :=
  (vets_side _ _ child).bind fun _ _ => (vets_callback _ _ hm).bind fun _ _ =>
    vetted_nil fun _ h => nomatch h

theorem makeJoin_vetted (hp : (Check.callback .predicate predicate 2).Grammatical)
    (hm : (Check.callback .mapper mapper 2).Grammatical) :
    let r := Request.join left right predicate mapper
    Vetted r.operator r.checks r.Proceeds (Expr.makeJoin left right predicate mapper) :=
  (vets_side _ _ left).bind fun _ _ => (vets_side _ _ right).bind fun _ _ =>
    (vets_callback _ _ hp).bind fun _ _ => (vets_callback _ _ hm).bind fun _ _ =>
      vetted_nil fun _ h => nomatch h

/-- The join inside a product is made of arguments that have passed. -/
theorem makeProduct_vetted (hm : (Check.callback .mapper mapper 2).Grammatical) :
    let r := Request.product left right mapper
    Vetted r.operator r.checks r.Proceeds (Expr.makeProduct left right mapper) := by
  refine (vets_side _ _ left).bind fun l _ => (vets_side _ _ right).bind fun r _ =>
    (vets_callback _ _ hm).bind fun f hf => vetted_nil fun fault h => ?_
  have hj := Expr.makeJoin_usable (rfl : Callback.always.usableOn 2 = true) (requireCallback_ok hf).2 l r
  rw [hj] at h
  cases h

theorem makeUnion_vetted :
    let r := Request.union left right
    Vetted r.operator r.checks r.Proceeds (Expr.makeUnion left right) := by
  refine (vets_side _ _ left).bind fun l _ => (vets_side _ _ right).bind fun r _ =>
    vetted_nil fun fault h => ⟨trivial, ?_⟩
  obtain h | ⟨_, _, h⟩ := error_of_bind h
  · exact compareStored_kind h
  · cases h

theorem makeFilter_vetted (kind : FilterKind) (strategy : Option Value) :
    let r := Request.filter kind left right strategy
    Vetted r.operator r.checks r.Proceeds
      (Expr.makeFilter kind left right (strategy.getD defaultStrategy)) := by
  refine (vets_side _ _ left).bind fun l _ => (vets_side _ _ right).bind fun r _ =>
    (vets_strategy _ _).bind fun s _ => vetted_nil fun fault h => ⟨trivial, ?_⟩
  obtain h | ⟨_, _, h⟩ := error_of_bind h
  · exact compareStored_kind h
  · cases h

end Constructors

/-! ## Leaves -/

section Leaves

variable {store : Store} {fault : Fault}

theorem drawEach_pure (serial : Nat) (items : List Value) (store : Store) :
    ((Value.drawEach serial pure items : Eval (List Value)) store).result = .ok items := by
  have kept : items.mapM (fun v => (.ok v : Except Fault Value)) = .ok (items.map id) := mapM_ok fun _ _ => rfl
  rw [List.map_id] at kept
  exact (result_drawEach serial .ok items store).trans kept

theorem forEach_pure_kind {v : Value}
    (h : ((v.forEach pure : Eval (List Value)) store).result = .error fault) :
    fault.kind ≠ .expression := by
  have stored : ∀ items : List Value,
      ((items.mapM pure : Eval (List Value)) store).result ≠ .error fault := by
    intro items
    rw [List.mapM_pure]
    exact fun h => nomatch h
  cases v with
  | generator serial items =>
    change ((Run.drawn serial >>= fun count =>
      Value.drawEach serial pure (items.drop count) : Eval (List Value)) store).result = _ at h
    rw [Run.result_then] at h
    cases (drawEach_pure _ _ _).symm.trans h
  | text | tuple | list | dict | range => exact absurd h (stored _)
  | _ =>
    cases h
    decide

/-- Items are refused for what holds them, and not as an argument. -/
theorem collect_kind {v : Value} (h : ((v.collect : Eval (List Value)) store).result = .error fault) :
    fault.kind ≠ .expression := by
  cases v with
  | range span =>
    unfold Value.collect at h
    dsimp only at h
    split at h
    · cases h
      decide
    · split at h
      · cases h
        decide
      · cases h
  | _ => exact forEach_pure_kind h

theorem ofItems_kind {v : Value} (h : ((Expr.ofItems v : Eval Expr) store).result = .error fault) :
    fault.kind ≠ .expression := by
  rw [Expr.ofItems, Run.result_then] at h
  obtain h | ⟨rows, -, h⟩ := error_of_bind h
  · exact collect_kind h
  · obtain hk | ⟨rfl, -⟩ := mixture?_kind (ofRows_error_iff.1 h)
    · rw [hk]
      decide
    · decide

end Leaves

/-! ## Calls -/

theorem make_vetted {r : Request} (hg : r.Grammatical) (store : Store) :
    Vetted r.operator r.checks r.Proceeds (r.make store).result := by
  cases r with
  | bare => exact vetted_nil fun _ h => nomatch h
  | terminal rows =>
    refine vetted_nil fun fault h => ⟨trivial, ?_⟩
    cases rows <;> exact ofItems_kind h
  | selection child predicate => exact makeSelection_vetted (hg _ (by simp [Request.checks]))
  | projection child mapper => exact makeProjection_vetted (hg _ (by simp [Request.checks]))
  | join left right predicate mapper =>
    exact makeJoin_vetted (hg _ (by simp [Request.checks])) (hg _ (by simp [Request.checks]))
  | product left right mapper => exact makeProduct_vetted (hg _ (by simp [Request.checks]))
  | union left right => exact makeUnion_vetted
  | filter kind left right strategy =>
    cases strategy <;> exact makeFilter_vetted kind _

/-- What the outcome of a call says about its arguments. -/
structure Request.Reports (r : Request) (made : Except Fault Expr) : Prop where
  /-- The first argument that fails its check is reported, by the name of the operator and its own. Where the
  report would show a value that has no shown form, a bad value is reported in its place. -/
  first : ∀ c, FirstBad r.checks c → made = .error (c.fault r.operator) ∧
    (c.Shown → (c.fault r.operator).kind = .expression ∧ ∃ words,
      (c.fault r.operator).message? = some (r.operator.name ++ ": " ++ c.subject ++ words)) ∧
    (¬ c.Shown → c.fault r.operator = .badValue)
  /-- An argument is reported exactly if one fails its check and the first that does can be shown. -/
  expression : (∃ fault, made = .error fault ∧ fault.kind = .expression) ↔
    ∃ c, FirstBad r.checks c ∧ c.Shown
  /-- Shapes are reported only after all arguments have passed. -/
  schema : ∀ fault, made = .error fault → fault.kind = .schema → ∀ c ∈ r.checks, c.Passes
  /-- Where all arguments pass and no rows are looked at, the node is made. -/
  complete : (∀ c ∈ r.checks, c.Passes) → r.LooksAtRows ∨ ∃ tree, made = .ok tree
  /-- A callback is refused for its parameters only if they can be inspected and do not take the rows. -/
  arity : ∀ operator role header rows, made = .error (.badArity operator role header rows) →
    operator = r.operator ∧ ∃ f params, .callback role (.callable f) rows ∈ r.checks ∧
      f.params? = some params ∧ ¬ Param.Takes params rows

section Reports

variable {r : Request} {made : Except Fault Expr}
  (h : Vetted r.operator r.checks r.Proceeds made) {fault : Fault} (hm : made = .error fault)

include h hm

/-- A reported argument is that of the first check that fails. -/
theorem Vetted.first_of_expression (hk : fault.kind = .expression) :
    ∃ c, FirstBad r.checks c ∧ c.Shown ∧ fault = c.fault r.operator := by
  obtain ⟨c, hc⟩ | hp := firstBad_or_pass r.checks
  · cases hm.symm.trans (h.first c hc)
    by_cases hs : c.Shown
    · exact ⟨c, hc, hs, rfl⟩
    · rw [Check.fault_unshown hs] at hk
      cases hk
  · exact absurd hk (h.pass hp fault hm).2

theorem Vetted.pass_of_schema (hk : fault.kind = .schema) : ∀ c ∈ r.checks, c.Passes := by
  obtain ⟨c, hc⟩ | hp := firstBad_or_pass r.checks
  · cases hm.symm.trans (h.first c hc)
    by_cases hs : c.Shown
    · rw [(Check.fault_shown hs _).1] at hk
      cases hk
    · rw [Check.fault_unshown hs] at hk
      cases hk
  · exact hp

end Reports

theorem Vetted.reports {r : Request} {made : Except Fault Expr}
    (h : Vetted r.operator r.checks r.Proceeds made) : r.Reports made where
  first c hc :=
    ⟨h.first c hc, fun hs => Check.fault_shown hs _, fun hs => Check.fault_unshown hs _⟩
  expression := by
    constructor
    · rintro ⟨fault, hm, hk⟩
      obtain ⟨c, hc, hs, -⟩ := h.first_of_expression hm hk
      exact ⟨c, hc, hs⟩
    · rintro ⟨c, hc, hs⟩
      exact ⟨_, h.first c hc, (Check.fault_shown hs _).1⟩
  schema _ hm hk := h.pass_of_schema hm hk
  complete hp := by
    cases hm : made with
    | ok tree => exact .inr ⟨tree, rfl⟩
    | error fault => exact .inl (h.pass hp fault hm).1
  arity operator role header rows hm := by
    obtain ⟨c, hc, hs, hf⟩ := h.first_of_expression hm rfl
    obtain ⟨rfl, f, rfl⟩ := Check.arity_of_fault hs hf.symm
    obtain ⟨hmem, hfail⟩ := hc.fails
    obtain ⟨params, hp, ht⟩ := Check.params_of_fails hfail
    exact ⟨rfl, f, params, hmem, hp, ht⟩

/-- Every call of a constructor reports the first of its arguments that is not usable, and no other. -/
theorem request_reports {r : Request} (hg : r.Grammatical) (store : Store) :
    r.Reports (r.make store).result :=
  (make_vetted hg store).reports

/-- A product of which the mapper has a named parameter without a default. -/
theorem request_reports_named :
    let mapper : Callback := .function ⟨0, .named, "<lambda>"⟩
      [.required "l", .positionalMark, .defaulted "r" 0, .rest "rest", .required "key"] (.argument "l")
      [.null]
    let r : Request := .product (.expr (.terminal [])) (.expr (.terminal [.int 1])) (.callable mapper)
    r.Grammatical ∧ (r.make .empty).result =
      .error (.badArity .product .mapper "λ(l, /, r=None, *rest, key)" 2) := by
  intro mapper r
  have hparams : Param.Grammatical [.required "l", .positionalMark, .defaulted "r" 0, .rest "rest",
      .required "key"] :=
    ⟨by simp [Param.positional, Param.isRequired], by simp [Param.namedOnly, Param.isRest]⟩
  have hg : r.Grammatical := by
    refine List.forall_mem_cons.2 ⟨trivial, List.forall_mem_cons.2 ⟨trivial,
      List.forall_mem_singleton.2 ?_⟩⟩
    rintro _ ⟨⟩
    exact hparams
  have hbad : ¬ (Check.callback .mapper (.callable mapper) 2).Passes := by
    rintro ⟨_, ⟨⟩, ht⟩
    cases (Param.accepts_iff_takes hparams).2 (ht _ rfl)
  exact ⟨hg, ((request_reports hg .empty).first _ (.later ⟨_, rfl⟩ (.later ⟨_, rfl⟩ (.here hbad)))).1⟩

/-- A strategy with too many digits to be shown is refused, but not as an argument. -/
theorem strategy_unshown :
    let v : Value := .int (Nat.pow 10 Numeral.digitLimit : Nat)
    let r : Request := .filter .intersection (.expr (.terminal [])) (.expr (.terminal [])) (some v)
    FirstBad r.checks (.strategy v) ∧ (r.make .empty).result = .error .badValue ∧
      Fault.badValue.kind ≠ .expression := by
  intro v r
  have hbad : FirstBad r.checks (.strategy v) := by
    refine .later ⟨_, rfl⟩ (.later ⟨_, rfl⟩ (.here ?_))
    rintro ⟨s, hs⟩
    cases hs
  have hg : r.Grammatical := by
    refine List.forall_mem_cons.2 ⟨trivial, List.forall_mem_cons.2 ⟨trivial,
      List.forall_mem_singleton.2 trivial⟩⟩
  have hs : ¬ (Check.strategy v).Shown := by
    show ¬ v.printable = true
    rw [Value.printable, fits_of_le (Nat.le_refl _)]
    decide
  refine ⟨hbad, ?_, by decide⟩
  rw [(make_vetted hg .empty).first _ hbad, Check.fault_unshown hs]

end BagAlgebra
