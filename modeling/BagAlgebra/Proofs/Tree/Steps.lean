/-
Steps of a builder. A callback that accepts the rows it will be given, and uniform rows for a right
side, add an operation to the expression; only a strategy can be refused then, and it is refused exactly
if it is not the name of one.
-/
import BagAlgebra.Builder
import BagAlgebra.Proofs.Row.Uniform
import BagAlgebra.Proofs.Tree.Context

namespace BagAlgebra

/-! ## Strategies -/

theorem Strategy.eq_name {s : String} {strategy : Strategy} (h : ofName? s = some strategy) :
    s = strategy.name := by
  unfold ofName? at h
  split at h
  · cases h
    assumption
  · split at h
    · cases h
      assumption
    · cases h

namespace Expr

theorem requireStrategy_name (operator : Operator) (strategy : Strategy) :
    requireStrategy operator (.text strategy.name) = .ok strategy := by
  cases strategy <;> rfl

/-- A value that is the name of no strategy is refused, with its full form if it has one. -/
theorem requireStrategy_unknown {operator : Operator} {v : Value}
    (h : ∀ strategy : Strategy, v ≠ .text strategy.name) :
    requireStrategy operator v =
      .error (if v.printable then .unknownStrategy operator v.repr else .badValue) := by
  have hnone : v.text?.bind Strategy.ofName? = none := by
    rw [Option.eq_none_iff_forall_not_mem]
    intro strategy hs
    obtain ⟨s, ht, hs⟩ := Option.bind_eq_some_iff.1 hs
    cases v with
    | text t =>
      cases ht
      exact h strategy (congrArg Value.text (Strategy.eq_name hs))
    | _ => cases ht
  rw [requireStrategy, hnone, Value.repr?]
  cases v.printable <;> rfl

end Expr

/-! ## Constructors -/

namespace Expr

variable {left right : Expr} {predicate mapper : Callback}

theorem requireCallback_usable {operator : Operator} {role : Role} {rows : Nat} {f : Callback}
    (h : f.usableOn rows = true) : requireCallback operator role rows (.callable f) = .ok f :=
  if_pos h

theorem makeSelection_usable (h : predicate.usableOn 1 = true) (child : Expr) :
    makeSelection (.expr child) (.callable predicate) = .ok (.selection child predicate) := by
  simp only [makeSelection, requireCallback_usable h]; rfl

theorem makeProjection_usable (h : mapper.usableOn 1 = true) (child : Expr) :
    makeProjection (.expr child) (.callable mapper) = .ok (.projection child mapper) := by
  simp only [makeProjection, requireCallback_usable h]; rfl

theorem makeJoin_usable (hp : predicate.usableOn 2 = true) (hm : mapper.usableOn 2 = true)
    (left right : Expr) :
    makeJoin (.expr left) (.expr right) (.callable predicate) (.callable mapper)
      = .ok (.join left right predicate mapper) := by
  simp only [makeJoin, requireCallback_usable hp, requireCallback_usable hm]; rfl

theorem makeProduct_usable (h : mapper.usableOn 2 = true) (left right : Expr) :
    makeProduct (.expr left) (.expr right) (.callable mapper) = .ok (.product left right mapper) := by
  have hj := makeJoin_usable (rfl : Callback.always.usableOn 2 = true) h left right
  simp only [makeProduct, requireCallback_usable h]
  show (do let _ ← makeJoin (.expr left) (.expr right) _ _; _ : Except Fault Expr) = _
  rw [hj]; rfl

theorem makeUnion_inner (h : left.storedRows? = none ∨ right.storedRows? = none) :
    makeUnion (.expr left) (.expr right) = .ok (.union left right) := by
  show (do compareStored .union left right; _ : Except Fault Expr) = _
  rw [compareStored_of_inner h]; rfl

/-- A filter of which a side is no leaf is refused for its strategy only. -/
theorem makeFilter_inner (kind : FilterKind) (h : left.storedRows? = none ∨ right.storedRows? = none)
    (v : Value) :
    makeFilter kind (.expr left) (.expr right) v
      = (requireStrategy (.filter kind) v).map fun strategy => .filter kind left right strategy := by
  show (do
    let strategy ← requireStrategy (.filter kind) v
    compareStored (.filter kind) left right
    return filter kind left right strategy : Except Fault Expr) = _
  rw [compareStored_of_inner h]
  cases requireStrategy (.filter kind) v <;> rfl

end Expr

/-! ## Builders -/

namespace Builder

variable {ε : Type} {predicate mapper : Callback} {rows : List Value}

theorem fromRows_list (h : Uniform rows) (cell : Option Nat) :
    (fromRows (.list cell rows) : Run ε Builder) = pure ⟨.terminal rows⟩ := by
  rw [fromRows, ofItems_list h, pure_bind]; rfl

theorem rightSide_list (h : Uniform rows) (cell : Option Nat) :
    (rightSide (.list cell rows) : Run ε Expr) = pure (.terminal rows) := ofItems_list h cell

theorem select_usable (h : predicate.usableOn 1 = true) (b : Builder) :
    b.select (.callable predicate) = .ok ⟨.selection b.expression predicate⟩ := by
  rw [select, Expr.makeSelection_usable h]; rfl

theorem project_usable (h : mapper.usableOn 1 = true) (b : Builder) :
    b.project (.callable mapper) = .ok ⟨.projection b.expression mapper⟩ := by
  rw [project, Expr.makeProjection_usable h]; rfl

theorem join_list (h : Uniform rows) (hp : predicate.usableOn 2 = true)
    (hm : mapper.usableOn 2 = true) (b : Builder) (cell : Option Nat) :
    (b.join (.list cell rows) (.callable predicate) (.callable mapper) : Run ε Builder)
      = pure ⟨.join b.expression (.terminal rows) predicate mapper⟩ := by
  rw [join, rightSide_list h, pure_bind, Expr.makeJoin_usable hp hm]; rfl

theorem product_list (h : Uniform rows) (hm : mapper.usableOn 2 = true) (b : Builder)
    (cell : Option Nat) :
    (b.product (.list cell rows) (.callable mapper) : Run ε Builder)
      = pure ⟨.product b.expression (.terminal rows) mapper⟩ := by
  rw [product, rightSide_list h, pure_bind, Expr.makeProduct_usable hm]; rfl

theorem union_list (h : Uniform rows) {b : Builder} (hb : b.expression.storedRows? = none)
    (cell : Option Nat) :
    (b.union (.list cell rows) : Run ε Builder) = pure ⟨.union b.expression (.terminal rows)⟩ := by
  rw [union, rightSide_list h, pure_bind, Expr.makeUnion_inner (.inl hb)]; rfl

theorem filter_list (h : Uniform rows) {b : Builder} (hb : b.expression.storedRows? = none)
    (kind : FilterKind) (cell : Option Nat) (v : Value) :
    (b.filter kind (.list cell rows) v : Run ε Builder)
      = Run.ofExcept ((Expr.requireStrategy (.filter kind) v).map fun strategy =>
        ⟨.filter kind b.expression (.terminal rows) strategy⟩) := by
  rw [filter, rightSide_list h, pure_bind, Expr.makeFilter_inner kind (.inl hb)]
  cases Expr.requireStrategy (.filter kind) v <;> rfl

end Builder

end BagAlgebra
