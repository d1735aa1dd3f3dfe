/-
Trees with a hole. A context is a path of nodes around the hole, each given without the side that the
path comes from; to build it around an expression is to call the constructors of these nodes from the
inside out. A constructor looks at the expression in the hole only where two leaves meet under one
operator, so around the innermost node it does not matter what the hole holds.
-/
import BagAlgebra.Expr.Eval
import BagAlgebra.Proofs.Run.Answers

namespace BagAlgebra

/-- A node without one of its sides. -/
inductive Frame where
  | selection (predicate : Callback)
  | projection (mapper : Callback)
  | joinLeft (right : Expr) (predicate mapper : Callback)
  | joinRight (left : Expr) (predicate mapper : Callback)
  | productLeft (right : Expr) (mapper : Callback)
  | productRight (left : Expr) (mapper : Callback)
  | unionLeft (right : Expr)
  | unionRight (left : Expr)
  | filterLeft (kind : FilterKind) (right : Expr) (strategy : Strategy)
  | filterRight (kind : FilterKind) (left : Expr) (strategy : Strategy)

namespace Frame

/-- The node with the missing side put in. -/
def fill : Frame → Expr → Expr
  | .selection predicate, e => .selection e predicate
  | .projection mapper, e => .projection e mapper
  | .joinLeft right predicate mapper, e => .join e right predicate mapper
  | .joinRight left predicate mapper, e => .join left e predicate mapper
  | .productLeft right mapper, e => .product e right mapper
  | .productRight left mapper, e => .product left e mapper
  | .unionLeft right, e => .union e right
  | .unionRight left, e => .union left e
  | .filterLeft kind right strategy, e => .filter kind e right strategy
  | .filterRight kind left strategy, e => .filter kind left e strategy

/-- The call of the node's constructor. -/
def build : Frame → Expr → Except Fault Expr
  | .selection predicate, e => Expr.makeSelection (.expr e) (.callable predicate)
  | .projection mapper, e => Expr.makeProjection (.expr e) (.callable mapper)
  | .joinLeft right predicate mapper, e =>
    Expr.makeJoin (.expr e) (.expr right) (.callable predicate) (.callable mapper)
  | .joinRight left predicate mapper, e =>
    Expr.makeJoin (.expr left) (.expr e) (.callable predicate) (.callable mapper)
  | .productLeft right mapper, e => Expr.makeProduct (.expr e) (.expr right) (.callable mapper)
  | .productRight left mapper, e => Expr.makeProduct (.expr left) (.expr e) (.callable mapper)
  | .unionLeft right, e => Expr.makeUnion (.expr e) (.expr right)
  | .unionRight left, e => Expr.makeUnion (.expr left) (.expr e)
  | .filterLeft kind right strategy, e =>
    Expr.makeFilter kind (.expr e) (.expr right) (.text strategy.name)
  | .filterRight kind left strategy, e =>
    Expr.makeFilter kind (.expr left) (.expr e) (.text strategy.name)

/-- The look that the constructor takes at the side put in. -/
def compare : Frame → Expr → Except Fault Unit
  | .unionLeft right, e => Expr.compareStored .union e right
  | .unionRight left, e => Expr.compareStored .union left e
  | .filterLeft kind right _, e => Expr.compareStored (.filter kind) e right
  | .filterRight kind left _, e => Expr.compareStored (.filter kind) left e
  | _, _ => .ok ()

end Frame

/-- The nodes around a hole, the innermost first. -/
abbrev Context := List Frame

namespace Context

/-- The tree with the hole filled. -/
def fill (C : Context) (e : Expr) : Expr := C.foldl (fun e frame => frame.fill e) e

/-- The calls of the constructors of the nodes, the innermost first. -/
def build (C : Context) (e : Expr) : Except Fault Expr := C.foldlM (fun e frame => frame.build e) e

end Context

/-! ## What a constructor makes of a side -/

theorem makeFilter_expr (kind : FilterKind) (left right : Expr) (strategy : Strategy) :
    Expr.makeFilter kind (.expr left) (.expr right) (.text strategy.name) = do
      Expr.compareStored (.filter kind) left right
      return .filter kind left right strategy := by
  cases strategy <;> rfl

/-- Only two leaves are compared when a node is built. -/
theorem compareStored_of_inner {operator : Operator} {left right : Expr}
    (h : left.storedRows? = none ∨ right.storedRows? = none) :
    Expr.compareStored operator left right = .ok () := by
  unfold Expr.compareStored
  split
  · rename_i hl hr
    rcases h with h | h
    · rw [h] at hl
      cases hl
    · rw [h] at hr
      cases hr
  · rfl

/-- Where a comparison of stored rows fails, both sides are leaves, and their rows are refused. -/
theorem compareStored_error {operator : Operator} {left right : Expr} {fault : Fault}
    (h : Expr.compareStored operator left right = .error fault) :
    ∃ lefts rights, left = .terminal lefts ∧ right = .terminal rights ∧
      requireSharedShape operator lefts rights = .error fault := by
  cases left with
  | terminal lefts =>
    cases right with
    | terminal rights => exact ⟨lefts, rights, rfl, rfl, h⟩
    | _ => cases h
  | _ => cases h

/-- A callback is taken, or refused, whatever the rows will be. -/
theorem requireCallback_callable (operator : Operator) (role : Role) (rows : Nat) (f : Callback) :
    Expr.requireCallback operator role rows (.callable f) = .ok f ∨
      ∃ fault, Expr.requireCallback operator role rows (.callable f) = .error fault := by
  unfold Expr.requireCallback
  split
  · rename_i g heq
    cases heq
    by_cases hu : f.usableOn rows = true
    · exact .inl (if_pos hu)
    · rw [if_neg hu]
      cases f.header? with
      | error fault => exact .inr ⟨fault, rfl⟩
      | ok shown => exact .inr ⟨_, rfl⟩
  · rename_i h
    exact absurd rfl (h f)

theorem makeJoin_expr (predicate mapper : Callback) :
    (∀ left right, ∃ fault, Expr.makeJoin (.expr left) (.expr right) (.callable predicate)
        (.callable mapper) = .error fault) ∨
      ∀ left right, Expr.makeJoin (.expr left) (.expr right) (.callable predicate)
        (.callable mapper) = .ok (.join left right predicate mapper) := by
  rcases requireCallback_callable .join .predicate 2 predicate with hp | ⟨fault, hp⟩
  · rcases requireCallback_callable .join .mapper 2 mapper with hm | ⟨fault, hm⟩
    · refine .inr fun left right => ?_
      simp only [Expr.makeJoin, hp, hm]; rfl
    · refine .inl fun left right => ⟨fault, ?_⟩
      simp only [Expr.makeJoin, hp, hm]; rfl
  · refine .inl fun left right => ⟨fault, ?_⟩
    simp only [Expr.makeJoin, hp]; rfl

theorem makeProduct_expr (mapper : Callback) :
    (∀ left right, ∃ fault, Expr.makeProduct (.expr left) (.expr right) (.callable mapper)
        = .error fault) ∨
      ∀ left right, Expr.makeProduct (.expr left) (.expr right) (.callable mapper)
        = .ok (.product left right mapper) := by
  rcases requireCallback_callable .product .mapper 2 mapper with hm | ⟨fault, hm⟩
  · rcases makeJoin_expr .always mapper with hj | hj
    · refine .inl fun left right => ?_
      obtain ⟨fault, hj⟩ := hj left right
      refine ⟨fault, ?_⟩
      simp only [Expr.makeProduct, hm]
      show (do let _ ← Expr.makeJoin (.expr left) (.expr right) _ _; _ : Except Fault Expr) = _
      rw [hj]; rfl
    · refine .inr fun left right => ?_
      simp only [Expr.makeProduct, hm]
      show (do let _ ← Expr.makeJoin (.expr left) (.expr right) _ _; _ : Except Fault Expr) = _
      rw [hj]; rfl
  · refine .inl fun left right => ⟨fault, ?_⟩
    simp only [Expr.makeProduct, hm]; rfl

namespace Frame

/-- A constructor refuses its other parts, or it makes the node of whatever passes its comparison. -/
theorem build_cases (frame : Frame) :
    (∀ e, ∃ fault, frame.build e = .error fault) ∨
      ∀ e, frame.build e = do frame.compare e; return frame.fill e := by
  cases frame with
  | selection predicate =>
    rcases requireCallback_callable .selection .predicate 1 predicate with h | ⟨fault, h⟩
    · refine .inr fun e => ?_
      simp only [build, Expr.makeSelection, h]; rfl
    · refine .inl fun e => ⟨fault, ?_⟩
      simp only [build, Expr.makeSelection, h]; rfl
  | projection mapper =>
    rcases requireCallback_callable .projection .mapper 1 mapper with h | ⟨fault, h⟩
    · refine .inr fun e => ?_
      simp only [build, Expr.makeProjection, h]; rfl
    · refine .inl fun e => ⟨fault, ?_⟩
      simp only [build, Expr.makeProjection, h]; rfl
  | joinLeft right predicate mapper =>
    exact (makeJoin_expr predicate mapper).imp (fun h e => h e right) fun h e => h e right
  | joinRight left predicate mapper =>
    exact (makeJoin_expr predicate mapper).imp (fun h e => h left e) fun h e => h left e
  | productLeft right mapper =>
    exact (makeProduct_expr mapper).imp (fun h e => h e right) fun h e => h e right
  | productRight left mapper =>
    exact (makeProduct_expr mapper).imp (fun h e => h left e) fun h e => h left e
  | unionLeft right => exact .inr fun e => rfl
  | unionRight left => exact .inr fun e => rfl
  | filterLeft kind right strategy => exact .inr fun e => makeFilter_expr kind e right strategy
  | filterRight kind left strategy => exact .inr fun e => makeFilter_expr kind left e strategy

theorem build_ok {frame : Frame} {e t : Expr} (h : frame.build e = .ok t) :
    t = frame.fill e ∧ frame.compare e = .ok () := by
  rcases frame.build_cases with hb | hb
  · obtain ⟨fault, hf⟩ := hb e
    rw [hf] at h
    cases h
  · rw [hb] at h
    obtain ⟨_, hc, h⟩ := ok_of_bind h
    cases h
    exact ⟨rfl, hc⟩

/-- What is built around one expression is built around any other that passes the comparison. -/
theorem build_of_compare {frame : Frame} {e e' t : Expr} (h : frame.build e = .ok t)
    (hc : frame.compare e' = .ok ()) : frame.build e' = .ok (frame.fill e') := by
  rcases frame.build_cases with hb | hb
  · obtain ⟨fault, hf⟩ := hb e
    rw [hf] at h
    cases h
  · rw [hb, hc]; rfl

theorem compare_of_inner (frame : Frame) {e : Expr} (h : e.storedRows? = none) :
    frame.compare e = .ok () := by
  cases frame with
  | unionLeft right => exact compareStored_of_inner (.inl h)
  | unionRight left => exact compareStored_of_inner (.inr h)
  | filterLeft kind right strategy => exact compareStored_of_inner (.inl h)
  | filterRight kind left strategy => exact compareStored_of_inner (.inr h)
  | _ => rfl

theorem storedRows?_fill (frame : Frame) (e : Expr) : (frame.fill e).storedRows? = none := by
  cases frame <;> rfl

end Frame

/-! ## What a context makes of an expression -/

namespace Context

theorem build_cons (frame : Frame) (C : Context) (e : Expr) :
    build (frame :: C) e = frame.build e >>= C.build := List.foldlM_cons ..

theorem build_ok {C : Context} {e t : Expr} (h : C.build e = .ok t) : t = C.fill e := by
  induction C generalizing e with
  | nil =>
    cases h
    rfl
  | cons frame C ih =>
    rw [build_cons] at h
    obtain ⟨t', ht, h⟩ := ok_of_bind h
    rw [(Frame.build_ok ht).1] at h
    exact ih h

/-- What is built around one expression is built around any other that passes all comparisons that the
first does. -/
theorem build_of_compare {C : Context} {e e' t : Expr} (h : C.build e = .ok t)
    (hc : ∀ frame : Frame, frame.compare e = .ok () → frame.compare e' = .ok ()) :
    C.build e' = .ok (C.fill e') := by
  induction C generalizing e e' with
  | nil => rfl
  | cons frame C ih =>
    rw [build_cons] at h ⊢
    obtain ⟨t', ht, h⟩ := ok_of_bind h
    obtain ⟨rfl, hf⟩ := Frame.build_ok ht
    rw [Frame.build_of_compare ht (hc frame hf)]
    -- further out the hole holds a node, which no constructor looks at
    exact ih h fun outer _ => outer.compare_of_inner (frame.storedRows?_fill e')

end Context

end BagAlgebra
