/-
Unions of several expressions. A union compares the rows of its two sides only, yet the comparisons in a
nest of unions come to one condition, that the rows of all sides together are uniform. So it does not
matter how the unions are nested, and a side without rows changes nothing where the others are uniform.
-/
import BagAlgebra.Proofs.Eval.Compared

namespace BagAlgebra

/-- Expressions united two by two, in any nesting. -/
inductive Nest where
  | side (e : Expr)
  | union (left right : Nest)

namespace Nest

/-- The calls of the constructors, those of the left side first. -/
def build : Nest → Except Fault Expr
  | side e => .ok e
  | union l r => do
    let left ← l.build
    let right ← r.build
    Expr.makeUnion (.expr left) (.expr right)

/-- The tree of a nest that is built. -/
def tree : Nest → Expr
  | side e => e
  | union l r => .union l.tree r.tree

/-- The expressions in a nest, in order. -/
def sides : Nest → List Expr
  | side e => [e]
  | union l r => l.sides ++ r.sides

/-- There are two sides at least. -/
def Joined : Nest → Prop
  | side _ => False
  | union .. => True

theorem joined_of_two {n : Nest} {e e' : Expr} {es : List Expr} (h : n.sides = e :: e' :: es) :
    n.Joined := by
  cases n with
  | side _ => cases h
  | union => trivial

theorem build_ok {n : Nest} {e : Expr} (h : n.build = .ok e) : e = n.tree := by
  induction n generalizing e with
  | side _ =>
    cases h
    rfl
  | union l r ihl ihr =>
    obtain ⟨left, hl, h⟩ := ok_of_bind h
    obtain ⟨right, hr, h⟩ := ok_of_bind h
    rw [ihl hl, ihr hr] at h
    exact Comparing.union.make_ok h

/-- A nest that could be evaluated can be built. -/
theorem build_of_ok {n : Nest} {store : Store} {rows : List Value}
    (h : (n.tree.eval store).result = .ok rows) : n.build = .ok n.tree := by
  induction n generalizing store rows with
  | side _ => rfl
  | union l r ihl ihr =>
    obtain ⟨_, _, hl, hr, -⟩ := (Comparing.union.node_ok_iff _ _).1 h
    rw [build, ihl hl, ok_bind, ihr hr, ok_bind]
    exact Comparing.union.make_of_ok h

theorem buildThenEval_build {n : Nest} {store : Store} {rows : List Value} :
    buildThenEval n.build store = .ok rows ↔ (n.tree.eval store).result = .ok rows := by
  constructor
  · intro h
    obtain ⟨e, he, h⟩ := ok_of_bind h
    rw [build_ok he] at h
    exact h
  · intro h
    rw [buildThenEval, build_of_ok h]
    exact h

end Nest

/-! ## One side after the other -/

/-- The rows of expressions that are evaluated one after the other, and the store in the end. -/
inductive InTurn : List Expr → Store → List (List Value) → Store → Prop where
  | nil {store : Store} : InTurn [] store [] store
  | cons {e : Expr} {es : List Expr} {store after : Store} {rows : List Value}
      {parts : List (List Value)} (h : (e.eval store).result = .ok rows)
      (rest : InTurn es (e.eval store).store parts after) : InTurn (e :: es) store (rows :: parts) after

namespace InTurn

variable {es es' : List Expr} {store mid after : Store} {parts parts' : List (List Value)}

theorem append (h : InTurn es store parts mid) (h' : InTurn es' mid parts' after) :
    InTurn (es ++ es') store (parts ++ parts') after := by
  induction h with
  | nil => exact h'
  | cons hrows _ ih => exact .cons hrows (ih h')

theorem split (h : InTurn (es ++ es') store parts after) :
    ∃ first second mid, InTurn es store first mid ∧ InTurn es' mid second after ∧
      parts = first ++ second := by
  induction es generalizing store parts with
  | nil => exact ⟨[], parts, store, .nil, h, rfl⟩
  | cons e es ih =>
    cases h with
    | cons hrows rest =>
      obtain ⟨first, second, mid, hf, hs, rfl⟩ := ih rest
      exact ⟨_ :: first, second, mid, .cons hrows hf, hs, rfl⟩

/-- What stable expressions give in turn is what each gives by itself. -/
theorem iff_gives (hs : ∀ e ∈ es, e.eval.Stable) :
    (∃ after, InTurn es store parts after) ↔
      List.Forall₂ (fun e rows => e.eval.Gives (.ok rows)) es parts := by
  constructor
  · rintro ⟨after, h⟩
    induction h with
    | nil => exact .nil
    | cons hrows _ ih =>
      obtain ⟨he, hes⟩ := List.forall_mem_cons.1 hs
      exact .cons (fun store' => (he store' _).trans hrows) (ih hes)
  · intro h
    clear hs
    induction h generalizing store with
    | nil => exact ⟨store, .nil⟩
    | cons hrows _ ih =>
      obtain ⟨after, h⟩ := ih
      exact ⟨after, .cons (hrows _) h⟩

end InTurn

/-! ## Nests of unions -/

namespace Nest

variable {n : Nest} {store after : Store} {rows : List Value} {parts : List (List Value)}

/-- The rows of a nest are those of its sides, which are uniform together. -/
theorem inTurn_of_ok (h : (n.tree.eval store).result = .ok rows) :
    ∃ parts, InTurn n.sides store parts (n.tree.eval store).store ∧
      (n.Joined → Uniform parts.flatten) ∧ rows = parts.flatten := by
  induction n generalizing store rows with
  | side e => exact ⟨[rows], .cons h .nil, False.elim, List.flatten_singleton.symm⟩
  | union l r ihl ihr =>
    obtain ⟨lefts, rights, hl, hr, hu, rfl⟩ := (Comparing.union.node_ok_iff _ _).1 h
    obtain ⟨first, hf, -, rfl⟩ := ihl hl
    obtain ⟨second, hs, -, rfl⟩ := ihr hr
    have hstore := Comparing.union.store_node h
    refine ⟨first ++ second, ?_, fun _ => ?_, List.flatten_append.symm⟩
    · exact hstore ▸ hf.append hs
    · exact List.flatten_append ▸ hu

/-- The sides of a nest inside a nest are uniform together because all sides are. -/
theorem ok_of_inTurn (h : InTurn n.sides store parts after) (hu : n.Joined → Uniform parts.flatten) :
    (n.tree.eval store).result = .ok parts.flatten ∧ (n.tree.eval store).store = after := by
  induction n generalizing store parts after with
  | side e =>
    cases h with
    | cons hrows rest =>
      cases rest
      exact ⟨hrows.trans (congrArg Except.ok List.flatten_singleton.symm), rfl⟩
  | union l r ihl ihr =>
    have hall : Uniform parts.flatten := hu trivial
    obtain ⟨first, second, mid, hf, hs, rfl⟩ := h.split
    rw [List.flatten_append] at hall ⊢
    obtain ⟨hl, hmid⟩ := ihl hf fun _ => hall.subset (List.subset_append_left ..)
    subst hmid
    obtain ⟨hr, hafter⟩ := ihr hs fun _ => hall.subset (List.subset_append_right ..)
    have hn : ((Nest.union l r).tree.eval store).result = .ok (first.flatten ++ second.flatten) :=
      (Comparing.union.node_ok_iff _ _).2 ⟨_, _, hl, hr, hall, rfl⟩
    exact ⟨hn, (Comparing.union.store_node hn).trans hafter⟩

/-- A nest over sides that do not depend on the store: what it comes to is up to the sides in order, and not
to the nesting. -/
theorem build_iff (hj : n.Joined) (hs : ∀ e ∈ n.sides, e.eval.Stable) :
    buildThenEval n.build store = .ok rows ↔
      ∃ parts, List.Forall₂ (fun e rows => e.eval.Gives (.ok rows)) n.sides parts ∧
        Uniform parts.flatten ∧ rows = parts.flatten := by
  rw [buildThenEval_build]
  constructor
  · intro h
    obtain ⟨parts, ht, hu, rfl⟩ := inTurn_of_ok h
    exact ⟨parts, (InTurn.iff_gives hs).1 ⟨_, ht⟩, hu hj, rfl⟩
  · rintro ⟨parts, hg, hu, rfl⟩
    have hturn : ∃ after, InTurn n.sides store parts after := (InTurn.iff_gives hs).2 hg
    obtain ⟨after, ht⟩ := hturn
    exact (ok_of_inTurn ht fun _ => hu).1

theorem build_three_iff {a b c : Expr} (hn : n.sides = [a, b, c]) (ha : a.eval.Stable)
    (hb : b.eval.Stable) (hc : c.eval.Stable) :
    buildThenEval n.build store = .ok rows ↔
      ∃ as bs cs, a.eval.Gives (.ok as) ∧ b.eval.Gives (.ok bs) ∧ c.eval.Gives (.ok cs) ∧
        Uniform (as ++ bs ++ cs) ∧ rows = as ++ bs ++ cs := by
  have hflat : ∀ as bs cs : List Value, [as, bs, cs].flatten = as ++ bs ++ cs := by simp
  rw [build_iff (joined_of_two hn) (by simp [hn, ha, hb, hc]), hn]
  constructor
  · rintro ⟨parts, hg, hu, rfl⟩
    rcases hg with _ | ⟨ga, _ | ⟨gb, _ | ⟨gc, _ | _⟩⟩⟩
    rw [hflat] at hu ⊢
    exact ⟨_, _, _, ga, gb, gc, hu, rfl⟩
  · rintro ⟨as, bs, cs, ga, gb, gc, hu, rfl⟩
    rw [← hflat] at hu ⊢
    exact ⟨_, .cons ga (.cons gb (.cons gc .nil)), hu, rfl⟩

end Nest

/-! ## Sides without rows -/

section Empty

variable {a e : Expr} {rows : List Value}

/-- An empty side changes nothing, and goes with uniform rows only. -/
theorem union_empty_left (ha : a.Pure) (he : e.eval.Gives (.ok [])) (store : Store) :
    buildThenEval (Expr.makeUnion (.expr e) (.expr a)) store = .ok rows ↔
      a.eval.Gives (.ok rows) ∧ Uniform rows := by
  refine (Comparing.union.buildThenEval_ok_iff e a).trans ?_
  constructor
  · rintro ⟨lefts, rights, hl, hr, hu, rfl⟩
    rw [he] at hl
    cases hl
    exact ⟨fun store' => (ha.stable store' _).trans hr, hu⟩
  · rintro ⟨hr, hu⟩
    exact ⟨[], rows, he store, hr _, hu, rfl⟩

theorem union_empty_right (ha : a.Pure) (he : e.eval.Gives (.ok [])) (store : Store) :
    buildThenEval (Expr.makeUnion (.expr a) (.expr e)) store = .ok rows ↔
      a.eval.Gives (.ok rows) ∧ Uniform rows := by
  refine (Comparing.union.buildThenEval_ok_iff a e).trans ?_
  constructor
  · rintro ⟨lefts, rights, hl, hr, hu, rfl⟩
    rw [he] at hr
    cases hr
    have hc : Comparing.union.combine lefts [] = lefts := List.append_nil lefts
    rw [hc]
    exact ⟨fun store' => (ha.stable store' _).trans hl, List.append_nil lefts ▸ hu⟩
  · rintro ⟨hl, hu⟩
    have hc : rows ++ [] = rows := List.append_nil rows
    exact ⟨rows, [], hl _, he _, hc.symm ▸ hu, hc.symm⟩

end Empty

/-- The checks of shapes decide uniformity, and so it does not matter how unions of pure expressions are
nested: from any store, either nest of three has the rows of the three in order, exactly if these are uniform.
An expression that has no rows changes nothing on either side of uniform rows, and goes with no others. -/
theorem uniformity_decides {a b c e : Expr} (ha : a.Pure) (hb : b.Pure) (hc : c.Pure)
    (he : e.eval.Gives (.ok [])) :
    (∀ operator lefts rights,
      (requireSharedShape operator lefts rights = .ok () ↔ Uniform (lefts ++ rights)) ∧
      ∀ fault, requireSharedShape operator lefts rights = .error fault →
        sharedShapeFault? operator lefts rights = some fault ∧
        (fault.kind = .schema ∨ fault = .badValue ∧ ∃ row ∈ lefts ++ rights, row.printable = false)) ∧
    (∀ (v : Value) (rows : List Value) (store : Store), ((v.collect : Eval _) store).result = .ok rows →
      ∀ leaf, ((Expr.ofItems v : Eval Expr) store).result = .ok leaf ↔
        Uniform rows ∧ leaf = .terminal rows) ∧
    (∀ nest : Nest, nest.sides = [a, b, c] → ∀ store rows,
      buildThenEval nest.build store = .ok rows ↔
        ∃ as bs cs, a.eval.Gives (.ok as) ∧ b.eval.Gives (.ok bs) ∧ c.eval.Gives (.ok cs) ∧
          Uniform (as ++ bs ++ cs) ∧ rows = as ++ bs ++ cs) ∧
    (∀ store rows,
      (buildThenEval (Expr.makeUnion (.expr e) (.expr a)) store = .ok rows ↔
        a.eval.Gives (.ok rows) ∧ Uniform rows) ∧
      (buildThenEval (Expr.makeUnion (.expr a) (.expr e)) store = .ok rows ↔
        a.eval.Gives (.ok rows) ∧ Uniform rows)) := by
  refine ⟨fun operator lefts rights => ⟨requireSharedShape_ok_iff, fun fault h => ?_⟩,
    fun v rows store h leaf => ?_, fun nest hn store rows => ?_, fun store rows => ?_⟩
  · have hs := requireSharedShape_error_iff.1 h
    exact ⟨hs, sharedShapeFault?_kind hs⟩
  · rw [Expr.ofItems, Run.result_then, h]
    exact ofRows_ok_iff
  · exact Nest.build_three_iff hn ha.stable hb.stable hc.stable
  · exact ⟨union_empty_left ha he store, union_empty_right ha he store⟩

/-- Two leaves of pairs around a projection that makes a pair of each of two numbers, and a selection that
keeps nothing. -/
theorem uniformity_decides_pairs :
    let double : Callback :=
      .function ⟨0, .named, "double"⟩ [.required "x"] (.tuple [.argument "x", .argument "x"]) []
    let never : Callback := .function ⟨1, .named, "never"⟩ [.required "x"] (.literal .null) []
    let a : Expr := .terminal [.tuple [.int 3, .null]]
    let b : Expr := .projection (.terminal [.int 1, .bool true]) double
    let c : Expr := .terminal [.tuple [.nan 5, .list none []], .tuple [.int 3, .null]]
    let e : Expr := .selection (.terminal [.int 1, .int 2]) never
    a.Pure ∧ b.Pure ∧ c.Pure ∧ e.eval.Gives (.ok []) ∧
      ∀ store, buildThenEval (Nest.union (.side a) (.union (.side b) (.side c))).build store =
        .ok [.tuple [.int 3, .null], .tuple [.int 1, .int 1], .tuple [.bool true, .bool true],
          .tuple [.nan 5, .list none []], .tuple [.int 3, .null]] := by
  intro double never a b c e
  have ha : a.Pure := Expr.pure_terminal _
  have hb : b.Pure := Expr.pure_projection (Expr.pure_terminal _) fun _ _ _ => rfl
  have hc : c.Pure := Expr.pure_terminal _
  have he : e.eval.Gives (.ok []) := fun _ => rfl
  refine ⟨ha, hb, hc, he, fun store => ?_⟩
  obtain ⟨-, -, hnests, -⟩ := uniformity_decides ha hb hc he
  refine (hnests (.union (.side a) (.union (.side b) (.side c))) rfl store _).2 ?_
  exact ⟨_, _, _, fun _ => rfl, fun _ => rfl, fun _ => rfl, ⟨.fields 2, by simp [Value.shape]⟩, rfl⟩

/-- A number with too many digits has no shown form, and no fault of the schema reports it. -/
theorem requireSharedShape_unshown :
    let lefts : List Value := [.tuple [.int 1], .int (Nat.pow 10 Numeral.digitLimit : Nat)]
    ¬ Uniform (lefts ++ []) ∧ requireSharedShape .union lefts [] = .error .badValue ∧
      Fault.badValue.kind ≠ .schema := by
  intro lefts
  refine ⟨fun h => ?_, ?_, by decide⟩
  · cases uniform_cons_iff.1 h _ (List.mem_singleton.2 rfl)
  · rw [requireSharedShape_error_iff]
    show some (misfit (.leftOf .union) (.fields 1) (.int (Nat.pow 10 Numeral.digitLimit : Nat))) = _
    rw [misfit, Value.printable, fits_of_le (Nat.le_refl _)]
    rfl

end BagAlgebra
