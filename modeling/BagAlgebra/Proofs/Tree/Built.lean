/-
The trees that can be made, by calls of constructors and operations of builders, and an induction over
the ways to make them. What holds of leaves that have passed their check and of bare expressions, and of
an inner node if it holds of the sides that the node was made of, and what a change of a list in a tree
does not end, holds of every tree that can be made.
-/
import BagAlgebra.Proofs.Tree.Parts
import BagAlgebra.Script.Cell

namespace BagAlgebra

/-- The tree of a node or of a builder. -/
def Value.tree? : Value → Option Expr
  | .expr e => some e
  | .builder e => some e
  | _ => none

/-- The trees that can be made: by calls of constructors and by operations of builders on arguments whose
trees were made that way, and by changes of lists in them. -/
inductive Expr.Built : Expr → Prop where
  | call {callee : Callee} {args : Arguments} {v : Value} {e : Expr}
      (parts : ∀ a ∈ args.values, ∀ part, a.tree? = some part → Built part)
      (made : (callee.call args).Answers v) (tree : v.tree? = some e) : Built e
  | invoke {method : Method} {on : Value} {args : Arguments} {v : Value} {e : Expr}
      (receiver : ∀ part, on.tree? = some part → Built part)
      (parts : ∀ a ∈ args.values, ∀ part, a.tree? = some part → Built part)
      (made : (method.invoke on args).Answers v) (tree : v.tree? = some e) : Built e
  | changed {e : Expr} (cell : Nat) (items : List Value) (h : Built e) :
      Built (e.replaceCell cell items)

/-- A property of trees that every way to make one keeps. -/
structure Expr.Invariant (P : Expr → Prop) : Prop where
  bare : ∀ serial, P (.bare serial)
  leaf : ∀ {rows : List Value} {e : Expr}, Expr.ofRows rows = .ok e → P e
  inner : ∀ {parts : List Value} {e : Expr}, e.MadeFrom parts → (∀ s ∈ e.sides, P s) → P e
  changed : ∀ (cell : Nat) (items : List Value) {e : Expr}, P e → P (e.replaceCell cell items)

/-- The tree of a value has a property, if there is one. -/
def Value.TreeHas (P : Expr → Prop) (v : Value) : Prop := ∀ e, v.tree? = some e → P e

/-- A node that is made of parts whose trees can be made. -/
theorem Expr.built_of_makeNode {operator : Operator} {args : Arguments} {e : Expr}
    (parts : ∀ a ∈ args.values, a.TreeHas Built) (made : makeNode operator args = pure e) :
    e.Built := by
  have hc : ((Callee.node operator).call args).Answers (.expr e) :=
    ⟨.empty, by rw [Callee.call, made]; rfl⟩
  exact .call parts hc rfl

/-! ## What is made has the property -/

section Made

variable {P : Expr → Prop}

theorem treeHas_of_none {v : Value} (h : v.tree? = none) : v.TreeHas P := by
  intro e he
  rw [h] at he
  cases he

theorem expr_treeHas {e : Expr} (h : P e) : (Value.expr e).TreeHas P := by
  rintro _ ⟨⟩
  exact h

theorem builder_treeHas {b : Builder} (h : P b.expression) : b.toValue.TreeHas P := by
  rintro _ ⟨⟩
  exact h

variable (hP : Expr.Invariant P)

include hP

theorem madeFrom_invariant {e : Expr} {parts : List Value} (h : e.MadeFrom parts)
    (hp : ∀ v ∈ parts, v.TreeHas P) : P e :=
  hP.inner h fun s hs => hp _ (h.sides s hs) s rfl

theorem ofItems_invariant {ε : Type} {v : Value} {e : Expr}
    (h : (Expr.ofItems v : Run ε Expr).Answers e) : P e := by
  obtain ⟨rows, _, h⟩ := h.of_bind
  exact hP.leaf (Run.answers_ofExcept h)

/-- The tree of a right side is that of a value, or a leaf. -/
theorem rightSide_invariant {ε : Type} {v : Value} (hv : v.TreeHas P) {e : Expr}
    (h : (Builder.rightSide v : Run ε Expr).Answers e) : P e := by
  unfold Builder.rightSide at h
  split at h
  · rw [Run.answers_pure h]
    exact hv _ rfl
  · rw [Run.answers_pure h]
    exact hv _ rfl
  · exact ofItems_invariant hP h

variable {args : Arguments} (ha : ∀ v ∈ args.values, v.TreeHas P)

include ha

theorem makeNode_invariant {operator : Operator} {e : Expr}
    (h : (makeNode operator args).Answers e) : P e := by
  generalize hrun : makeNode operator args = run at h
  have hm := makeNode_made operator args
  rw [hrun] at hm
  cases hm with
  | refused fault => exact absurd h Run.not_answers_fail
  | bare =>
    obtain ⟨serial, _, h⟩ := h.of_bind
    rw [Run.answers_pure h]
    exact hP.bare serial
  | leaf rows _ => exact ofItems_invariant hP h
  | inner e hparts =>
    rw [Run.answers_pure h]
    exact madeFrom_invariant hP hparts ha

theorem invoke_invariant {b b' : Builder} (hb : P b.expression) {method : Method}
    (h : (b.invoke method args).Answers b') : P b'.expression := by
  generalize hrun : b.invoke method args = run at h
  have hm := invoke_made b method args
  rw [hrun] at hm
  cases hm with
  | refused fault => exact absurd h Run.not_answers_fail
  | inner b'' hparts =>
    rw [Run.answers_pure h]
    exact madeFrom_invariant hP hparts (List.forall_mem_cons.2 ⟨expr_treeHas hb, ha⟩)
  | joined right next hr hparts =>
    obtain ⟨side, hs, h⟩ := h.of_bind
    have hside := expr_treeHas (rightSide_invariant hP (ha right hr) hs)
    refine madeFrom_invariant hP (hparts side b' (Run.answers_ofExcept h)) ?_
    exact List.forall_mem_cons.2 ⟨expr_treeHas hb, List.forall_mem_cons.2 ⟨hside, ha⟩⟩

theorem call_invariant {callee : Callee} {v : Value} (h : (callee.call args).Answers v) :
    v.TreeHas P := by
  cases callee with
  | node operator =>
    obtain ⟨e, he, h⟩ := h.of_bind
    rw [Run.answers_pure h]
    exact expr_treeHas (makeNode_invariant hP ha he)
  | builderFromRows =>
    obtain ⟨_, _, h⟩ := h.of_bind
    obtain ⟨rows, _, h⟩ := h.of_bind
    obtain ⟨b, hb, h⟩ := h.of_bind
    obtain ⟨e, he, hb⟩ := hb.of_bind
    cases builder_make_ok (Run.answers_ofExcept hb)
    rw [Run.answers_pure h]
    exact builder_treeHas (ofItems_invariant hP he)
  | newBuilder =>
    obtain ⟨_, _, h⟩ := h.of_bind
    obtain ⟨part, hp, h⟩ := h.of_bind
    obtain ⟨b, hb, h⟩ := h.of_bind
    rw [Run.answers_pure h]
    have hpart := ha part (Arguments.mem_values_of_get (Run.answers_ofExcept hp))
    rw [builder_make_ok (Run.answers_ofExcept hb)] at hpart
    exact builder_treeHas (hpart b.expression rfl)

theorem method_invariant {method : Method} {on v : Value} (ho : on.TreeHas P)
    (h : (method.invoke on args).Answers v) : v.TreeHas P := by
  unfold Method.invoke at h
  split at h
  · obtain ⟨b, hb, h⟩ := h.of_bind
    rw [Run.answers_pure h]
    exact builder_treeHas (invoke_invariant hP ha (ho _ rfl) hb)
  · exact absurd h Run.not_answers_fail
  · exact absurd h Run.not_answers_fail
  · exact absurd h Run.not_answers_fail

end Made

/-- Trees that can be made have every property that the ways to make them keep. -/
theorem Expr.Built.invariant {P : Expr → Prop} (hP : Invariant P) {e : Expr} (h : e.Built) : P e := by
  induction h with
  | call _ made tree ih => exact call_invariant hP ih made _ tree
  | invoke _ _ made tree ih ih' => exact method_invariant hP ih' ih made _ tree
  | changed cell items _ ih => exact hP.changed cell items ih

/-! ## Changed lists -/

theorem sides_replaceCell (cell : Nat) (items : List Value) (e : Expr) :
    (e.replaceCell cell items).sides = e.sides.map (Expr.replaceCell cell items) := by
  cases e <;> rfl

theorem callbacks_replaceCell (cell : Nat) (items : List Value) (e : Expr) :
    (e.replaceCell cell items).callbacks = e.callbacks.map (Callback.replaceCell cell items) := by
  cases e <;> rfl

end BagAlgebra
