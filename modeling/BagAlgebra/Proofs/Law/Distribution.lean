/-
Joins and products over unions. Pairs come with the left row changing last, so over a union on the left the
rows are those over the one side of it followed by those over the other. Over a union on the right they come
left row by left row: the matches in the one side of it, then those in the other.
-/
import BagAlgebra.Proofs.Eval.Nested
import BagAlgebra.Proofs.Eval.Pairing
import Mathlib.Data.List.Perm.Basic

namespace BagAlgebra

open Run

theorem append_product {α β : Type} (as bs : List α) (cs : List β) :
    (as ++ bs) ×ˢ cs = as ×ˢ cs ++ bs ×ˢ cs := List.flatMap_append

namespace Pairing

variable {op : Pairing}

/-! ## Left row by left row -/

/-- For each left row in turn, its matches in one list of right rows and then those in another: the last two
lists are made of the former alone and of the latter alone. -/
inductive RowByRow (op : Pairing) (bs cs : List Value) :
    List Value → List Value → List Value → List Value → Prop where
  | nil : RowByRow op bs cs [] [] [] []
  | cons {l : Value} {lefts inFirst inSecond rows first second : List Value}
      (hb : (joinRow op.predicate op.mapper l bs).Gives (.ok inFirst))
      (hc : (joinRow op.predicate op.mapper l cs).Gives (.ok inSecond))
      (rest : RowByRow op bs cs lefts rows first second) :
      RowByRow op bs cs (l :: lefts) (inFirst ++ inSecond ++ rows) (inFirst ++ first)
        (inSecond ++ second)

variable {lefts bs cs rows first second : List Value}

theorem RowByRow.perm (h : op.RowByRow bs cs lefts rows first second) :
    rows.Perm (first ++ second) := by
  induction h with
  | nil => exact .refl _
  | @cons l lefts inFirst inSecond rows first second hb hc rest ih =>
    have hswap : (inSecond ++ (first ++ second)).Perm (first ++ (inSecond ++ second)) :=
      List.perm_append_comm_assoc inSecond first second
    rw [List.append_assoc, List.append_assoc]
    exact ((ih.append_left inSecond).trans hswap).append_left inFirst

/-- What the operator makes of left rows and of right rows that come from two lists. -/
theorem rowByRow_of_gives (h : StableOn op.predicate op.mapper (lefts ×ˢ (bs ++ cs)))
    (hg : (op.images (lefts ×ˢ (bs ++ cs))).Gives (.ok rows)) : ∃ first second,
      op.RowByRow bs cs lefts rows first second ∧ (op.images (lefts ×ˢ bs)).Gives (.ok first) ∧
        (op.images (lefts ×ˢ cs)).Gives (.ok second) := by
  induction lefts generalizing rows with
  | nil =>
    have hnil : ∀ rights : List Value, (op.images ([] ×ˢ rights)).Gives (.ok []) := fun _ _ => rfl
    cases hg.unique (hnil (bs ++ cs))
    exact ⟨[], [], .nil, hnil bs, hnil cs⟩
  | cons l lefts ih =>
    rw [List.product_cons] at h hg
    have hrow := h.subset (List.subset_append_left ..)
    have hrest := h.subset (List.subset_append_right ..)
    obtain ⟨block, rest, hblock, hmore, rfl⟩ := (images_append_gives_iff h).1 hg
    rw [List.map_append] at hrow hblock
    obtain ⟨inFirst, inSecond, hb, hc, rfl⟩ := (images_append_gives_iff hrow).1 hblock
    obtain ⟨first, second, hrows, hfirst, hsecond⟩ := ih hrest hmore
    refine ⟨_, _, .cons ?_ ?_ hrows, ?_, ?_⟩
    · rw [joinRow_eq_walk]
      exact hb
    · rw [joinRow_eq_walk]
      exact hc
    · rw [List.product_cons]
      exact images_append_gives hb hfirst
    · rw [List.product_cons]
      exact images_append_gives hc hsecond

/-! ## Unions under the operator -/

/-- The constructors of the operator over a union on the left. -/
def overLeftUnion (op : Pairing) (a b right : Expr) : Except Fault Expr := do
  let united ← Comparing.union.make a b
  op.make united right

/-- The constructors of the operator over a union on the right. -/
def overRightUnion (op : Pairing) (left b c : Expr) : Except Fault Expr := do
  let united ← Comparing.union.make b c
  op.make left united

section Built

variable {left right : Expr} {store : Store}

/-- A node that is built and evaluated: the constructor accepts any sides, and the rows come from any store. -/
theorem gives_of_built (h : (op.node left right).Pure)
    (hb : buildThenEval (op.make left right) store = .ok rows) :
    (∀ left right, op.make left right = .ok (op.node left right)) ∧
      (op.node left right).eval.Gives (.ok rows) := by
  obtain ⟨e, he, hrows⟩ := ok_of_bind hb
  have hmake := op.make_of_ok he
  cases he.symm.trans (hmake left right)
  exact ⟨hmake, fun store' => (h.stable store' store).trans hrows⟩

theorem yields_of_images (hmake : ∀ left right, op.make left right = .ok (op.node left right))
    {rights : List Value} (hl : left.eval.Gives (.ok lefts)) (hr : right.eval.Gives (.ok rights))
    (h : (op.images (lefts ×ˢ rights)).Gives (.ok rows)) : Yields (op.make left right) rows :=
  yields_iff.2 ⟨_, hmake left right, node_gives hl hr h⟩

end Built

end Pairing

/-- What is built over a union that is built first. -/
theorem buildThenEval_united {a b : Expr} {next : Expr → Except Fault Expr} {store : Store}
    {rows : List Value} (h : buildThenEval (Comparing.union.make a b >>= next) store = .ok rows) :
    buildThenEval (next (.union a b)) store = .ok rows := by
  rw [buildThenEval, bind_assoc] at h
  obtain ⟨united, hu, h⟩ := ok_of_bind h
  rw [Comparing.union.make_ok hu] at h
  exact h

/-- Joins and products distribute over unions, where they can be built and evaluated and everything is pure.
Over a union on the left the rows are those over its sides, one list after the other. Over a union on the
right the rows are those over its sides in another order, for each left row its matches in the one side
before those in the other. -/
theorem pairing_distributes (op : Pairing) :
    (∀ a b right, (op.node (.union a b) right).Pure → ∀ store rows,
      buildThenEval (op.overLeftUnion a b right) store = .ok rows → ∃ first second,
        Yields (op.make a right) first ∧ Yields (op.make b right) second ∧ rows = first ++ second) ∧
    ∀ left b c, (op.node left (.union b c)).Pure → ∀ store rows,
      buildThenEval (op.overRightUnion left b c) store = .ok rows → ∃ first second,
        Yields (op.make left b) first ∧ Yields (op.make left c) second ∧
        rows.Perm (first ++ second) ∧ ∃ lefts bs cs, left.eval.Gives (.ok lefts) ∧
          b.eval.Gives (.ok bs) ∧ c.eval.Gives (.ok cs) ∧
          op.RowByRow bs cs lefts rows first second := by
  refine ⟨fun a b right hpure store rows h => ?_, fun left b c hpure store rows h => ?_⟩
  · obtain ⟨⟨hunion, -⟩, hcalls⟩ := op.pure_node_iff.1 hpure
    obtain ⟨⟨ha, hb⟩, -⟩ := (Expr.pure_iff_two rfl).1 hunion
    obtain ⟨hmake, hrows⟩ := Pairing.gives_of_built hpure (buildThenEval_united h)
    obtain ⟨_, rights, hunited, hr, himages⟩ := (op.node_gives_iff hpure).1 hrows
    obtain ⟨as, bs, has, hbs, -, rfl⟩ := (Comparing.union.node_gives_iff ha hb).1 hunited
    have hstable : StableOn op.predicate op.mapper ((as ++ bs) ×ˢ rights) := hcalls _ _ hunited hr
    -- the pairs of the one side come before those of the other
    have hpairs : (as ++ bs) ×ˢ rights = as ×ˢ rights ++ bs ×ˢ rights := append_product as bs rights
    change (op.images ((as ++ bs) ×ˢ rights)).Gives (.ok rows) at himages
    rw [hpairs] at hstable himages
    obtain ⟨first, second, hfirst, hsecond, rfl⟩ := (Pairing.images_append_gives_iff hstable).1 himages
    exact ⟨first, second, Pairing.yields_of_images hmake has hr hfirst,
      Pairing.yields_of_images hmake hbs hr hsecond, rfl⟩
  · obtain ⟨⟨-, hunion⟩, hcalls⟩ := op.pure_node_iff.1 hpure
    obtain ⟨⟨hb, hc⟩, -⟩ := (Expr.pure_iff_two rfl).1 hunion
    obtain ⟨hmake, hrows⟩ := Pairing.gives_of_built hpure (buildThenEval_united h)
    obtain ⟨lefts, _, hl, hunited, himages⟩ := (op.node_gives_iff hpure).1 hrows
    obtain ⟨bs, cs, hbs, hcs, -, rfl⟩ := (Comparing.union.node_gives_iff hb hc).1 hunited
    have hstable : StableOn op.predicate op.mapper (lefts ×ˢ (bs ++ cs)) := hcalls _ _ hl hunited
    obtain ⟨first, second, hrow, hfirst, hsecond⟩ := Pairing.rowByRow_of_gives hstable himages
    exact ⟨first, second, Pairing.yields_of_images hmake hl hbs hfirst,
      Pairing.yields_of_images hmake hl hcs hsecond, hrow.perm, lefts, bs, cs, hl, hbs, hcs, hrow⟩

/-- A join by equality, which a number and a truth value can have, with a union on the left and on the right.
On the right, a match from the second side of the union comes before one from the first. -/
theorem pairing_distributes_equal :
    let equal : Callback := .function ⟨0, .named, "equal"⟩ [.required "x", .required "y"]
      (.binary .eq (.argument "x") (.argument "y")) []
    let coupler : Callback := .function ⟨1, .named, "couple"⟩ [.required "x", .required "y"]
      (.tuple [.argument "x", .argument "y"]) []
    let op : Pairing := .join equal coupler
    let a : Expr := .terminal [.int 1, .int 2]
    let b : Expr := .terminal [.bool true]
    let c : Expr := .terminal [.int 1, .int 3, .int 2]
    (op.node (.union a b) c).Pure ∧ (op.node c (.union a b)).Pure ∧
      (∃ first second, Yields (op.make a c) first ∧ Yields (op.make b c) second ∧
        [.tuple [.int 1, .int 1], .tuple [.int 2, .int 2], .tuple [.bool true, .int 1]]
          = first ++ second) ∧
      ∃ first second, Yields (op.make c a) first ∧ Yields (op.make c b) second ∧
        [.tuple [.int 1, .int 1], .tuple [.int 1, .bool true], .tuple [.int 2, .int 2]].Perm
          (first ++ second) := by
  intro equal coupler op a b c
  have pure (rows : List Value) : (Expr.terminal rows).Pure := Expr.pure_terminal rows
  have hcalls : ∀ pairs, StableOn op.predicate op.mapper pairs :=
    fun _ => ⟨fun _ _ _ _ => rfl, fun _ _ _ _ _ _ _ => rfl⟩
  have hleft : (op.node (.union a b) c).Pure :=
    op.pure_node_iff.2 ⟨⟨Expr.pure_union (pure _) (pure _), pure _⟩, fun _ _ _ _ => hcalls _⟩
  have hright : (op.node c (.union a b)).Pure :=
    op.pure_node_iff.2 ⟨⟨pure _, Expr.pure_union (pure _) (pure _)⟩, fun _ _ _ _ => hcalls _⟩
  obtain ⟨hl, hr⟩ := pairing_distributes op
  obtain ⟨first, second, hf, hs, hperm, -⟩ := hr c a b hright .empty _ rfl
  exact ⟨hleft, hright, hl a b c hleft .empty _ rfl, first, second, hf, hs, hperm⟩

end BagAlgebra
