/-
Joins and products. Where the calls on the pairs are stable, such an operator picks the pairs of which its
predicate holds, a product all of them, and maps each directly after it has picked it; that comes to the
same as to pick the pairs first and to map them afterwards.
-/
import BagAlgebra.Proofs.Eval.Images
import BagAlgebra.Proofs.Tree.Context

namespace BagAlgebra

open Run

/-! ## Pairs -/

/-- The call on the two rows of a pair. -/
def Callback.onPair (f : Callback) (pair : Value × Value) : Eval Value := f.call [pair.1, pair.2]

section Pairs

variable {predicate mapper : Callback} {rows : List Value}

/-- The calls that a join makes on these pairs are stable. -/
structure StableOn (predicate mapper : Callback) (pairs : List (Value × Value)) : Prop where
  test : ∀ pair ∈ pairs, (predicate.onPair pair).Stable
  image : ∀ pair ∈ pairs, ∀ verdict, (predicate.onPair pair).Answers verdict → verdict.truthy = true →
    (mapper.onPair pair).Stable

variable {pair : Value × Value} {pairs more : List (Value × Value)}

theorem StableOn.subset (h : StableOn predicate mapper more) (hs : pairs ⊆ more) :
    StableOn predicate mapper pairs :=
  ⟨fun pair hp => h.test pair (hs hp), fun pair hp => h.image pair (hs hp)⟩

theorem StableOn.stable_imageIf (h : StableOn predicate mapper pairs) (hp : pair ∈ pairs)
    (verdict : Value) (hv : (predicate.onPair pair).Answers verdict) :
    (imageIf mapper pair verdict).Stable := imageIf_stable (h.image pair hp verdict hv)

theorem StableOn.stable_joinOne (h : StableOn predicate mapper pairs) (hp : pair ∈ pairs) :
    (joinOne predicate mapper pair).Stable := (h.test pair hp).bind (h.stable_imageIf hp)

theorem StableOn.stable_walk (h : StableOn predicate mapper pairs) :
    (walk (joinOne predicate mapper) pairs).Stable :=
  walk_stable fun _ hp => h.stable_joinOne hp

/-- Of one pair comes its image, if the predicate holds of it. -/
theorem joinOne_gives_iff (h : StableOn predicate mapper pairs) (hp : pair ∈ pairs) :
    (joinOne predicate mapper pair).Gives (.ok rows) ↔
      ∃ verdict, (predicate.onPair pair).Gives (.ok verdict) ∧
        if verdict.truthy then ∃ image, (mapper.onPair pair).Gives (.ok image) ∧ rows = [image]
        else rows = [] := by
  refine (gives_bind_iff (h.test pair hp) (h.stable_imageIf hp)).trans ?_
  refine exists_congr fun verdict => and_congr_right fun hv => ?_
  unfold imageIf
  by_cases ht : verdict.truthy = true
  · rw [if_pos ht, if_pos ht]
    exact gives_map_iff (h.image pair hp verdict ⟨.empty, hv .empty⟩ ht)
  · rw [if_neg ht, if_neg ht]
    exact gives_pure_iff

/-- A join maps each pair directly after it has picked it. -/
theorem pairs_gives_iff (h : StableOn predicate mapper pairs) :
    (walk (joinOne predicate mapper) pairs).Gives (.ok rows) ↔
      ∃ matched, Picked predicate.onPair pairs matched ∧ Mapped mapper.onPair matched rows := by
  induction pairs generalizing rows with
  | nil =>
    rw [walk_nil]
    simp only [picked_nil_iff, exists_eq_left, Mapped, List.forall₂_nil_left_iff]
    exact gives_pure_iff
  | cons pair pairs ih =>
    have hpair := h.stable_joinOne (List.mem_cons_self ..)
    have hpairs : StableOn predicate mapper pairs := h.subset (List.subset_cons_self ..)
    rw [walk_cons, gives_bind_iff hpair fun _ _ => hpairs.stable_walk.bind fun _ _ => stable_pure _]
    simp only [gives_map_iff hpairs.stable_walk, ih hpairs, picked_cons_iff,
      joinOne_gives_iff h (List.mem_cons_self ..)]
    constructor
    · rintro ⟨_, ⟨verdict, hv, hfirst⟩, rest, ⟨matched, hp, hm⟩, rfl⟩
      refine ⟨_, ⟨verdict, matched, hv, hp, rfl⟩, ?_⟩
      by_cases ht : verdict.truthy = true
      · rw [if_pos ht] at hfirst ⊢
        obtain ⟨image, hi, rfl⟩ := hfirst
        exact .cons hi hm
      · rw [if_neg ht] at hfirst ⊢
        rw [hfirst]
        exact hm
    · rintro ⟨_, ⟨verdict, matched, hv, hp, rfl⟩, hm⟩
      by_cases ht : verdict.truthy = true
      · rw [if_pos ht] at hm
        obtain ⟨image, rest, hi, hmore, rfl⟩ := List.forall₂_cons_left_iff.1 hm
        refine ⟨[image], ⟨verdict, hv, ?_⟩, rest, ⟨matched, hp, hmore⟩, rfl⟩
        rw [if_pos ht]
        exact ⟨image, hi, rfl⟩
      · rw [if_neg ht] at hm
        refine ⟨[], ⟨verdict, hv, ?_⟩, rows, ⟨matched, hp, hm⟩, rfl⟩
        rw [if_neg ht]

end Pairs

/-! ## Joins and products -/

/-- An operator that combines each left row with each right row. -/
inductive Pairing where
  | join (predicate mapper : Callback)
  | product (mapper : Callback)

namespace Pairing

/-- The node over two sides. -/
def node : Pairing → Expr → Expr → Expr
  | .join predicate mapper, left, right => .join left right predicate mapper
  | .product mapper, left, right => .product left right mapper

/-- The call of the node's constructor. -/
def make : Pairing → Expr → Expr → Except Fault Expr
  | .join predicate mapper, left, right =>
    Expr.makeJoin (.expr left) (.expr right) (.callable predicate) (.callable mapper)
  | .product mapper, left, right => Expr.makeProduct (.expr left) (.expr right) (.callable mapper)

/-- The test of a pair; a product lets all of them pass. -/
def predicate : Pairing → Callback
  | .join predicate _ => predicate
  | .product _ => .always

def mapper : Pairing → Callback
  | .join _ mapper => mapper
  | .product mapper => mapper

/-- What the operator makes of pairs. -/
def images (op : Pairing) (pairs : List (Value × Value)) : Eval (List Value) :=
  walk (joinOne op.predicate op.mapper) pairs

variable {op : Pairing} {left right : Expr} {lefts rights rows : List Value}

/-- The constructor looks at the callbacks only: where it accepts some sides it accepts any. -/
theorem make_cases (op : Pairing) : (∀ left right, ∃ fault, op.make left right = .error fault) ∨
    ∀ left right, op.make left right = .ok (op.node left right) := by
  cases op with
  | join predicate mapper => exact makeJoin_expr predicate mapper
  | product mapper => exact makeProduct_expr mapper

theorem make_of_ok {e : Expr} (h : op.make left right = .ok e) (left' right' : Expr) :
    op.make left' right' = .ok (op.node left' right') := by
  obtain hfault | hnode := op.make_cases
  · obtain ⟨fault, hf⟩ := hfault left right
    rw [hf] at h
    cases h
  · exact hnode left' right'

theorem sides_node : (op.node left right).sides = [left, right] := by cases op <;> rfl

/-- The node is pure if its callbacks are stable on the pairs of rows of pure sides. -/
theorem pure_node_iff : (op.node left right).Pure ↔ (left.Pure ∧ right.Pure) ∧
    ∀ lefts rights, left.eval.Gives (.ok lefts) → right.eval.Gives (.ok rights) →
      StableOn op.predicate op.mapper (lefts ×ˢ rights) := by
  refine (Expr.pure_iff_two sides_node).trans (and_congr_right fun _ => forall_congr' fun lefts =>
    forall_congr' fun rights => imp_congr_right fun _ => imp_congr_right fun _ => ?_)
  constructor
  · intro h
    refine ⟨fun pair hp => ?_, fun pair hp verdict hv ht => ?_⟩
    · obtain ⟨hl, hr⟩ := List.mem_product.1 hp
      cases op with
      | join predicate mapper => exact h _ _ (.joinPredicate hl hr)
      | product mapper => exact always_stable _
    · obtain ⟨hl, hr⟩ := List.mem_product.1 hp
      cases op with
      | join predicate mapper => exact h _ _ (.joinMapper hl hr hv ht)
      | product mapper => exact h _ _ (.productMapper hl hr)
  · intro h f args hu
    cases op with
    | join predicate mapper =>
      cases hu with
      | joinPredicate hl hr => exact h.test _ (List.mem_product.2 ⟨hl, hr⟩)
      | joinMapper hl hr hv ht => exact h.image _ (List.mem_product.2 ⟨hl, hr⟩) _ hv ht
    | product mapper =>
      cases hu with
      | productMapper hl hr =>
        exact h.image _ (List.mem_product.2 ⟨hl, hr⟩) (.bool true) ⟨.empty, rfl⟩ rfl

theorem work_node : (op.node left right).work [lefts, rights] = do
    let rows ← op.images (lefts ×ˢ rights)
    Run.emit (.joined lefts.length rights.length rows.length)
    return rows := by
  rw [images, ← joinRows_eq_walk]
  cases op <;> rfl

theorem node_gives_iff (h : (op.node left right).Pure) :
    (op.node left right).eval.Gives (.ok rows) ↔ ∃ lefts rights, left.eval.Gives (.ok lefts) ∧
      right.eval.Gives (.ok rights) ∧ (op.images (lefts ×ˢ rights)).Gives (.ok rows) := by
  refine (h.gives_iff_two sides_node).trans (exists_congr fun lefts => exists_congr fun rights =>
    and_congr_right fun hl => and_congr_right fun hr => ?_)
  rw [work_node]
  exact gives_reported_iff ((pure_node_iff.1 h).2 lefts rights hl hr).stable_walk _

/-- The pairs that are picked, and what they are mapped to. -/
theorem node_gives_iff_matched (h : (op.node left right).Pure) :
    (op.node left right).eval.Gives (.ok rows) ↔ ∃ lefts rights, left.eval.Gives (.ok lefts) ∧
      right.eval.Gives (.ok rights) ∧ ∃ matched,
        Picked op.predicate.onPair (lefts ×ˢ rights) matched ∧ Mapped op.mapper.onPair matched rows := by
  refine (node_gives_iff h).trans (exists_congr fun lefts => exists_congr fun rights =>
    and_congr_right fun hl => and_congr_right fun hr => ?_)
  exact pairs_gives_iff ((pure_node_iff.1 h).2 lefts rights hl hr)

/-- Rows of the sides, and what the operator makes of their pairs. -/
theorem node_gives (hl : left.eval.Gives (.ok lefts)) (hr : right.eval.Gives (.ok rights))
    (h : (op.images (lefts ×ˢ rights)).Gives (.ok rows)) :
    (op.node left right).eval.Gives (.ok rows) := by
  rw [images, ← joinRows_eq_walk] at h
  cases op <;> exact hl.bind (hr.bind (h.bind ((gives_emit _).bind (gives_pure rows))))

/-! ## Pairs one after the other -/

variable {pairs more : List (Value × Value)} {first second : List Value}

theorem images_append_gives (h : (op.images pairs).Gives (.ok first))
    (h' : (op.images more).Gives (.ok second)) :
    (op.images (pairs ++ more)).Gives (.ok (first ++ second)) := by
  rw [images, walk_append]
  exact h.bind (h'.map _)

theorem images_append_gives_iff (h : StableOn op.predicate op.mapper (pairs ++ more)) :
    (op.images (pairs ++ more)).Gives (.ok rows) ↔ ∃ first second, (op.images pairs).Gives (.ok first) ∧
      (op.images more).Gives (.ok second) ∧ rows = first ++ second := by
  have hpairs : (op.images pairs).Stable := (h.subset (List.subset_append_left ..)).stable_walk
  have hmore : (op.images more).Stable := (h.subset (List.subset_append_right ..)).stable_walk
  rw [images, walk_append]
  refine (gives_bind_iff hpairs fun _ _ => hmore.bind fun _ _ => stable_pure _).trans ?_
  simp only [gives_map_iff hmore, exists_and_left]

end Pairing

end BagAlgebra
