/-
A join as three passes. The product pairs the rows up, a selection picks the pairs of which the predicate of
the join holds, and a projection maps them as the mapper of the join does. The join makes the calls for one
pair after the other, and it makes fewer of them before it fails; but both fail if any call that has to be
made does, and else both come to the same rows, one for each place in the two sides at which the predicate
holds.
-/
import BagAlgebra.Proofs.Eval.Pairing
import BagAlgebra.Proofs.Tree.Steps

namespace BagAlgebra

open Run

/-- Two rows as one. -/
def couple (pair : Value × Value) : Value := .tuple [pair.1, pair.2]

/-- Callbacks for a product, a selection and a projection that do together what those of a join do: the first
couples two rows, and the others do to the couple what the predicate and the mapper do to the two. -/
structure Recast (left right : Expr) (predicate mapper coupler predicate' mapper' : Callback) : Prop where
  coupler : ∀ l r, left.Offers l → right.Offers r → (coupler.call [l, r]).Gives (.ok (.tuple [l, r]))
  predicate : ∀ l r, left.Offers l → right.Offers r →
    (predicate'.call [.tuple [l, r]]).Mimics (predicate.call [l, r])
  mapper : ∀ l r, left.Offers l → right.Offers r →
    (mapper'.call [.tuple [l, r]]).Mimics (mapper.call [l, r])

/-- The constructors of the three passes, the product first. -/
def makePasses (left right : Expr) (coupler predicate' mapper' : Callback) : Except Fault Expr := do
  let product ← Expr.makeProduct (.expr left) (.expr right) (.callable coupler)
  let selection ← Expr.makeSelection (.expr product) (.callable predicate')
  Expr.makeProjection (.expr selection) (.callable mapper')

/-- The number of places, one in each list, at which the predicate holds of the rows. -/
def matchCount (predicate : Callback) (lefts rights : List Value) : Nat :=
  (List.finRange lefts.length ×ˢ List.finRange rights.length).countP fun place =>
    holds (predicate.call [lefts[place.1], rights[place.2]])

theorem product_map {α β γ δ : Type} (f : α → γ) (g : β → δ) (as : List α) (bs : List β) :
    as.map f ×ˢ bs.map g = (as ×ˢ bs).map (Prod.map f g) := by
  induction as with
  | nil => rfl
  | cons a as ih =>
    rw [List.map_cons, List.product_cons, List.product_cons, List.map_append, ih, List.map_map,
      List.map_map]
    rfl

theorem matchCount_eq (predicate : Callback) (lefts rights : List Value) :
    matchCount predicate lefts rights
      = (lefts ×ˢ rights).countP fun pair => holds (predicate.onPair pair) := by
  have hplaces : lefts ×ˢ rights = (List.finRange lefts.length ×ˢ List.finRange rights.length).map
      (Prod.map lefts.get rights.get) := by
    rw [← product_map, List.map_get_finRange, List.map_get_finRange]
  rw [hplaces, List.countP_map]
  rfl

/-! ## The rows of each pass -/

section Passes

variable {left right : Expr} {predicate mapper coupler predicate' mapper' : Callback}
  {pair : Value × Value} {lefts rights rows : List Value}

theorem offers_of_mem_product (hl : left.eval.Gives (.ok lefts)) (hr : right.eval.Gives (.ok rights))
    (hp : pair ∈ lefts ×ˢ rights) : left.Offers pair.1 ∧ right.Offers pair.2 := by
  obtain ⟨hpl, hpr⟩ := List.mem_product.1 hp
  exact ⟨⟨lefts, hl, hpl⟩, ⟨rights, hr, hpr⟩⟩

theorem Recast.test (hr : Recast left right predicate mapper coupler predicate' mapper')
    (hlefts : left.eval.Gives (.ok lefts)) (hrights : right.eval.Gives (.ok rights))
    (hp : pair ∈ lefts ×ˢ rights) :
    (predicate'.onRow (couple pair)).Mimics (predicate.onPair pair) := by
  obtain ⟨hl, hr'⟩ := offers_of_mem_product hlefts hrights hp
  exact hr.predicate pair.1 pair.2 hl hr'

theorem Recast.image (hr : Recast left right predicate mapper coupler predicate' mapper')
    (hlefts : left.eval.Gives (.ok lefts)) (hrights : right.eval.Gives (.ok rights))
    (hp : pair ∈ lefts ×ˢ rights) : (mapper'.onRow (couple pair)).Mimics (mapper.onPair pair) := by
  obtain ⟨hl, hr'⟩ := offers_of_mem_product hlefts hrights hp
  exact hr.mapper pair.1 pair.2 hl hr'

theorem stableOn_of_pure (h : (Expr.join left right predicate mapper).Pure)
    (hlefts : left.eval.Gives (.ok lefts)) (hrights : right.eval.Gives (.ok rights)) :
    StableOn predicate mapper (lefts ×ˢ rights) :=
  ((Pairing.join predicate mapper).pure_node_iff.1 h).2 lefts rights hlefts hrights

variable (h : (Expr.join left right predicate mapper).Pure)
  (hr : Recast left right predicate mapper coupler predicate' mapper')

include h hr

theorem pure_firstPass : (Expr.product left right coupler).Pure := by
  have hsides := ((Pairing.join predicate mapper).pure_node_iff.1 h).1
  refine (Pairing.product coupler).pure_node_iff.2 ⟨hsides, fun lefts rights hlefts hrights => ?_⟩
  refine ⟨fun pair _ => always_stable _, fun pair hp _ _ _ => ?_⟩
  obtain ⟨hl, hr'⟩ := offers_of_mem_product hlefts hrights hp
  exact (hr.coupler pair.1 pair.2 hl hr').stable

/-- The product has all pairs, coupled. -/
theorem firstPass_gives_iff : (Expr.product left right coupler).eval.Gives (.ok rows) ↔
    ∃ lefts rights, left.eval.Gives (.ok lefts) ∧ right.eval.Gives (.ok rights) ∧
      rows = (lefts ×ˢ rights).map couple := by
  refine ((Pairing.product coupler).node_gives_iff_matched (pure_firstPass h hr)).trans
    (exists_congr fun lefts => exists_congr fun rights => and_congr_right fun hlefts =>
      and_congr_right fun hrights => ?_)
  have hall : ∀ pair ∈ lefts ×ˢ rights, (Callback.always.onPair pair).Gives (.ok (.bool true)) :=
    fun _ _ _ => rfl
  have hcouple : ∀ pair ∈ lefts ×ˢ rights, (coupler.onPair pair).Gives (.ok (couple pair)) := by
    intro pair hp
    obtain ⟨hl, hr'⟩ := offers_of_mem_product hlefts hrights hp
    exact hr.coupler pair.1 pair.2 hl hr'
  show (∃ matched, Picked Callback.always.onPair _ matched ∧ _) ↔ _
  simp only [picked_all_iff hall, exists_eq_left]
  exact mapped_iff_of_gives hcouple

theorem pure_secondPass :
    (Expr.selection (.product left right coupler) predicate').Pure := by
  refine Expr.pure_selection_iff.2 ⟨pure_firstPass h hr, fun rows hrows row hrow => ?_⟩
  obtain ⟨lefts, rights, hlefts, hrights, rfl⟩ := (firstPass_gives_iff h hr).1 hrows
  obtain ⟨pair, hp, rfl⟩ := List.mem_map.1 hrow
  exact (hr.test hlefts hrights hp).stable ((stableOn_of_pure h hlefts hrights).test pair hp)

/-- The selection has the pairs that the join picks, coupled. -/
theorem secondPass_gives_iff :
    (Expr.selection (.product left right coupler) predicate').eval.Gives (.ok rows) ↔
      ∃ lefts rights, left.eval.Gives (.ok lefts) ∧ right.eval.Gives (.ok rights) ∧
        ∃ matched, Picked predicate.onPair (lefts ×ˢ rights) matched ∧ rows = matched.map couple := by
  have hpicked : ∀ lefts rights, left.eval.Gives (.ok lefts) → right.eval.Gives (.ok rights) →
      (Picked predicate'.onRow ((lefts ×ˢ rights).map couple) rows ↔
        ∃ matched, Picked predicate.onPair (lefts ×ˢ rights) matched ∧ rows = matched.map couple) :=
    fun lefts rights hlefts hrights => picked_map_iff fun pair hp verdict =>
      (hr.test hlefts hrights hp).gives_iff ((stableOn_of_pure h hlefts hrights).test pair hp)
  rw [Expr.selection_gives_iff (pure_secondPass h hr)]
  constructor
  · rintro ⟨_, hrows, hp⟩
    obtain ⟨lefts, rights, hlefts, hrights, rfl⟩ := (firstPass_gives_iff h hr).1 hrows
    exact ⟨lefts, rights, hlefts, hrights, (hpicked lefts rights hlefts hrights).1 hp⟩
  · rintro ⟨lefts, rights, hlefts, hrights, hp⟩
    exact ⟨_, (firstPass_gives_iff h hr).2 ⟨lefts, rights, hlefts, hrights, rfl⟩,
      (hpicked lefts rights hlefts hrights).2 hp⟩

/-- On a pair that the join picks, its mapper is called too. -/
theorem image_of_matched {matched : List (Value × Value)} (hlefts : left.eval.Gives (.ok lefts))
    (hrights : right.eval.Gives (.ok rights))
    (hm : Picked predicate.onPair (lefts ×ˢ rights) matched) (hp : pair ∈ matched) :
    (mapper'.onRow (couple pair)).Mimics (mapper.onPair pair) ∧ (mapper.onPair pair).Stable := by
  obtain ⟨hp, verdict, hv, ht⟩ := hm.of_mem hp
  exact ⟨hr.image hlefts hrights hp,
    (stableOn_of_pure h hlefts hrights).image pair hp verdict ⟨.empty, hv .empty⟩ ht⟩

theorem pure_thirdPass :
    (Expr.projection (.selection (.product left right coupler) predicate') mapper').Pure := by
  refine Expr.pure_projection_iff.2 ⟨pure_secondPass h hr, fun rows hrows row hrow => ?_⟩
  obtain ⟨lefts, rights, hlefts, hrights, matched, hm, rfl⟩ := (secondPass_gives_iff h hr).1 hrows
  obtain ⟨pair, hp, rfl⟩ := List.mem_map.1 hrow
  obtain ⟨hmimics, hstable⟩ := image_of_matched h hr hlefts hrights hm hp
  exact hmimics.stable hstable

/-- The projection has the images of the pairs that the join picks. -/
theorem thirdPass_gives_iff :
    (Expr.projection (.selection (.product left right coupler) predicate') mapper').eval.Gives
        (.ok rows) ↔
      ∃ lefts rights, left.eval.Gives (.ok lefts) ∧ right.eval.Gives (.ok rights) ∧
        ∃ matched, Picked predicate.onPair (lefts ×ˢ rights) matched ∧
          Mapped mapper.onPair matched rows := by
  have hmapped : ∀ lefts rights matched, left.eval.Gives (.ok lefts) → right.eval.Gives (.ok rights) →
      Picked predicate.onPair (lefts ×ˢ rights) matched →
      (Mapped mapper'.onRow (matched.map couple) rows ↔ Mapped mapper.onPair matched rows) := by
    intro lefts rights matched hlefts hrights hm
    refine mapped_map_iff fun pair hp row => ?_
    obtain ⟨hmimics, hstable⟩ := image_of_matched h hr hlefts hrights hm hp
    exact hmimics.gives_iff hstable
  rw [Expr.projection_gives_iff (pure_thirdPass h hr)]
  constructor
  · rintro ⟨_, hrows, himages⟩
    obtain ⟨lefts, rights, hlefts, hrights, matched, hm, rfl⟩ := (secondPass_gives_iff h hr).1 hrows
    exact ⟨lefts, rights, hlefts, hrights, matched, hm,
      (hmapped lefts rights matched hlefts hrights hm).1 himages⟩
  · rintro ⟨lefts, rights, hlefts, hrights, matched, hm, himages⟩
    exact ⟨_, (secondPass_gives_iff h hr).2 ⟨lefts, rights, hlefts, hrights, matched, hm, rfl⟩,
      (hmapped lefts rights matched hlefts hrights hm).2 himages⟩

end Passes

/-! ## The join and the passes -/

/-- A join of pure sides, with callbacks that are pure on their rows, and the projection of the selection of
the product, with callbacks that do together what those of the join do: both are built, and either both have
the same rows, as many as there are places at which the predicate holds, or both fail. -/
theorem join_eq_passes {left right : Expr} {predicate mapper coupler predicate' mapper' : Callback}
    (h : (Expr.join left right predicate mapper).Pure)
    (hr : Recast left right predicate mapper coupler predicate' mapper')
    (hp : predicate.usableOn 2 = true) (hm : mapper.usableOn 2 = true)
    (hc : coupler.usableOn 2 = true) (hp' : predicate'.usableOn 1 = true)
    (hm' : mapper'.usableOn 1 = true) :
    ∃ joined passes, Expr.makeJoin (.expr left) (.expr right) (.callable predicate) (.callable mapper)
        = .ok joined ∧ makePasses left right coupler predicate' mapper' = .ok passes ∧
      ((∃ rows, joined.eval.Gives (.ok rows) ∧ passes.eval.Gives (.ok rows) ∧
          ∃ lefts rights, left.eval.Gives (.ok lefts) ∧ right.eval.Gives (.ok rights) ∧
            rows.length = matchCount predicate lefts rights) ∨
        ∃ fault fault', joined.eval.Gives (.error fault) ∧ passes.eval.Gives (.error fault')) := by
  have hmake : makePasses left right coupler predicate' mapper' =
      .ok (.projection (.selection (.product left right coupler) predicate') mapper') := by
    rw [makePasses, Expr.makeProduct_usable hc, ok_bind, Expr.makeSelection_usable hp', ok_bind,
      Expr.makeProjection_usable hm']
  refine ⟨_, _, Expr.makeJoin_usable hp hm left right, hmake, ?_⟩
  have hjoin : ∀ rows, (Expr.join left right predicate mapper).eval.Gives (.ok rows) ↔ _ :=
    fun rows => (Pairing.join predicate mapper).node_gives_iff_matched h
  obtain ⟨rows, hrows, hrows'⟩ | hfaults := h.stable.agree (pure_thirdPass h hr).stable
    fun rows => (hjoin rows).trans (thirdPass_gives_iff h hr).symm
  · obtain ⟨lefts, rights, hlefts, hrights, matched, hmatched, himages⟩ :=
      (thirdPass_gives_iff h hr).1 hrows'
    refine .inl ⟨rows, hrows, hrows', lefts, rights, hlefts, hrights, ?_⟩
    rw [matchCount_eq, List.countP_eq_length_filter, ← hmatched.eq_filter]
    exact himages.length_eq.symm
  · exact .inr hfaults

/-- A predicate whose answer is the right row where the left one is true, and the left row where it is not:
numbers and texts decide, and no answer is a truth value. -/
theorem join_eq_passes_swapped :
    let both : Callback := .function ⟨0, .named, "both"⟩ [.required "x", .required "y"]
      (.and (.argument "x") (.argument "y")) []
    let swap : Callback := .function ⟨1, .named, "swap"⟩ [.required "x", .required "y"]
      (.tuple [.argument "y", .argument "x"]) []
    let coupler : Callback := .function ⟨2, .named, "couple"⟩ [.required "x", .required "y"]
      (.tuple [.argument "x", .argument "y"]) []
    let first : Code := .item (.argument "pair") (.literal (.int 0))
    let second : Code := .item (.argument "pair") (.literal (.int 1))
    let both' : Callback :=
      .function ⟨3, .named, "both_of"⟩ [.required "pair"] (.and first second) []
    let swap' : Callback :=
      .function ⟨4, .named, "swap_of"⟩ [.required "pair"] (.tuple [second, first]) []
    let left : Expr := .terminal [.int 0, .int 3, .int 3]
    let right : Expr := .terminal [.text "", .text "b"]
    let rows : List Value := [.tuple [.text "b", .int 3], .tuple [.text "b", .int 3]]
    (Expr.join left right both swap).Pure ∧ Recast left right both swap coupler both' swap' ∧
      ∃ passes, makePasses left right coupler both' swap' = .ok passes ∧
        passes.eval.Gives (.ok rows) := by
  intro both swap coupler first second both' swap' left right rows
  have hboth : ∀ l r, (both.call [l, r]).Gives (.ok (if l.truthy then r else l)) := by
    intro l r store
    show ((if l.truthy then (pure r : Eval Value) else pure l) store).result = _
    split <;> rfl
  have hpure : (Expr.join left right both swap).Pure :=
    (Pairing.join both swap).pure_node_iff.2 ⟨⟨Expr.pure_terminal _, Expr.pure_terminal _⟩,
      fun _ _ _ _ => ⟨fun _ _ => (hboth _ _).stable, fun _ _ _ _ _ _ _ => rfl⟩⟩
  have hrecast : Recast left right both swap coupler both' swap' :=
    ⟨fun _ _ _ _ _ => rfl, fun _ _ _ _ _ hg => hg, fun _ _ _ _ _ hg => hg⟩
  obtain ⟨joined, passes, hj, hp, ⟨rows', hrows, hrows', -⟩ | ⟨fault, -, hfault, -⟩⟩ :=
    join_eq_passes hpure hrecast rfl rfl rfl rfl rfl
  · cases hj
    have heq : rows' = rows := by
      cases hrows .empty
      rfl
    exact ⟨hpure, hrecast, passes, hp, heq ▸ hrows'⟩
  · cases hj
    cases hfault .empty

end BagAlgebra
