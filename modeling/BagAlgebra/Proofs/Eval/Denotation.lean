/-
What trees denote. Where the rows of a tree are the encodings of some data, and its callbacks do to the
rows what plain functions do to the data, a selection is a filter of the data, a projection a map, a
join the image of the pairs that match, and a product that of all pairs. The sides of a union and of an
intersection have to share a shape.
-/
import BagAlgebra.Proofs.Eval.Pure
import BagAlgebra.Proofs.Row.Uniform

namespace BagAlgebra

open Run

variable {α β γ : Type} {enc : α → Value} {enc' : β → Value} {enc'' : γ → Value}

/-! ## Rules of the operators -/

theorem keepWhere_gives {predicate : Callback} {p : α → Bool}
    (h : ∀ a, (predicate.call [enc a]).Gives (.ok (.bool (p a)))) (as : List α) :
    (keepWhere predicate (as.map enc)).Gives (.ok ((as.filter p).map enc)) := by
  induction as with
  | nil => exact gives_pure _
  | cons a as ih =>
    rw [List.map_cons, keepWhere, List.filter_cons]
    refine (h a).bind (ih.bind ?_)
    cases p a <;> exact gives_pure _

theorem mapRows_gives {mapper : Callback} {f : α → β}
    (h : ∀ a, (mapper.call [enc a]).Gives (.ok (enc' (f a)))) (as : List α) :
    (mapRows mapper (as.map enc)).Gives (.ok ((as.map f).map enc')) := by
  rw [mapRows_eq_mapM, List.mapM_map, List.map_map]
  exact gives_mapM fun a _ => h a

section Join

variable {predicate mapper : Callback} {p : α → β → Bool} {f : α → β → γ}

theorem joinRow_gives
    (hp : ∀ a b, (predicate.call [enc a, enc' b]).Gives (.ok (.bool (p a b))))
    (hm : ∀ a b, (mapper.call [enc a, enc' b]).Gives (.ok (enc'' (f a b)))) (a : α) (bs : List β) :
    (joinRow predicate mapper (enc a) (bs.map enc')).Gives
      (.ok (((bs.filter (p a)).map (f a)).map enc'')) := by
  induction bs with
  | nil => exact gives_pure _
  | cons b bs ih =>
    rw [List.map_cons, joinRow, List.filter_cons]
    refine (hp a b).bind ?_
    cases p a b with
    | false => exact ih
    | true => exact (hm a b).bind (ih.map _)

theorem joinRows_gives
    (hp : ∀ a b, (predicate.call [enc a, enc' b]).Gives (.ok (.bool (p a b))))
    (hm : ∀ a b, (mapper.call [enc a, enc' b]).Gives (.ok (enc'' (f a b)))) (as : List α)
    (bs : List β) :
    (joinRows predicate mapper (as.map enc) (bs.map enc')).Gives
      (.ok ((((as ×ˢ bs).filter (Function.uncurry p)).map (Function.uncurry f)).map enc'')) := by
  induction as with
  | nil => exact gives_pure _
  | cons a as ih =>
    rw [List.map_cons, joinRows, List.product_cons, List.filter_append, List.filter_map,
      List.map_append, List.map_append]
    -- the pairs of the first row have its image on the left
    have hpairs : ((bs.filter (Function.uncurry p ∘ Prod.mk a)).map (Prod.mk a)).map
        (Function.uncurry f) = (bs.filter (p a)).map (f a) := List.map_map
    rw [hpairs]
    exact (joinRow_gives hp hm a bs).bind (ih.map _)

end Join

/-! ## Trees -/

namespace Expr

theorem eval_terminal_gives (rows : List Value) : (terminal rows).eval.Gives (.ok rows) :=
  gives_pure rows

theorem eval_selection_gives {child : Expr} {predicate : Callback} {as : List α} {p : α → Bool}
    (hc : child.eval.Gives (.ok (as.map enc)))
    (hp : ∀ a, (predicate.call [enc a]).Gives (.ok (.bool (p a)))) :
    (selection child predicate).eval.Gives (.ok ((as.filter p).map enc)) :=
  hc.bind ((keepWhere_gives hp as).bind ((gives_emit _).bind (gives_pure _)))

theorem eval_projection_gives {child : Expr} {mapper : Callback} {as : List α} {f : α → β}
    (hc : child.eval.Gives (.ok (as.map enc)))
    (hm : ∀ a, (mapper.call [enc a]).Gives (.ok (enc' (f a)))) :
    (projection child mapper).eval.Gives (.ok ((as.map f).map enc')) :=
  hc.bind (mapRows_gives hm as)

section Sides

variable {left right : Expr} {as : List α} {bs : List β}

theorem eval_join_gives {predicate mapper : Callback} {p : α → β → Bool} {f : α → β → γ}
    (hl : left.eval.Gives (.ok (as.map enc))) (hr : right.eval.Gives (.ok (bs.map enc')))
    (hp : ∀ a b, (predicate.call [enc a, enc' b]).Gives (.ok (.bool (p a b))))
    (hm : ∀ a b, (mapper.call [enc a, enc' b]).Gives (.ok (enc'' (f a b)))) :
    (join left right predicate mapper).eval.Gives
      (.ok ((((as ×ˢ bs).filter (Function.uncurry p)).map (Function.uncurry f)).map enc'')) :=
  hl.bind (hr.bind ((joinRows_gives hp hm as bs).bind ((gives_emit _).bind (gives_pure _))))

theorem eval_product_gives {mapper : Callback} {f : α → β → γ}
    (hl : left.eval.Gives (.ok (as.map enc))) (hr : right.eval.Gives (.ok (bs.map enc')))
    (hm : ∀ a b, (mapper.call [enc a, enc' b]).Gives (.ok (enc'' (f a b)))) :
    (product left right mapper).eval.Gives
      (.ok (((as ×ˢ bs).map (Function.uncurry f)).map enc'')) := by
  have hp : ∀ a b, (Callback.always.call [enc a, enc' b]).Gives (.ok (.bool true)) :=
    fun _ _ => gives_pure _
  have hall : (as ×ˢ bs).filter (Function.uncurry fun _ _ => true) = as ×ˢ bs :=
    List.filter_eq_self.2 fun _ _ => rfl
  have h := eval_join_gives hl hr hp hm
  rwa [hall] at h

theorem eval_union_gives {lefts rights : List Value} (hl : left.eval.Gives (.ok lefts))
    (hr : right.eval.Gives (.ok rights)) (h : Uniform (lefts ++ rights)) :
    (union left right).eval.Gives (.ok (lefts ++ rights)) := by
  refine hl.bind (hr.bind ?_)
  rw [requireSharedShape_ok_iff.2 h]
  exact gives_pure _

/-- Whatever the strategy, a filter keeps the rows whose occurrence on the right is the wanted one. -/
theorem eval_filter_gives {lefts rights : List Value} (kind : FilterKind) (strategy : Strategy)
    (hl : left.eval.Gives (.ok lefts)) (hr : right.eval.Gives (.ok rights))
    (h : Uniform (lefts ++ rights)) :
    (filter kind left right strategy).eval.Gives
      (.ok (lefts.filter fun row => occurs row rights == kind.keepsMatches)) := by
  refine hl.bind (hr.bind ?_)
  rw [requireSharedShape_ok_iff.2 h, ← keepHits_scan]
  exact (gives_pure ()).bind (Gives.map (occurrences_result kind strategy lefts rights) _)

/-- A filter of data that is told apart by its rows. -/
theorem eval_filter_gives_data [BEq α] [LawfulBEq α] {bs : List α} (kind : FilterKind)
    (strategy : Strategy) (hl : left.eval.Gives (.ok (as.map enc)))
    (hr : right.eval.Gives (.ok (bs.map enc))) (h : Uniform (as.map enc ++ bs.map enc))
    (hs : ∀ a b, (enc a).same (enc b) = (a == b)) :
    (filter kind left right strategy).eval.Gives
      (.ok ((as.filter fun a => bs.contains a == kind.keepsMatches).map enc)) := by
  have ho : ∀ a, occurs (enc a) (bs.map enc) = bs.contains a := by
    intro a
    rw [occurs, List.any_map, List.contains_eq_any_beq]
    refine List.any_congr rfl fun b => ?_
    rw [Function.comp, hs, BEq.comm]
  have hf := eval_filter_gives kind strategy hl hr h
  rw [List.filter_map] at hf
  simpa only [Function.comp_def, ho] using hf

end Sides

end Expr

end BagAlgebra
