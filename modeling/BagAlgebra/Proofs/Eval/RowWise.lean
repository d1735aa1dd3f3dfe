/-
The rules of the operators as walks over a list: each row, or each pair of rows, is dealt with on its
own, in order, and the rows that come of it are put together at the end.
-/
import BagAlgebra.Expr.Eval
import BagAlgebra.Proofs.Run.Answers
import Mathlib.Data.List.ProdSigma

namespace BagAlgebra

/-- What a selection makes of one row: the row itself, or nothing. -/
def selectOne (predicate : Callback) (row : Value) : Eval (List Value) := do
  let verdict ← predicate.call [row]
  return if verdict.truthy then [row] else []

/-- What a join makes of one pair: the image of the pair, or nothing. -/
def joinOne (predicate mapper : Callback) (pair : Value × Value) : Eval (List Value) := do
  let verdict ← predicate.call [pair.1, pair.2]
  if verdict.truthy then return [← mapper.call [pair.1, pair.2]] else return []

/-- The list that a walk gives, put together from the lists of its members. -/
def walk {α : Type} (each : α → Eval (List Value)) (items : List α) : Eval (List Value) := do
  return (← items.mapM each).flatten

variable {α : Type}

theorem walk_nil (each : α → Eval (List Value)) : walk each [] = pure [] := by
  rw [walk, List.mapM_nil, pure_bind]; rfl

theorem walk_cons (each : α → Eval (List Value)) (item : α) (items : List α) :
    walk each (item :: items) = do
      let first ← each item
      let rest ← walk each items
      return first ++ rest := by
  simp only [walk, List.mapM_cons, bind_assoc, pure_bind, List.flatten_cons]

theorem walk_append (each : α → Eval (List Value)) (items more : List α) :
    walk each (items ++ more) = do
      let first ← walk each items
      let rest ← walk each more
      return first ++ rest := by
  simp only [walk, List.mapM_append, bind_assoc, pure_bind, List.flatten_append]

theorem keepWhere_eq_walk (predicate : Callback) (rows : List Value) :
    keepWhere predicate rows = walk (selectOne predicate) rows := by
  induction rows with
  | nil => rw [walk_nil]; rfl
  | cons row rows ih =>
    rw [walk_cons, keepWhere, ih, selectOne, bind_assoc]
    refine bind_congr fun verdict => ?_
    rw [pure_bind]
    refine bind_congr fun kept => ?_
    cases verdict.truthy <;> rfl

theorem mapRows_eq_mapM (mapper : Callback) (rows : List Value) :
    mapRows mapper rows = rows.mapM fun row => mapper.call [row] := by
  induction rows with
  | nil => rw [List.mapM_nil]; rfl
  | cons row rows ih => rw [List.mapM_cons, mapRows, ih]

theorem joinRow_eq_walk (predicate mapper : Callback) (left : Value) (rights : List Value) :
    joinRow predicate mapper left rights
      = walk (joinOne predicate mapper) (rights.map (Prod.mk left)) := by
  induction rights with
  | nil => rw [List.map_nil, walk_nil]; rfl
  | cons right rights ih =>
    rw [List.map_cons, walk_cons, joinRow, ih, joinOne, bind_assoc]
    refine bind_congr fun verdict => ?_
    cases verdict.truthy with
    | false => simp
    | true => simp

theorem joinRows_eq_walk (predicate mapper : Callback) (lefts rights : List Value) :
    joinRows predicate mapper lefts rights
      = walk (joinOne predicate mapper) (lefts ×ˢ rights) := by
  induction lefts with
  | nil => rw [List.nil_product, walk_nil]; rfl
  | cons left lefts ih =>
    rw [List.product_cons, walk_append, joinRows, ih, joinRow_eq_walk]

/-- The rows that a filter keeps are those whose occurrence on the right is the wanted one. -/
theorem keepHits_scan (wanted : Bool) (rows rights : List Value) :
    keepHits wanted rows (occurrencesByScan rows rights)
      = rows.filter fun row => occurs row rights == wanted := by
  rw [keepHits, occurrencesByScan]
  induction rows with
  | nil => rfl
  | cons row rows ih =>
    rw [List.map_cons, List.zip_cons_cons, List.filter_cons, List.filter_cons]
    cases occurs row rights == wanted with
    | false => exact ih
    | true => exact congrArg (row :: ·) ih

/-! ## Rows that are let through -/

theorem keepWhere_subset {predicate : Callback} {rows kept : List Value}
    (h : (keepWhere predicate rows).Answers kept) : kept ⊆ rows := by
  induction rows generalizing kept with
  | nil =>
    rw [Run.answers_pure h]
    exact List.Subset.refl _
  | cons row rows ih =>
    obtain ⟨verdict, _, h⟩ := h.of_bind
    obtain ⟨rest, hr, h⟩ := h.of_bind
    rw [Run.answers_pure h]
    split
    · exact List.cons_subset_cons row (ih hr)
    · exact List.subset_cons_of_subset row (ih hr)

theorem keepHits_subset (wanted : Bool) (rows : List Value) (hits : List Bool) :
    keepHits wanted rows hits ⊆ rows := by
  intro row hr
  obtain ⟨p, hp, rfl⟩ := List.mem_map.1 hr
  exact (List.of_mem_zip (List.mem_filter.1 hp).1).1

end BagAlgebra
