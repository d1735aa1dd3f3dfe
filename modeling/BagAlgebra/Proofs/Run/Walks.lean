/-
Walks over collections. What is done with each item may fail, but where it neither logs nor looks at the store, the
result of a walk is that of doing it for one item after another, whether the items are stored or drawn from a
generator. A walk over stored items leaves the store as it is.
-/
import BagAlgebra.Proofs.Run.Stable
import BagAlgebra.Value.Sequence

namespace BagAlgebra

variable {ε β : Type}

/-! ## Stored items -/

theorem forEach_of_items {v : Value} {rows : List Value} (h : v.items? = some rows) (use : Value → Run ε β) :
    v.forEach use = rows.mapM use := by
  cases v with
  | text | tuple | list | dict | range =>
    cases h
    rfl
  | _ => cases h

/-- Items that are stored are collected without a change of the store. -/
theorem store_collect_of_items {v : Value} {items : List Value} (h : v.items? = some items) (store : Store) :
    ((v.collect : Run ε (List Value)) store).store = store := by
  cases v with
  | range span =>
    rw [Value.collect]
    split
    · rfl
    · split <;> rfl
  | text | tuple | list | dict =>
    show ((Value.forEach _ pure : Run ε (List Value)) store).store = store
    rw [forEach_of_items h, List.mapM_pure]
    rfl
  | _ => cases h

theorem result_mapM_lift (use : Value → Except Fault β) (rows : List Value) (store : Store) :
    ((rows.mapM fun row => (liftM (use row) : Run ε β)) store).result = rows.mapM use := by
  have stable : ∀ row ∈ rows, (liftM (use row) : Run ε β).Stable := fun row _ => Run.stable_ofExcept (use row)
  rw [(Run.stable_mapM stable).result_eq store, Run.answer_mapM stable]
  rfl

/-! ## Generators -/

theorem result_drawEach (serial : Nat) (use : Value → Except Fault β) (items : List Value) (store : Store) :
    ((Value.drawEach serial (fun v => (liftM (use v) : Run ε β)) items) store).result = items.mapM use := by
  induction items generalizing store with
  | nil => rfl
  | cons v items ih =>
    rw [Value.drawEach, List.mapM_cons, Run.result_then]
    show ((liftM (use v) >>= fun b => Value.drawEach serial _ items >>= fun bs => pure (b :: bs) : Run ε (List β))
      (store.advance serial 1)).result = _
    rw [Run.result_lift_then]
    refine bind_congr fun b => ?_
    rw [Run.result_then, ih]
    rfl

/-- A generator that has given nothing yet gives all of its items. -/
theorem result_forEach_unused {serial : Nat} {store : Store} (unused : store.drawn serial = 0) (items : List Value)
    (use : Value → Except Fault β) :
    (((Value.generator serial items).forEach fun v => (liftM (use v) : Run ε β)) store).result = items.mapM use := by
  show ((Run.drawn serial >>= fun count => Value.drawEach serial _ (items.drop count) : Run ε (List β)) store).result
    = _
  rw [Run.result_then]
  show ((Value.drawEach serial _ (items.drop (store.drawn serial)) : Run ε (List β)) store).result = _
  rw [unused, List.drop_zero, result_drawEach]

end BagAlgebra
