/-
Changes of lists. To change a list makes a difference only to values that mention it, and it brings no
other objects into them than those of the new items.
-/
import BagAlgebra.Script.Cell
import BagAlgebra.Value.Objects

namespace BagAlgebra

/-! ## Values that do not mention the list -/

section Unmentioned

variable {cell : Nat} {items : List Value}

theorem not_mem_append {o : Object} {l m : List Object} (h : o ∉ l ++ m) : o ∉ l ∧ o ∉ m := by
  rwa [List.mem_append, not_or] at h

mutual

/-- A value that does not mention a list stays as it is when the list is changed. -/
theorem Value.replaceCell_eq_self : ∀ v : Value, ⟨.list, cell⟩ ∉ v.objects →
    v.replaceCell cell items = v
  | .null, _ => rfl
  | .bool _, _ => rfl
  | .int _, _ => rfl
  | .float _, _ => rfl
  | .nan _, _ => rfl
  | .text _, _ => rfl
  | .tuple vs, h => by rw [Value.replaceCell, replaceCellItems_eq_self vs h]
  | .list c vs, h => by
    obtain ⟨hc, hvs⟩ := not_mem_append h
    have hne : c ≠ some cell := by
      rintro rfl
      exact hc (List.mem_singleton.2 rfl)
    rw [Value.replaceCell, if_neg hne, replaceCellItems_eq_self vs hvs]
  | .dict es, h => by rw [Value.replaceCell, replaceCellEntries_eq_self es h]
  | .generator _ vs, h => by
    rw [Value.replaceCell, replaceCellItems_eq_self vs fun ho => h (List.mem_cons_of_mem _ ho)]
  | .range _, _ => rfl
  | .callable f, h => by rw [Value.replaceCell, f.replaceCell_eq_self h]
  | .expr e, h => by rw [Value.replaceCell, e.replaceCell_eq_self h]
  | .builder e, h => by rw [Value.replaceCell, e.replaceCell_eq_self h]

theorem replaceCellItems_eq_self : ∀ vs : List Value, ⟨.list, cell⟩ ∉ objectsOfItems vs →
    replaceCellItems cell items vs = vs
  | [], _ => rfl
  | v :: vs, h => by
    obtain ⟨hv, hvs⟩ := not_mem_append h
    rw [replaceCellItems, v.replaceCell_eq_self hv, replaceCellItems_eq_self vs hvs]

theorem Entry.replaceCell_eq_self : ∀ e : Entry, ⟨.list, cell⟩ ∉ e.objects →
    e.replaceCell cell items = e
  | .mk key value, h => by
    obtain ⟨hk, hv⟩ := not_mem_append h
    rw [Entry.replaceCell, key.replaceCell_eq_self hk, value.replaceCell_eq_self hv]

theorem replaceCellEntries_eq_self : ∀ es : List Entry, ⟨.list, cell⟩ ∉ objectsOfEntries es →
    replaceCellEntries cell items es = es
  | [], _ => rfl
  | e :: es, h => by
    obtain ⟨he, hes⟩ := not_mem_append h
    rw [replaceCellEntries, e.replaceCell_eq_self he, replaceCellEntries_eq_self es hes]

theorem Callback.replaceCell_eq_self : ∀ f : Callback, ⟨.list, cell⟩ ∉ f.objects →
    f.replaceCell cell items = f
  | .builtin _, _ => rfl
  | .always, _ => rfl
  | .function _ _ _ captured, h => by
    rw [Callback.replaceCell,
      replaceCellItems_eq_self captured fun ho => h (List.mem_cons_of_mem _ ho)]

theorem Expr.replaceCell_eq_self : ∀ e : Expr, ⟨.list, cell⟩ ∉ e.objects →
    e.replaceCell cell items = e
  | .bare _, _ => rfl
  | .terminal rows, h => by rw [Expr.replaceCell, replaceCellItems_eq_self rows h]
  | .selection child p, h => by
    obtain ⟨hc, hp⟩ := not_mem_append h
    rw [Expr.replaceCell, child.replaceCell_eq_self hc, p.replaceCell_eq_self hp]
  | .projection child f, h => by
    obtain ⟨hc, hf⟩ := not_mem_append h
    rw [Expr.replaceCell, child.replaceCell_eq_self hc, f.replaceCell_eq_self hf]
  | .join left right p f, h => by
    obtain ⟨hs, hc⟩ := not_mem_append h
    obtain ⟨hl, hr⟩ := not_mem_append hs
    obtain ⟨hp, hf⟩ := not_mem_append hc
    rw [Expr.replaceCell, left.replaceCell_eq_self hl, right.replaceCell_eq_self hr,
      p.replaceCell_eq_self hp, f.replaceCell_eq_self hf]
  | .product left right f, h => by
    obtain ⟨hs, hf⟩ := not_mem_append h
    obtain ⟨hl, hr⟩ := not_mem_append hs
    rw [Expr.replaceCell, left.replaceCell_eq_self hl, right.replaceCell_eq_self hr,
      f.replaceCell_eq_self hf]
  | .union left right, h => by
    obtain ⟨hl, hr⟩ := not_mem_append h
    rw [Expr.replaceCell, left.replaceCell_eq_self hl, right.replaceCell_eq_self hr]
  | .filter _ left right _, h => by
    obtain ⟨hl, hr⟩ := not_mem_append h
    rw [Expr.replaceCell, left.replaceCell_eq_self hl, right.replaceCell_eq_self hr]

end

end Unmentioned

/-! ## The objects after a change -/

section Objects

variable {cell : Nat} {items : List Value} {P : Object → Prop}

mutual

/-- What holds of the objects of a value and of new items holds of those of the changed value. -/
theorem Value.objects_replaceCell (hi : ∀ o ∈ objectsOfItems items, P o) :
    ∀ v : Value, (∀ o ∈ v.objects, P o) → ∀ o ∈ (v.replaceCell cell items).objects, P o
  | .null, h => h
  | .bool _, h => h
  | .int _, h => h
  | .float _, h => h
  | .nan _, h => h
  | .text _, h => h
  | .tuple vs, h => objects_replaceCellItems hi vs h
  | .list c vs, h => by
    obtain ⟨hc, hvs⟩ := List.forall_mem_append.1 h
    rw [Value.replaceCell]
    split
    · exact List.forall_mem_append.2 ⟨hc, hi⟩
    · exact List.forall_mem_append.2 ⟨hc, objects_replaceCellItems hi vs hvs⟩
  | .dict es, h => objects_replaceCellEntries hi es h
  | .generator _ vs, h => by
    obtain ⟨hs, hvs⟩ := List.forall_mem_cons.1 h
    exact List.forall_mem_cons.2 ⟨hs, objects_replaceCellItems hi vs hvs⟩
  | .range _, h => h
  | .callable f, h => f.objects_replaceCell hi h
  | .expr e, h => e.objects_replaceCell hi h
  | .builder e, h => e.objects_replaceCell hi h

theorem objects_replaceCellItems (hi : ∀ o ∈ objectsOfItems items, P o) :
    ∀ vs : List Value, (∀ o ∈ objectsOfItems vs, P o) →
      ∀ o ∈ objectsOfItems (replaceCellItems cell items vs), P o
  | [], h => h
  | v :: vs, h => by
    obtain ⟨hv, hvs⟩ := List.forall_mem_append.1 h
    exact List.forall_mem_append.2 ⟨v.objects_replaceCell hi hv, objects_replaceCellItems hi vs hvs⟩

theorem Entry.objects_replaceCell (hi : ∀ o ∈ objectsOfItems items, P o) :
    ∀ e : Entry, (∀ o ∈ e.objects, P o) →
      ∀ o ∈ (e.replaceCell cell items).objects, P o
  | .mk key value, h => by
    obtain ⟨hk, hv⟩ := List.forall_mem_append.1 h
    exact List.forall_mem_append.2 ⟨key.objects_replaceCell hi hk, value.objects_replaceCell hi hv⟩

theorem objects_replaceCellEntries (hi : ∀ o ∈ objectsOfItems items, P o) :
    ∀ es : List Entry, (∀ o ∈ objectsOfEntries es, P o) →
      ∀ o ∈ objectsOfEntries (replaceCellEntries cell items es), P o
  | [], h => h
  | e :: es, h => by
    obtain ⟨he, hes⟩ := List.forall_mem_append.1 h
    exact List.forall_mem_append.2 ⟨e.objects_replaceCell hi he, objects_replaceCellEntries hi es hes⟩

theorem Callback.objects_replaceCell (hi : ∀ o ∈ objectsOfItems items, P o) :
    ∀ f : Callback, (∀ o ∈ f.objects, P o) →
      ∀ o ∈ (f.replaceCell cell items).objects, P o
  | .builtin _, h => h
  | .always, h => h
  | .function _ _ _ captured, h => by
    obtain ⟨hs, hc⟩ := List.forall_mem_cons.1 h
    exact List.forall_mem_cons.2 ⟨hs, objects_replaceCellItems hi captured hc⟩

theorem Expr.objects_replaceCell (hi : ∀ o ∈ objectsOfItems items, P o) :
    ∀ e : Expr, (∀ o ∈ e.objects, P o) →
      ∀ o ∈ (e.replaceCell cell items).objects, P o
  | .bare _, h => h
  | .terminal rows, h => objects_replaceCellItems hi rows h
  | .selection child p, h => by
    obtain ⟨hc, hp⟩ := List.forall_mem_append.1 h
    exact List.forall_mem_append.2 ⟨child.objects_replaceCell hi hc, p.objects_replaceCell hi hp⟩
  | .projection child f, h => by
    obtain ⟨hc, hf⟩ := List.forall_mem_append.1 h
    exact List.forall_mem_append.2 ⟨child.objects_replaceCell hi hc, f.objects_replaceCell hi hf⟩
  | .join left right p f, h => by
    obtain ⟨hs, hc⟩ := List.forall_mem_append.1 h
    obtain ⟨hl, hr⟩ := List.forall_mem_append.1 hs
    obtain ⟨hp, hf⟩ := List.forall_mem_append.1 hc
    exact List.forall_mem_append.2
      ⟨List.forall_mem_append.2 ⟨left.objects_replaceCell hi hl, right.objects_replaceCell hi hr⟩,
        List.forall_mem_append.2 ⟨p.objects_replaceCell hi hp, f.objects_replaceCell hi hf⟩⟩
  | .product left right f, h => by
    obtain ⟨hs, hf⟩ := List.forall_mem_append.1 h
    obtain ⟨hl, hr⟩ := List.forall_mem_append.1 hs
    exact List.forall_mem_append.2
      ⟨List.forall_mem_append.2 ⟨left.objects_replaceCell hi hl, right.objects_replaceCell hi hr⟩,
        f.objects_replaceCell hi hf⟩
  | .union left right, h => by
    obtain ⟨hl, hr⟩ := List.forall_mem_append.1 h
    exact List.forall_mem_append.2 ⟨left.objects_replaceCell hi hl, right.objects_replaceCell hi hr⟩
  | .filter _ left right _, h => by
    obtain ⟨hl, hr⟩ := List.forall_mem_append.1 h
    exact List.forall_mem_append.2 ⟨left.objects_replaceCell hi hl, right.objects_replaceCell hi hr⟩

end

end Objects

end BagAlgebra
