/-
Values under new names. The objects that a value mentions can be renamed, and that does nothing to a value
that does not mention the objects concerned.
-/
import BagAlgebra.Event
import BagAlgebra.Value.Objects
import Mathlib.Data.List.Basic
import Mathlib.Logic.Embedding.Basic

namespace BagAlgebra

/-! ## Renaming -/

def Handle.rename (ρ : Nat ↪ Nat) (handle : Handle) : Handle :=
  { handle with serial := ρ handle.serial }

mutual

/-- The value with every object renamed. -/
def Value.rename (ρ : Nat ↪ Nat) : Value → Value
  | .nan serial => .nan (ρ serial)
  | .tuple items => .tuple (renameItems ρ items)
  | .list cell items => .list (cell.map ρ) (renameItems ρ items)
  | .dict entries => .dict (renameEntries ρ entries)
  | .generator serial items => .generator (ρ serial) (renameItems ρ items)
  | .callable f => .callable (f.rename ρ)
  | .expr e => .expr (e.rename ρ)
  | .builder e => .builder (e.rename ρ)
  | v => v
termination_by structural v => v

def renameItems (ρ : Nat ↪ Nat) : List Value → List Value
  | [] => []
  | v :: vs => v.rename ρ :: renameItems ρ vs
termination_by structural vs => vs

def Entry.rename (ρ : Nat ↪ Nat) : Entry → Entry
  | .mk key value => .mk (key.rename ρ) (value.rename ρ)
termination_by structural e => e

def renameEntries (ρ : Nat ↪ Nat) : List Entry → List Entry
  | [] => []
  | e :: es => e.rename ρ :: renameEntries ρ es
termination_by structural es => es

def Callback.rename (ρ : Nat ↪ Nat) : Callback → Callback
  | .function handle params body captured =>
    .function (handle.rename ρ) params body (renameItems ρ captured)
  | f => f
termination_by structural f => f

def Expr.rename (ρ : Nat ↪ Nat) : Expr → Expr
  | .bare serial => .bare (ρ serial)
  | .terminal rows => .terminal (renameItems ρ rows)
  | .selection child p => .selection (child.rename ρ) (p.rename ρ)
  | .projection child f => .projection (child.rename ρ) (f.rename ρ)
  | .join left right p f => .join (left.rename ρ) (right.rename ρ) (p.rename ρ) (f.rename ρ)
  | .product left right f => .product (left.rename ρ) (right.rename ρ) (f.rename ρ)
  | .union left right => .union (left.rename ρ) (right.rename ρ)
  | .filter kind left right strategy => .filter kind (left.rename ρ) (right.rename ρ) strategy
termination_by structural e => e

end

/-- The event with every object renamed. -/
def Event.rename (ρ : Nat ↪ Nat) : Event → Event
  | .traced label v => .traced label (v.rename ρ)
  | event => event

theorem renameItems_eq_map (ρ : Nat ↪ Nat) (vs : List Value) :
    renameItems ρ vs = vs.map (Value.rename ρ) := by
  induction vs with
  | nil => rfl
  | cons v vs ih => rw [renameItems, ih, List.map_cons]

theorem renameEntries_eq_map (ρ : Nat ↪ Nat) (es : List Entry) :
    renameEntries ρ es = es.map (Entry.rename ρ) := by
  induction es with
  | nil => rfl
  | cons e es ih => rw [renameEntries, ih, List.map_cons]

@[simp] theorem Entry.key_rename (ρ : Nat ↪ Nat) (e : Entry) : (e.rename ρ).key = e.key.rename ρ := by
  cases e; rfl

@[simp] theorem Entry.value_rename (ρ : Nat ↪ Nat) (e : Entry) :
    (e.rename ρ).value = e.value.rename ρ := by
  cases e; rfl

/-! ## Values that do not mention the objects concerned -/

section Unmentioned

variable {ρ : Nat ↪ Nat}

mutual

/-- A renaming that fixes the objects of a value fixes the value. -/
theorem Value.rename_eq_self : ∀ v : Value, (∀ o ∈ v.objects, ρ o.serial = o.serial) → v.rename ρ = v
  | .null, _ => rfl
  | .bool _, _ => rfl
  | .int _, _ => rfl
  | .float _, _ => rfl
  | .nan serial, h => by
    have hs : ρ serial = serial := h _ (List.mem_singleton.2 rfl)
    rw [Value.rename, hs]
  | .text _, _ => rfl
  | .tuple items, h => by rw [Value.rename, renameItems_eq_self items h]
  | .list cell items, h => by
    obtain ⟨hcell, hitems⟩ := List.forall_mem_append.1 h
    rw [Value.rename, renameItems_eq_self items hitems]
    cases cell with
    | none => rfl
    | some c =>
      have hc : ρ c = c := hcell ⟨.list, c⟩ (List.mem_singleton.2 rfl)
      rw [Option.map_some, hc]
  | .dict entries, h => by rw [Value.rename, renameEntries_eq_self entries h]
  | .generator serial items, h => by
    obtain ⟨hs, hitems⟩ := List.forall_mem_cons.1 h
    rw [Value.rename, hs, renameItems_eq_self items hitems]
  | .range _, _ => rfl
  | .callable f, h => by rw [Value.rename, f.rename_eq_self h]
  | .expr e, h => by rw [Value.rename, e.rename_eq_self h]
  | .builder e, h => by rw [Value.rename, e.rename_eq_self h]

theorem renameItems_eq_self : ∀ vs : List Value,
    (∀ o ∈ objectsOfItems vs, ρ o.serial = o.serial) → renameItems ρ vs = vs
  | [], _ => rfl
  | v :: vs, h => by
    obtain ⟨hv, hvs⟩ := List.forall_mem_append.1 h
    rw [renameItems, v.rename_eq_self hv, renameItems_eq_self vs hvs]

theorem Entry.rename_eq_self : ∀ e : Entry,
    (∀ o ∈ e.objects, ρ o.serial = o.serial) → e.rename ρ = e
  | .mk key value, h => by
    obtain ⟨hk, hv⟩ := List.forall_mem_append.1 h
    rw [Entry.rename, key.rename_eq_self hk, value.rename_eq_self hv]

theorem renameEntries_eq_self : ∀ es : List Entry,
    (∀ o ∈ objectsOfEntries es, ρ o.serial = o.serial) → renameEntries ρ es = es
  | [], _ => rfl
  | e :: es, h => by
    obtain ⟨he, hes⟩ := List.forall_mem_append.1 h
    rw [renameEntries, e.rename_eq_self he, renameEntries_eq_self es hes]

theorem Callback.rename_eq_self : ∀ f : Callback,
    (∀ o ∈ f.objects, ρ o.serial = o.serial) → f.rename ρ = f
  | .builtin _, _ => rfl
  | .always, _ => rfl
  | .function handle params body captured, h => by
    obtain ⟨hs, hc⟩ := List.forall_mem_cons.1 h
    rw [Callback.rename, Handle.rename, hs, renameItems_eq_self captured hc]

theorem Expr.rename_eq_self : ∀ e : Expr,
    (∀ o ∈ e.objects, ρ o.serial = o.serial) → e.rename ρ = e
  | .bare serial, h => by
    have hs : ρ serial = serial := h _ (List.mem_singleton.2 rfl)
    rw [Expr.rename, hs]
  | .terminal rows, h => by rw [Expr.rename, renameItems_eq_self rows h]
  | .selection child p, h => by
    obtain ⟨hc, hp⟩ := List.forall_mem_append.1 h
    rw [Expr.rename, child.rename_eq_self hc, p.rename_eq_self hp]
  | .projection child f, h => by
    obtain ⟨hc, hf⟩ := List.forall_mem_append.1 h
    rw [Expr.rename, child.rename_eq_self hc, f.rename_eq_self hf]
  | .join left right p f, h => by
    obtain ⟨hs, hc⟩ := List.forall_mem_append.1 h
    obtain ⟨hl, hr⟩ := List.forall_mem_append.1 hs
    obtain ⟨hp, hf⟩ := List.forall_mem_append.1 hc
    rw [Expr.rename, left.rename_eq_self hl, right.rename_eq_self hr, p.rename_eq_self hp,
      f.rename_eq_self hf]
  | .product left right f, h => by
    obtain ⟨hs, hf⟩ := List.forall_mem_append.1 h
    obtain ⟨hl, hr⟩ := List.forall_mem_append.1 hs
    rw [Expr.rename, left.rename_eq_self hl, right.rename_eq_self hr, f.rename_eq_self hf]
  | .union left right, h => by
    obtain ⟨hl, hr⟩ := List.forall_mem_append.1 h
    rw [Expr.rename, left.rename_eq_self hl, right.rename_eq_self hr]
  | .filter _ left right _, h => by
    obtain ⟨hl, hr⟩ := List.forall_mem_append.1 h
    rw [Expr.rename, left.rename_eq_self hl, right.rename_eq_self hr]

end

end Unmentioned

end BagAlgebra
