/-
Trees whose callbacks fit: every predicate and every mapper accepts as many rows as its node has sides.
The trees that calls of constructors and operations of builders make fit, whatever they were made of
and whichever lists in them are changed later.
-/
import BagAlgebra.Proofs.Tree.Built

namespace BagAlgebra

/-- Every callback of a tree accepts as many rows as its node has sides. -/
def Expr.Fits (e : Expr) : Prop :=
  ∀ node ∈ e.postorder, ∀ f ∈ node.callbacks, f.usableOn node.sides.length = true

theorem Expr.fits_iff (e : Expr) :
    e.Fits ↔ (∀ s ∈ e.sides, s.Fits) ∧ ∀ f ∈ e.callbacks, f.usableOn e.sides.length = true :=
  forall_postorder_iff

/-- A tree without sides and callbacks fits. -/
theorem fits_leaf {e : Expr} (hs : e.sides = []) (hc : e.callbacks = []) : e.Fits := by
  rw [Expr.fits_iff, hs, hc]
  exact ⟨List.forall_mem_nil _, List.forall_mem_nil _⟩

theorem usableOn_replaceCell (cell : Nat) (items : List Value) (f : Callback) (rows : Nat) :
    (f.replaceCell cell items).usableOn rows = f.usableOn rows := by
  cases f with
  | builtin b => rfl
  | always => rfl
  | function handle params body captured =>
    obtain ⟨serial, form, name⟩ := handle
    cases form <;> rfl

theorem Expr.Fits.replaceCell (cell : Nat) (items : List Value) {e : Expr} (h : e.Fits) :
    (e.replaceCell cell items).Fits := by
  induction e using Expr.sides_induction with
  | h e ih =>
    obtain ⟨hs, hc⟩ := (fits_iff e).1 h
    rw [fits_iff, sides_replaceCell, callbacks_replaceCell, List.length_map]
    refine ⟨fun s hm => ?_, fun f hm => ?_⟩
    · obtain ⟨side, hside, rfl⟩ := List.mem_map.1 hm
      exact ih side hside (hs side hside)
    · obtain ⟨callback, hf, rfl⟩ := List.mem_map.1 hm
      rw [usableOn_replaceCell]
      exact hc callback hf

theorem fits_invariant : Expr.Invariant Expr.Fits where
  bare _ := fits_leaf rfl rfl
  leaf h := by
    obtain ⟨_, _, h⟩ := ok_of_bind h
    cases h
    exact fits_leaf rfl rfl
  -- the callbacks were checked when the node was made
  inner h hs := (Expr.fits_iff _).2 ⟨hs, fun f hf => (h.callbacks f hf).2⟩
  changed cell items _ h := h.replaceCell cell items

/-- Trees that can be made fit. -/
theorem Expr.Built.fits {e : Expr} (h : e.Built) : e.Fits := h.invariant fits_invariant

end BagAlgebra
