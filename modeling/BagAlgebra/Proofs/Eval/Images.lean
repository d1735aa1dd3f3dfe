/-
What comes of items, rows or pairs of rows, on which the calls of callbacks are stable. A loop over them
succeeds if each call that it has to make does: a predicate picks the items for which its answer is true,
and a mapper puts one row in the place of each. The rows of a pure node are told from those of its sides in
this way, and the node is pure if its callbacks are stable on them.
-/
import BagAlgebra.Proofs.Eval.Pure
import Mathlib.Data.List.Forall2

namespace BagAlgebra

open Run

/-- A stable run over a list gives the list of what its members give. -/
theorem Run.gives_mapM_iff {ε α β : Type} {f : α → Run ε β} {items : List α} {bs : List β}
    (h : ∀ a ∈ items, (f a).Stable) :
    (items.mapM f).Gives (.ok bs) ↔ List.Forall₂ (fun a b => (f a).Gives (.ok b)) items bs := by
  induction items generalizing bs with
  | nil => rw [List.mapM_nil, gives_pure_iff, List.forall₂_nil_left_iff]
  | cons a items ih =>
    obtain ⟨ha, hs⟩ := List.forall_mem_cons.1 h
    have hrest : (items.mapM f).Stable := stable_mapM hs
    rw [List.mapM_cons, List.forall₂_cons_left_iff,
      gives_bind_iff ha fun _ _ => hrest.bind fun _ _ => stable_pure _]
    simp only [gives_map_iff hrest, ih hs, exists_and_left]

/-! ## Items that are picked and mapped -/

/-- Whether a run has a true answer. -/
def holds (run : Eval Value) : Bool :=
  match run.answer with
  | .ok verdict => verdict.truthy
  | .error _ => false

theorem holds_of_gives {run : Eval Value} {verdict : Value} (h : run.Gives (.ok verdict)) :
    holds run = verdict.truthy := by
  rw [holds, answer, h]

section Items

variable {α β : Type} {test image : α → Eval Value} {items picked : List α} {rows : List Value}

/-- The test is answered for each item, and these are the ones for which its answer is true, in order. -/
structure Picked (test : α → Eval Value) (items picked : List α) : Prop where
  answered : ∀ a ∈ items, ∃ verdict, (test a).Gives (.ok verdict)
  eq_filter : picked = items.filter fun a => holds (test a)

/-- These are the rows that come of the items one by one. -/
def Mapped (image : α → Eval Value) (items : List α) (rows : List Value) : Prop :=
  List.Forall₂ (fun a row => (image a).Gives (.ok row)) items rows

theorem picked_nil_iff : Picked test [] picked ↔ picked = [] :=
  ⟨fun h => h.eq_filter, fun h => ⟨List.forall_mem_nil _, h⟩⟩

theorem picked_cons_iff {a : α} : Picked test (a :: items) picked ↔
    ∃ verdict rest, (test a).Gives (.ok verdict) ∧ Picked test items rest ∧
      picked = if verdict.truthy then a :: rest else rest := by
  constructor
  · rintro ⟨h, rfl⟩
    obtain ⟨⟨verdict, ha⟩, hs⟩ := List.forall_mem_cons.1 h
    refine ⟨verdict, _, ha, ⟨hs, rfl⟩, ?_⟩
    rw [List.filter_cons, holds_of_gives ha]
  · rintro ⟨verdict, _, ha, ⟨hs, rfl⟩, rfl⟩
    refine ⟨List.forall_mem_cons.2 ⟨⟨verdict, ha⟩, hs⟩, ?_⟩
    rw [List.filter_cons, holds_of_gives ha]

theorem Picked.of_mem (h : Picked test items picked) {a : α} (ha : a ∈ picked) :
    a ∈ items ∧ ∃ verdict, (test a).Gives (.ok verdict) ∧ verdict.truthy = true := by
  obtain ⟨h, rfl⟩ := h
  obtain ⟨hi, ht⟩ := List.mem_filter.1 ha
  obtain ⟨verdict, hv⟩ := h a hi
  rw [holds_of_gives hv] at ht
  exact ⟨hi, verdict, hv, ht⟩

/-- A test that always holds picks everything. -/
theorem picked_all_iff (h : ∀ a ∈ items, (test a).Gives (.ok (.bool true))) :
    Picked test items picked ↔ picked = items := by
  have hall : items.filter (fun a => holds (test a)) = items :=
    List.filter_eq_self.2 fun a ha => holds_of_gives (h a ha)
  constructor
  · rintro ⟨-, rfl⟩
    exact hall
  · rintro rfl
    exact ⟨fun a ha => ⟨_, h a ha⟩, hall.symm⟩

variable {test' image' : β → Eval Value} {enc : α → β}

/-- Encoded items are picked like the items, by a test that gives the same answers. -/
theorem picked_map_iff
    (h : ∀ a ∈ items, ∀ verdict, (test' (enc a)).Gives (.ok verdict) ↔ (test a).Gives (.ok verdict))
    {kept : List β} :
    Picked test' (items.map enc) kept ↔ ∃ picked, Picked test items picked ∧ kept = picked.map enc := by
  induction items generalizing kept with
  | nil => simp only [List.map_nil, picked_nil_iff, exists_eq_left]
  | cons a items ih =>
    obtain ⟨ha, h⟩ := List.forall_mem_cons.1 h
    simp only [List.map_cons, picked_cons_iff, ha, ih h]
    constructor
    · rintro ⟨verdict, _, hv, ⟨rest, hr, rfl⟩, rfl⟩
      refine ⟨_, ⟨verdict, rest, hv, hr, rfl⟩, ?_⟩
      split <;> rfl
    · rintro ⟨_, ⟨verdict, rest, hv, hr, rfl⟩, rfl⟩
      refine ⟨verdict, _, hv, ⟨rest, hr, rfl⟩, ?_⟩
      split <;> rfl

/-- Encoded items are mapped like the items, by a mapper that gives the same rows. -/
theorem mapped_map_iff
    (h : ∀ a ∈ items, ∀ row, (image' (enc a)).Gives (.ok row) ↔ (image a).Gives (.ok row)) :
    Mapped image' (items.map enc) rows ↔ Mapped image items rows := by
  rw [Mapped, List.forall₂_map_left_iff, Mapped]
  induction items generalizing rows with
  | nil => simp only [List.forall₂_nil_left_iff]
  | cons a items ih =>
    obtain ⟨ha, h⟩ := List.forall_mem_cons.1 h
    simp only [List.forall₂_cons_left_iff, ha, ih h]

/-- Items of which the rows are known are mapped to them. -/
theorem mapped_iff_of_gives {f : α → Value} (h : ∀ a ∈ items, (image a).Gives (.ok (f a))) :
    Mapped image items rows ↔ rows = items.map f := by
  unfold Mapped
  induction items generalizing rows with
  | nil => simp only [List.forall₂_nil_left_iff, List.map_nil]
  | cons a items ih =>
    obtain ⟨ha, h⟩ := List.forall_mem_cons.1 h
    simp only [List.forall₂_cons_left_iff, ih h, List.map_cons]
    constructor
    · rintro ⟨row, _, hr, rfl, rfl⟩
      cases ha.unique hr
      rfl
    · rintro rfl
      exact ⟨_, _, ha, rfl, rfl⟩

end Items

/-! ## Loops -/

/-- The call on a row. -/
def Callback.onRow (f : Callback) (row : Value) : Eval Value := f.call [row]

section Loops

variable {predicate mapper : Callback} {rows : List Value}

theorem keepWhere_gives_iff (h : ∀ row ∈ rows, (predicate.onRow row).Stable) {kept : List Value} :
    (keepWhere predicate rows).Gives (.ok kept) ↔ Picked predicate.onRow rows kept := by
  induction rows generalizing kept with
  | nil =>
    rw [picked_nil_iff, keepWhere]
    exact gives_pure_iff
  | cons row rows ih =>
    obtain ⟨hr, hs⟩ := List.forall_mem_cons.1 h
    have hrest : (keepWhere predicate rows).Stable := keepWhere_stable hs
    rw [keepWhere, picked_cons_iff]
    refine (gives_bind_iff hr fun _ _ => hrest.bind fun _ _ => stable_pure _).trans ?_
    simp only [gives_map_iff hrest, ih hs, exists_and_left]

theorem mapRows_gives_iff (h : ∀ row ∈ rows, (mapper.onRow row).Stable) {images : List Value} :
    (mapRows mapper rows).Gives (.ok images) ↔ Mapped mapper.onRow rows images := by
  rw [mapRows_eq_mapM]
  exact gives_mapM_iff h

end Loops

/-! ## Nodes -/

/-- The row is one of those that the expression has. -/
def Expr.Offers (e : Expr) (row : Value) : Prop := ∃ rows, e.eval.Gives (.ok rows) ∧ row ∈ rows

/-- The message about what a run gives changes nothing about it. -/
theorem gives_reported_iff {α : Type} {run : Eval α} (h : run.Stable) (event : α → Event) {a : α} :
    Gives (do let a ← run; Run.emit (event a); return a) (.ok a) ↔ run.Gives (.ok a) := by
  rw [gives_bind_iff h fun _ _ => (stable_emit _).bind fun _ _ => stable_pure _]
  constructor
  · rintro ⟨b, hb, he⟩
    cases he .empty
    exact hb
  · intro ha
    exact ⟨a, ha, (gives_emit _).bind (gives_pure a)⟩

namespace Expr

/-- The sides of a node have these rows. -/
def SidesGive (sides : List Expr) (inputs : List (List Value)) : Prop :=
  List.Forall₂ (fun s rows => s.eval.Gives (.ok rows)) sides inputs

section Sides

variable {e child left right : Expr} {rows : List Value} {inputs : List (List Value)}

theorem sidesGive_one_iff :
    SidesGive [child] inputs ↔ ∃ rows, child.eval.Gives (.ok rows) ∧ inputs = [rows] := by
  constructor
  · rintro (_ | ⟨hr, _ | _⟩)
    exact ⟨_, hr, rfl⟩
  · rintro ⟨rows, hr, rfl⟩
    exact .cons hr .nil

theorem sidesGive_two_iff : SidesGive [left, right] inputs ↔ ∃ lefts rights,
    left.eval.Gives (.ok lefts) ∧ right.eval.Gives (.ok rights) ∧ inputs = [lefts, rights] := by
  constructor
  · rintro (_ | ⟨hl, _ | ⟨hr, _ | _⟩⟩)
    exact ⟨_, _, hl, hr, rfl⟩
  · rintro ⟨lefts, rights, hl, hr, rfl⟩
    exact .cons hl (.cons hr .nil)

theorem pure_iff_sidesGive : e.Pure ↔ (∀ s ∈ e.sides, s.Pure) ∧
    ∀ inputs, SidesGive e.sides inputs → ∀ f args, e.Uses inputs f args → (f.call args).Stable := by
  rw [pure_iff]
  refine and_congr_right fun hs => forall_congr' fun inputs => imp_congr_left ?_
  have hst : (e.sides.mapM eval).Stable := stable_mapM fun s hm => (hs s hm).stable
  rw [hst.answers_iff, ← hst.gives_iff]
  exact gives_mapM_iff fun s hm => (hs s hm).stable

/-- The rows of a pure node come of its work on the rows of its sides. -/
theorem Pure.gives_iff (h : e.Pure) :
    e.eval.Gives (.ok rows) ↔ ∃ inputs, SidesGive e.sides inputs ∧ (e.work inputs).Gives (.ok rows) := by
  obtain ⟨hs, he⟩ := e.pure_iff.1 h
  rw [eval_eq_work, gives_bind_iff (stable_mapM fun s hm => (hs s hm).stable)
    fun inputs hi => e.work_stable inputs (he inputs hi)]
  exact exists_congr fun inputs => and_congr_left fun _ => gives_mapM_iff fun s hm => (hs s hm).stable

theorem pure_iff_one (hs : e.sides = [child]) : e.Pure ↔ child.Pure ∧
    ∀ rows, child.eval.Gives (.ok rows) → ∀ f args, e.Uses [rows] f args → (f.call args).Stable := by
  rw [pure_iff_sidesGive, hs, List.forall_mem_singleton]
  refine and_congr_right fun _ => ⟨fun h rows hr => ?_, fun h inputs hi => ?_⟩
  · exact h _ (sidesGive_one_iff.2 ⟨rows, hr, rfl⟩)
  · obtain ⟨rows, hr, rfl⟩ := sidesGive_one_iff.1 hi
    exact h rows hr

theorem pure_iff_two (hs : e.sides = [left, right]) : e.Pure ↔ (left.Pure ∧ right.Pure) ∧
    ∀ lefts rights, left.eval.Gives (.ok lefts) → right.eval.Gives (.ok rights) →
      ∀ f args, e.Uses [lefts, rights] f args → (f.call args).Stable := by
  rw [pure_iff_sidesGive, hs, List.forall_mem_cons, List.forall_mem_singleton]
  refine and_congr_right fun _ => ⟨fun h lefts rights hl hr => ?_, fun h inputs hi => ?_⟩
  · exact h _ (sidesGive_two_iff.2 ⟨lefts, rights, hl, hr, rfl⟩)
  · obtain ⟨lefts, rights, hl, hr, rfl⟩ := sidesGive_two_iff.1 hi
    exact h lefts rights hl hr

theorem Pure.gives_iff_one (h : e.Pure) (hs : e.sides = [child]) : e.eval.Gives (.ok rows) ↔
    ∃ inner, child.eval.Gives (.ok inner) ∧ (e.work [inner]).Gives (.ok rows) := by
  rw [h.gives_iff, hs]
  simp only [sidesGive_one_iff]
  constructor
  · rintro ⟨_, ⟨inner, hi, rfl⟩, hw⟩
    exact ⟨inner, hi, hw⟩
  · rintro ⟨inner, hi, hw⟩
    exact ⟨_, ⟨inner, hi, rfl⟩, hw⟩

theorem Pure.gives_iff_two (h : e.Pure) (hs : e.sides = [left, right]) : e.eval.Gives (.ok rows) ↔
    ∃ lefts rights, left.eval.Gives (.ok lefts) ∧ right.eval.Gives (.ok rights) ∧
      (e.work [lefts, rights]).Gives (.ok rows) := by
  rw [h.gives_iff, hs]
  simp only [sidesGive_two_iff]
  constructor
  · rintro ⟨_, ⟨lefts, rights, hl, hr, rfl⟩, hw⟩
    exact ⟨lefts, rights, hl, hr, hw⟩
  · rintro ⟨lefts, rights, hl, hr, hw⟩
    exact ⟨_, ⟨lefts, rights, hl, hr, rfl⟩, hw⟩

end Sides

/-! ## Selections and projections -/

section OneSide

variable {child : Expr} {predicate mapper : Callback} {rows : List Value}

theorem pure_selection_iff : (selection child predicate).Pure ↔ child.Pure ∧
    ∀ rows, child.eval.Gives (.ok rows) → ∀ row ∈ rows, (predicate.onRow row).Stable := by
  refine (pure_iff_one rfl).trans (and_congr_right fun _ => forall_congr' fun rows =>
    imp_congr_right fun _ => ⟨fun h row hr => h _ _ (.predicate hr), fun h f args hu => ?_⟩)
  cases hu with
  | predicate hr => exact h _ hr

theorem pure_projection_iff : (projection child mapper).Pure ↔ child.Pure ∧
    ∀ rows, child.eval.Gives (.ok rows) → ∀ row ∈ rows, (mapper.onRow row).Stable := by
  refine (pure_iff_one rfl).trans (and_congr_right fun _ => forall_congr' fun rows =>
    imp_congr_right fun _ => ⟨fun h row hr => h _ _ (.mapper hr), fun h f args hu => ?_⟩)
  cases hu with
  | mapper hr => exact h _ hr

/-- A selection has the rows of its child that its predicate picks. -/
theorem selection_gives_iff (h : (selection child predicate).Pure) :
    (selection child predicate).eval.Gives (.ok rows) ↔
      ∃ inner, child.eval.Gives (.ok inner) ∧ Picked predicate.onRow inner rows := by
  refine (h.gives_iff_one rfl).trans (exists_congr fun inner => and_congr_right fun hi => ?_)
  have hp := (pure_selection_iff.1 h).2 inner hi
  exact (gives_reported_iff (keepWhere_stable hp) _).trans (keepWhere_gives_iff hp)

/-- A projection has the images of the rows of its child. -/
theorem projection_gives_iff (h : (projection child mapper).Pure) :
    (projection child mapper).eval.Gives (.ok rows) ↔
      ∃ inner, child.eval.Gives (.ok inner) ∧ Mapped mapper.onRow inner rows := by
  refine (h.gives_iff_one rfl).trans (exists_congr fun inner => and_congr_right fun hi => ?_)
  exact mapRows_gives_iff ((pure_projection_iff.1 h).2 inner hi)

end OneSide

end Expr

end BagAlgebra
