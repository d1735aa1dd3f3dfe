/-
Uniform rows: all of them have one shape. The check of a list passes exactly on uniform lists, and the
check of two sides exactly if the rows of both together are uniform: an empty side goes with any other
that is uniform, and a mixture within one side is found whatever the other side holds.
-/
import BagAlgebra.Expr.Build
import BagAlgebra.Proofs.Run.Answers

namespace BagAlgebra

/-- All rows have one shape: all are tuples of so many fields, or none is a tuple. -/
def Uniform (rows : List Value) : Prop := ∃ shape, ∀ row ∈ rows, row.shape = shape

theorem uniform_nil : Uniform [] := ⟨.scalar, List.forall_mem_nil _⟩

theorem uniform_cons_iff {row : Value} {rows : List Value} :
    Uniform (row :: rows) ↔ ∀ r ∈ rows, r.shape = row.shape := by
  constructor
  · rintro ⟨shape, h⟩ r hr
    rw [h r (List.mem_cons_of_mem _ hr), h row (List.mem_cons_self ..)]
  · intro h
    exact ⟨row.shape, List.forall_mem_cons.2 ⟨rfl, h⟩⟩

/-- Encodings of data that all have one shape are uniform. -/
theorem uniform_map {α : Type} {enc : α → Value} {shape : Shape} (h : ∀ a, (enc a).shape = shape)
    (as : List α) : Uniform (as.map enc) :=
  ⟨shape, List.forall_mem_map.2 fun a _ => h a⟩

theorem Uniform.subset {rows fewer : List Value} (h : Uniform rows) (hs : fewer ⊆ rows) :
    Uniform fewer := by
  obtain ⟨shape, h⟩ := h
  exact ⟨shape, fun row hr => h row (hs hr)⟩

/-- Two sides are uniform together if each is and their first rows, if both have one, agree. -/
theorem uniform_append_iff {lefts rights : List Value} :
    Uniform (lefts ++ rights) ↔ Uniform lefts ∧ Uniform rights ∧
      ∀ l ∈ lefts.head?, ∀ r ∈ rights.head?, l.shape = r.shape := by
  constructor
  · intro h
    refine ⟨h.subset (List.subset_append_left ..), h.subset (List.subset_append_right ..), ?_⟩
    obtain ⟨shape, h⟩ := h
    intro l hl r hr
    rw [h l (List.mem_append_left _ (List.mem_of_mem_head? hl)),
      h r (List.mem_append_right _ (List.mem_of_mem_head? hr))]
  · rintro ⟨⟨s, hl⟩, ⟨t, hr⟩, h⟩
    cases lefts with
    | nil => exact ⟨t, hr⟩
    | cons l lefts =>
      cases rights with
      | nil =>
        rw [List.append_nil]
        exact ⟨s, hl⟩
      | cons r rights =>
        have heq : l.shape = r.shape := h l rfl r rfl
        rw [hl l (List.mem_cons_self ..), hr r (List.mem_cons_self ..)] at heq
        exact ⟨s, List.forall_mem_append.2 ⟨hl, fun row hrow => (hr row hrow).trans heq.symm⟩⟩

/-! ## Checks -/

theorem requireShape_ok_iff {location : Location} {expected : Shape} {rows : List Value} :
    requireShape location expected rows = .ok () ↔ ∀ row ∈ rows, row.shape = expected := by
  induction rows with
  | nil => simp [requireShape]
  | cons row rows ih =>
    rw [requireShape, List.forall_mem_cons]
    by_cases h : row.shape = expected
    · rw [if_pos h, ih]
      exact ⟨fun hr => ⟨h, hr⟩, And.right⟩
    · rw [if_neg h]
      constructor
      · intro he
        obtain ⟨_, _, he⟩ := ok_of_bind he
        cases he
      · exact fun hr => absurd hr.1 h

theorem commonShape_of_uniform {rows : List Value} (h : Uniform rows) (location : Location) :
    commonShape location rows = .ok (rows.head?.map Value.shape) := by
  cases rows with
  | nil => rfl
  | cons row rows =>
    rw [commonShape, requireShape_ok_iff.2 (uniform_cons_iff.1 h)]
    rfl

theorem uniform_of_commonShape {location : Location} {rows : List Value} {shape : Option Shape}
    (h : commonShape location rows = .ok shape) : Uniform rows := by
  cases rows with
  | nil => exact uniform_nil
  | cons row rows =>
    obtain ⟨_, hr, _⟩ := ok_of_bind h
    exact uniform_cons_iff.2 (requireShape_ok_iff.1 hr)

/-- Two sides pass the check exactly if their rows share one shape. -/
theorem requireSharedShape_ok_iff {operator : Operator} {lefts rights : List Value} :
    requireSharedShape operator lefts rights = .ok () ↔ Uniform (lefts ++ rights) := by
  rw [uniform_append_iff]
  constructor
  · intro h
    obtain ⟨l, hl, h⟩ := ok_of_bind h
    obtain ⟨r, hr, h⟩ := ok_of_bind h
    have ul := uniform_of_commonShape hl
    have ur := uniform_of_commonShape hr
    rw [commonShape_of_uniform ul] at hl
    rw [commonShape_of_uniform ur] at hr
    cases hl
    cases hr
    refine ⟨ul, ur, fun x hx y hy => ?_⟩
    rw [Option.mem_def.1 hx, Option.mem_def.1 hy] at h
    by_cases heq : x.shape = y.shape
    · exact heq
    · simp [heq] at h
  · rintro ⟨ul, ur, h⟩
    rw [requireSharedShape, commonShape_of_uniform ul, commonShape_of_uniform ur]
    rcases lefts with _ | ⟨l, lefts⟩
    · rfl
    · rcases rights with _ | ⟨r, rights⟩
      · rfl
      · exact if_pos (h l rfl r rfl)

/-! ## Leaves -/

theorem ofRows_ok_iff {rows : List Value} {e : Expr} :
    Expr.ofRows rows = .ok e ↔ Uniform rows ∧ e = .terminal rows := by
  constructor
  · intro h
    obtain ⟨_, hs, h⟩ := ok_of_bind h
    cases h
    exact ⟨uniform_of_commonShape hs, rfl⟩
  · rintro ⟨h, rfl⟩
    rw [Expr.ofRows, commonShape_of_uniform h]
    rfl

/-- A leaf is made of a list of uniform rows without fail. -/
theorem ofItems_list {ε : Type} {rows : List Value} (h : Uniform rows) (cell : Option Nat) :
    (Expr.ofItems (.list cell rows) : Run ε Expr) = pure (.terminal rows) := by
  have hc : (Value.list cell rows).collect = (pure rows : Run ε (List Value)) := by
    show rows.mapM pure = pure rows
    rw [List.mapM_pure, List.map_id']
  rw [Expr.ofItems, hc, pure_bind, ofRows_ok_iff.2 ⟨h, rfl⟩]
  rfl

end BagAlgebra
