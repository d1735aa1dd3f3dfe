/-
Lists of rows as tests of membership. One list covers another if every row of the other occurs in it. What
occurs in a list occurs in every list that covers it, so a filter by the first keeps some of the rows that
a filter by the second keeps, in the same order. Rows that match have one shape: what is uniform together
with a list is uniform together with every list that it covers.
-/
import BagAlgebra.Proofs.Row.Matching
import BagAlgebra.Proofs.Row.Uniform

namespace BagAlgebra

/-! ## Shapes of rows that match -/

/-- Only tuples of the same length match a tuple. -/
theorem tuple_of_same {items : List Value} {w : Value} (h : (Value.tuple items).same w = true) :
    ∃ items', w = .tuple items' ∧ items.length = items'.length := by
  cases w with
  | tuple items' =>
    rw [Value.same] at h
    exact ⟨items', rfl, (sameItems_iff.1 h).length_eq⟩
  | _ => cases h

theorem Value.shape_eq_of_same {v w : Value} (h : v.same w = true) : v.shape = w.shape := by
  cases v with
  | tuple items =>
    obtain ⟨items', rfl, hlen⟩ := tuple_of_same h
    exact congrArg Shape.fields hlen
  | _ =>
    cases w with
    | tuple items' =>
      obtain ⟨_, hv, _⟩ := tuple_of_same (Value.same_symm h)
      cases hv
    | _ => rfl

/-! ## Covers -/

/-- Every row of the first list occurs in the second. -/
def CoveredBy (rows others : List Value) : Prop := ∀ row ∈ rows, occurs row others = true

section Covers

variable {lefts rights rights' : List Value}

theorem occurs_of_covered (h : CoveredBy rights rights') {row : Value}
    (ho : occurs row rights = true) : occurs row rights' = true := by
  obtain ⟨r, hr, hs⟩ := occurs_iff.1 ho
  -- the row matches one on the right, which matches one of the cover
  rw [← occurs_congr hs]
  exact h r hr

theorem occurs_eq_of_covered (h : CoveredBy rights rights') (h' : CoveredBy rights' rights)
    (row : Value) : occurs row rights = occurs row rights' :=
  Bool.eq_iff_iff.2 ⟨occurs_of_covered h, occurs_of_covered h'⟩

theorem filter_sublist_of_covered (h : CoveredBy rights rights') (lefts : List Value) :
    (lefts.filter fun row => occurs row rights == true).Sublist
      (lefts.filter fun row => occurs row rights' == true) := by
  refine lefts.monotone_filter_right fun row ho => ?_
  rw [beq_true] at ho ⊢
  exact occurs_of_covered h ho

/-- The rows that do not occur in a cover do not occur in what it covers either. -/
theorem filter_not_sublist_of_covered (h : CoveredBy rights rights') (lefts : List Value) :
    (lefts.filter fun row => occurs row rights' == false).Sublist
      (lefts.filter fun row => occurs row rights == false) := by
  refine lefts.monotone_filter_right fun row ho => ?_
  rw [beq_false, Bool.not_eq_true'] at ho ⊢
  by_contra hr
  rw [occurs_of_covered h (Bool.not_eq_false _ ▸ hr)] at ho
  cases ho

theorem Uniform.of_covered (hu : Uniform (lefts ++ rights')) (h : CoveredBy rights rights') :
    Uniform (lefts ++ rights) := by
  obtain ⟨shape, hall⟩ := hu
  obtain ⟨hl, hr⟩ := List.forall_mem_append.1 hall
  refine ⟨shape, List.forall_mem_append.2 ⟨hl, fun row hrow => ?_⟩⟩
  obtain ⟨r, hm, hs⟩ := occurs_iff.1 (h row hrow)
  rw [← Value.shape_eq_of_same hs]
  exact hr r hm

end Covers

/-! ## One list filtered by another -/

/-- A row occurs among the rows of one list that occur in another exactly if it occurs in both: the row that
it matches occurs where it occurs. -/
theorem occurs_filter (row : Value) (rows others : List Value) :
    occurs row (rows.filter fun r => occurs r others) = (occurs row rows && occurs row others) := by
  rw [Bool.eq_iff_iff, Bool.and_eq_true, occurs_iff, occurs_iff]
  constructor
  · rintro ⟨r, hr, hs⟩
    obtain ⟨hm, ho⟩ := List.mem_filter.1 hr
    rw [occurs_congr hs] at ho
    exact ⟨⟨r, hm, hs⟩, ho⟩
  · rintro ⟨⟨r, hm, hs⟩, ho⟩
    rw [← occurs_congr hs] at ho
    exact ⟨r, List.mem_filter.2 ⟨hm, ho⟩, hs⟩

end BagAlgebra
