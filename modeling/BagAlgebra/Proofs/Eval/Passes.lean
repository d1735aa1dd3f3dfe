/-
Selections and projections of what other calls make. Such a node makes one pass over the rows of its child:
where everything that is built is pure, a selection yields the rows that its predicate picks of those that
the child yields, and a projection their images. A pass can be built over any child, if its callback takes
one row.
-/
import BagAlgebra.Proofs.Eval.Images
import BagAlgebra.Proofs.Eval.Nested
import BagAlgebra.Proofs.Tree.Parts

namespace BagAlgebra

open Run

/-- The call of the constructor of a selection, on what calls make. -/
def selected (predicate : Callback) (made : Except Fault Expr) : Except Fault Expr := do
  let child ← made
  Expr.makeSelection (.expr child) (.callable predicate)

/-- The call of the constructor of a projection, on what calls make. -/
def projected (mapper : Callback) (made : Except Fault Expr) : Except Fault Expr := do
  let child ← made
  Expr.makeProjection (.expr child) (.callable mapper)

section Selected

variable {predicate : Callback} {made : Except Fault Expr} {child e : Expr} {rows : List Value}

theorem selected_ok (h : predicate.usableOn 1 = true) (child : Expr) :
    selected predicate (.ok child) = .ok (.selection child predicate) :=
  Expr.makeSelection_usable h child

theorem selected_ok_iff : selected predicate made = .ok e ↔
    predicate.usableOn 1 = true ∧ ∃ child, made = .ok child ∧ e = .selection child predicate := by
  constructor
  · intro h
    obtain ⟨child, hc, h⟩ := ok_of_bind h
    obtain ⟨_, he, h⟩ := ok_of_bind h
    obtain ⟨f, hf, h⟩ := ok_of_bind h
    cases he
    cases h
    obtain ⟨⟨⟩, hu⟩ := requireCallback_ok hf
    exact ⟨hu, child, hc, rfl⟩
  · rintro ⟨hu, child, rfl, rfl⟩
    exact selected_ok hu child

/-- The predicate is called on the rows of the child only. -/
theorem steady_selected (h : Steady made)
    (hp : ∀ rows, Yields made rows → ∀ row ∈ rows, (predicate.onRow row).Stable) :
    Steady (selected predicate made) := by
  intro e he
  obtain ⟨-, child, rfl, rfl⟩ := selected_ok_iff.1 he
  exact Expr.pure_selection_iff.2 ⟨h child rfl, hp⟩

theorem yields_selected_iff (h : Steady (selected predicate made)) :
    Yields (selected predicate made) rows ↔
      predicate.usableOn 1 = true ∧ ∃ inner, Yields made inner ∧ Picked predicate.onRow inner rows := by
  constructor
  · intro hy
    obtain ⟨e, he, hg⟩ := yields_iff.1 hy
    obtain ⟨hu, child, rfl, rfl⟩ := selected_ok_iff.1 he
    obtain ⟨inner, hi, hp⟩ := (Expr.selection_gives_iff (h _ he)).1 hg
    exact ⟨hu, inner, hi, hp⟩
  · rintro ⟨hu, inner, hi, hp⟩
    obtain ⟨child, rfl, hi⟩ := yields_iff.1 hi
    have he := selected_ok hu child
    exact yields_iff.2 ⟨_, he, (Expr.selection_gives_iff (h _ he)).2 ⟨inner, hi, hp⟩⟩

/-- The predicate has an answer, the same from any store, on every row that comes of the calls. -/
def Callback.AnswersOn (predicate : Callback) (made : Except Fault Expr) : Prop :=
  ∀ rows, Yields made rows → ∀ row ∈ rows, ∃ verdict, (predicate.onRow row).Gives (.ok verdict)

theorem steady_selected_of_answers (h : Steady made) (hp : predicate.AnswersOn made) :
    Steady (selected predicate made) :=
  steady_selected h fun rows hy row hr =>
    let ⟨_, hv⟩ := hp rows hy row hr
    hv.stable

/-- Where the predicate has its answers, nothing can fail but what was built before. -/
theorem yields_selected_iff_filter (h : Steady made) (hp : predicate.AnswersOn made) :
    Yields (selected predicate made) rows ↔ predicate.usableOn 1 = true ∧ ∃ inner, Yields made inner ∧
      rows = inner.filter fun row => holds (predicate.onRow row) := by
  rw [yields_selected_iff (steady_selected_of_answers h hp)]
  refine and_congr_right fun _ => exists_congr fun inner => and_congr_right fun hi => ?_
  exact ⟨Picked.eq_filter, fun hrows => ⟨hp inner hi, hrows⟩⟩

end Selected

theorem projected_ok {mapper : Callback} (h : mapper.usableOn 1 = true) (child : Expr) :
    projected mapper (.ok child) = .ok (.projection child mapper) :=
  Expr.makeProjection_usable h child

end BagAlgebra
