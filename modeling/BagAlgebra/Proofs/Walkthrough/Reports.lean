/-
What is to be seen of the stages of the walkthrough: their labels, their expressions and their rows, for
every threshold. The rows of each stage have a table.
-/
import BagAlgebra.Proofs.Table.Aligned
import BagAlgebra.Proofs.Walkthrough.Chain

namespace BagAlgebra

namespace Walkthrough

open Run

/-! ## Reports -/

/-- What is to be seen of every stage. -/
def reports (n : Int) : List StageReport :=
  [⟨"Terminal", "Terminal[3]", startRows⟩,
    ⟨"σ x.0 > " ++ toString n, "σ[λ](Terminal[3])", (kept n).map entryRow⟩,
    ⟨"π x.1", "π[λ](σ[λ](Terminal[3]))", (names n).map .text⟩,
    ⟨"× [1, 2]", "(π[λ](σ[λ](Terminal[3])))×(Terminal[2])", (pairs n).map pairRow⟩,
    ⟨"⋈ x.1 = y.0", "((π[λ](σ[λ](Terminal[3])))×(Terminal[2]))⋈[λ](Terminal[2])",
      (triples n).map tripleRow⟩,
    ⟨"⋃ Union rows", "(((π[λ](σ[λ](Terminal[3])))×(Terminal[2]))⋈[λ](Terminal[2]))⋃(Terminal[1])",
      (united n).map tripleRow⟩,
    ⟨"∩ Expected rows",
      "((((π[λ](σ[λ](Terminal[3])))×(Terminal[2]))⋈[λ](Terminal[2]))⋃(Terminal[1]))∩(Terminal[4])",
      (result n).map tripleRow⟩]

section Shown

variable (n : Int) (strategy : Strategy) (serial : Nat)

theorem startRows_repr : (Expr.terminal startRows).repr = "Terminal[3]" := by decide

theorem selection_repr : (selection n serial).repr = "σ[λ](Terminal[3])" := by
  rw [selection, Expr.repr, above, lambda_label, startRows_repr]; decide

theorem projection_repr : (projection n serial).repr = "π[λ](σ[λ](Terminal[3]))" := by
  rw [projection, Expr.repr, second, lambda_label, selection_repr]; decide

theorem multiplication_repr :
    (multiplication n serial).repr = "(π[λ](σ[λ](Terminal[3])))×(Terminal[2])" := by
  rw [multiplication, Expr.repr, projection_repr]; decide

theorem junction_repr : (junction n serial).repr
    = "((π[λ](σ[λ](Terminal[3])))×(Terminal[2]))⋈[λ](Terminal[2])" := by
  rw [junction, Expr.repr, matching, lambda_label, multiplication_repr]; decide

theorem union_repr : (union n serial).repr
    = "(((π[λ](σ[λ](Terminal[3])))×(Terminal[2]))⋈[λ](Terminal[2]))⋃(Terminal[1])" := by
  rw [union, Expr.repr, junction_repr]; decide

theorem intersection_repr : (intersection n strategy serial).repr
    = "((((π[λ](σ[λ](Terminal[3])))×(Terminal[2]))⋈[λ](Terminal[2]))⋃(Terminal[1]))∩(Terminal[4])" := by
  rw [intersection, Expr.repr, union_repr]; decide

end Shown

/-- A stage has the label, the shown expression and the rows of a report. -/
structure Stage.Reports (stage : Stage) (report : StageReport) : Prop where
  label : stage.label = report.label
  expression : stage.builder.expression.repr = report.expression
  rows : stage.builder.eval.Gives (.ok report.rows)

/-- Whatever the strategy and whatever was made before, the stages of a chain are those reported. -/
theorem chain_reports (n : Int) (strategy : Strategy) (serial : Nat) :
    List.Forall₂ Stage.Reports (chain n strategy serial) (reports n) := by
  refine .cons ⟨rfl, startRows_repr, gives_pure _⟩ ?_
  refine .cons ⟨rfl, selection_repr n serial, selection_gives n serial⟩ ?_
  refine .cons ⟨rfl, projection_repr n serial, projection_gives n serial⟩ ?_
  refine .cons ⟨rfl, multiplication_repr n serial, multiplication_gives n serial⟩ ?_
  refine .cons ⟨rfl, junction_repr n serial, junction_gives n serial⟩ ?_
  refine .cons ⟨rfl, union_repr n serial, union_gives n serial⟩ ?_
  exact .cons ⟨rfl, intersection_repr n strategy serial, intersection_gives n strategy serial⟩ .nil

/-! ## Rows that have a table -/

/-- A number of one digit has a text. -/
theorem fits_of_lt {k : Int} (h : k.natAbs < 10) : Numeral.fits k = true := by
  have hp : ∀ digits : Nat, digits ≠ 0 → 10 ≤ Nat.pow 10 digits := fun _ hd => Nat.le_self_pow hd 10
  rw [Numeral.fits, decide_eq_true_iff]
  exact h.trans_le (hp Numeral.digitLimit (by decide))

theorem entryRow_printable (e : Int × String) : (entryRow e).printable = Numeral.fits e.1 := by
  simp only [entryRow, Value.printable, printableItems, Bool.and_true]

theorem pairRow_printable (p : String × Int) : (pairRow p).printable = Numeral.fits p.2 := by
  simp only [pairRow, Value.printable, printableItems, Bool.and_true, Bool.true_and]

theorem tripleRow_printable (t : String × Int × String) :
    (tripleRow t).printable = Numeral.fits t.2.1 := by
  simp only [tripleRow, Value.printable, printableItems, Bool.and_true, Bool.true_and]

/-- Encodings of data that can be shown have a table, in one of the shapes that the chain comes to. -/
theorem tabular_map {α : Type} {enc : α → Value} {shape : Shape}
    (hs : shape ∈ [Shape.scalar, .fields 2, .fields 3]) (h : ∀ a, (enc a).shape = shape) {as : List α}
    (hp : ∀ a ∈ as, (enc a).printable = true) : Pretty.Tabular (as.map enc) where
  printable := List.forall_mem_map.2 hp
  shape := by
    have hall : ∀ s ∈ [Shape.scalar, .fields 2, .fields 3], s.width ≠ 0 ∧
        ∀ header ∈ s.headers, (header.length : Int) ≤ sizeLimit := by decide
    obtain ⟨hw, hh⟩ := hall shape hs
    exact ⟨shape, hw, hh, List.forall_mem_map.2 fun a _ => h a⟩

section Tables

variable (n : Int)

theorem starts_fit : ∀ e ∈ starts, Numeral.fits e.1 = true :=
  fun e he => fits_of_lt ((by decide : ∀ e ∈ starts, e.1.natAbs < 10) e he)

theorem factors_fit : ∀ k ∈ factors, Numeral.fits k = true :=
  fun k hk => fits_of_lt ((by decide : ∀ k ∈ factors, k.natAbs < 10) k hk)

theorem joins_fit : ∀ e ∈ joins, Numeral.fits e.1 = true :=
  fun e he => fits_of_lt ((by decide : ∀ e ∈ joins, e.1.natAbs < 10) e he)

theorem expectations_fit : ∀ t ∈ expectations, Numeral.fits t.2.1 = true :=
  fun t ht => fits_of_lt ((by decide : ∀ t ∈ expectations, t.2.1.natAbs < 10) t ht)

theorem additions_fit : ∀ t ∈ additions, Numeral.fits t.2.1 = true :=
  fun t ht => expectations_fit t ((by decide : additions ⊆ expectations) ht)

/-- The number of a triple comes from the rows of the join. -/
theorem triples_fit : ∀ t ∈ triples n, Numeral.fits t.2.1 = true := by
  intro t ht
  obtain ⟨⟨p, e⟩, hx, rfl⟩ := List.mem_map.1 ht
  exact joins_fit e (List.mem_product.1 (List.mem_filter.1 hx).1).2

theorem united_fit : ∀ t ∈ united n, Numeral.fits t.2.1 = true :=
  List.forall_mem_append.2 ⟨triples_fit n, additions_fit⟩

theorem startRows_tabular : Pretty.Tabular startRows :=
  tabular_map (by decide) entryRow_shape fun e he => (entryRow_printable e).trans (starts_fit e he)

theorem triples_tabular {ts : List (String × Int × String)} (h : ∀ t ∈ ts, Numeral.fits t.2.1 = true) :
    Pretty.Tabular (ts.map tripleRow) :=
  tabular_map (by decide) tripleRow_shape fun t ht => (tripleRow_printable t).trans (h t ht)

theorem result_tabular : Pretty.Tabular ((result n).map tripleRow) := by
  refine triples_tabular fun t ht => united_fit n t ?_
  rw [← filter_united] at ht
  exact (List.mem_filter.1 ht).1

theorem reports_tabular : ∀ report ∈ reports n, Pretty.Tabular report.rows := by
  have hkept : Pretty.Tabular ((kept n).map entryRow) :=
    tabular_map (by decide) entryRow_shape fun e he =>
      (entryRow_printable e).trans (starts_fit e (List.mem_filter.1 he).1)
  have hnames : Pretty.Tabular ((names n).map .text) :=
    tabular_map (by decide) text_shape fun _ _ => rfl
  have hpairs : Pretty.Tabular ((pairs n).map pairRow) :=
    tabular_map (by decide) pairRow_shape fun p hp =>
      (pairRow_printable p).trans (factors_fit p.2 (List.mem_product.1 hp).2)
  intro report hr
  simp only [reports, List.mem_cons, List.not_mem_nil, or_false] at hr
  rcases hr with rfl | rfl | rfl | rfl | rfl | rfl | rfl
  · exact startRows_tabular
  · exact hkept
  · exact hnames
  · exact hpairs
  · exact triples_tabular (triples_fit n)
  · exact triples_tabular (united_fit n)
  · exact result_tabular n

end Tables

end Walkthrough

end BagAlgebra
