/-
Visits to the page. Whatever was chosen before, a visit goes through, its blocks are nested, the choices
in force are remembered, and it ends in exactly one way: with the prompt, with the evaluated chain, or
with the one fault that the choices lead to.
-/
import BagAlgebra.Proofs.Walkthrough.Page

namespace BagAlgebra

namespace Walkthrough

open Render

/-! ## The calls of a visit -/

/-- A visit is the page for the choices in force. -/
theorem visit_shows (choices : Choices) (pressed : Bool) : ∃ parts,
    (visit choices pressed).Shows (.ok choices.settled) (parts ++ ending choices.settled pressed) ∧
      Nested parts ∧ notices parts = [] := by
  obtain ⟨parts, hs, hn, hq⟩ := page_shows choices.settled pressed
  refine ⟨parts, ?_, hn, hq⟩
  rw [visit, ← List.append_nil (parts ++ _)]
  exact hs.bind (shows_pure choices.settled)

theorem settled_check (choices : Choices) : choices.settled.check = choices.check := by
  have ht : choices.settled.threshold = choices.threshold := rfl
  have hs : choices.settled.strategy = choices.strategy := rfl
  rw [Choices.check, ht, hs, Choices.check]

theorem ending_settled (choices : Choices) (pressed : Bool) :
    ending choices.settled pressed = ending choices pressed := by
  rw [ending, settled_check, ending]

theorem faultPart_step (fault : Fault) : (faultPart fault).step [] = some [] := by
  unfold faultPart
  split <;> rfl

theorem ending_nested (choices : Choices) (pressed : Bool) : Nested (ending choices pressed) := by
  unfold ending
  split
  · split
    · exact chainParts_nested _
    · exact nested_nil.cons (faultPart_step _)
  · exact nested_nil.cons rfl

theorem notices_faultPart (fault : Fault) : notices [faultPart fault] = [faultPart fault] := by
  unfold faultPart
  split <;> rfl

/-! ## How a visit ends -/

/-- How a visit ends that makes certain calls. -/
structure Concludes (choices : Choices) (pressed : Bool) (parts : List Call) : Prop where
  nested : Nested parts
  /-- Without the button the page asks for it, and that is the last call. -/
  waiting : pressed = false → notices parts = [prompt] ∧ parts.getLast? = some prompt
  /-- With an integer that has a text and the name of a strategy, the chain is evaluated and shown. -/
  evaluated : pressed = true → ∀ (n : Int) (strategy : Strategy),
    toInteger choices.threshold = .ok n → Numeral.fits n = true →
    choices.strategy = .text strategy.name →
      notices parts = [.success "Expression evaluated successfully!",
        .tabs ["Result Table", "Result Text", "Stages"]] ∧ ∃ above, parts = above ++ chainParts n
  /-- With a threshold that is no integer the page shows that, whatever the strategy. -/
  unconverted : pressed = true → ∀ fault, toInteger choices.threshold = .error fault →
    notices parts = [.fault fault.kind]
  /-- With an integer that has too many digits the page shows that, whatever the strategy. -/
  unprintable : pressed = true → ∀ n, toInteger choices.threshold = .ok n →
    Numeral.fits n = false → notices parts = [.fault .value]
  /-- With a value that names no strategy the page shows the error of the filter. -/
  unknown : pressed = true → ∀ n, toInteger choices.threshold = .ok n → Numeral.fits n = true →
    (∀ strategy : Strategy, choices.strategy ≠ .text strategy.name) →
      notices parts = [if choices.strategy.printable then
          .error ("ExpressionError: Intersection: unknown strategy " ++ choices.strategy.repr
            ++ ", expected one of ('hash', 'scan')")
        else .fault .value]

theorem ending_accepted {choices : Choices} {n : Int} (h : choices.check = .ok n) :
    ending choices true = chainParts n := by rw [ending, if_pos rfl, h]

theorem ending_refused {choices : Choices} {fault : Fault} (h : choices.check = .error fault) :
    ending choices true = [faultPart fault] := by rw [ending, if_pos rfl, h]

theorem faultPart_unknown (shown : String) :
    faultPart (.unknownStrategy (.filter .intersection) shown) =
      .error ("ExpressionError: Intersection: unknown strategy " ++ shown
        ++ ", expected one of ('hash', 'scan')") := by
  have htext : "ExpressionError: Intersection: unknown strategy "
      = "ExpressionError" ++ ": " ++ ("Intersection" ++ ": unknown strategy ") := by decide
  rw [htext]
  show Call.error _ = _
  simp only [String.append_assoc]
  rfl

theorem check_grant {choices : Choices} {n : Int} (h : toInteger choices.threshold = .ok n) :
    choices.check = (grant n choices.strategy).map fun _ => n := by rw [Choices.check, h, ok_bind]

theorem concludes_append {choices : Choices} {pressed : Bool} {above : List Call} (hn : Nested above)
    (hq : notices above = []) : Concludes choices pressed (above ++ ending choices pressed) := by
  have hnotices : notices (above ++ ending choices pressed) = notices (ending choices pressed) := by
    rw [notices_append, hq, List.nil_append]
  have hrefused : ∀ fault, pressed = true → choices.check = .error fault →
      notices (above ++ ending choices pressed) = [faultPart fault] := by
    rintro fault rfl hc
    rw [hnotices, ending_refused hc, notices_faultPart]
  refine ⟨hn.append (ending_nested choices pressed), ?_, ?_, ?_, ?_, ?_⟩
  · rintro rfl
    exact ⟨hnotices, List.getLast?_concat ..⟩
  · rintro rfl n strategy ht hf hs
    have hc : choices.check = .ok n := by
      rw [check_grant ht, grant, hf, if_pos rfl, hs, Expr.requireStrategy_name]
      rfl
    rw [hnotices, ending_accepted hc]
    exact ⟨chainParts_notices n, above, rfl⟩
  · intro hp fault ht
    have hc : choices.check = .error fault := by rw [Choices.check, ht]; rfl
    rw [hrefused fault hp hc, faultPart, toInteger_kind ht]
    rfl
  · intro hp n ht hf
    have hc : choices.check = .error .badValue := by rw [check_grant ht, grant, hf]; rfl
    rw [hrefused _ hp hc]
    rfl
  · intro hp n ht hf hs
    have hc := check_grant ht
    rw [grant, hf, if_pos rfl, Expr.requireStrategy_unknown hs] at hc
    rw [hrefused _ hp hc]
    split
    · rw [faultPart_unknown]
    · rfl

/-- Every visit to the page goes through, whatever was chosen before, remembers what is in force, and
ends in exactly one way. -/
theorem visit_concludes (choices : Choices) (pressed : Bool) (store : Store) :
    (visit choices pressed store).result =
        .ok ⟨some (choices.threshold?.getD (.int 1)), some (choices.strategy?.getD (.text "hash"))⟩ ∧
      Concludes choices pressed (calls (visit choices pressed store).log) := by
  obtain ⟨above, hs, hn, hq⟩ := visit_shows choices pressed
  obtain ⟨hr, hc⟩ := hs store
  rw [hc, ending_settled]
  exact ⟨hr, concludes_append hn hq⟩

/-- The first visit evaluates the chain above one; a text that is no numeral is reported, and so is a
number in place of a strategy. -/
theorem visit_concludes_first :
    let pressed (choices : Choices) := calls (visit choices true .empty).log
    notices (pressed ⟨none, none⟩) = [.success "Expression evaluated successfully!",
      .tabs ["Result Table", "Result Text", "Stages"]] ∧
    result 1 = [("c", 1, "Join1"), ("c", 2, "Join2"), ("d", 3, "Union")] ∧
    notices (pressed ⟨some (.text "x"), none⟩) = [.fault .value] ∧
    notices (pressed ⟨some (.text " 7 "), some (.int 0)⟩) = [.error
      "ExpressionError: Intersection: unknown strategy 0, expected one of ('hash', 'scan')"] := by
  have h0 : Numeral.fits 0 = true := fits_of_lt (by decide)
  have h1 : Numeral.fits 1 = true := fits_of_lt (by decide)
  have h7 : Numeral.fits 7 = true := fits_of_lt (by decide)
  refine ⟨?_, by decide, ?_, ?_⟩
  · exact ((visit_concludes ⟨none, none⟩ true .empty).2.evaluated rfl 1 .hash rfl h1 rfl).1
  · exact (visit_concludes ⟨some (.text "x"), none⟩ true .empty).2.unconverted rfl .badValue rfl
  · have h := (visit_concludes ⟨some (.text " 7 "), some (.int 0)⟩ true .empty).2.unknown rfl 7 rfl h7
      fun _ => by simp [Choices.strategy]
    rw [h]
    show [if Numeral.fits 0 then _ else _] = _
    rw [h0, if_pos rfl]
    rfl

end Walkthrough

end BagAlgebra
