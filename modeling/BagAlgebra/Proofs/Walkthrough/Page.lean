/-
What the page shows: above the button the relations, and below it the result of the chain and every
stage, or the one fault that stopped the chain, or the prompt.
-/
import BagAlgebra.Proofs.Table.Records
import BagAlgebra.Proofs.Walkthrough.Calls
import BagAlgebra.Proofs.Walkthrough.Reports
import BagAlgebra.Walkthrough.Page

namespace BagAlgebra

namespace Walkthrough

open Render Run

/-! ## Tables -/

/-- Rows as the page shows them. -/
def shown (rows : List Value) : Call := .code (Pretty.aligned 24 rows) textLanguage

theorem pretty_tabular {ε : Type} {rows : List Value} (h : Pretty.Tabular rows) :
    (pretty rows : Run ε String) = pure (Pretty.aligned 24 rows) :=
  Pretty.render_tabular h none (by decide)

theorem pretty_shows {rows : List Value} (h : Pretty.Tabular rows) :
    Shows (do showCode (← pretty rows)) (.ok ()) [shown rows] := by
  rw [pretty_tabular h, pure_bind]
  exact shows_call _

theorem columnHeaders_three : columnHeaders 3 = ["c0", "c1", "c2"] := by decide

/-- A header line and the lines of some triples, with commas between the fields. -/
def separated (ts : List (String × Int × String)) : String :=
  "\n".intercalate ("c0,c1,c2" :: ts.map fun t => ",".intercalate [t.1, toString t.2.1, t.2.2])

theorem csv_triples {ε : Type} {ts : List (String × Int × String)} (hne : ts ≠ [])
    (h : Pretty.Tabular (ts.map tripleRow)) :
    (csv (ts.map tripleRow) : Run ε String) = pure (separated ts) := by
  cases ts with
  | nil => exact absurd rfl hne
  | cons t ts =>
    have hs : ∀ r ∈ tripleRow t :: ts.map tripleRow, r.shape = (tripleRow t).shape := by
      rw [← List.map_cons, List.forall_mem_map]
      exact fun u _ => rfl
    have hh : ",".intercalate ["c0", "c1", "c2"] = "c0,c1,c2" := by decide
    rw [List.map_cons] at h ⊢
    rw [csv, Csv.render_uniform none hs, if_pos (List.all_eq_true.2 h.printable), tripleRow_shape,
      Shape.headers, columnHeaders_three, hh, ← List.map_cons, List.map_map]
    rfl

/-- The record of a triple. -/
def tripleRecord (t : String × Int × String) : Value :=
  .dict [.mk (.text "c0") (.text t.1), .mk (.text "c1") (.int t.2.1), .mk (.text "c2") (.text t.2.2)]

theorem record_tripleRow (t : String × Int × String) : record (tripleRow t) = tripleRecord t := by
  show Value.dict (List.zipWith _ (columnHeaders 3) _) = _
  rw [columnHeaders_three]
  rfl

theorem records_triples {ε : Type} (ts : List (String × Int × String)) :
    (records (.list none (ts.map tripleRow)) : Run ε (List Value)) = pure (ts.map tripleRecord) := by
  rw [records_list, List.map_map]
  exact congrArg _ (List.map_congr_left fun t _ => record_tripleRow t)

/-! ## The page above the button -/

theorem relations_tabular : ∀ relation ∈ relations, Pretty.Tabular relation.2 := by
  have hproduct : Pretty.Tabular productRows := tabular_map (by decide) int_shape factors_fit
  have hjoin : Pretty.Tabular Walkthrough.joinRows :=
    tabular_map (by decide) entryRow_shape fun e he => (entryRow_printable e).trans (joins_fit e he)
  intro relation hr
  simp only [relations, List.mem_cons, List.not_mem_nil, or_false] at hr
  rcases hr with rfl | rfl | rfl | rfl | rfl
  · exact startRows_tabular
  · exact hproduct
  · exact hjoin
  · exact triples_tabular additions_fit
  · exact triples_tabular expectations_fit

theorem showInputs_quiet : showInputs.Quiet := by
  refine (quiet_call rfl rfl).bind <| (quiet_call rfl rfl).bind <| (quiet_call rfl rfl).bind ?_
  refine ((quiet_call rfl rfl).within _).bind <| ((quiet_call rfl rfl).within _).bind ?_
  refine (quiet_call rfl rfl).bind <| (quiet_forM fun (name, rows) hr => ?_).within _
  refine (quiet_call rfl rfl).bind ?_
  rw [pretty_tabular (relations_tabular _ hr)]
  exact quiet_call rfl rfl

/-! ## The chain -/

/-- The threshold as an integer, if neither choice stops the chain. -/
def Choices.check (choices : Choices) : Except Fault Int := do
  let n ← toInteger choices.threshold
  (grant n choices.strategy).map fun _ => n

theorem check_ok {choices : Choices} {n : Int} (h : choices.check = .ok n) :
    toInteger choices.threshold = .ok n ∧ ∃ strategy, grant n choices.strategy = .ok strategy := by
  obtain ⟨m, ht, h⟩ := ok_of_bind h
  cases ha : grant m choices.strategy with
  | error fault =>
    rw [ha] at h
    cases h
  | ok strategy =>
    rw [ha] at h
    cases h
    exact ⟨ht, strategy, ha⟩

theorem check_error {choices : Choices} {fault : Fault} (h : choices.check = .error fault) :
    toInteger choices.threshold = .error fault ∨
      ∃ n, toInteger choices.threshold = .ok n ∧ grant n choices.strategy = .error fault := by
  refine (error_of_bind h).imp id fun ⟨n, ht, h⟩ => ⟨n, ht, ?_⟩
  cases ha : grant n choices.strategy with
  | error fault' =>
    rw [ha] at h
    cases h
    rfl
  | ok strategy =>
    rw [ha] at h
    cases h

/-- What is shown of a stage. -/
def stageParts (report : StageReport) : List Call :=
  [.markdown ("**" ++ report.label ++ "**"), .code report.expression textLanguage, shown report.rows]

/-- What is shown of a chain that was evaluated. -/
def chainParts (n : Int) : List Call :=
  .success "Expression evaluated successfully!" ::
  .tabs ["Result Table", "Result Text", "Stages"] ::
  ((Block.tab 0).around [.table ((result n).map tripleRecord),
      .download "Download CSV" (separated (result n)) "result.csv" "text/csv"] ++
    ((Block.tab 1).around [shown ((result n).map tripleRow)] ++
      (Block.tab 2).around ((reports n).flatMap stageParts)))

theorem result_ne_nil (n : Int) : result n ≠ [] :=
  List.append_ne_nil_of_right_ne_nil _ (by decide)

theorem showTable_shows (n : Int) : (showTable ((result n).map tripleRow)).Shows (.ok ())
    [.table ((result n).map tripleRecord),
      .download "Download CSV" (separated (result n)) "result.csv" "text/csv"] := by
  have hne : ¬ ((result n).map tripleRow).isEmpty = true := by
    rw [List.isEmpty_iff, List.map_eq_nil_iff]
    exact result_ne_nil n
  rw [showTable, if_neg hne, records_triples, pure_bind, csv_triples (result_ne_nil n) (result_tabular n),
    pure_bind]
  exact (shows_call _).after _

theorem showStage_shows {stage : Stage} {report : StageReport} (h : stage.Reports report)
    (ht : Pretty.Tabular report.rows) : (showStage stage).Shows (.ok ()) (stageParts report) := by
  rw [showStage, h.label, h.expression]
  refine Shows.after (Shows.after ?_ _) _
  exact (shows_engine h.rows).bind (pretty_shows ht)

/-- A chain that the choices stop makes no call. -/
theorem showChain_refused {choices : Choices} {fault : Fault} (h : choices.check = .error fault) :
    (showChain choices).Shows (.error fault) [] := by
  rw [showChain]
  rcases check_error h with ht | ⟨n, ht, ha⟩
  · rw [ht]
    exact (shows_ofExcept (.error fault)).bind_error _
  · rw [ht]
    refine (shows_ofExcept (.ok n)).bind (Shows.bind_error (fun store => ?_) _)
    obtain ⟨hr, hl⟩ := stages_grant n choices.strategy store
    rw [hr, ha, hl]
    exact ⟨rfl, rfl⟩

/-- A chain that the choices do not stop shows its result and every stage. -/
theorem showChain_accepted {choices : Choices} {n : Int} (h : choices.check = .ok n) :
    (showChain choices).Shows (.ok ()) (chainParts n) := by
  obtain ⟨ht, strategy, ha⟩ := check_ok h
  rw [showChain, ht]
  show Shows _ _ ([] ++ ([] ++ chainParts n))
  -- the serial numbers of the callbacks depend on the store, but nothing that is shown does
  refine (shows_ofExcept (.ok n)).bind (shows_bind fun store =>
    ⟨chain n strategy store.fresh, ?_, ?_, ?_⟩)
  · rw [(stages_grant n choices.strategy store).1, ha]
    rfl
  · rw [(stages_grant n choices.strategy store).2]
    rfl
  · have hstages : ((chain n strategy store.fresh).forM showStage).Shows (.ok ())
        ((reports n).flatMap stageParts) :=
      shows_forM (chain_reports n strategy store.fresh) fun _ report hr h =>
        showStage_shows h (reports_tabular n report hr)
    refine (shows_engine (intersection_gives n strategy store.fresh)).bind ?_
    refine Shows.after (Shows.after ?_ _) _
    exact ((showTable_shows n).within _).bind (((pretty_shows (result_tabular n)).within _).bind
      (hstages.within _))

theorem chainParts_nested (n : Int) : Nested (chainParts n) := by
  have hstages : Nested ((reports n).flatMap stageParts) :=
    nested_flatMap fun _ _ => ((nested_nil.cons rfl).cons rfl).cons rfl
  refine Nested.cons rfl (Nested.cons rfl ?_)
  exact ((nested_nil.cons rfl).cons rfl |>.around _).append
    (((nested_nil.cons rfl).around _).append (hstages.around _))

theorem chainParts_notices (n : Int) : notices (chainParts n) =
    [.success "Expression evaluated successfully!", .tabs ["Result Table", "Result Text", "Stages"]] := by
  have hstages : notices ((reports n).flatMap stageParts) = [] := notices_flatMap fun _ _ => rfl
  show .success _ :: .tabs _ :: notices (_ ++ (_ ++ _)) = _
  rw [notices_append, notices_append, notices_around, notices_around, notices_around, hstages]
  rfl

/-! ## Visits -/

/-- The faults of a conversion are none of the algebra. -/
theorem toInteger_kind {v : Value} {fault : Fault} (h : toInteger v = .error fault) :
    fault.kind.isAlgebra = false := by
  unfold toInteger at h
  split at h
  · cases h
  · cases h
  · split at h
    · cases h
    · cases h; rfl
  · cases h; rfl
  · split at h
    · cases h
    · cases h; rfl
  · cases h; rfl

def prompt : Call := .info "Press Run to evaluate the chain."

/-- What a fault is shown as. -/
def faultPart (fault : Fault) : Call :=
  if fault.kind.isAlgebra then .error (faultName fault.kind ++ ": " ++ fault.text)
  else .fault fault.kind

theorem showFault_shows (fault : Fault) : (showFault fault).Shows (.ok ()) [faultPart fault] := by
  unfold showFault faultPart
  split <;> exact shows_call _

/-- The calls below the button. -/
def ending (choices : Choices) (pressed : Bool) : List Call :=
  if pressed then
    match choices.check with
    | .ok n => chainParts n
    | .error fault => [faultPart fault]
  else [prompt]

/-- The page goes through: it shows what is above the button, which is no notice, and below it the
chain, or what stopped it, or the prompt. -/
theorem page_shows (choices : Choices) (pressed : Bool) : ∃ parts,
    (page choices pressed).Shows (.ok ()) (parts ++ ending choices pressed) ∧ Nested parts ∧
      notices parts = [] := by
  obtain ⟨parts, hs, hn, hq⟩ := showInputs_quiet
  refine ⟨.configure "RA Evaluator: Builder Walkthrough" "🧮" "wide" ::
    (parts ++ [.button "▶️ Run" "primary"]), ?_, (hn.append (nested_nil.cons rfl)).cons rfl, ?_⟩
  · rw [page, List.cons_append, List.append_assoc]
    refine Shows.after ?_ _
    refine hs.bind ?_
    refine (shows_call _).bind ?_
    cases pressed with
    | false => exact shows_call prompt
    | true =>
      rw [if_pos rfl, ending, if_pos rfl]
      cases hc : choices.check with
      | error fault => exact (showChain_refused hc).attempt.bind (showFault_shows fault)
      | ok n =>
        show Shows _ _ (chainParts n)
        rw [← List.append_nil (chainParts n)]
        exact (showChain_accepted hc).attempt.bind (shows_pure ())
  · show notices (parts ++ [.button "▶️ Run" "primary"]) = []
    rw [notices_append, hq]
    rfl

end Walkthrough

end BagAlgebra
