/-
What the check of shapes reports. Within one list it is the first row whose shape is not that of the
first row; between two sides it is such a row of the left side, else one of the right side, else that the
first rows of the two sides have different shapes. A row that holds an integer with too many digits has
no shown form, and is not reported as a row but as a bad value. The operator has a part in a report by
its name only.
-/
import BagAlgebra.Proofs.Row.Uniform

namespace BagAlgebra

/-- The fault of a row whose shape is not the expected one. -/
def misfit (location : Location) (expected : Shape) (row : Value) : Fault :=
  if row.printable then .mixedRow location row.repr row.shape expected else .badValue

/-- The fault of rows that do not have one shape: that of the first row that differs from the first. -/
def mixture? (location : Location) : List Value → Option Fault
  | [] => none
  | first :: rows =>
    (rows.find? fun row => row.shape ≠ first.shape).map (misfit location first.shape)

/-- The fault of two sides whose first rows have different shapes. -/
def mismatch? (operator : Operator) (lefts rights : List Value) : Option Fault :=
  match lefts.head?, rights.head? with
  | some l, some r =>
    if l.shape = r.shape then none else some (.shapeMismatch operator l.shape r.shape)
  | _, _ => none

/-- What is reported of two sides that do not share one shape: a mixture on the left, else one on the
right, else that the sides differ. -/
def sharedShapeFault? (operator : Operator) (lefts rights : List Value) : Option Fault :=
  (mixture? (.leftOf operator) lefts).or
    ((mixture? (.rightOf operator) rights).or (mismatch? operator lefts rights))

/-- A number with more digits than can be shown. -/
theorem fits_of_le {n : Nat} (h : Nat.pow 10 Numeral.digitLimit ≤ n) : Numeral.fits n = false :=
  decide_eq_false (Nat.not_lt.2 h)

/-- A check that reports a fault, if there is one. -/
theorem elim_error_iff {α : Type} {fault? : Option Fault} {fault : Fault} (a : α) :
    fault?.elim (.ok a) .error = (.error fault : Except Fault α) ↔ fault? = some fault := by
  cases fault? <;> simp

/-! ## One list -/

/-- The first row of another shape than the expected one is refused. -/
theorem requireShape_eq (location : Location) (expected : Shape) (rows : List Value) :
    requireShape location expected rows =
      ((rows.find? fun row => row.shape ≠ expected).map (misfit location expected)).elim (.ok ())
        .error := by
  induction rows with
  | nil => rfl
  | cons row rows ih =>
    rw [requireShape, List.find?_cons]
    by_cases h : row.shape = expected
    · simp only [h, if_true, ih, ne_eq, not_true_eq_false, decide_false]
    · simp only [h, if_false, ne_eq, not_false_eq_true, decide_true]
      rw [Option.map_some, Option.elim_some, misfit, Value.repr?]
      cases row.printable <;> rfl

theorem commonShape_eq (location : Location) (rows : List Value) :
    commonShape location rows =
      (mixture? location rows).elim (.ok (rows.head?.map Value.shape)) .error := by
  cases rows with
  | nil => rfl
  | cons first rows =>
    rw [commonShape, requireShape_eq, mixture?]
    cases rows.find? fun row => row.shape ≠ first.shape <;> rfl

theorem ofRows_error_iff {rows : List Value} {fault : Fault} :
    Expr.ofRows rows = .error fault ↔ mixture? .terminal rows = some fault := by
  rw [Expr.ofRows, commonShape_eq, ← elim_error_iff (Expr.terminal rows)]
  cases mixture? .terminal rows <;> rfl

theorem mixture?_of_uniform {rows : List Value} (h : Uniform rows) (location : Location) :
    mixture? location rows = none := by
  cases rows with
  | nil => rfl
  | cons first rows =>
    rw [mixture?, Option.map_eq_none_iff, List.find?_eq_none]
    intro row hr hne
    exact of_decide_eq_true hne (uniform_cons_iff.1 h row hr)

theorem mixture?_kind {location : Location} {rows : List Value} {fault : Fault}
    (h : mixture? location rows = some fault) :
    fault.kind = .schema ∨ fault = .badValue ∧ ∃ row ∈ rows, row.printable = false := by
  cases rows with
  | nil => cases h
  | cons first rows =>
    obtain ⟨row, hrow, rfl⟩ := Option.map_eq_some_iff.1 h
    have hm : row ∈ first :: rows := List.mem_cons_of_mem _ (List.mem_of_find?_eq_some hrow)
    unfold misfit
    cases hp : row.printable with
    | true => exact .inl rfl
    | false => exact .inr ⟨rfl, row, hm, hp⟩

/-! ## Two sides -/

theorem requireSharedShape_eq (operator : Operator) (lefts rights : List Value) :
    requireSharedShape operator lefts rights =
      (sharedShapeFault? operator lefts rights).elim (.ok ()) .error := by
  rw [requireSharedShape, sharedShapeFault?, commonShape_eq, commonShape_eq]
  cases mixture? (.leftOf operator) lefts with
  | some fault => rfl
  | none =>
    cases mixture? (.rightOf operator) rights with
    | some fault => rfl
    | none =>
      rcases lefts with _ | ⟨l, lefts⟩
      · rfl
      · rcases rights with _ | ⟨r, rights⟩
        · rfl
        · have hm : mismatch? operator (l :: lefts) (r :: rights) =
              if l.shape = r.shape then none else some (.shapeMismatch operator l.shape r.shape) := rfl
          rw [Option.none_or, Option.none_or, hm]
          by_cases h : l.shape = r.shape
          · rw [if_pos h]
            exact if_pos h
          · rw [if_neg h]
            exact if_neg h

theorem requireSharedShape_error_iff {operator : Operator} {lefts rights : List Value}
    {fault : Fault} : requireSharedShape operator lefts rights = .error fault ↔
      sharedShapeFault? operator lefts rights = some fault := by
  rw [requireSharedShape_eq, elim_error_iff]

theorem mismatch?_kind {operator : Operator} {lefts rights : List Value} {fault : Fault}
    (h : mismatch? operator lefts rights = some fault) : fault.kind = .schema := by
  unfold mismatch? at h
  split at h
  · split at h
    · cases h
    · cases h
      rfl
  · cases h

/-- Sides that do not share one shape are a fault of the schema, unless the row to be reported has no
shown form. -/
theorem sharedShapeFault?_kind {operator : Operator} {lefts rights : List Value} {fault : Fault}
    (h : sharedShapeFault? operator lefts rights = some fault) :
    fault.kind = .schema ∨ fault = .badValue ∧ ∃ row ∈ lefts ++ rights, row.printable = false := by
  rcases Option.or_eq_some_iff.1 h with h | ⟨-, h⟩
  · refine (mixture?_kind h).imp_right ?_
    rintro ⟨rfl, row, hr, hp⟩
    exact ⟨rfl, row, List.mem_append_left _ hr, hp⟩
  rcases Option.or_eq_some_iff.1 h with h | ⟨-, h⟩
  · refine (mixture?_kind h).imp_right ?_
    rintro ⟨rfl, row, hr, hp⟩
    exact ⟨rfl, row, List.mem_append_right _ hr, hp⟩
  · exact .inl (mismatch?_kind h)

/-- Where each side is uniform, only a mismatch of the two is left to report. -/
theorem sharedShapeFault?_of_uniform {lefts rights : List Value} (hl : Uniform lefts)
    (hr : Uniform rights) (operator : Operator) :
    sharedShapeFault? operator lefts rights = mismatch? operator lefts rights := by
  rw [sharedShapeFault?, mixture?_of_uniform hl, mixture?_of_uniform hr, Option.none_or,
    Option.none_or]

/-- Rows that are uniform on each side pass the check, or are refused for the schema. -/
theorem requireSharedShape_cases {ls rs : List Value} (operator : Operator) (hl : Uniform ls)
    (hr : Uniform rs) :
    requireSharedShape operator ls rs = .ok () ∧ Uniform (ls ++ rs) ∨
      ∃ fault, requireSharedShape operator ls rs = .error fault ∧ fault.kind = .schema ∧
        ¬ Uniform (ls ++ rs) := by
  cases hs : requireSharedShape operator ls rs with
  | ok _ => exact .inl ⟨rfl, requireSharedShape_ok_iff.1 hs⟩
  | error fault =>
    have hm := requireSharedShape_error_iff.1 hs
    rw [sharedShapeFault?_of_uniform hl hr] at hm
    refine .inr ⟨fault, rfl, mismatch?_kind hm, fun hu => ?_⟩
    cases hs.symm.trans (requireSharedShape_ok_iff.2 hu)

/-! ## The part of the operator -/

/-- What is reported is put in the same words for every operator, but for its name. -/
inductive SameWords (report : Operator → Option Fault) : Prop where
  | nothing (h : ∀ operator, report operator = none)
  | unshown (h : ∀ operator, report operator = some .badValue)
  | schema (words : String) (h : ∀ operator, ∃ fault, report operator = some fault ∧
      fault.kind = .schema ∧ fault.message? = some (operator.name ++ words))

theorem SameWords.or {report report' : Operator → Option Fault} (h : SameWords report)
    (h' : SameWords report') : SameWords fun operator => (report operator).or (report' operator) := by
  cases h with
  | nothing h =>
    have hf : (fun operator => (report operator).or (report' operator)) = report' :=
      funext fun operator => by rw [h]; rfl
    rwa [hf]
  | unshown h => exact .unshown fun operator => by rw [h]; rfl
  | schema words h =>
    refine .schema words fun operator => ?_
    obtain ⟨fault, hf, hw⟩ := h operator
    exact ⟨fault, by rw [hf]; rfl, hw⟩

/-- A mixture on one side, which is named by the operator and a word for the side. -/
theorem sameWords_mixture? {side : Operator → Location} {word : String}
    (hs : ∀ operator, (side operator).name = operator.name ++ word) (rows : List Value) :
    SameWords fun operator => mixture? (side operator) rows := by
  cases rows with
  | nil => exact .nothing fun _ => rfl
  | cons first rows =>
    simp only [mixture?]
    cases rows.find? fun row => row.shape ≠ first.shape with
    | none => exact .nothing fun _ => rfl
    | some row =>
      simp only [Option.map_some, misfit]
      cases row.printable with
      | false => exact .unshown fun _ => rfl
      | true =>
        refine .schema (word ++ (": row " ++ row.repr ++ " has " ++ row.shape.describe
          ++ ", expected " ++ first.shape.describe)) fun operator => ⟨_, rfl, rfl, ?_⟩
        show some ((side operator).name ++ ": row " ++ row.repr ++ " has " ++ row.shape.describe
          ++ ", expected " ++ first.shape.describe) = _
        rw [hs]
        simp only [String.append_assoc]

theorem sameWords_mismatch? (lefts rights : List Value) :
    SameWords fun operator => mismatch? operator lefts rights := by
  unfold mismatch?
  cases lefts.head? with
  | none => exact .nothing fun _ => rfl
  | some l =>
    cases rights.head? with
    | none => exact .nothing fun _ => rfl
    | some r =>
      by_cases h : l.shape = r.shape
      · exact .nothing fun _ => if_pos h
      · refine .schema (": row shape mismatch, left rows have " ++ l.shape.describe
          ++ " and right rows have " ++ r.shape.describe) fun operator => ⟨_, if_neg h, rfl, ?_⟩
        show some (operator.name ++ ": row shape mismatch, left rows have " ++ l.shape.describe
          ++ " and right rows have " ++ r.shape.describe) = _
        simp only [String.append_assoc]

theorem sameWords_sharedShapeFault? (lefts rights : List Value) :
    SameWords fun operator => sharedShapeFault? operator lefts rights :=
  (sameWords_mixture? (fun _ => rfl) lefts).or
    ((sameWords_mixture? (fun _ => rfl) rights).or (sameWords_mismatch? lefts rights))

end BagAlgebra
