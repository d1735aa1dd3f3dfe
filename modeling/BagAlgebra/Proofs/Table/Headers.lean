/-
The cells of rows and the headers made up for them. A row has as many cells as its shape says, and all
of them have a text unless an integer in the row is too long for one. There are as many headers as the
widest row has cells. For uniform rows they are those of their shape, so there is one for each cell of
each row.
-/
import BagAlgebra.Event
import BagAlgebra.Proofs.Row.Uniform
import BagAlgebra.Table.Cells

namespace BagAlgebra

/-! ## Cells -/

namespace Shape

/-- The number of cells of a row of a shape. -/
def width : Shape → Nat
  | .scalar => 1
  | .fields count => count

/-- The headers made up for rows of a shape. -/
def headers : Shape → List String
  | .scalar => [valueHeader]
  | .fields count => columnHeaders count

@[simp] theorem length_headers (s : Shape) : s.headers.length = s.width := by
  cases s with
  | scalar => rfl
  | fields count => simp [headers, width, columnHeaders]

end Shape

/-- The plain form of a value that has one. -/
def Value.plain : Value → String
  | .text s => s
  | v => v.repr

theorem str?_eq (v : Value) : v.str? = if v.printable then .ok v.plain else .error .badValue := by
  cases v <;> rfl

/-- The cell texts of a row that has them. -/
def cellTexts : Value → List String
  | .tuple items => items.map Value.plain
  | v => [v.plain]

@[simp] theorem length_cellTexts (row : Value) : (cellTexts row).length = row.shape.width := by
  cases row <;> simp [cellTexts, Value.shape, Shape.width]

theorem mapM_str? (vs : List Value) :
    vs.mapM Value.str? = if printableItems vs then .ok (vs.map Value.plain) else .error .badValue := by
  induction vs with
  | nil => rfl
  | cons v vs ih =>
    rw [List.mapM_cons, str?_eq, ih, printableItems]
    cases v.printable with
    | false => rfl
    | true => cases printableItems vs <;> rfl

theorem cells_eq (row : Value) :
    cells row = if row.printable then .ok (cellTexts row) else .error .badValue := by
  have single : ∀ v : Value, (do return [← v.str?] : Except Fault (List String))
      = if v.printable then .ok [v.plain] else .error .badValue := by
    intro v
    rw [str?_eq]
    cases v.printable <;> rfl
  cases row with
  | tuple items => exact mapM_str? items
  | _ => exact single _

/-! ## Walks over the rows of a list -/

section Walks

variable {ε β : Type}

/-- A walk that needs the cells of each row goes through if all rows have a text. -/
theorem mapM_cells (use : List String → β) (rows : List Value) :
    (rows.mapM fun row => do return use (← (cells row : Run ε (List String)))) =
      if rows.all Value.printable then pure (rows.map fun row => use (cellTexts row))
      else Run.fail .badValue := by
  induction rows with
  | nil => rfl
  | cons row rows ih =>
    rw [List.mapM_cons, ih, cells_eq, List.all_cons]
    cases row.printable with
    | false => rfl
    | true => cases rows.all Value.printable <;> rfl

theorem forEach_cells (cell : Option Nat) (rows : List Value) :
    ((Value.list cell rows).forEach fun row => (cells row : Run ε (List String))) =
      if rows.all Value.printable then pure (rows.map cellTexts) else Run.fail .badValue := by
  have h := mapM_cells (ε := ε) id rows
  simp only [id, bind_pure] at h
  exact h

end Walks

/-! ## Headers -/

/-- The element of a list at the first position is its first. -/
theorem item_zero (cell : Option Nat) (v : Value) (vs : List Value) :
    (Value.list cell (v :: vs)).item (.int 0) = .ok v := by
  have hp : Value.position? (v :: vs).length 0 = some 0 := by simp [Value.position?]
  rw [Value.item, Value.nth]
  simp only [Value.int?, hp]
  rfl

/-- The number of cells of the widest row. -/
def widest (rows : List Value) : Nat := (rows.map fun row => row.shape.width).foldl max 0

/-- Some row is the widest. -/
theorem widest_spec {rows : List Value} (h : rows ≠ []) :
    (∃ row ∈ rows, row.shape.width = widest rows) ∧ ∀ row ∈ rows, row.shape.width ≤ widest rows := by
  have hne : rows.map (fun row => row.shape.width) ≠ [] := fun hn => h (List.map_eq_nil_iff.1 hn)
  obtain ⟨most, hm⟩ := Option.isSome_iff_exists.1 (List.isSome_max?_of_ne_nil hne)
  have hw : widest rows = most := by
    rw [widest, List.foldl_max, hm, Option.getD_some, Nat.zero_max]
  obtain ⟨hmem, hle⟩ := List.max?_eq_some_iff.1 hm
  rw [hw]
  exact ⟨List.mem_map.1 hmem, List.forall_mem_map.1 hle⟩

/-- Rows differ from the widest in their number of cells if they differ from each other. -/
theorem exists_width_ne_widest_iff (rows : List Value) :
    (∃ row ∈ rows, row.shape.width ≠ widest rows) ↔
      ∃ row ∈ rows, ∃ other ∈ rows, row.shape.width ≠ other.shape.width := by
  constructor
  · rintro ⟨row, hr, hne⟩
    obtain ⟨other, ho, hw⟩ := (widest_spec (List.ne_nil_of_mem hr)).1
    exact ⟨row, hr, other, ho, hw ▸ hne⟩
  · rintro ⟨row, hr, other, ho, hne⟩
    by_cases hw : row.shape.width = widest rows
    · exact ⟨other, ho, fun h => hne (hw.trans h.symm)⟩
    · exact ⟨row, hr, hw⟩

/-- The headers of the columns of rows: a single column is called by its value if the first row is no
tuple, else columns are numbered. -/
def defaultHeaders : List Value → List String
  | [] => []
  | row :: rows =>
    if widest (row :: rows) = 1 ∧ row.isTuple = false then [valueHeader]
    else columnHeaders (widest (row :: rows))

theorem length_defaultHeaders (rows : List Value) : (defaultHeaders rows).length = widest rows := by
  cases rows with
  | nil => rfl
  | cons row rows =>
    rw [defaultHeaders]
    split
    · next h => exact h.1.symm
    · rw [columnHeaders, List.length_map, List.length_range]

/-- Where some row has not as many cells as the widest, that one has a cell. -/
theorem defaultHeaders_ne_nil {rows : List Value} (h : ∃ row ∈ rows, row.shape.width ≠ widest rows) :
    defaultHeaders rows ≠ [] := by
  obtain ⟨row, hr, hne⟩ := h
  have hle := (widest_spec (List.ne_nil_of_mem hr)).2 row hr
  intro hn
  have h0 : widest rows = 0 := by rw [← length_defaultHeaders, hn, List.length_nil]
  omega

theorem greatest_widths (row : Value) (rows : List Value) :
    greatest ((row :: rows).map fun r => (cellTexts r).length) = .ok (widest (row :: rows)) := by
  simp only [List.map_cons, greatest, length_cellTexts, widest, List.foldl_cons, Nat.zero_max]

/-- The headers made up for a list, if all its rows have a text. -/
theorem madeUpHeaders_list {ε : Type} (cell : Option Nat) (rows : List Value) :
    (madeUpHeaders (.list cell rows) : Run ε (List String)) =
      if rows.all Value.printable then pure (defaultHeaders rows) else Run.fail .badValue := by
  cases rows with
  | nil => rfl
  | cons row rows =>
    show (do
      let widths ← (row :: rows).mapM fun r => do return (← (cells r : Run ε (List String))).length
      let width ← greatest widths
      if width = 1 then
        let first ← (Value.list cell (row :: rows)).item (.int 0)
        return if first.isTuple then columnHeaders width else [valueHeader]
      else return columnHeaders width) = _
    rw [mapM_cells]
    cases (row :: rows).all Value.printable with
    | false => rfl
    | true =>
      rw [if_pos rfl, if_pos rfl, pure_bind, greatest_widths, defaultHeaders]
      show (if widest (row :: rows) = 1 then _ else _ : Run ε (List String)) = _
      rw [item_zero, Run.lift_ok, pure_bind]
      by_cases hw : widest (row :: rows) = 1
      · cases row.isTuple <;> simp [hw]
      · rw [if_neg hw, if_neg fun h => hw h.1]

theorem headersInForce_null {ε : Type} (cell : Option Nat) (rows : List Value) :
    (headersInForce (.list cell rows) .null : Run ε (List Value)) =
      if rows.all Value.printable then pure ((defaultHeaders rows).map .text) else Run.fail .badValue := by
  rw [headersInForce, madeUpHeaders_list]
  cases rows.all Value.printable <;> rfl

/-- The headers in force over a list of rows: those made up for it, or some that are given and are texts. -/
inductive InForce (rows : List Value) (store : Store) : Value → List String → Prop where
  | madeUp : InForce rows store .null (defaultHeaders rows)
  | given {v : Value} {headers : List String}
      (h : ((v.collect : Run Event (List Value)) store).result = .ok (headers.map .text)) :
      InForce rows store v headers

/-- They are found, unless they are made up for rows that have no text. -/
theorem InForce.result {rows : List Value} {store : Store} {v : Value} {headers : List String}
    (h : InForce rows store v headers) (cell : Option Nat) :
    ((headersInForce (.list cell rows) v : Run Event (List Value)) store).result = .ok (headers.map .text) ∨
      rows.all Value.printable = false ∧
        ((headersInForce (.list cell rows) v : Run Event (List Value)) store).result = .error .badValue := by
  cases h with
  | madeUp =>
    rw [headersInForce_null]
    cases rows.all Value.printable with
    | true => exact .inl rfl
    | false => exact .inr ⟨rfl, rfl⟩
  | given h =>
    left
    cases v with
    | null => cases h
    | _ => exact h

/-- If there are headers, the rows are not empty or the headers are given. -/
theorem InForce.asked {rows : List Value} {store : Store} {headers : Value} {hs : List String}
    (h : InForce rows store headers hs) (hne : hs ≠ []) : rows ≠ [] ∨ headers ≠ .null := by
  cases h with
  | madeUp =>
    left
    rintro rfl
    exact hne rfl
  | given h =>
    right
    rintro rfl
    cases h

/-- The headers of uniform rows are those of their shape. -/
theorem defaultHeaders_uniform {row : Value} {rows : List Value} (h : ∀ r ∈ row :: rows, r.shape = row.shape) :
    defaultHeaders (row :: rows) = row.shape.headers := by
  have hw : widest (row :: rows) = row.shape.width := by
    obtain ⟨r, hr, hw⟩ := (widest_spec (List.cons_ne_nil row rows)).1
    rw [← hw, h r hr]
  rw [defaultHeaders, hw]
  cases row with
  | tuple items => exact if_neg fun h => Bool.noConfusion h.2
  | _ => exact if_pos ⟨rfl, rfl⟩

end BagAlgebra
