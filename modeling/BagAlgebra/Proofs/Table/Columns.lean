/-
The columns of a table. A column is as wide as its longest text, or as the limit if that is less, and a text is cut
where it is longer than its column is wide. No text is longer than the longest of its column, so this comes to the
same as cutting each text at the limit alone: what is shown of a cell does not hang on the other rows.
-/
import BagAlgebra.Proofs.Table.Refusal

namespace BagAlgebra

namespace Pretty

/-! ## Widths -/

/-- The texts of some lines that stand in one column. -/
def column (i : Nat) (lines : List (List String)) : List String := lines.filterMap (·[i]?)

theorem column_cons {i : Nat} {row : List String} {text : String} (h : row[i]? = some text) (rows : List (List String)) :
    column i (row :: rows) = text :: column i rows := List.filterMap_cons_some h

theorem mem_column {i : Nat} {row : List String} {rows : List (List String)} (hm : row ∈ rows) (hi : i < row.length) :
    row[i] ∈ column i rows := List.mem_filterMap.2 ⟨row, hm, List.getElem?_eq_getElem hi⟩

/-- The length of the longest of some texts. -/
def longest (texts : List String) : Nat := (texts.map String.length).max?.getD 0

theorem longest_cons (text : String) (texts : List String) :
    longest (text :: texts) = (texts.map String.length).foldl max text.length := by
  rw [longest, List.map_cons, List.max?_cons', Option.getD_some]

theorem length_le_longest {text : String} {texts : List String} (h : text ∈ texts) : text.length ≤ longest texts := by
  have hmem : text.length ∈ texts.map String.length := List.mem_map_of_mem h
  obtain ⟨most, hm⟩ := Option.isSome_iff_exists.1 (List.isSome_max?_of_ne_nil (List.ne_nil_of_mem hmem))
  rw [longest, hm, Option.getD_some]
  exact (List.max?_eq_some_iff.1 hm).2 _ hmem

/-- Widening for one row after another, a width becomes the greatest of what it was and the lengths in its column. -/
theorem getElem?_foldl_widen {i : Nat} {rows : List (List String)} (h : ∀ row ∈ rows, i < row.length) {widths : List Nat}
    {w : Nat} (hw : widths[i]? = some w) :
    (rows.foldl (fun ws row => widen ws (row.map String.length)) widths)[i]?
      = some (((column i rows).map String.length).foldl max w) := by
  induction rows generalizing widths w with
  | nil => exact hw
  | cons row rows ih =>
    obtain ⟨hr, hrs⟩ := List.forall_mem_cons.1 h
    have hcell : row[i]? = some row[i] := List.getElem?_eq_getElem hr
    have hwidened : (widen widths (row.map String.length))[i]? = some (max w row[i].length) := by
      rw [widen, List.getElem?_zipWith, hw, List.getElem?_map, hcell]
      rfl
    rw [List.foldl_cons, ih hrs hwidened, column_cons hcell]
    rfl

/-- Each column is as wide as its longest text. -/
theorem columnWidths_eq {headers : List String} {rows : List (List String)}
    (h : ∀ row ∈ rows, row.length = headers.length) :
    columnWidths headers rows = (List.range headers.length).map fun i => longest (column i (headers :: rows)) := by
  refine List.ext_getElem? fun i => ?_
  by_cases hi : i < headers.length
  · have hheader : headers[i]? = some headers[i] := List.getElem?_eq_getElem hi
    have hstart : (headers.map String.length)[i]? = some headers[i].length := by
      rw [List.getElem?_map, hheader]
      rfl
    rw [columnWidths, getElem?_foldl_widen (fun row hr => (h row hr).symm ▸ hi) hstart, List.getElem?_map,
      List.getElem?_range hi, Option.map_some, column_cons hheader, longest_cons]
  · rw [List.getElem?_eq_none (by rw [length_columnWidths h]; omega),
      List.getElem?_eq_none (by rw [List.length_map, List.length_range]; omega)]

/-- The widths of columns within a limit. -/
def widthsWithin (limit : Int) (headers : List String) (rows : List (List String)) : List Int :=
  (List.range headers.length).map fun i => min (longest (column i (headers :: rows)) : Int) limit

@[simp] theorem length_widthsWithin (limit : Int) (headers : List String) (rows : List (List String)) :
    (widthsWithin limit headers rows).length = headers.length := by
  rw [widthsWithin, List.length_map, List.length_range]

theorem widthsWithin_eq {limit : Int} {headers : List String} {rows : List (List String)}
    (h : ∀ row ∈ rows, row.length = headers.length) :
    (columnWidths headers rows).map (fun w : Nat => min (w : Int) limit) = widthsWithin limit headers rows := by
  rw [columnWidths_eq h, List.map_map]
  rfl

/-! ## Cutting -/

/-- What a limit leaves of a text: all of it if it is no longer, else its beginning with an ellipsis after it. -/
def shortened (limit : Int) (text : String) : String :=
  if (text.length : Int) ≤ limit then text
  else String.ofList (text.toList.take (max 0 (limit - 1)).toNat) ++ ellipsis

/-- A column that is wide enough for a text unless the limit is not, leaves of it what the limit leaves. -/
theorem cut_eq_shortened {w : Nat} {limit : Int} {text : String} (h : text.length ≤ w) :
    cut (min (w : Int) limit) text = shortened limit text := by
  unfold cut shortened
  by_cases hl : (text.length : Int) ≤ limit
  · rw [if_pos hl, if_neg (by omega)]
  · have hmin : min (w : Int) limit = limit := by omega
    have htake : (limit - 1).toNat = (max 0 (limit - 1)).toNat := by omega
    rw [if_neg hl, hmin, if_pos (by omega), htake]

/-- A line of shortened texts, each with blanks after it up to the width of its column. The blanks at the end are
left out. -/
def shortenedLine (limit : Int) (widths : List Int) (texts : List String) : String :=
  joinCells (List.zipWith (fun w text => pad w (shortened limit text)) widths texts)

theorem line_eq_shortenedLine {limit : Int} {headers : List String} {rows : List (List String)} {texts : List String}
    (hm : texts ∈ headers :: rows) (hl : texts.length = headers.length) :
    line (widthsWithin limit headers rows) texts = shortenedLine limit (widthsWithin limit headers rows) texts := by
  refine congrArg joinCells (List.ext_getElem (by simp) fun i hi _ => ?_)
  have hi' : i < texts.length := by
    rw [List.length_zipWith] at hi
    omega
  have hi'' : i < (widthsWithin limit headers rows).length := by rwa [length_widthsWithin, ← hl]
  have hw : (widthsWithin limit headers rows)[i] = min (longest (column i (headers :: rows)) : Int) limit := by
    simp only [widthsWithin, List.getElem_map, List.getElem_range]
  rw [List.getElem_zipWith, List.getElem_zipWith, hw, cut_eq_shortened (length_le_longest (mem_column hm hi'))]

/-- The table of headers and rows with each text cut at a limit. -/
def shortenedTable (limit : Int) (headers : List String) (rows : List (List String)) : String :=
  let widths := widthsWithin limit headers rows
  "\n".intercalate
    (shortenedLine limit widths headers :: rule widths :: rows.map (shortenedLine limit widths))

theorem table_eq_shortenedTable {limit : Int} {headers : List String} {rows : List (List String)}
    (h : ∀ row ∈ rows, row.length = headers.length) :
    table (widthsWithin limit headers rows) headers rows = shortenedTable limit headers rows := by
  have hbody : rows.map (line (widthsWithin limit headers rows))
      = rows.map (shortenedLine limit (widthsWithin limit headers rows)) :=
    List.map_congr_left fun row hr => line_eq_shortenedLine (List.mem_cons_of_mem _ hr) (h row hr)
  rw [table, hbody, line_eq_shortenedLine (List.mem_cons_self ..) rfl, shortenedTable]

/-! ## Tables -/

/-- Rows that fill the columns under some headers: there is a column, each row has a cell for each of them, and no
header is longer than a length can say. -/
structure Fills (rows : List Value) (headers : List String) : Prop where
  columns : headers ≠ []
  cells : ∀ row ∈ rows, row.shape.width = headers.length
  measurable : ∀ header ∈ headers, (header.length : Int) ≤ sizeLimit

theorem Fills.length_cellTexts {rows : List Value} {headers : List String} (h : Fills rows headers) :
    ∀ row ∈ rows.map cellTexts, row.length = headers.length := by
  rw [List.forall_mem_map]
  intro row hr
  rw [BagAlgebra.length_cellTexts, h.cells row hr]

/-- Rows under headers are shown as their table with each text cut at the limit. There is no table only if a row has
no text or the limit is out of all bounds. -/
theorem render_shortens {rows : List Value} {store : Store} {headers : Value} {hs : List String}
    (inForce : InForce rows store headers hs) (fills : Fills rows hs) (cell : Option Nat) (limit : Int) :
    ((render (.list cell rows) headers (.int limit) : Run Event String) store).result =
      if rows.all Value.printable then
        if limit < -sizeLimit - 1 then .error .tooLarge
        else .ok (shortenedTable limit hs (rows.map cellTexts))
      else .error .badValue := by
  rw [render_inForce inForce fills.columns]
  by_cases hlimit : limit < -sizeLimit - 1
  · rw [if_pos hlimit, renderUnder_unbounded hlimit fills.columns fills.measurable fills.length_cellTexts]
  · rw [if_neg hlimit, renderUnder_texts (Int.not_lt.1 hlimit) fills.measurable fills.length_cellTexts,
      widthsWithin_eq fills.length_cellTexts, table_eq_shortenedTable fills.length_cellTexts]

/-- A header and a text that are longer than the limit, and an empty column: of the separator before it, the blank at
the end of the line is left out. -/
theorem render_shortens_pairs :
    ((render (.list none [.tuple [.text "abcdef", .text ""], .tuple [.int 7, .text ""]])
        (.list none [.text "name", .text ""]) (.int 3) : Run Event String) .empty).result
      = .ok "na… |\n----+-\nab… |\n7   |" := by
  have inForce : InForce [.tuple [.text "abcdef", .text ""], .tuple [.int 7, .text ""]] .empty
      (.list none [.text "name", .text ""]) ["name", ""] := .given rfl
  have fills : Fills [.tuple [.text "abcdef", .text ""], .tuple [.int 7, .text ""]] ["name", ""] :=
    ⟨List.cons_ne_nil _ _, by decide, by decide⟩
  rw [render_shortens inForce fills none 3, if_pos (by decide +kernel), if_neg (by decide)]
  exact congrArg Except.ok (by decide +kernel)

/-- No text can be padded to a width out of all bounds, so under such a limit even a single header has no table. -/
theorem render_unbounded_header :
    InForce [] .empty (.list none [.text "id"]) ["id"] ∧ Fills [] ["id"] ∧
    ((render (.list none []) (.list none [.text "id"]) (.int (-sizeLimit - 2)) : Run Event String) .empty).result
      = .error .tooLarge :=
  ⟨.given rfl, ⟨List.cons_ne_nil _ _, by decide, by decide⟩, rfl⟩

end Pretty

end BagAlgebra
