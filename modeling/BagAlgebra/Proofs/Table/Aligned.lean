/-
Aligned tables. A table under headers fails for the number of cells of a row only, or for a header or a
limit that cannot be used; so a table of uniform rows under the headers made up for them does not fail
for a mismatch, and with texts for headers and an integer for a limit it is there.
-/
import BagAlgebra.Proofs.Table.Headers
import BagAlgebra.Table.Pretty

namespace BagAlgebra

/-! ## Faults that are no mismatch -/

/-- The result is no fault of shapes or of headers. -/
def NoMismatch {α : Type} (r : Except Fault α) : Prop :=
  ∀ fault, r = .error fault → fault.kind ≠ .schema

section NoMismatch

variable {α β : Type}

theorem noMismatch_ok (a : α) : NoMismatch (.ok a) := fun _ h => by cases h

theorem noMismatch_error {fault : Fault} (h : fault.kind ≠ .schema) :
    NoMismatch (.error fault : Except Fault α) := by
  intro _ he
  cases he
  exact h

theorem NoMismatch.bind {r : Except Fault α} {next : α → Except Fault β} (h : NoMismatch r)
    (hn : ∀ a, r = .ok a → NoMismatch (next a)) : NoMismatch (r >>= next) := by
  intro fault he
  rcases error_of_bind he with he | ⟨a, ha, he⟩
  · exact h fault he
  · exact hn a ha fault he

theorem noMismatch_mapM {f : α → Except Fault β} (h : ∀ a, NoMismatch (f a)) :
    ∀ items : List α, NoMismatch (items.mapM f)
  | [] => noMismatch_ok []
  | a :: items => by
    rw [List.mapM_cons]
    exact (h a).bind fun b _ => (noMismatch_mapM h items).bind fun bs _ => noMismatch_ok _

end NoMismatch

namespace Pretty

/-! ## Tables under headers -/

theorem capped_noMismatch (limit : Value) (width : Nat) : NoMismatch (capped limit width) := by
  unfold capped
  split
  · exact noMismatch_ok _
  · exact noMismatch_ok _
  · exact noMismatch_error (by decide)

theorem usable_noMismatch (width : Number) : NoMismatch (usable width) := by
  unfold usable
  split
  · exact noMismatch_error (by decide)
  · split
    · exact noMismatch_error (by decide)
    · exact noMismatch_ok _

theorem headerText_noMismatch (width : Number) (header : Value) (length : Nat) :
    NoMismatch (headerText width header length) := by
  unfold headerText
  split
  · intro fault h
    cases hu : usable width with
    | ok w =>
      rw [hu] at h
      cases h
    | error fault' =>
      rw [hu] at h
      cases h
      exact usable_noMismatch width fault hu
  · refine noMismatch_error ?_
    split <;> decide

theorem length?_noMismatch (v : Value) : NoMismatch v.length? := by
  unfold Value.length?
  split
  · split
    · exact noMismatch_error (by decide)
    · exact noMismatch_ok _
  · exact noMismatch_error (by decide)

theorem repr?_noMismatch (v : Value) : NoMismatch v.repr? := by
  unfold Value.repr?
  split
  · exact noMismatch_ok _
  · exact noMismatch_error (by decide)

/-- The first row that has not as many cells as there are headers is refused. -/
theorem forM_checkRow_eq (headers : List Value) (shown : String) (rows : List (List String)) :
    rows.forM (checkRow headers shown) =
      match rows.find? fun row => row.length ≠ headers.length with
      | none => .ok ()
      | some row => .error (.headerMismatch (Value.list none (row.map .text)).repr shown) := by
  induction rows with
  | nil => rfl
  | cons row rows ih =>
    show (checkRow headers shown row >>= fun _ => rows.forM (checkRow headers shown)) = _
    by_cases hr : row.length = headers.length
    · rw [checkRow, if_pos hr, List.find?_cons_of_neg (by simpa using hr)]
      exact ih
    · rw [checkRow, if_neg hr, List.find?_cons_of_pos (by simpa using hr)]
      rfl

theorem forM_checkRow {headers : List Value} {shown : String} {rows : List (List String)}
    (h : ∀ row ∈ rows, row.length = headers.length) :
    rows.forM (checkRow headers shown) = .ok () := by
  have hnone : rows.find? (fun row => row.length ≠ headers.length) = none :=
    List.find?_eq_none.2 fun row hr => by simpa using h row hr
  rw [forM_checkRow_eq, hnone]

/-- Rows with as many cells as there are headers are no mismatch, whatever the limit. -/
theorem renderUnder_noMismatch {headers : List Value} {limit : Value} {rows : List (List String)}
    (h : ∀ row ∈ rows, row.length = headers.length) :
    NoMismatch (renderUnder headers limit rows) := by
  refine (repr?_noMismatch _).bind fun shown _ => ?_
  refine (noMismatch_mapM length?_noMismatch headers).bind fun lengths _ => ?_
  rw [forM_checkRow h]
  refine (noMismatch_ok ()).bind fun _ _ => ?_
  refine (noMismatch_mapM (capped_noMismatch limit) _).bind fun capped _ => ?_
  refine (noMismatch_mapM (fun p => headerText_noMismatch _ _ _) _).bind fun texts _ => ?_
  exact (noMismatch_mapM usable_noMismatch _).bind fun widths _ => noMismatch_ok _

/-! ## Tables under texts -/

/-- The widths of columns that hold rows of texts. -/
def columnWidths (headers : List String) (rows : List (List String)) : List Nat :=
  rows.foldl (fun ws row => widen ws (row.map String.length)) (headers.map String.length)

theorem length_foldl_widen {count : Nat} {rows : List (List String)} {widths : List Nat}
    (hw : widths.length = count) (h : ∀ row ∈ rows, row.length = count) :
    (rows.foldl (fun ws row => widen ws (row.map String.length)) widths).length = count := by
  induction rows generalizing widths with
  | nil => exact hw
  | cons row rows ih =>
    obtain ⟨hr, hrs⟩ := List.forall_mem_cons.1 h
    refine ih ?_ hrs
    show (List.zipWith max widths (row.map String.length)).length = count
    rw [List.length_zipWith, List.length_map, hw, hr, Nat.min_self]

theorem length_columnWidths {headers : List String} {rows : List (List String)}
    (h : ∀ row ∈ rows, row.length = headers.length) :
    (columnWidths headers rows).length = headers.length :=
  length_foldl_widen (List.length_map _) h

theorem printable_texts (texts : List String) : printableItems (texts.map .text) = true := by
  induction texts with
  | nil => rfl
  | cons text texts ih => exact ih

/-- Texts can be shown together, and each can be measured unless it is longer than a length can say. -/
theorem repr?_texts (texts : List String) :
    (Value.list none (texts.map .text)).repr? = .ok (Value.list none (texts.map .text)).repr :=
  if_pos (printable_texts texts)

theorem mapM_length?_texts {texts : List String} (h : ∀ text ∈ texts, (text.length : Int) ≤ sizeLimit) :
    (texts.map Value.text).mapM Value.length? = .ok (texts.map String.length) := by
  rw [List.mapM_map]
  exact mapM_ok fun text ht => if_neg (Int.not_lt.2 (h text ht))

theorem usable_int {w : Int} (h : -sizeLimit - 1 ≤ w) : usable (.int w) = .ok w :=
  if_neg (Int.not_lt.2 h)

/-- Headers that are texts are shown as they are. -/
theorem mapM_headerText {widths : List Int} {headers : List String} {lengths : List Nat}
    (hw : ∀ w ∈ widths, -sizeLimit - 1 ≤ w) (h : widths.length = headers.length)
    (hl : lengths.length = headers.length) :
    (((widths.map Number.int).zip (headers.map Value.text)).zip lengths).mapM
      (fun x => headerText x.1.1 x.1.2 x.2) = .ok headers := by
  induction headers generalizing widths lengths with
  | nil =>
    rw [List.map_nil, List.zip_nil_right]
    rfl
  | cons header headers ih =>
    obtain ⟨w, widths, rfl⟩ := List.exists_cons_of_length_eq_add_one h
    obtain ⟨l, lengths, rfl⟩ := List.exists_cons_of_length_eq_add_one hl
    obtain ⟨hw0, hws⟩ := List.forall_mem_cons.1 hw
    rw [List.map_cons, List.map_cons, List.zip_cons_cons, List.zip_cons_cons, List.mapM_cons,
      ih hws (Nat.succ.inj h) (Nat.succ.inj hl), headerText, usable_int hw0]
    rfl

/-- Rows with as many cells as there are headers pass the checks; what is left to do is to put the headers into
columns of these widths. -/
theorem renderUnder_fitting {limit : Int} {headers : List String} {rows : List (List String)}
    (hh : ∀ header ∈ headers, (header.length : Int) ≤ sizeLimit)
    (hr : ∀ row ∈ rows, row.length = headers.length) {widths : List Int}
    (hw : (columnWidths headers rows).map (fun w : Nat => min (w : Int) limit) = widths) :
    renderUnder (headers.map .text) (.int limit) rows = (do
      let texts ← (((widths.map Number.int).zip (headers.map Value.text)).zip (headers.map String.length)).mapM
        fun x => headerText x.1.1 x.1.2 x.2
      let widths ← (widths.map Number.int).mapM usable
      return table widths texts rows) := by
  have hrows : ∀ row ∈ rows, row.length = (headers.map Value.text).length := by
    simpa only [List.length_map] using hr
  have hcapped : (columnWidths headers rows).mapM (capped (.int limit))
      = .ok (widths.map Number.int) := by
    rw [← hw, List.map_map]
    exact mapM_ok fun _ _ => rfl
  simp only [renderUnder, repr?_texts, ok_bind, mapM_length?_texts hh, forM_checkRow hrows]
  show ((columnWidths headers rows).mapM (capped (.int limit)) >>= _) = _
  rw [hcapped, ok_bind]

/-- Under headers that are texts, with an integer for a limit, there is a table of rows with as many
cells as there are headers. -/
theorem renderUnder_texts {limit : Int} {headers : List String} {rows : List (List String)}
    (hlimit : -sizeLimit - 1 ≤ limit) (hh : ∀ header ∈ headers, (header.length : Int) ≤ sizeLimit)
    (hr : ∀ row ∈ rows, row.length = headers.length) :
    renderUnder (headers.map .text) (.int limit) rows = .ok
      (table ((columnWidths headers rows).map fun w : Nat => min (w : Int) limit) headers rows) := by
  obtain ⟨widths, hw⟩ : ∃ widths, (columnWidths headers rows).map (fun w : Nat => min (w : Int) limit)
    = widths := ⟨_, rfl⟩
  have hbound : ∀ w ∈ widths, -sizeLimit - 1 ≤ w := by
    rw [← hw, List.forall_mem_map]
    intro m _
    have hm : -sizeLimit - 1 ≤ (m : Int) := by simp only [sizeLimit]; omega
    exact Int.le_min.2 ⟨hm, hlimit⟩
  have husable : (widths.map Number.int).mapM usable = .ok widths := by
    have h : (widths.map Number.int).mapM usable = .ok (widths.map id) := by
      rw [List.mapM_map]
      exact mapM_ok fun w h => usable_int (hbound w h)
    rwa [List.map_id] at h
  have htexts := mapM_headerText hbound (by rw [← hw, List.length_map, length_columnWidths hr])
    (List.length_map _ : (headers.map String.length).length = _)
  rw [renderUnder_fitting hh hr hw, htexts, ok_bind, husable, hw]
  rfl

/-- A limit that is out of all bounds is a width out of all bounds. -/
theorem renderUnder_unbounded {limit : Int} {headers : List String} {rows : List (List String)}
    (hlimit : limit < -sizeLimit - 1) (hne : headers ≠ [])
    (hh : ∀ header ∈ headers, (header.length : Int) ≤ sizeLimit)
    (hr : ∀ row ∈ rows, row.length = headers.length) :
    renderUnder (headers.map .text) (.int limit) rows = .error .tooLarge := by
  obtain ⟨header, others, rfl⟩ := List.exists_cons_of_ne_nil hne
  obtain ⟨w, ws, hw⟩ := List.exists_cons_of_length_eq_add_one (length_columnWidths hr)
  have hmin : min (w : Int) limit = limit := by
    simp only [sizeLimit] at hlimit
    omega
  have hfirst : headerText (.int limit) (.text header) header.length = .error .tooLarge := by
    rw [headerText, usable, if_pos hlimit]
    rfl
  rw [renderUnder_fitting hh hr rfl, hw, List.map_cons, hmin, List.map_cons, List.map_cons, List.map_cons,
    List.zip_cons_cons, List.zip_cons_cons, List.mapM_cons, hfirst]
  rfl

/-! ## Tables of a list -/

/-- A list is shown under the headers in force, unless it is empty and none are given. -/
theorem render_list {ε : Type} {rows : List Value} {headers : Value} (h : rows ≠ [] ∨ headers ≠ .null)
    (cell : Option Nat) (limit : Value) :
    (render (.list cell rows) headers limit : Run ε String) = (do
      let hs ← headersInForce (.list cell rows) headers
      if hs.isEmpty then
        let count ← (Value.list cell rows).length?
        return "(" ++ toString count ++ " rows, 0 columns)"
      else if rows.all Value.printable then renderUnder hs limit (rows.map cellTexts)
      else Run.fail .badValue) := by
  have hbody : ∀ hs : List Value, (do
        let body ← (Value.list cell rows).forEach fun row => (cells row : Run ε (List String))
        renderUnder hs limit body) =
      if rows.all Value.printable then (renderUnder hs limit (rows.map cellTexts) : Run ε String)
      else Run.fail .badValue := by
    intro hs
    rw [forEach_cells]
    cases rows.all Value.printable <;> rfl
  simp only [← hbody]
  cases rows with
  | nil =>
    cases headers with
    | null => exact absurd rfl (h.resolve_left fun hn => hn rfl)
    | _ => rfl
  | cons row rows => rfl

/-! ## Tables of uniform rows -/

theorem headersInForce_uniform {ε : Type} (cell : Option Nat) {row : Value} {rows : List Value}
    (h : ∀ r ∈ row :: rows, r.shape = row.shape) :
    (headersInForce (.list cell (row :: rows)) .null : Run ε (List Value)) =
      if (row :: rows).all Value.printable then pure (row.shape.headers.map .text)
      else Run.fail .badValue := by
  rw [headersInForce_null, defaultHeaders_uniform h]

/-- The table of uniform rows under the headers made up for them; rows without fields have none. -/
theorem render_uniform {ε : Type} (cell : Option Nat) {row : Value} {rows : List Value}
    (h : ∀ r ∈ row :: rows, r.shape = row.shape) (limit : Value) :
    (render (.list cell (row :: rows)) .null limit : Run ε String) =
      if (row :: rows).all Value.printable then
        if row.shape.width = 0 then Run.ofExcept do
          let count ← (Value.list cell (row :: rows)).length?
          return "(" ++ toString count ++ " rows, 0 columns)"
        else Run.ofExcept
          (renderUnder (row.shape.headers.map .text) limit ((row :: rows).map cellTexts))
      else Run.fail .badValue := by
  rw [render_list (.inl (List.cons_ne_nil _ _)), headersInForce_uniform cell h]
  have he : (row.shape.headers.map Value.text).isEmpty = decide (row.shape.width = 0) := by
    rw [← Shape.length_headers]
    cases row.shape.headers <;> simp
  cases (row :: rows).all Value.printable with
  | false => rfl
  | true =>
    rw [if_pos rfl, if_pos rfl, pure_bind, he]
    by_cases hw : row.shape.width = 0
    · rw [if_pos (decide_eq_true hw), if_pos hw]
      cases (Value.list cell (row :: rows)).length? <;> rfl
    · rw [if_neg (by simp [hw]), if_neg hw]
      rfl

/-- Rows that have a table: they can be shown, and share a shape that has cells, but not so many that
their headers could not be measured. -/
structure Tabular (rows : List Value) : Prop where
  printable : ∀ row ∈ rows, row.printable = true
  shape : ∃ s : Shape, s.width ≠ 0 ∧ (∀ header ∈ s.headers, (header.length : Int) ≤ sizeLimit) ∧
    ∀ row ∈ rows, row.shape = s

/-- The table of rows of one shape, no column wider than the limit. -/
def aligned (limit : Int) : List Value → String
  | [] => "(no rows)"
  | row :: rows =>
    let headers := row.shape.headers
    let body := (row :: rows).map cellTexts
    table ((columnWidths headers body).map fun w : Nat => min (w : Int) limit) headers body

/-- With an integer for a limit, rows that have a table are shown as it. -/
theorem render_tabular {ε : Type} {rows : List Value} (h : Tabular rows) (cell : Option Nat)
    {limit : Int} (hlimit : -sizeLimit - 1 ≤ limit) :
    (render (.list cell rows) .null (.int limit) : Run ε String) = pure (aligned limit rows) := by
  cases rows with
  | nil => rfl
  | cons row rows =>
    obtain ⟨s, hw, hh, hs⟩ := h.shape
    obtain rfl : row.shape = s := hs row (List.mem_cons_self ..)
    have hcells : ∀ cells ∈ (row :: rows).map cellTexts, cells.length = row.shape.headers.length := by
      rw [List.forall_mem_map]
      intro r hr
      rw [length_cellTexts, Shape.length_headers, hs r hr]
    rw [render_uniform cell hs, if_pos (List.all_eq_true.2 h.printable), if_neg hw,
      renderUnder_texts hlimit hh hcells]
    rfl

/-- A table of uniform rows under the headers made up for them never fails for a mismatch. -/
theorem render_noMismatch {ε : Type} {rows : List Value} (h : Uniform rows) (cell : Option Nat)
    (limit : Value) (store : Store) :
    NoMismatch ((render (.list cell rows) .null limit : Run ε String) store).result := by
  cases rows with
  | nil => exact noMismatch_ok _
  | cons row rows =>
    obtain ⟨shape, hs⟩ := h
    have hr : ∀ r ∈ row :: rows, r.shape = row.shape :=
      fun r hr => (hs r hr).trans (hs row (List.mem_cons_self ..)).symm
    rw [render_uniform cell hr]
    split
    · split
      · exact (length?_noMismatch _).bind fun _ _ => noMismatch_ok _
      · refine renderUnder_noMismatch fun cells hc => ?_
        obtain ⟨r, hrow, rfl⟩ := List.mem_map.1 hc
        rw [length_cellTexts, List.length_map, Shape.length_headers, hr r hrow]
    · exact noMismatch_error (by decide)

end Pretty

end BagAlgebra
