/-
The layout of a table. Every line but the second begins a line of full length, in which each field is as wide as its
column and a separator stands between two fields; only blanks at its end are left out. The second line is the rule,
of the same length, with its separators at the same places. So the columns are aligned whatever is cut or padded,
also where blanks at the end of a line take part of a separator or of a text with them.
-/
import BagAlgebra.Proofs.Table.Columns
import BagAlgebra.Proofs.Table.Splitting
import Mathlib.Algebra.Ring.Nat

namespace BagAlgebra

namespace Pretty

/-! ## Fields between separators -/

theorem length_intercalate (separator : String) (fields : List String) :
    (separator.intercalate fields).length
      = (fields.map String.length).sum + separator.length * (fields.length - 1) := by
  induction fields with
  | nil => simp
  | cons field fields ih =>
    cases fields with
    | nil => simp
    | cons next fields =>
      rw [String.intercalate_cons_cons, String.length_append, String.length_append, ih]
      simp only [List.map_cons, List.sum_cons, List.length_cons, Nat.add_sub_cancel, Nat.mul_succ]
      omega

/-- The length of a line of fields of these widths, with separators of three characters between them. -/
def lineLength (widths : List Nat) : Nat := widths.sum + 3 * (widths.length - 1)

/-- The place of the separator after the column at a position. -/
def separatorPlace (widths : List Nat) (i : Nat) : Nat := (widths.take (i + 1)).sum + 3 * i

/-- A line that consists of fields of these widths with a separator between them. -/
structure Ruled (separator : String) (widths : List Nat) (line : String) : Prop where
  fields : ∃ fields : List String, fields.map String.length = widths ∧ line = separator.intercalate fields
  length : line.length = lineLength widths
  separators : ∀ i, i + 1 < widths.length →
    (line.toList.drop (separatorPlace widths i)).take 3 = separator.toList

/-- The widths alone place the separators. -/
theorem ruled_intercalate (separator : String) (hs : separator.length = 3) (fields : List String) :
    Ruled separator (fields.map String.length) (separator.intercalate fields) where
  fields := ⟨fields, rfl, rfl⟩
  length := by rw [length_intercalate, hs, lineLength, List.length_map]
  separators := by
    intro i hi
    rw [List.length_map] at hi
    have hlength : (fields.take (i + 1)).length = i + 1 := by
      rw [List.length_take]
      omega
    have hbefore : fields.take (i + 1) ≠ [] := fun hn => by simp [hn] at hlength
    have hafter : fields.drop (i + 1) ≠ [] := fun hn => by
      have := List.drop_eq_nil_iff.1 hn
      omega
    have hsplit : separator.intercalate fields = separator.intercalate (fields.take (i + 1)) ++ separator
        ++ separator.intercalate (fields.drop (i + 1)) := by
      rw [← String.intercalate_append_of_ne_nil hbefore hafter, List.take_append_drop]
    have hplace : (separator.intercalate (fields.take (i + 1))).toList.length
        = separatorPlace (fields.map String.length) i := by
      rw [String.length_toList, length_intercalate, hs, hlength, Nat.add_sub_cancel, separatorPlace, List.map_take]
    rw [hsplit, String.toList_append, String.toList_append, List.append_assoc, ← hplace, List.drop_left,
      List.take_left' (by rw [String.length_toList, hs])]

/-! ## Lines without the blanks at their end -/

/-- A line that begins another one, of which only blanks are missing. -/
def Opens (line full : String) : Prop :=
  ∃ blanks : List Char, full.toList = line.toList ++ blanks ∧ ∀ c ∈ blanks, isBlank c = true

/-- A line that does not end in a blank. -/
def Trimmed (line : String) : Prop := ∀ c, line.toList.getLast? = some c → isBlank c = false

theorem opens_joinCells (fields : List String) : Opens (joinCells fields) (" | ".intercalate fields) := by
  obtain ⟨blanks, happend, hblank⟩ := stripRight_append_blank (" | ".intercalate fields).toList
  refine ⟨blanks, ?_, hblank⟩
  rw [joinCells, String.toList_ofList, happend]

theorem trimmed_joinCells (fields : List String) : Trimmed (joinCells fields) := by
  intro c hc
  rw [joinCells, String.toList_ofList, stripRight, List.getLast?_reverse] at hc
  have := List.head?_dropWhile_not isBlank (" | ".intercalate fields).toList.reverse
  rwa [hc] at this

theorem trimmed_of_no_blank {line : String} (h : ∀ c ∈ line.toList, isBlank c = false) : Trimmed line :=
  fun c hc => h c (List.mem_of_getLast? hc)

theorem mem_of_mem_joinCells {c : Char} {fields : List String} (h : c ∈ (joinCells fields).toList) :
    c ∈ (" | ".intercalate fields).toList := by
  obtain ⟨blanks, happend, -⟩ := opens_joinCells fields
  rw [happend]
  exact List.mem_append_left _ h

/-! ## Fields of a column -/

/-- The widths of columns within a limit that is not negative. -/
def fieldWidths (limit : Int) (headers : List String) (rows : List (List String)) : List Nat :=
  (List.range headers.length).map fun i => min (longest (column i (headers :: rows))) limit.toNat

theorem widthsWithin_eq_fieldWidths {limit : Int} (hlimit : 0 ≤ limit) (headers : List String)
    (rows : List (List String)) :
    widthsWithin limit headers rows = (fieldWidths limit headers rows).map Int.ofNat := by
  rw [widthsWithin, fieldWidths, List.map_map]
  refine List.map_congr_left fun i _ => ?_
  simp only [Function.comp_apply, Int.ofNat_eq_natCast]
  omega

/-- A text of a column fills it after it is cut and padded: if it is cut, there is room for the ellipsis. -/
theorem length_pad_cut {w : Nat} {text : String} (h : 1 ≤ w ∨ text.length ≤ w) :
    (pad w (cut w text)).length = w := by
  have hcut : (cut w text).length ≤ w := by
    unfold cut
    split
    · next hlt =>
      rw [String.length_append, String.length_ofList, List.length_take, String.length_toList]
      have : ellipsis.length = 1 := by decide
      omega
    · omega
  rw [pad, String.length_append, String.length_ofList, List.length_replicate]
  omega

theorem newline_not_mem_pad_cut {width : Int} {text : String} (h : '\n' ∉ text.toList) :
    '\n' ∉ (pad width (cut width text)).toList := by
  intro hn
  rw [pad, String.toList_append, String.toList_ofList, List.mem_append] at hn
  rcases hn with hn | hn
  · unfold cut at hn
    split at hn
    · rw [String.toList_append, String.toList_ofList, List.mem_append] at hn
      rcases hn with hn | hn
      · exact h (List.mem_of_mem_take hn)
      · revert hn
        decide
    · exact h hn
  · exact absurd (List.eq_of_mem_replicate hn) (by decide)

/-- The texts of a line, cut and padded. -/
def padded (widths : List Int) (texts : List String) : List String :=
  List.zipWith (fun w text => pad w (cut w text)) widths texts

/-- In a line under headers each text fills its column. -/
theorem lengths_padded {limit : Int} (hlimit : 1 ≤ limit) {headers : List String} {rows : List (List String)}
    {texts : List String} (hm : texts ∈ headers :: rows) (hl : texts.length = headers.length) :
    (padded (widthsWithin limit headers rows) texts).map String.length = fieldWidths limit headers rows := by
  rw [widthsWithin_eq_fieldWidths (by omega)]
  refine List.ext_getElem (by simp [padded, fieldWidths, hl]) fun i hi hi' => ?_
  have ht : i < texts.length := by
    rw [fieldWidths, List.length_map, List.length_range] at hi'
    omega
  have hlongest := length_le_longest (mem_column hm ht)
  have hw : (fieldWidths limit headers rows)[i] = min (longest (column i (headers :: rows))) limit.toNat := by
    simp only [fieldWidths, List.getElem_map, List.getElem_range]
  simp only [padded, List.getElem_map, List.getElem_zipWith]
  exact length_pad_cut (by omega)

theorem newline_not_mem_line {widths : List Int} {texts : List String} (h : ∀ text ∈ texts, '\n' ∉ text.toList) :
    '\n' ∉ (line widths texts).toList := by
  intro hn
  rcases mem_intercalate (mem_of_mem_joinCells hn) with hn | ⟨field, hf, hn⟩
  · revert hn
    decide
  · obtain ⟨⟨w, text⟩, hp, rfl⟩ := List.mem_map.1 (List.map_uncurry_zip_eq_zipWith .. ▸ hf)
    exact newline_not_mem_pad_cut (h text (List.of_mem_zip hp).2) hn

/-! ## The rule -/

/-- The dashes under a column. -/
def dashes (w : Nat) : String := String.ofList (List.replicate w '-')

@[simp] theorem length_dashes (w : Nat) : (dashes w).length = w := by
  rw [dashes, String.length_ofList, List.length_replicate]

theorem rule_eq_dashes (widths : List Nat) :
    rule (widths.map Int.ofNat) = "-+-".intercalate (widths.map dashes) := by
  rw [rule, List.map_map]
  rfl

theorem ruled_dashes (widths : List Nat) : Ruled "-+-" widths ("-+-".intercalate (widths.map dashes)) := by
  have h := ruled_intercalate "-+-" (by decide) (widths.map dashes)
  have hid : String.length ∘ dashes = id := funext length_dashes
  rwa [List.map_map, hid, List.map_id] at h

/-- There are only dashes and crosses in the rule. -/
theorem mem_rule {c : Char} {widths : List Nat} (h : c ∈ ("-+-".intercalate (widths.map dashes)).toList) :
    c = '-' ∨ c = '+' := by
  rcases mem_intercalate h with h | ⟨field, hf, h⟩
  · have hc : c ∈ ['-', '+', '-'] := h
    simp only [List.mem_cons, List.not_mem_nil, or_false] at hc
    rcases hc with hc | hc | hc
    · exact .inl hc
    · exact .inr hc
    · exact .inl hc
  · obtain ⟨w, -, rfl⟩ := List.mem_map.1 hf
    rw [dashes, String.toList_ofList] at h
    exact .inl (List.eq_of_mem_replicate h)

/-! ## Tables -/

/-- A text that consists of a line, a rule and some more lines. The rule is made of dashes; each other line begins one
with fields of the same widths, all but the blanks at its end; and no line ends in a blank. -/
structure LaidOut (widths : List Nat) (count : Nat) (text : String) : Prop where
  lines : ∃ head body, pieces '\n' text = head :: "-+-".intercalate (widths.map dashes) :: body ∧ body.length = count ∧
    ∀ line ∈ head :: body, ∃ full, Ruled " | " widths full ∧ Opens line full
  rule : Ruled "-+-" widths ("-+-".intercalate (widths.map dashes))
  trimmed : ∀ line ∈ pieces '\n' text, Trimmed line

/-- A table within a limit that leaves room for an ellipsis is laid out, unless there are newlines in its texts. -/
theorem laidOut_table {limit : Int} (hlimit : 1 ≤ limit) {headers : List String} {rows : List (List String)}
    (hr : ∀ row ∈ rows, row.length = headers.length)
    (newlines : ∀ texts ∈ headers :: rows, ∀ text ∈ texts, '\n' ∉ text.toList) :
    LaidOut (fieldWidths limit headers rows) rows.length (table (widthsWithin limit headers rows) headers rows) := by
  have hl : ∀ texts ∈ headers :: rows, texts.length = headers.length := List.forall_mem_cons.2 ⟨rfl, hr⟩
  have hrule : rule (widthsWithin limit headers rows)
      = "-+-".intercalate ((fieldWidths limit headers rows).map dashes) := by
    rw [widthsWithin_eq_fieldWidths (by omega), rule_eq_dashes]
  have hpieces : pieces '\n' (table (widthsWithin limit headers rows) headers rows)
      = line (widthsWithin limit headers rows) headers :: rule (widthsWithin limit headers rows)
        :: rows.map (line (widthsWithin limit headers rows)) := by
    refine pieces_intercalate (List.cons_ne_nil _ _) ?_
    refine List.forall_mem_cons.2 ⟨newline_not_mem_line (newlines _ (List.mem_cons_self ..)), ?_⟩
    refine List.forall_mem_cons.2 ⟨fun hn => ?_, List.forall_mem_map.2 fun row hm => ?_⟩
    · rw [hrule] at hn
      exact absurd (mem_rule hn) (by decide)
    · exact newline_not_mem_line (newlines row (List.mem_cons_of_mem _ hm))
  have hfull : ∀ texts ∈ headers :: rows, ∃ full, Ruled " | " (fieldWidths limit headers rows) full ∧
      Opens (line (widthsWithin limit headers rows) texts) full := by
    intro texts hm
    have h := ruled_intercalate " | " (by decide) (padded (widthsWithin limit headers rows) texts)
    rw [lengths_padded hlimit hm (hl texts hm)] at h
    exact ⟨_, h, opens_joinCells _⟩
  refine ⟨⟨_, _, hrule ▸ hpieces, List.length_map _, ?_⟩, ruled_dashes _, ?_⟩
  · obtain ⟨hhead, hbody⟩ := List.forall_mem_cons.1 hfull
    exact List.forall_mem_cons.2 ⟨hhead, List.forall_mem_map.2 hbody⟩
  · rw [hpieces]
    refine List.forall_mem_cons.2 ⟨trimmed_joinCells _, List.forall_mem_cons.2 ⟨?_, ?_⟩⟩
    · rw [hrule]
      refine trimmed_of_no_blank fun c hc => ?_
      rcases mem_rule hc with rfl | rfl <;> rfl
    · exact List.forall_mem_map.2 fun row _ => trimmed_joinCells _

/-- Rows under headers are laid out within every limit that is positive, if there are no newlines in their texts.
There is no table only if a row has no text. -/
theorem render_aligns {rows : List Value} {store : Store} {headers : Value} {hs : List String}
    (inForce : InForce rows store headers hs) (fills : Fills rows hs)
    (headersClean : ∀ header ∈ hs, '\n' ∉ header.toList)
    (cellsClean : ∀ row ∈ rows, ∀ text ∈ cellTexts row, '\n' ∉ text.toList)
    (cell : Option Nat) {limit : Int} (positive : 1 ≤ limit) :
    (rows.all Value.printable = true → ∃ text,
      ((render (.list cell rows) headers (.int limit) : Run Event String) store).result = .ok text ∧
      LaidOut (fieldWidths limit hs (rows.map cellTexts)) rows.length text) ∧
    (rows.all Value.printable = false →
      ((render (.list cell rows) headers (.int limit) : Run Event String) store).result = .error .badValue) := by
  rw [render_inForce inForce fills.columns]
  constructor
  · intro hp
    have hbound : -sizeLimit - 1 ≤ limit := by
      simp only [sizeLimit]
      omega
    have newlines : ∀ texts ∈ hs :: rows.map cellTexts, ∀ text ∈ texts, '\n' ∉ text.toList :=
      List.forall_mem_cons.2 ⟨headersClean, List.forall_mem_map.2 cellsClean⟩
    have laidOut := laidOut_table positive fills.length_cellTexts newlines
    rw [List.length_map] at laidOut
    refine ⟨_, ?_, laidOut⟩
    rw [if_pos hp, renderUnder_texts hbound fills.measurable fills.length_cellTexts,
      widthsWithin_eq fills.length_cellTexts]
  · intro hp
    rw [hp]
    rfl

/-- A blank text at the end of a line is left out with the blank of the separator before it, and one header is too long
for its column. -/
theorem render_aligns_blank :
    ∃ text, ((render (.list none [.tuple [.int 22, .text " "], .tuple [.int 7, .text "x"]])
        (.list none [.text "number", .text ""]) (.int 4) : Run Event String) .empty).result = .ok text ∧
      LaidOut [4, 1] 2 text := by
  have inForce : InForce [.tuple [.int 22, .text " "], .tuple [.int 7, .text "x"]] .empty
      (.list none [.text "number", .text ""]) ["number", ""] := .given rfl
  have fills : Fills [.tuple [.int 22, .text " "], .tuple [.int 7, .text "x"]] ["number", ""] :=
    ⟨List.cons_ne_nil _ _, by decide, by decide⟩
  have positive : (1 : Int) ≤ 4 := by decide
  have h := (render_aligns inForce fills (by decide) (by decide +kernel) none positive).1 (by decide +kernel)
  have hwidths : fieldWidths 4 ["number", ""]
      ([Value.tuple [.int 22, .text " "], .tuple [.int 7, .text "x"]].map cellTexts) = [4, 1] := by decide +kernel
  rwa [hwidths] at h

end Pretty

end BagAlgebra
