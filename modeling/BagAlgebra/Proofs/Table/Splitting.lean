/-
Reading separated texts back. A text is split at the newlines, and each line at the delimiter. Nothing is
quoted, so this gives the headers and the cells of the rows back exactly if the delimiter and the newline are
in none of them: no piece that a text is split into has the character that it was split at.
-/
import BagAlgebra.Proofs.Table.Separated

namespace BagAlgebra

/-! ## Pieces of a text -/

/-- The pieces of a text between the places of a character. -/
def pieces (c : Char) (text : String) : List String := (text.split c).toList.map String.Slice.copy

theorem pieces_intercalate {c : Char} {fields : List String} (hne : fields ≠ [])
    (h : ∀ field ∈ fields, c ∉ field.toList) : pieces c ((String.singleton c).intercalate fields) = fields := by
  rw [pieces, String.toList_split_intercalate h, if_neg hne]

/-- What is split off has no separator in it, and nothing that was not there. -/
theorem of_mem_splitOn {c : Char} {cs piece : List Char} (h : piece ∈ cs.splitOn c) :
    c ∉ piece ∧ piece ⊆ cs := by
  induction cs generalizing piece with
  | nil =>
    rw [List.splitOn_nil, List.mem_singleton] at h
    rw [h]
    exact ⟨List.not_mem_nil, List.Subset.refl _⟩
  | cons b cs ih =>
    rw [List.splitOn_cons_eq_if_modifyHead] at h
    by_cases hb : (b == c) = true
    · rw [if_pos hb] at h
      rcases List.mem_cons.1 h with rfl | h
      · exact ⟨List.not_mem_nil, List.nil_subset _⟩
      · exact ⟨(ih h).1, List.subset_cons_of_subset b (ih h).2⟩
    · -- the character goes to the first piece of the rest
      rw [if_neg hb] at h
      obtain ⟨first, rest, hs⟩ := List.exists_cons_of_ne_nil (List.splitOn_ne_nil c cs)
      rw [hs, List.modifyHead_cons] at h
      rcases List.mem_cons.1 h with rfl | h
      · obtain ⟨hc, hsub⟩ := ih (hs ▸ List.mem_cons_self ..)
        refine ⟨fun hm => ?_, List.cons_subset_cons b hsub⟩
        rcases List.mem_cons.1 hm with rfl | hm
        · exact hb (beq_self_eq_true c)
        · exact hc hm
      · obtain ⟨hc, hsub⟩ := ih (hs ▸ List.mem_cons_of_mem _ h)
        exact ⟨hc, List.subset_cons_of_subset b hsub⟩

theorem of_mem_pieces {c : Char} {text piece : String} (h : piece ∈ pieces c text) :
    c ∉ piece.toList ∧ piece.toList ⊆ text.toList := by
  rw [pieces, String.toList_split_char] at h
  obtain ⟨cs, hcs, rfl⟩ := List.mem_map.1 h
  rw [String.toList_ofList]
  exact of_mem_splitOn hcs

/-- A character of joined texts is one of a text or of what joins them. -/
theorem mem_intercalate {c : Char} {separator : String} {texts : List String}
    (h : c ∈ (separator.intercalate texts).toList) :
    c ∈ separator.toList ∨ ∃ text ∈ texts, c ∈ text.toList := by
  induction texts with
  | nil => simp at h
  | cons text texts ih =>
    by_cases hne : texts = []
    · subst hne
      rw [String.intercalate_singleton] at h
      exact .inr ⟨text, List.mem_singleton_self _, h⟩
    · rw [String.intercalate_cons_of_ne_nil hne, String.toList_append, String.toList_append, List.mem_append,
        List.mem_append] at h
      rcases h with (h | h) | h
      · exact .inr ⟨text, List.mem_cons_self .., h⟩
      · exact .inl h
      · refine (ih h).imp_right ?_
        rintro ⟨text', hm, hc⟩
        exact ⟨text', List.mem_cons_of_mem _ hm, hc⟩

namespace Csv

/-! ## Lines of fields -/

/-- Lines of fields as separated text. -/
def joined (delimiter : Char) (lines : List (List String)) : String :=
  "\n".intercalate (lines.map (String.singleton delimiter).intercalate)

/-- The fields of a separated text, line by line. -/
def split (delimiter : Char) (text : String) : List (List String) := (pieces '\n' text).map (pieces delimiter)

/-- Whether a text has neither the delimiter nor a newline in it. -/
def Clean (delimiter : Char) (text : String) : Prop := delimiter ∉ text.toList ∧ '\n' ∉ text.toList

instance (delimiter : Char) (text : String) : Decidable (Clean delimiter text) :=
  inferInstanceAs (Decidable (_ ∧ _))

variable {d : Char} {lines : List (List String)}

theorem clean_of_mem_split {text : String} {fields : List String} (hf : fields ∈ split d text) {field : String}
    (h : field ∈ fields) : Clean d field := by
  obtain ⟨line, hl, rfl⟩ := List.mem_map.1 hf
  obtain ⟨hd, hsub⟩ := of_mem_pieces h
  exact ⟨hd, fun hn => (of_mem_pieces hl).1 (hsub hn)⟩

theorem split_joined (hd : d ≠ '\n') (hne : lines ≠ []) (hl : ∀ fields ∈ lines, fields ≠ [])
    (h : ∀ fields ∈ lines, ∀ field ∈ fields, Clean d field) : split d (joined d lines) = lines := by
  have newlines : ∀ line ∈ lines.map (String.singleton d).intercalate, '\n' ∉ line.toList := by
    rw [List.forall_mem_map]
    intro fields hf hn
    rcases mem_intercalate hn with hn | ⟨field, hm, hn⟩
    · rw [String.toList_singleton, List.mem_singleton] at hn
      exact hd hn.symm
    · exact (h fields hf field hm).2 hn
  have inner : ∀ fields ∈ lines, pieces d ((String.singleton d).intercalate fields) = fields :=
    fun fields hf => pieces_intercalate (hl fields hf) fun field hm => (h fields hf field hm).1
  have outer : pieces '\n' (joined d lines) = lines.map (String.singleton d).intercalate :=
    pieces_intercalate (fun hn => hne (List.map_eq_nil_iff.1 hn)) newlines
  rw [split, outer, List.map_map]
  exact (List.map_congr_left inner).trans (List.map_id _)

/-- Lines of fields are read back exactly if no field has the delimiter or a newline in it. -/
theorem split_joined_iff (hd : d ≠ '\n') (hne : lines ≠ []) (hl : ∀ fields ∈ lines, fields ≠ []) :
    split d (joined d lines) = lines ↔ ∀ fields ∈ lines, ∀ field ∈ fields, Clean d field := by
  constructor
  · intro h fields hf field hm
    rw [← h] at hf
    exact clean_of_mem_split hf hm
  · exact split_joined hd hne hl

/-! ## Rows -/

theorem render_inForce {rows : List Value} {store : Store} {headers : Value} {hs : List String}
    (h : InForce rows store headers hs) (cell : Option Nat) (d : Char) :
    ((render (.list cell rows) headers (.text (String.singleton d)) : Run Event String) store).result =
      if rows.all Value.printable then .ok (joined d (hs :: rows.map cellTexts)) else .error .badValue := by
  rw [render_list, Run.result_then]
  rcases h.result cell with h | ⟨hp, h⟩
  · rw [h, ok_bind, line_texts, Run.lift_ok, pure_bind, joined, List.map_cons, List.map_map]
    cases rows.all Value.printable <;> rfl
  · rw [h, hp]
    rfl

/-- Rows with cells under headers come back from their separated text exactly if neither a header nor a cell
has the delimiter or a newline in it. There is no text only if a row has none. -/
theorem split_render_iff {rows : List Value} {store : Store} {headers : Value} {hs : List String}
    (cells : ∀ row ∈ rows, row.shape.width ≠ 0) (inForce : InForce rows store headers hs) (hne : hs ≠ [])
    {d : Char} (hd : d ≠ '\n') (cell : Option Nat) :
    (rows.all Value.printable = true → ∃ text,
      ((render (.list cell rows) headers (.text (String.singleton d)) : Run Event String) store).result
        = .ok text ∧
      (split d text = hs :: rows.map cellTexts ↔
        (∀ header ∈ hs, Clean d header) ∧ ∀ row ∈ rows, ∀ text ∈ cellTexts row, Clean d text)) ∧
    (rows.all Value.printable = false →
      ((render (.list cell rows) headers (.text (String.singleton d)) : Run Event String) store).result
        = .error .badValue) := by
  rw [render_inForce inForce]
  constructor
  · intro hp
    refine ⟨_, if_pos hp, ?_⟩
    have filled : ∀ fields ∈ hs :: rows.map cellTexts, fields ≠ [] := by
      refine List.forall_mem_cons.2 ⟨hne, List.forall_mem_map.2 fun row hr hn => cells row hr ?_⟩
      rw [← length_cellTexts, hn, List.length_nil]
    rw [split_joined_iff hd (List.cons_ne_nil _ _) filled, List.forall_mem_cons, List.forall_mem_map]
  · intro hp
    rw [hp]
    rfl

/-- Rows of different widths under the headers made up for them, with an empty cell and one with a comma in it:
they come back where semicolons separate them, and not where commas do. -/
theorem split_render_iff_ragged :
    let rows : List Value := [.int 1, .tuple [.text "", .text "a,b"], .tuple [.null]]
    let lines := [["c0", "c1"], ["1"], ["", "a,b"], ["None"]]
    (∃ text, ((render (.list none rows) .null (.text ";") : Run Event String) .empty).result = .ok text ∧
      split ';' text = lines) ∧
    ∃ text, ((render (.list none rows) .null (.text ",") : Run Event String) .empty).result = .ok text ∧
      split ',' text ≠ lines := by
  intro rows lines
  have cells : ∀ row ∈ rows, row.shape.width ≠ 0 := by decide
  have headers : defaultHeaders rows = ["c0", "c1"] := by decide
  have inForce : InForce rows .empty .null ["c0", "c1"] := headers ▸ .madeUp
  have hlines : ["c0", "c1"] :: rows.map cellTexts = lines := by decide
  have printable : rows.all Value.printable = true := by decide +kernel
  have hne : ["c0", "c1"] ≠ [] := List.cons_ne_nil _ _
  have semicolon : ';' ≠ '\n' := by decide
  have comma : ',' ≠ '\n' := by decide
  constructor
  · obtain ⟨text, ht, hiff⟩ := (split_render_iff cells inForce hne semicolon none).1 printable
    exact ⟨text, ht, hlines ▸ hiff.2 (by decide)⟩
  · obtain ⟨text, ht, hiff⟩ := (split_render_iff cells inForce hne comma none).1 printable
    exact ⟨text, ht, fun h => absurd (hiff.1 (h.trans hlines.symm)) (by decide)⟩

end Csv

end BagAlgebra
