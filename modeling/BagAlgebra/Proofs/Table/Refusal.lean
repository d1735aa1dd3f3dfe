/-
Refused tables. Under headers the first row that has not as many cells as there are headers is refused, if all
rows have a text; headers made up for the rows are as many as the cells of the widest one, so under these the
rows are refused exactly if they differ in their numbers of cells. Where there are no headers the rows are
only counted, and nothing is refused whatever cells they have.
-/
import BagAlgebra.Proofs.Table.Aligned

namespace BagAlgebra

namespace Pretty

/-! ## Tables of a list -/

/-- The table of a list under some headers, if its rows have a text. -/
theorem render_inForce {rows : List Value} {store : Store} {headers : Value} {hs : List String}
    (h : InForce rows store headers hs) (hne : hs ≠ []) (cell : Option Nat) (limit : Value) :
    ((render (.list cell rows) headers limit : Run Event String) store).result =
      if rows.all Value.printable then renderUnder (hs.map .text) limit (rows.map cellTexts)
      else .error .badValue := by
  have he : (hs.map Value.text).isEmpty = false := by
    cases hs with
    | nil => exact absurd rfl hne
    | cons => rfl
  rw [render_list (h.asked hne), Run.result_then]
  rcases h.result cell with h | ⟨hp, h⟩
  · rw [h, ok_bind, he]
    cases rows.all Value.printable <;> rfl
  · rw [h, hp]
    rfl

/-- Where there are no headers, the rows are only counted. -/
theorem render_inForce_nil {rows : List Value} {store : Store} {headers : Value}
    (h : InForce rows store headers []) (asked : rows ≠ [] ∨ headers ≠ .null) (cell : Option Nat) (limit : Value) :
    NoMismatch ((render (.list cell rows) headers limit : Run Event String) store).result := by
  rw [render_list asked, Run.result_then]
  rcases h.result cell with h | ⟨-, h⟩
  · rw [h]
    refine (noMismatch_ok _).bind fun hs heq => ?_
    cases heq
    show NoMismatch (((liftM (Value.list cell rows).length? : Run Event Nat) >>= fun count =>
      pure ("(" ++ toString count ++ " rows, 0 columns)")) _).result
    rw [Run.result_lift_then]
    exact (length?_noMismatch _).bind fun count _ => noMismatch_ok _
  · rw [h]
    exact noMismatch_error (by decide)

/-! ## Rows that do not fit -/

/-- The first row that does not fit is reported together with the headers. -/
theorem renderUnder_mismatch {headers : List String} {limit : Value} {rows : List (List String)}
    (hh : ∀ header ∈ headers, (header.length : Int) ≤ sizeLimit) {row : List String}
    (h : rows.find? (fun row => row.length ≠ headers.length) = some row) :
    renderUnder (headers.map .text) limit rows = .error
      (.headerMismatch (Value.list none (row.map .text)).repr (Value.list none (headers.map .text)).repr) := by
  have hlength : (headers.map Value.text).length = headers.length := List.length_map _
  simp only [renderUnder, repr?_texts, ok_bind, mapM_length?_texts hh, forM_checkRow_eq, hlength, h]
  rfl

/-- The result is a fault of shapes or of headers. -/
def Refused {α : Type} (r : Except Fault α) : Prop := ∃ fault, r = .error fault ∧ fault.kind = .schema

theorem not_refused {α : Type} {r : Except Fault α} (h : NoMismatch r) : ¬ Refused r := by
  rintro ⟨fault, hr, hk⟩
  exact h fault hr hk

/-- Under texts, rows are refused exactly if one of them has not as many cells as there are headers. -/
theorem renderUnder_refused_iff {headers : List String} (hh : ∀ header ∈ headers, (header.length : Int) ≤ sizeLimit)
    (limit : Value) (rows : List Value) :
    Refused (renderUnder (headers.map .text) limit (rows.map cellTexts)) ↔
      ∃ row ∈ rows, row.shape.width ≠ headers.length := by
  constructor
  · intro hr
    refine Classical.byContradiction fun hfit => not_refused (renderUnder_noMismatch ?_) hr
    rw [List.forall_mem_map]
    intro row hm
    rw [length_cellTexts, List.length_map]
    exact Decidable.byContradiction fun hne => hfit ⟨row, hm, hne⟩
  · rintro ⟨row, hm, hne⟩
    have hsome : ((rows.map cellTexts).find? fun row => row.length ≠ headers.length).isSome := by
      rw [List.find?_isSome]
      exact ⟨cellTexts row, List.mem_map_of_mem hm, by simpa using hne⟩
    obtain ⟨bad, hb⟩ := Option.isSome_iff_exists.1 hsome
    exact ⟨_, renderUnder_mismatch hh hb, rfl⟩

/-- A list is refused exactly if there are headers and some row, all of them having a text, has not as many cells
as there are headers. Under the headers made up for the rows this means that they differ in their numbers of
cells. -/
theorem render_refused_iff {rows : List Value} {store : Store} {headers : Value} {hs : List String}
    (inForce : InForce rows store headers hs) (asked : rows ≠ [] ∨ headers ≠ .null)
    (measurable : ∀ header ∈ hs, (header.length : Int) ≤ sizeLimit) (cell : Option Nat) (limit : Value) :
    (Refused ((render (.list cell rows) headers limit : Run Event String) store).result ↔
      hs ≠ [] ∧ rows.all Value.printable = true ∧ ∃ row ∈ rows, row.shape.width ≠ hs.length) ∧
    (headers = .null → (Refused ((render (.list cell rows) headers limit : Run Event String) store).result ↔
      rows.all Value.printable = true ∧ ∃ row ∈ rows, ∃ other ∈ rows, row.shape.width ≠ other.shape.width)) := by
  have general : Refused ((render (.list cell rows) headers limit : Run Event String) store).result ↔
      hs ≠ [] ∧ rows.all Value.printable = true ∧ ∃ row ∈ rows, row.shape.width ≠ hs.length := by
    by_cases hne : hs = []
    · subst hne
      have counted := not_refused (render_inForce_nil inForce asked cell limit)
      exact ⟨fun h => absurd h counted, fun h => absurd rfl h.1⟩
    · rw [render_inForce inForce hne]
      cases rows.all Value.printable with
      | false => exact ⟨fun h => absurd h (not_refused (noMismatch_error (by decide))), fun h => by cases h.2.1⟩
      | true =>
        rw [if_pos rfl, renderUnder_refused_iff measurable]
        exact ⟨fun h => ⟨hne, rfl, h⟩, fun h => h.2.2⟩
  refine ⟨general, ?_⟩
  rintro rfl
  obtain rfl : hs = defaultHeaders rows := by
    cases inForce with
    | madeUp => rfl
    | given h => cases h
  rw [general, length_defaultHeaders, ← exists_width_ne_widest_iff]
  exact ⟨fun h => h.2, fun h => ⟨defaultHeaders_ne_nil h.2, h⟩⟩

/-- A number, a pair and an empty tuple are refused under the headers made up for them, and two pairs under one
header. -/
theorem render_refused_iff_ragged :
    Refused ((render (.list none [.int 1, .tuple [.int 2, .null], .tuple []]) .null (.int (-5)) : Run Event String)
      .empty).result ∧
    Refused ((render (.list none [.tuple [.int 1, .null], .tuple [.int 2, .null]]) (.list none [.text "only"])
      (.int 24) : Run Event String) .empty).result := by
  constructor
  · have headers : defaultHeaders [.int 1, .tuple [.int 2, .null], .tuple []] = ["c0", "c1"] := by decide
    refine ((render_refused_iff .madeUp (.inl (List.cons_ne_nil _ _)) ?_ none _).2 rfl).2 ⟨by decide +kernel, ?_⟩
    · rw [headers]
      decide
    · exact ⟨.int 1, List.mem_cons_self .., .tuple [], by simp, by decide⟩
  · have inForce : InForce [.tuple [.int 1, .null], .tuple [.int 2, .null]] .empty (.list none [.text "only"])
        ["only"] := .given rfl
    refine (render_refused_iff inForce (.inl (List.cons_ne_nil _ _)) (by decide) none _).1.2 ?_
    exact ⟨List.cons_ne_nil _ _, by decide +kernel, _, List.mem_cons_self .., by decide⟩

/-- A pair has not as many cells as there are headers if none are given, but it is only counted then. -/
theorem render_counts_pair :
    InForce [.tuple [.int 1, .int 2]] .empty (.list none []) [] ∧
    (Value.tuple [.int 1, .int 2]).shape.width ≠ ([] : List String).length ∧
    ((render (.list none [.tuple [.int 1, .int 2]]) (.list none []) (.int 24) : Run Event String) .empty).result
      = .ok "(1 rows, 0 columns)" :=
  ⟨.given rfl, by decide, rfl⟩

end Pretty

end BagAlgebra
