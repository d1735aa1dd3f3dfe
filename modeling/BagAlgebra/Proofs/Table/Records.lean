/-
Records show what separated texts show. The names of columns all differ, however many there are, so a dictionary
that is filled with the fields of a row under these names loses none of them. The keys of every record are the
headers made up for the rows, and its values are the fields of its row; so the separated text is the keys, then a
line for each record with the plain forms of its values.
-/
import BagAlgebra.Proofs.Table.Separated
import BagAlgebra.Table.Records
import Mathlib.Data.List.Forall2
import Std.Data.String.ToNat

namespace BagAlgebra

/-! ## Filling a dictionary -/

/-- The entries of a dictionary that is filled with pairs of a key and a value, one after another. -/
def entriesOf (pairs : List (Value × Value)) : List Entry :=
  pairs.foldl (fun entries p => putEntry entries p.1 p.2) []

theorem putEntry_fresh {entries : List Entry} {key : Value} (h : ∀ e ∈ entries, e.key.same key = false)
    (value : Value) : putEntry entries key value = entries ++ [.mk key value] := by
  have hnone : entries.any (fun e => e.key.same key) = false := by
    rw [List.any_eq_false]
    intro e he
    rw [h e he]
    exact Bool.false_ne_true
  rw [putEntry, hnone]
  rfl

/-- Filling on with keys that are not there yet, and that differ, only adds entries at the end. -/
theorem foldl_putEntry {pairs : List (Value × Value)} (distinct : pairs.Pairwise fun p q => p.1.same q.1 = false)
    {entries : List Entry} (fresh : ∀ e ∈ entries, ∀ p ∈ pairs, e.key.same p.1 = false) :
    pairs.foldl (fun entries p => putEntry entries p.1 p.2) entries
      = entries ++ pairs.map fun p => .mk p.1 p.2 := by
  induction pairs generalizing entries with
  | nil => simp
  | cons p pairs ih =>
    obtain ⟨hp, hpairs⟩ := List.pairwise_cons.1 distinct
    have hput := putEntry_fresh (fun e he => fresh e he p (List.mem_cons_self ..)) p.2
    rw [List.foldl_cons, hput, ih hpairs, List.map_cons, List.append_assoc]
    · rfl
    · intro e he q hq
      rcases List.mem_append.1 he with he | he
      · exact fresh e he q (List.mem_cons_of_mem _ hq)
      · rw [List.mem_singleton.1 he]
        exact hp q hq

/-- Under texts that all differ, a dictionary loses nothing. -/
theorem entriesOf_texts {keys : List String} (distinct : keys.Nodup) {values : List Value}
    (hl : keys.length = values.length) :
    entriesOf ((keys.map .text).zip values) = ((keys.map .text).zip values).map fun p => .mk p.1 p.2 := by
  have hkeys : (((keys.map Value.text).zip values).map Prod.fst).Pairwise fun k l => k.same l = false := by
    rw [List.map_fst_zip (Nat.le_of_eq ((List.length_map _).trans hl)), List.pairwise_map]
    refine List.Pairwise.imp (fun hne => ?_) distinct
    rw [Value.same]
    exact beq_false_of_ne hne
  rw [entriesOf, foldl_putEntry (List.pairwise_map.1 hkeys) (List.forall_mem_nil _), List.nil_append]

/-! ## Names of columns -/

theorem columnHeader_inj {i j : Nat} (h : columnHeader i = columnHeader j) : i = j :=
  Nat.repr_inj.1 ((String.append_right_inj "c").1 h)

theorem Shape.nodup_headers (s : Shape) : s.headers.Nodup := by
  cases s with
  | scalar => exact List.pairwise_singleton _ _
  | fields count =>
    exact List.Pairwise.map _ (fun i j hne h => hne (columnHeader_inj h)) List.nodup_range

/-! ## Records -/

/-- The fields of a row: those of a tuple, or the row itself. -/
def fieldsOf : Value → List Value
  | .tuple items => items
  | v => [v]

theorem length_fieldsOf (row : Value) : (fieldsOf row).length = row.shape.width := by
  cases row <;> rfl

theorem cellTexts_eq (row : Value) : cellTexts row = (fieldsOf row).map Value.plain := by
  cases row <;> rfl

/-- The entries of a dictionary that is filled with the fields of a row under some headers, if it loses none. -/
structure Holds (headers : List String) (row : Value) (entries : List Entry) : Prop where
  filled : entries = entriesOf ((headers.map .text).zip (fieldsOf row))
  keys : entries.map Entry.key = headers.map .text
  values : entries.map Entry.value = fieldsOf row

theorem holds_entriesOf {headers : List String} {row : Value} (distinct : headers.Nodup)
    (hl : headers.length = (fieldsOf row).length) :
    Holds headers row (entriesOf ((headers.map .text).zip (fieldsOf row))) := by
  refine ⟨rfl, ?_, ?_⟩
  · rw [entriesOf_texts distinct hl, List.map_map]
    exact List.map_fst_zip (Nat.le_of_eq ((List.length_map _).trans hl))
  · rw [entriesOf_texts distinct hl, List.map_map]
    exact List.map_snd_zip (Nat.le_of_eq (hl.symm.trans (List.length_map _).symm))

/-- The record of a row is a dictionary that is filled with its fields. -/
theorem record_eq (row : Value) :
    record row = .dict (entriesOf ((row.shape.headers.map .text).zip (fieldsOf row))) := by
  rw [entriesOf_texts row.shape.nodup_headers (by rw [Shape.length_headers, length_fieldsOf])]
  cases row with
  | tuple items =>
    show Value.dict (List.zipWith _ (columnHeaders items.length) items)
      = .dict (List.map _ (((columnHeaders items.length).map Value.text).zip items))
    rw [List.map_zip_eq_zipWith, List.zipWith_map_left]
    rfl
  | _ => rfl

theorem records_list {ε : Type} (cell : Option Nat) (rows : List Value) :
    (records (.list cell rows) : Run ε (List Value)) = pure (rows.map record) := by
  show rows.mapM (fun row => (pure (record row) : Run ε Value)) = _
  rw [List.mapM_pure]

/-- The records of uniform rows lose no field, and the separated text of the rows has their keys for its headers and
the plain forms of their values for its cells. There is no text, nor are there headers, only if a row has no text. -/
theorem records_match_text {rows : List Value} (hne : rows ≠ []) (uniform : Uniform rows) (cell : Option Nat)
    (store : Store) :
    ∃ dicts : List (List Entry),
      ((records (.list cell rows) : Run Event (List Value)) store).result = .ok (dicts.map .dict) ∧
      (defaultHeaders rows).Nodup ∧ List.Forall₂ (Holds (defaultHeaders rows)) rows dicts ∧
      ((headersInForce (.list cell rows) .null : Run Event (List Value)) store).result =
        (if rows.all Value.printable then .ok ((defaultHeaders rows).map .text) else .error .badValue) ∧
      ∀ delimiter : String, ((Csv.render (.list cell rows) .null (.text delimiter) : Run Event String) store).result =
        if rows.all Value.printable then
          .ok ("\n".intercalate (delimiter.intercalate (defaultHeaders rows) ::
            dicts.map fun entries => delimiter.intercalate (entries.map fun e => e.value.plain)))
        else .error .badValue := by
  obtain ⟨row, others, rfl⟩ := List.exists_cons_of_ne_nil hne
  have hshape : ∀ r ∈ row :: others, r.shape = row.shape := by
    obtain ⟨shape, hs⟩ := uniform
    exact fun r hr => (hs r hr).trans (hs row (List.mem_cons_self ..)).symm
  have hholds : ∀ r ∈ row :: others, Holds row.shape.headers r (entriesOf ((row.shape.headers.map .text).zip (fieldsOf r))) := by
    intro r hr
    refine holds_entriesOf row.shape.nodup_headers ?_
    rw [Shape.length_headers, length_fieldsOf, hshape r hr]
  rw [defaultHeaders_uniform hshape]
  refine ⟨(row :: others).map fun r => entriesOf ((row.shape.headers.map .text).zip (fieldsOf r)), ?_,
    row.shape.nodup_headers, ?_, ?_, fun delimiter => ?_⟩
  · rw [records_list, List.map_map]
    refine congrArg Except.ok (List.map_congr_left fun r hr => ?_)
    rw [record_eq, hshape r hr]
    rfl
  · exact List.forall₂_map_right_iff.2 (List.forall₂_same.2 hholds)
  · rw [headersInForce_null, defaultHeaders_uniform hshape]
    cases (row :: others).all Value.printable <;> rfl
  · have hcells : (row :: others).map (fun r => delimiter.intercalate (cellTexts r))
        = ((row :: others).map fun r => entriesOf ((row.shape.headers.map .text).zip (fieldsOf r))).map fun entries =>
          delimiter.intercalate (entries.map fun e => e.value.plain) := by
      rw [List.map_map]
      refine List.map_congr_left fun r hr => congrArg delimiter.intercalate ?_
      rw [cellTexts_eq, ← (hholds r hr).values, List.map_map]
      rfl
    rw [Csv.render_uniform cell hshape, hcells]
    cases (row :: others).all Value.printable <;> rfl

/-- Rows with eleven fields, so that the header of one column begins that of another. -/
theorem records_match_text_eleven :
    let rows : List Value := [.tuple ((List.range 11).map fun i => .int i), .tuple (List.replicate 11 .null)]
    (defaultHeaders rows).Nodup ∧
    ∃ dicts : List (List Entry), List.Forall₂ (Holds (defaultHeaders rows)) rows dicts ∧
      ((Csv.render (.list none rows) .null (.text ", ") : Run Event String) .empty).result =
        .ok ("\n".intercalate (", ".intercalate (defaultHeaders rows) ::
          dicts.map fun entries => ", ".intercalate (entries.map fun e => e.value.plain))) := by
  intro rows
  have uniform : Uniform rows := ⟨.fields 11, by decide⟩
  obtain ⟨dicts, -, distinct, holds, -, text⟩ := records_match_text (List.cons_ne_nil _ _) uniform none .empty
  refine ⟨distinct, dicts, holds, ?_⟩
  rw [text, if_pos (by decide +kernel)]

end BagAlgebra
