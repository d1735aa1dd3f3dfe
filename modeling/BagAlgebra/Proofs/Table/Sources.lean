/-
Where the rows of a table come from. A list, a tuple, a text and a progression that hold the same rows are tested,
measured, indexed and walked alike, so nothing that is rendered of them differs. Under headers that are given, rows
are only walked, and that once: then they may also be the keys of a dictionary, or the items of a generator that has
given none of them yet. The headers are read first, so reading them must not take items from that generator.
-/
import BagAlgebra.Proofs.Run.Walks
import BagAlgebra.Proofs.Table.Aligned
import BagAlgebra.Table.Csv

namespace BagAlgebra

/-! ## Sequences -/

/-- A sequence and the rows that it holds, in order. -/
inductive Sequence : Value → List Value → Prop where
  | list (cell : Option Nat) (rows : List Value) : Sequence (.list cell rows) rows
  | tuple (rows : List Value) : Sequence (.tuple rows) rows
  | text (s : String) : Sequence (.text s) (characters s)
  | range (span : Span) : Sequence (.range span) (span.toList.map .int)

/-- A value that stands for some rows whoever tests, indexes or walks it. -/
structure Presents (v : Value) (rows : List Value) : Prop where
  items : v.items? = some rows
  truthy : v.truthy = !rows.isEmpty
  element : ∀ index, v.item index = Value.nth rows index

theorem lt_of_position? {length p : Nat} {i : Int} (h : Value.position? length i = some p) : p < length := by
  simp only [Value.position?, Option.ite_none_right_eq_some, Option.some.injEq] at h
  obtain ⟨hp, rfl⟩ := h
  omega

theorem item_range (span : Span) (index : Value) :
    (Value.range span).item index = Value.nth (span.toList.map .int) index := by
  rw [Value.item, Value.nth, List.length_map, Span.length_toList]
  cases index.int? with
  | none => rfl
  | some i =>
    cases hp : Value.position? span.length i with
    | none => simp only [hp, Option.bind_none]
    | some p =>
      have hmember : (span.toList.map Value.int)[p]? = some (.int (span.nth p)) := by
        rw [List.getElem?_map, Span.toList, List.getElem?_map, List.getElem?_range (lt_of_position? hp)]
        rfl
      simp only [hp, Option.bind_some, hmember]

theorem Sequence.presents {v : Value} {rows : List Value} (h : Sequence v rows) : Presents v rows := by
  cases h with
  | list cell rows => exact ⟨rfl, rfl, fun _ => rfl⟩
  | tuple rows => exact ⟨rfl, rfl, fun _ => rfl⟩
  | text s =>
    refine ⟨rfl, congrArg not ?_, fun _ => rfl⟩
    rw [Bool.eq_iff_iff, String.isEmpty_iff, List.isEmpty_iff, characters, List.map_eq_nil_iff,
      String.toList_eq_nil_iff]
  | range span =>
    refine ⟨rfl, ?_, item_range span⟩
    have hlength : (span.toList.map Value.int).length = span.length := by simp
    rw [Value.truthy, ← hlength]
    cases span.toList.map Value.int <;> rfl

section Presents

variable {ε : Type} {v w : Value} {rows : List Value}

theorem Presents.length?_eq (h : Presents v rows) (h' : Presents w rows) : v.length? = w.length? := by
  rw [Value.length?, Value.length?, Value.count?_eq_map_length_items?, Value.count?_eq_map_length_items?, h.items,
    h'.items]

theorem Presents.forEach_eq {β : Type} (h : Presents v rows) (h' : Presents w rows) (use : Value → Run ε β) :
    v.forEach use = w.forEach use := by
  rw [forEach_of_items h.items, forEach_of_items h'.items]

theorem Presents.madeUpHeaders_eq (h : Presents v rows) (h' : Presents w rows) :
    (madeUpHeaders v : Run ε (List String)) = madeUpHeaders w := by
  unfold madeUpHeaders
  rw [h.truthy, h'.truthy, h.forEach_eq h', h.element, h'.element]

theorem Presents.headersInForce_eq (h : Presents v rows) (h' : Presents w rows) (headers : Value) :
    (headersInForce v headers : Run ε (List Value)) = headersInForce w headers := by
  cases headers with
  | null => rw [headersInForce, headersInForce, h.madeUpHeaders_eq h']
  | _ => rfl

theorem Presents.pretty_eq (h : Presents v rows) (h' : Presents w rows) (headers limit : Value) :
    (Pretty.render v headers limit : Run ε String) = Pretty.render w headers limit := by
  unfold Pretty.render
  rw [h.truthy, h'.truthy, h.headersInForce_eq h', h.length?_eq h', h.forEach_eq h']

theorem Presents.csv_eq (h : Presents v rows) (h' : Presents w rows) (headers delimiter : Value) :
    (Csv.render v headers delimiter : Run ε String) = Csv.render w headers delimiter := by
  unfold Csv.render
  simp only [h.headersInForce_eq h', h.forEach_eq h']

end Presents

/-! ## Rows that are walked once -/

/-- A walk from this store meets these rows. -/
def Walks (store : Store) (v : Value) (rows : List Value) : Prop :=
  ∀ (β : Type) (use : Value → Except Fault β),
    ((v.forEach fun row => (liftM (use row) : Run Event β)) store).result = rows.mapM use

theorem walks_of_items {v : Value} {rows : List Value} (h : v.items? = some rows) (store : Store) :
    Walks store v rows := by
  intro β use
  rw [forEach_of_items h, result_mapM_lift]

/-- A value that gives some rows to a walk made after the headers are read. A generator must have given nothing by
then: neither before, nor to whoever reads the headers. -/
inductive Supplies (store : Store) (headers : Value) : Value → List Value → Prop where
  | keys (entries : List Entry) : Supplies store headers (.dict entries) (entries.map Entry.key)
  | generator {serial : Nat} (rows : List Value)
      (untouched : ((headers.collect : Run Event (List Value)) store).store.drawn serial = 0) :
      Supplies store headers (.generator serial rows) rows

theorem Supplies.walks {store : Store} {headers v : Value} {rows : List Value} (h : Supplies store headers v rows) :
    Walks ((headers.collect : Run Event (List Value)) store).store v rows := by
  cases h with
  | keys entries => exact walks_of_items rfl _
  | generator rows untouched => exact fun _ => result_forEach_unused untouched rows

/-- Headers that are stored take nothing from an unused generator. -/
theorem supplies_of_stored {store : Store} {headers : Value} {items : List Value}
    (stored : headers.items? = some items) {serial : Nat} (unused : store.drawn serial = 0) (rows : List Value) :
    Supplies store headers (.generator serial rows) rows := by
  refine .generator rows ?_
  rw [store_collect_of_items stored]
  exact unused

section Given

variable {store : Store} {headers v w : Value} {rows : List Value} (given : headers ≠ .null)

include given

theorem headersInForce_given (v : Value) :
    (headersInForce v headers : Run Event (List Value)) = headers.collect := by
  cases headers with
  | null => exact absurd rfl given
  | _ => rfl

theorem pretty_given (v limit : Value) :
    (Pretty.render v headers limit : Run Event String) = (do
      let hs ← headers.collect
      if hs.isEmpty then
        let count ← v.length?
        return "(" ++ toString count ++ " rows, 0 columns)"
      else
        let body ← v.forEach fun row => cells row
        Pretty.renderUnder hs limit body) := by
  rw [← headersInForce_given given v]
  cases headers with
  | null => exact absurd rfl given
  | _ => cases hv : v.truthy <;> simp only [Pretty.render, hv]

variable (h : Walks ((headers.collect : Run Event (List Value)) store).store v rows)
  (h' : Walks ((headers.collect : Run Event (List Value)) store).store w rows)

include h h'

theorem result_pretty_of_walks (filled : ((headers.collect : Run Event (List Value)) store).result ≠ .ok [])
    (limit : Value) :
    ((Pretty.render v headers limit : Run Event String) store).result
      = ((Pretty.render w headers limit : Run Event String) store).result := by
  rw [pretty_given given, pretty_given given, Run.result_then, Run.result_then]
  cases hc : ((headers.collect : Run Event (List Value)) store).result with
  | error fault => rfl
  | ok hs =>
    cases hs with
    | nil => exact absurd hc filled
    | cons header hs =>
      -- there is a column, so the rows are walked and not counted
      simp only [ok_bind, List.isEmpty_cons, Bool.false_eq_true, if_false]
      rw [Run.result_then, Run.result_then, h, h']
      rfl

theorem result_csv_of_walks (delimiter : Value) :
    ((Csv.render v headers delimiter : Run Event String) store).result
      = ((Csv.render w headers delimiter : Run Event String) store).result := by
  unfold Csv.render
  cases Csv.delimiter? delimiter with
  | none => rfl
  | some d =>
    have lines : (fun row => do
          let texts ← (cells row : Run Event (List String))
          Csv.line d (texts.map .text)) =
        fun row => liftM (cells row >>= fun texts => Csv.line d (texts.map .text)) := by
      funext row
      cases cells row <;> rfl
    simp only [lines, headersInForce_given given]
    rw [Run.result_then, Run.result_then]
    refine bind_congr fun hs => ?_
    rw [Run.result_lift_then, Run.result_lift_then]
    refine bind_congr fun head => ?_
    rw [Run.result_then, Run.result_then, h, h']
    rfl

end Given

/-! ## Rendering -/

/-- What is rendered hangs on the rows alone, whatever the headers, the limit and the delimiter are: all sequences
that hold the same rows are rendered alike. Under headers that are given so are the keys of a dictionary, and the items
of a generator that has given none when the headers have been read; only an aligned table has to have a column then,
for where there is none the rows are counted, and a generator cannot be. -/
theorem rendering_follows_rows {v : Value} {rows : List Value} (store : Store) (headers : Value) :
    (Sequence v rows →
      (∀ limit, (Pretty.render v headers limit : Run Event String) = Pretty.render (.list none rows) headers limit) ∧
      ∀ delimiter, (Csv.render v headers delimiter : Run Event String)
        = Csv.render (.list none rows) headers delimiter) ∧
    (Supplies store headers v rows → headers ≠ .null →
      (((headers.collect : Run Event (List Value)) store).result ≠ .ok [] →
        ∀ limit, ((Pretty.render v headers limit : Run Event String) store).result
          = ((Pretty.render (.list none rows) headers limit : Run Event String) store).result) ∧
      ∀ delimiter, ((Csv.render v headers delimiter : Run Event String) store).result
        = ((Csv.render (.list none rows) headers delimiter : Run Event String) store).result) := by
  constructor
  · intro h
    have listed := (Sequence.list none rows).presents
    exact ⟨h.presents.pretty_eq listed headers, h.presents.csv_eq listed headers⟩
  · intro h given
    have listed := walks_of_items (v := .list none rows) rfl ((headers.collect : Run Event (List Value)) store).store
    exact ⟨result_pretty_of_walks given h.walks listed, result_csv_of_walks given h.walks listed⟩

/-- A progression that runs down under the header made up for it, a generator of rows of different widths under a
header that another generator gives and one under a list of headers, and a dictionary whose keys do not fill the
columns under two headers. -/
theorem rendering_follows_rows_kinds :
    ((Pretty.render (.range ⟨3, 0, -1⟩) .null (.int 24) : Run Event String) .empty).result
      = .ok "value\n-----\n3\n2\n1" ∧
    ((Csv.render (.generator 0 [.tuple [.text "b", .text "a"], .text "c"]) (.generator 1 [.text "n"]) (.text ",") :
      Run Event String) .empty).result = .ok "n\nb,a\nc" ∧
    ((Csv.render (.generator 0 [.text "b"]) (.list none [.text "n"]) (.text ",") : Run Event String) .empty).result
      = .ok "n\nb" ∧
    ((Pretty.render (.dict [.mk (.text "b") .null]) (.text "xy") (.int 24) : Run Event String) .empty).result
      = .error (.headerMismatch "['b']" "['x', 'y']") := by
  refine ⟨?_, ?_, ?_, ?_⟩
  · have range : Sequence (.range ⟨3, 0, -1⟩) [.int 3, .int 2, .int 1] := .range ⟨3, 0, -1⟩
    have tabular : Pretty.Tabular [.int 3, .int 2, .int 1] :=
      ⟨by decide +kernel, .scalar, by decide, by decide, by decide⟩
    have hlimit : -sizeLimit - 1 ≤ 24 := by decide
    rw [((rendering_follows_rows .empty .null).1 range).1, Pretty.render_tabular tabular none hlimit]
    exact congrArg Except.ok (by decide +kernel)
  · rw [((rendering_follows_rows .empty _).2 (.generator _ rfl) (fun h => by cases h)).2]
    rfl
  · rw [((rendering_follows_rows .empty _).2 (supplies_of_stored rfl rfl _) (fun h => by cases h)).2]
    rfl
  · rw [((rendering_follows_rows .empty _).2 (.keys _) (fun h => by cases h)).1 (fun h => by cases h)]
    rfl

/-- A generator that the headers are read from as well has no row left, though it had given nothing before. -/
theorem rendering_shared_generator :
    let generator : Value := .generator 0 [.text "x"]
    Store.empty.drawn 0 = 0 ∧
    ((generator.collect : Run Event (List Value)) .empty).result = .ok [.text "x"] ∧
    ((Pretty.render generator generator (.int 24) : Run Event String) .empty).result = .ok "x\n-" ∧
    ((Pretty.render (.list none [.text "x"]) generator (.int 24) : Run Event String) .empty).result = .ok "x\n-\nx" ∧
    ((Csv.render generator generator (.text ",") : Run Event String) .empty).result = .ok "x" ∧
    ((Csv.render (.list none [.text "x"]) generator (.text ",") : Run Event String) .empty).result = .ok "x\nx" :=
  ⟨rfl, rfl, rfl, rfl, rfl, rfl⟩

end BagAlgebra
