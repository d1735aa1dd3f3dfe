/-
Intersection and difference of the same sides. They part the rows of the left side between them, position
by position: what occurs on the right is in the one and everything else in the other, each in the order
and as often as on the left, whatever the strategies. They fail together, and where shapes are the cause
both say so in the same words.
-/
import BagAlgebra.Proofs.Eval.Compared
import Mathlib.Data.List.FinRange

namespace BagAlgebra

/-! ## Positions -/

/-- The rows at the positions that are marked, in order. -/
def rowsAt (rows : List Value) (marked : Fin rows.length → Bool) : List Value :=
  ((List.finRange rows.length).filter marked).map rows.get

/-- Two lists are merged into a third, each in its order. -/
inductive Interleaved : List Value → List Value → List Value → Prop where
  | nil : Interleaved [] [] []
  | first {row : Value} {kept rest rows : List Value} (h : Interleaved kept rest rows) :
      Interleaved (row :: kept) rest (row :: rows)
  | second {row : Value} {kept rest rows : List Value} (h : Interleaved kept rest rows) :
      Interleaved kept (row :: rest) (row :: rows)

theorem filter_eq_rowsAt (rows : List Value) (p : Value → Bool) :
    rows.filter p = rowsAt rows fun i => p (rows.get i) := by
  calc rows.filter p
      = ((List.finRange rows.length).map rows.get).filter p := by rw [List.map_get_finRange]
    _ = rowsAt rows fun i => p (rows.get i) := List.filter_map ..

theorem interleaved_filter (rows : List Value) (p : Value → Bool) :
    Interleaved (rows.filter p) (rows.filter fun row => !p row) rows := by
  induction rows with
  | nil => exact .nil
  | cons row rows ih =>
    cases hp : p row with
    | true =>
      rw [List.filter_cons_of_pos hp, List.filter_cons_of_neg (by simp [hp])]
      exact .first ih
    | false =>
      rw [List.filter_cons_of_neg (by simp [hp]), List.filter_cons_of_pos (by simp [hp])]
      exact .second ih

theorem Interleaved.length {kept rest rows : List Value} (h : Interleaved kept rest rows) :
    kept.length + rest.length = rows.length := by
  induction h with
  | nil => rfl
  | first _ ih => simp only [List.length_cons]; omega
  | second _ ih => simp only [List.length_cons]; omega

/-! ## The two filters -/

/-- What comes of a filter that is built and evaluated. -/
def filtered (kind : FilterKind) (strategy : Strategy) (a b : Expr) (store : Store) :
    Except Fault (List Value) :=
  buildThenEval (Expr.makeFilter kind (.expr a) (.expr b) (.text strategy.name)) store

/-- The rows of the left side are parted: one split of their positions, by what occurs on the right, marks
those that are kept, and the others are the rest. -/
structure Parted (lefts rights kept rest : List Value) : Prop where
  split : ∃ marked : Fin lefts.length → Bool,
    (∀ i, marked i = true ↔ ∃ r ∈ rights, r.same (lefts.get i) = true) ∧
      kept = rowsAt lefts marked ∧ rest = rowsAt lefts fun i => !marked i
  interleaved : Interleaved kept rest lefts
  length : kept.length + rest.length = lefts.length

theorem parted_filter (lefts rights : List Value) :
    Parted lefts rights (lefts.filter fun row => occurs row rights)
      (lefts.filter fun row => !occurs row rights) where
  split := ⟨fun i => occurs (lefts.get i) rights, fun _ => occurs_iff, filter_eq_rowsAt ..,
    filter_eq_rowsAt ..⟩
  interleaved := interleaved_filter ..
  length := (interleaved_filter ..).length

/-- Why both filters fail: a side fails, or the rows do not share one shape, which both report in the same
words but for the name of the operator, unless a row that has no shown form keeps both from it. -/
inductive FailTogether (a b : Expr) : Fault → Fault → Prop where
  | side {fault : Fault} (h : a.eval.Gives (.error fault) ∨ b.eval.Gives (.error fault)) :
      FailTogether a b fault fault
  | unshown {lefts rights : List Value} (ha : a.eval.Gives (.ok lefts)) (hb : b.eval.Gives (.ok rights))
      (mixed : ¬ Uniform (lefts ++ rights)) {row : Value} (hr : row ∈ lefts ++ rights)
      (hp : row.printable = false) : FailTogether a b .badValue .badValue
  | schema {lefts rights : List Value} (ha : a.eval.Gives (.ok lefts)) (hb : b.eval.Gives (.ok rights))
      (mixed : ¬ Uniform (lefts ++ rights)) {fault fault' : Fault} (words : String)
      (hk : fault.kind = .schema) (hk' : fault'.kind = .schema)
      (hm : fault.message? = some (FilterKind.intersection.name ++ words))
      (hm' : fault'.message? = some (FilterKind.difference.name ++ words)) : FailTogether a b fault fault'

/-- The intersection and the difference of the same pure sides have rows together, and then part those of
the left side between them, or fail together. -/
theorem filters_part {a b : Expr} (ha : a.Pure) (hb : b.Pure) (s t : Strategy) (store store' : Store) :
    (∃ lefts rights kept rest, a.eval.Gives (.ok lefts) ∧ b.eval.Gives (.ok rights) ∧
      filtered .intersection s a b store = .ok kept ∧ filtered .difference t a b store' = .ok rest ∧
        Parted lefts rights kept rest) ∨
    ∃ fault fault', filtered .intersection s a b store = .error fault ∧
      filtered .difference t a b store' = .error fault' ∧ FailTogether a b fault fault' := by
  cases Comparing.fate ha hb with
  | side fault h all =>
    exact .inr ⟨fault, fault, all (.filter .intersection s) store, all (.filter .difference t) store',
      .side h⟩
  | rows lefts rights hl hr _ all =>
    have hi := all (.filter .intersection s) store
    have hd := all (.filter .difference t) store'
    simp only [Comparing.combine, FilterKind.keepsMatches, beq_true, beq_false] at hi hd
    exact .inl ⟨lefts, rights, _, _, hl, hr, hi, hd, parted_filter lefts rights⟩
  | shapes lefts rights hl hr mixed all =>
    obtain ⟨fault, hf, hi⟩ := all (.filter .intersection s) store
    obtain ⟨fault', hf', hd⟩ := all (.filter .difference t) store'
    refine .inr ⟨fault, fault', hi, hd, ?_⟩
    cases sameWords_sharedShapeFault? lefts rights with
    | nothing h => cases (h _).symm.trans hf
    | unshown h =>
      cases (h _).symm.trans hf
      cases (h _).symm.trans hf'
      obtain hk | ⟨-, row, hrow, hp⟩ := sharedShapeFault?_kind hf
      · cases hk
      · exact .unshown hl hr mixed hrow hp
    | schema words h =>
      obtain ⟨_, ho, hk, hm⟩ := h (.filter .intersection)
      obtain ⟨_, ho', hk', hm'⟩ := h (.filter .difference)
      cases ho.symm.trans hf
      cases ho'.symm.trans hf'
      exact .schema hl hr mixed words hk hk' hm hm'

/-- Pairs of which some hold a list, against pairs made by a projection: the set gives way to a scan. -/
theorem filters_part_pairs :
    let double : Callback :=
      .function ⟨0, .named, "double"⟩ [.required "x"] (.tuple [.argument "x", .argument "x"]) []
    let lefts : List Value := [.tuple [.int 1, .bool true], .tuple [.nan 7, .null],
      .tuple [.list none [.int 2], .list none [.int 2]], .tuple [.nan 7, .null], .tuple [.int 1, .int 1]]
    let a : Expr := .terminal lefts
    let b : Expr := .projection (.terminal [.int 1, .list none [.int 2]]) double
    a.Pure ∧ b.Pure ∧ ∃ rights,
      Parted lefts rights
        [.tuple [.int 1, .bool true], .tuple [.list none [.int 2], .list none [.int 2]],
          .tuple [.int 1, .int 1]]
        [.tuple [.nan 7, .null], .tuple [.nan 7, .null]] := by
  intro double lefts a b
  have ha : a.Pure := Expr.pure_terminal _
  have hb : b.Pure := Expr.pure_projection (Expr.pure_terminal _) fun _ _ _ => rfl
  refine ⟨ha, hb, ?_⟩
  obtain ⟨_, rights, kept, rest, hl, -, hi, hd, hparts⟩ | ⟨_, _, hi, -⟩ :=
    filters_part ha hb .hash .scan .empty .empty
  · cases hl .empty
    cases hi
    cases hd
    exact ⟨rights, hparts⟩
  · cases hi

end BagAlgebra
