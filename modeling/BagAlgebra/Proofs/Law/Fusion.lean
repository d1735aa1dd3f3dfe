/-
Passes that follow each other. Two selections in a row are one by a predicate that asks the second question
where the first has a true answer, and two projections are one by the composite of the mappers. Two passes
make all calls of the one callback before those of the other, and one pass makes them row by row; so they may
fail with different faults. But both fail if any call that has to be made does, and else they have the same
rows.
-/
import BagAlgebra.Proofs.Eval.Passes

namespace BagAlgebra

open Run

/-! ## Two callbacks as one -/

/-- A run that comes to the second where the answer of the first is true, and else to the first. -/
structure Conjunction (first second both : Eval Value) : Prop where
  fails : ∀ fault, first.Gives (.error fault) → both.Gives (.error fault)
  stops : ∀ verdict, first.Gives (.ok verdict) → verdict.truthy = false → both.Gives (.ok verdict)
  goesOn : ∀ verdict, first.Gives (.ok verdict) → verdict.truthy = true → both.Mimics second

/-- A run that comes to the second on the value of the first, if that has one. -/
structure Composite (first : Eval Value) (second : Value → Eval Value) (both : Eval Value) : Prop where
  fails : ∀ fault, first.Gives (.error fault) → both.Gives (.error fault)
  goesOn : ∀ value, first.Gives (.ok value) → both.Mimics (second value)

/-- A body that joins two by "and" is one such run. -/
theorem conjunction_of_and (first second : Eval Value) :
    Conjunction first second (do let verdict ← first; if verdict.truthy then second else return verdict) where
  fails fault h store := by
    rw [result_then, h store]
    rfl
  stops verdict h ht := h.bind (by
    rw [ht, if_neg Bool.false_ne_true]
    exact gives_pure verdict)
  goesOn verdict h ht result hs := h.bind (by rwa [ht, if_pos rfl])

/-- One run after the other is one such run. -/
theorem composite_of_bind (first : Eval Value) (second : Value → Eval Value) :
    Composite first second (first >>= second) where
  fails fault h store := by
    rw [result_then, h store]
    rfl
  goesOn value h result hs := h.bind hs

/-- A stable run that cannot fail has an answer. -/
theorem Run.Stable.answered {run : Eval Value} (h : run.Stable)
    (hf : ∀ fault, ¬ run.Gives (.error fault)) : ∃ value, run.Gives (.ok value) := by
  cases ha : run.answer with
  | ok value => exact ⟨value, h.gives_iff.2 ha⟩
  | error fault => exact absurd (h.gives_iff.2 ha) (hf fault)

section Items

variable {α : Type} {items picked : List α} {rows values : List Value}

/-- What is picked by the one test and then by the other is picked by both at once. -/
theorem picked_both_iff {first second both : α → Eval Value} (hp : Picked first items picked)
    (hs : ∀ a ∈ picked, (second a).Stable)
    (h : ∀ a ∈ items, Conjunction (first a) (second a) (both a)) {kept : List α} :
    Picked second picked kept ↔ Picked both items kept := by
  induction items generalizing picked kept with
  | nil => rw [picked_nil_iff.1 hp, picked_nil_iff, picked_nil_iff]
  | cons a items ih =>
    obtain ⟨ha, h⟩ := List.forall_mem_cons.1 h
    obtain ⟨verdict, rest, hv, hrest, rfl⟩ := picked_cons_iff.1 hp
    cases ht : verdict.truthy with
    | true =>
      rw [ht] at hs
      rw [if_pos rfl] at hs ⊢
      obtain ⟨hsa, hs⟩ := List.forall_mem_cons.1 hs
      have hboth : ∀ result, (both a).Gives result ↔ (second a).Gives result :=
        fun _ => (ha.goesOn verdict hv ht).gives_iff hsa
      simp only [picked_cons_iff, hboth, ih hrest hs h]
    | false =>
      rw [ht] at hs
      rw [if_neg Bool.false_ne_true] at hs ⊢
      have hboth := ha.stops verdict hv ht
      rw [picked_cons_iff, ih hrest hs h]
      constructor
      · intro hk
        exact ⟨verdict, kept, hboth, hk, by rw [ht, if_neg Bool.false_ne_true]⟩
      · rintro ⟨verdict', kept', hv', hk, rfl⟩
        cases hboth.unique hv'
        rwa [ht, if_neg Bool.false_ne_true]

/-- Images of images are images by the composite. -/
theorem mapped_both_iff {first both : α → Eval Value} {second : Value → Eval Value}
    (hm : Mapped first items values) (hs : ∀ v ∈ values, (second v).Stable)
    (h : ∀ a ∈ items, Composite (first a) second (both a)) :
    Mapped second values rows ↔ Mapped both items rows := by
  unfold Mapped at *
  induction hm generalizing rows with
  | nil => rw [List.forall₂_nil_left_iff, List.forall₂_nil_left_iff]
  | @cons a v items values hv _ ih =>
    obtain ⟨ha, h⟩ := List.forall_mem_cons.1 h
    obtain ⟨hsv, hs⟩ := List.forall_mem_cons.1 hs
    have hboth : ∀ result, (both a).Gives result ↔ (second v).Gives result :=
      fun _ => (ha.goesOn v hv).gives_iff hsv
    simp only [List.forall₂_cons_left_iff, hboth, ih hs h]

/-- Items can be mapped if each of them can. -/
theorem exists_mapped_iff {image : α → Eval Value} :
    (∃ rows, Mapped image items rows) ↔ ∀ a ∈ items, ∃ row, (image a).Gives (.ok row) := by
  induction items with
  | nil => exact ⟨fun _ => List.forall_mem_nil _, fun _ => ⟨[], .nil⟩⟩
  | cons a items ih =>
    rw [List.forall_mem_cons, ← ih]
    constructor
    · rintro ⟨_, hm⟩
      obtain ⟨row, rest, ha, hrest, rfl⟩ := List.forall₂_cons_left_iff.1 hm
      exact ⟨⟨row, ha⟩, rest, hrest⟩
    · rintro ⟨⟨row, ha⟩, rows, hm⟩
      exact ⟨row :: rows, .cons ha hm⟩

end Items

/-! ## Two passes as one -/

section Passes

variable {e : Expr} {rows : List Value}

theorem selections_gives_iff {first second both : Callback}
    (h : (Expr.selection (.selection e first) second).Pure) (h' : (Expr.selection e both).Pure)
    (hc : ∀ row, e.Offers row → Conjunction (first.onRow row) (second.onRow row) (both.onRow row)) :
    (Expr.selection (.selection e first) second).eval.Gives (.ok rows) ↔
      (Expr.selection e both).eval.Gives (.ok rows) := by
  obtain ⟨hfirst, hsecond⟩ := Expr.pure_selection_iff.1 h
  rw [Expr.selection_gives_iff h, Expr.selection_gives_iff h']
  constructor
  · rintro ⟨picked, hpicked, hs⟩
    obtain ⟨inner, hi, hp⟩ := (Expr.selection_gives_iff hfirst).1 hpicked
    exact ⟨inner, hi,
      (picked_both_iff hp (hsecond picked hpicked) fun row hr => hc row ⟨inner, hi, hr⟩).1 hs⟩
  · rintro ⟨inner, hi, hb⟩
    have hconj := fun row hr => hc row ⟨inner, hi, hr⟩
    -- where both have an answer the first has one, so the first pass goes through
    have hanswered : ∀ row ∈ inner, ∃ verdict, (first.onRow row).Gives (.ok verdict) := by
      intro row hr
      refine ((Expr.pure_selection_iff.1 hfirst).2 inner hi row hr).answered fun fault hf => ?_
      obtain ⟨verdict, hv⟩ := hb.answered row hr
      cases hv.unique ((hconj row hr).fails fault hf)
    have hp : Picked first.onRow inner _ := ⟨hanswered, rfl⟩
    have hpicked := (Expr.selection_gives_iff hfirst).2 ⟨inner, hi, hp⟩
    exact ⟨_, hpicked, (picked_both_iff hp (hsecond _ hpicked) hconj).2 hb⟩

theorem projections_gives_iff {first second both : Callback}
    (h : (Expr.projection (.projection e first) second).Pure) (h' : (Expr.projection e both).Pure)
    (hc : ∀ row, e.Offers row → Composite (first.onRow row) second.onRow (both.onRow row)) :
    (Expr.projection (.projection e first) second).eval.Gives (.ok rows) ↔
      (Expr.projection e both).eval.Gives (.ok rows) := by
  obtain ⟨hfirst, hsecond⟩ := Expr.pure_projection_iff.1 h
  rw [Expr.projection_gives_iff h, Expr.projection_gives_iff h']
  constructor
  · rintro ⟨values, hvalues, hs⟩
    obtain ⟨inner, hi, hm⟩ := (Expr.projection_gives_iff hfirst).1 hvalues
    exact ⟨inner, hi,
      (mapped_both_iff hm (hsecond values hvalues) fun row hr => hc row ⟨inner, hi, hr⟩).1 hs⟩
  · rintro ⟨inner, hi, hb⟩
    have hcomp := fun row hr => hc row ⟨inner, hi, hr⟩
    have hanswered : ∀ row ∈ inner, ∃ value, (first.onRow row).Gives (.ok value) := by
      intro row hr
      refine ((Expr.pure_projection_iff.1 hfirst).2 inner hi row hr).answered fun fault hf => ?_
      obtain ⟨value, hv⟩ := exists_mapped_iff.1 ⟨rows, hb⟩ row hr
      cases hv.unique ((hcomp row hr).fails fault hf)
    obtain ⟨values, hm⟩ := exists_mapped_iff.2 hanswered
    have hvalues := (Expr.projection_gives_iff hfirst).2 ⟨inner, hi, hm⟩
    exact ⟨values, hvalues, (mapped_both_iff hm (hsecond values hvalues) hcomp).2 hb⟩

/-- A loop has as many results as members. -/
theorem mapRows_length {mapper : Callback} {images : List Value} (h : (mapRows mapper rows).Answers images) :
    images.length = rows.length := by
  induction rows generalizing images with
  | nil => rw [answers_pure h]
  | cons row rows ih =>
    obtain ⟨image, -, h⟩ := h.of_bind
    obtain ⟨rest, hr, h⟩ := h.of_bind
    rw [answers_pure h, List.length_cons, List.length_cons, ih hr]

theorem projection_length {mapper : Callback} {store : Store}
    (h : ((Expr.projection e mapper).eval store).result = .ok rows) :
    ∃ inner, (e.eval store).result = .ok inner ∧ rows.length = inner.length := by
  rw [Expr.eval_projection, result_then] at h
  obtain ⟨inner, hi, h⟩ := ok_of_bind h
  exact ⟨inner, hi, mapRows_length ⟨_, h⟩⟩

end Passes

/-! ## The law -/

/-- Both calls build a tree, and either the trees have the same rows, or both fail. -/
def Agree (made made' : Except Fault Expr) : Prop :=
  ∃ e e', made = .ok e ∧ made' = .ok e' ∧
    ((∃ rows, e.eval.Gives (.ok rows) ∧ e'.eval.Gives (.ok rows)) ∨
      ∃ fault fault', e.eval.Gives (.error fault) ∧ e'.eval.Gives (.error fault'))

/-- Adjacent passes are one, whatever their callbacks do on the rows, as long as they are pure there. A
projection has as many rows as its child, pure or not. -/
theorem passes_fuse (e : Expr) :
    (∀ first second both : Callback, first.usableOn 1 = true → second.usableOn 1 = true →
      both.usableOn 1 = true → (Expr.selection (.selection e first) second).Pure →
      (Expr.selection e both).Pure →
      (∀ row, e.Offers row → Conjunction (first.onRow row) (second.onRow row) (both.onRow row)) →
        Agree (selected second (selected first (.ok e))) (selected both (.ok e))) ∧
    (∀ first second both : Callback, first.usableOn 1 = true → second.usableOn 1 = true →
      both.usableOn 1 = true → (Expr.projection (.projection e first) second).Pure →
      (Expr.projection e both).Pure →
      (∀ row, e.Offers row → Composite (first.onRow row) second.onRow (both.onRow row)) →
        Agree (projected second (projected first (.ok e))) (projected both (.ok e))) ∧
    ∀ mapper store rows, ((Expr.projection e mapper).eval store).result = .ok rows →
      ∃ inner, (e.eval store).result = .ok inner ∧ rows.length = inner.length := by
  refine ⟨fun first second both hu hu' hub h h' hc => ?_, fun first second both hu hu' hub h h' hc => ?_,
    fun _ _ _ => projection_length⟩
  · rw [selected_ok hu, selected_ok hu', selected_ok hub]
    exact ⟨_, _, rfl, rfl, h.stable.agree h'.stable fun _ => selections_gives_iff h h' hc⟩
  · rw [projected_ok hu, projected_ok hu', projected_ok hub]
    exact ⟨_, _, rfl, rfl, h.stable.agree h'.stable fun _ => projections_gives_iff h h' hc⟩

/-- Pairs that are picked by the first item and then by the second; and the first item negated. Negation
fails on the row before the one that has no first item, so the one pass has another fault than the two. -/
theorem passes_fuse_pairs :
    let x : Code := .argument "x"
    let head : Code := .item x (.literal (.int 0))
    let first : Callback := .function ⟨0, .named, "first"⟩ [.required "x"] head []
    let second : Callback :=
      .function ⟨1, .named, "second"⟩ [.required "x"] (.item x (.literal (.int 1))) []
    let both : Callback :=
      .function ⟨2, .named, "both"⟩ [.required "x"] (.and head (.item x (.literal (.int 1)))) []
    let negate : Callback := .function ⟨3, .named, "negate"⟩ [.required "x"] (.neg x) []
    let negated : Callback := .function ⟨4, .named, "negated"⟩ [.required "x"] (.neg head) []
    let pairs : Expr := .terminal [.tuple [.int 1, .text "a"], .tuple [.text "", .int 5],
      .tuple [.list none [.int 2], .int 0], .tuple [.nan 7, .bool true]]
    let ragged : Expr := .terminal [.tuple [.int 1], .tuple [.text "a"], .tuple []]
    Agree (selected second (selected first (.ok pairs))) (selected both (.ok pairs)) ∧
    (Expr.selection pairs both).eval.Gives
      (.ok [.tuple [.int 1, .text "a"], .tuple [.nan 7, .bool true]]) ∧
    Agree (projected negate (projected first (.ok ragged))) (projected negated (.ok ragged)) ∧
    (Expr.projection (.projection ragged first) negate).eval.Gives (.error .badIndex) ∧
    (Expr.projection ragged negated).eval.Gives (.error .typeMismatch) ∧
    ∃ inner, (pairs.eval .empty).result = .ok inner ∧ 4 = inner.length := by
  intro x head first second both negate negated pairs ragged
  have hpairs : pairs.Pure := Expr.pure_terminal _
  have hragged : ragged.Pure := Expr.pure_terminal _
  refine ⟨?_, fun _ => rfl, ?_, fun _ => rfl, fun _ => rfl, ?_⟩
  · have hfirst : ∀ row, (first.onRow row).Stable := fun _ _ _ => rfl
    have hsecond : ∀ row, (second.onRow row).Stable := fun _ _ _ => rfl
    have hboth : ∀ row, (both.onRow row).Stable := fun row =>
      Stable.bind (hfirst row) fun verdict _ => by
        split
        · exact hsecond row
        · exact stable_pure verdict
    refine (passes_fuse pairs).1 first second both rfl rfl rfl ?_ ?_ ?_
    · exact Expr.pure_selection_iff.2 ⟨Expr.pure_selection_iff.2 ⟨hpairs, fun _ _ row _ => hfirst row⟩,
        fun _ _ row _ => hsecond row⟩
    · exact Expr.pure_selection_iff.2 ⟨hpairs, fun _ _ row _ => hboth row⟩
    · exact fun row _ => conjunction_of_and (first.onRow row) (second.onRow row)
  · have hragged' : (Expr.projection ragged first).Pure :=
      Expr.pure_projection_iff.2 ⟨hragged, fun _ _ _ _ _ _ => rfl⟩
    refine (passes_fuse ragged).2.1 first negate negated rfl rfl rfl ?_ ?_ ?_
    · refine Expr.pure_projection_iff.2 ⟨hragged', fun rows h => ?_⟩
      cases h .empty
    · refine Expr.pure_projection_iff.2 ⟨hragged, fun rows h row hr => ?_⟩
      cases h .empty
      simp only [List.mem_cons, List.not_mem_nil, or_false] at hr
      rcases hr with rfl | rfl | rfl <;> exact fun _ _ => rfl
    · exact fun row _ => composite_of_bind (first.onRow row) negate.onRow
  · exact (passes_fuse pairs).2.2 first .empty _ rfl

end BagAlgebra
