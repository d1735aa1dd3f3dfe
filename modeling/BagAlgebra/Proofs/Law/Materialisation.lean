/-
A subtree and a leaf with its rows. Around a pure expression whose rows are uniform, a context that is
pure too gives the same rows as around the leaf that holds them. The leaf can make a constructor compare
rows that are compared later otherwise, but what is refused there is refused in the evaluation.
-/
import BagAlgebra.Proofs.Eval.Pure
import BagAlgebra.Proofs.Row.Uniform
import BagAlgebra.Proofs.Tree.Context

namespace BagAlgebra

namespace Run

variable {ε α β : Type}

/-- A run over a list gives an answer only if each of its members did. -/
theorem Answers.of_mapM {f : α → Run ε β} : ∀ {items : List α} {bs : List β},
    (items.mapM f).Answers bs → ∀ a ∈ items, ∃ b, (f a).Answers b
  | [], _, _ => List.forall_mem_nil _
  | a :: items, bs, h => by
    rw [List.mapM_cons] at h
    obtain ⟨b, hb, h⟩ := h.of_bind
    obtain ⟨bs', hbs, _⟩ := h.of_bind
    exact List.forall_mem_cons.2 ⟨⟨b, hb⟩, hbs.of_mapM⟩

end Run

/-! ## One node -/

/-- Two leaves under an operator that compares their rows. -/
theorem not_answers_of_shapes {operator : Operator} {lefts rights : List Value} {fault : Fault}
    {next : List Value → List Value → Eval (List Value)}
    (h : requireSharedShape operator lefts rights = .error fault) (output : List Value) :
    ¬ Run.Answers (do
      let ls ← (Expr.terminal lefts).eval
      let rs ← (Expr.terminal rights).eval
      requireSharedShape operator ls rs
      next ls rs) output := by
  intro ho
  obtain ⟨ls, hl, ho⟩ := ho.of_bind
  obtain ⟨rs, hr, ho⟩ := ho.of_bind
  obtain ⟨_, hc, _⟩ := ho.of_bind
  have hc := Run.answers_ofExcept hc
  rw [Run.answers_pure hl, Run.answers_pure hr, h] at hc
  cases hc

namespace Frame

/-- The sides of the node before the hole. -/
def before : Frame → List Expr
  | .joinRight left _ _ => [left]
  | .productRight left _ => [left]
  | .unionRight left => [left]
  | .filterRight _ left _ => [left]
  | _ => []

/-- The sides of the node after the hole. -/
def after : Frame → List Expr
  | .joinLeft right _ _ => [right]
  | .productLeft right _ => [right]
  | .unionLeft right => [right]
  | .filterLeft _ right _ => [right]
  | _ => []

theorem sides_fill (frame : Frame) (e : Expr) :
    (frame.fill e).sides = frame.before ++ e :: frame.after := by
  cases frame <;> rfl

/-- The work of a node depends on the rows of its sides and not on the sides. -/
theorem work_fill (frame : Frame) (e e' : Expr) (inputs : List (List Value)) :
    (frame.fill e).work inputs = (frame.fill e').work inputs := by
  rcases inputs with _ | ⟨rows, _ | ⟨rows', _ | ⟨rows'', inputs⟩⟩⟩ <;> cases frame <;> rfl

theorem uses_fill {frame : Frame} {e e' : Expr} {inputs : List (List Value)} {f : Callback}
    {rows : List Value} (h : (frame.fill e).Uses inputs f rows) :
    (frame.fill e').Uses inputs f rows := by
  cases frame <;> cases h <;> constructor <;> assumption

/-- A node has no rows if the side in the hole has none. -/
theorem answers_of_fill {frame : Frame} {e : Expr} {rows : List Value}
    (h : (frame.fill e).eval.Answers rows) : ∃ rows', e.eval.Answers rows' := by
  rw [Expr.eval_eq_work, sides_fill] at h
  obtain ⟨inputs, hi, _⟩ := h.of_bind
  exact hi.of_mapM e (List.mem_append_right _ (List.mem_cons_self ..))

variable {frame : Frame} {e e' : Expr}

theorem pure_sides_fill (hp : (frame.fill e).Pure) (hp' : e'.Pure) :
    ∀ s ∈ (frame.fill e').sides, s.Pure := by
  have hs := ((Expr.pure_iff _).1 hp).1
  rw [sides_fill] at hs ⊢
  obtain ⟨hb, ha⟩ := List.forall_mem_append.1 hs
  exact List.forall_mem_append.2 ⟨hb, List.forall_mem_cons.2 ⟨hp', (List.forall_mem_cons.1 ha).2⟩⟩

/-- An expression in a hole can be replaced by another that has the same answer. -/
theorem answer_fill (hp : (frame.fill e).Pure) (hp' : e'.Pure)
    (h : e.eval.answer = e'.eval.answer) :
    (frame.fill e').Pure ∧ (frame.fill e').eval.answer = (frame.fill e).eval.answer := by
  obtain ⟨hs, hu⟩ := (Expr.pure_iff _).1 hp
  have hs' := pure_sides_fill hp hp'
  have st := Run.stable_mapM fun s hm => (hs s hm).stable
  have st' := Run.stable_mapM fun s hm => (hs' s hm).stable
  have ha : (frame.fill e).sides.mapM (fun s => s.eval.answer)
      = (frame.fill e').sides.mapM fun s => s.eval.answer := by
    rw [sides_fill, sides_fill]
    simp only [List.mapM_append, List.mapM_cons, h]
  have hf : (frame.fill e').Pure := by
    refine (Expr.pure_iff _).2 ⟨hs', fun inputs hi f rows hf => ?_⟩
    -- the same rows come to the node, so it makes the same calls
    rw [st'.answers_iff, Run.answer_mapM fun s hm => (hs' s hm).stable, ← ha,
      ← Run.answer_mapM fun s hm => (hs s hm).stable, ← st.answers_iff] at hi
    exact hu inputs hi f rows (uses_fill hf)
  refine ⟨hf, ?_⟩
  rw [hp.answer_eq, hf.answer_eq, ha]
  exact bind_congr fun inputs => by rw [work_fill frame e' e]

/-- A constructor that refuses a leaf for its rows refuses what could not be evaluated either. -/
theorem not_answers_of_compare {rows : List Value} {fault : Fault}
    (h : frame.compare (.terminal rows) = .error fault) (output : List Value) :
    ¬ (frame.fill (.terminal rows)).eval.Answers output := by
  intro ho
  cases frame with
  | unionLeft right =>
    obtain ⟨_, rights, hl, rfl, hs⟩ := compareStored_error h
    cases hl
    exact not_answers_of_shapes hs output ho
  | unionRight left =>
    obtain ⟨lefts, _, rfl, hr, hs⟩ := compareStored_error h
    cases hr
    exact not_answers_of_shapes hs output ho
  | filterLeft kind right strategy =>
    obtain ⟨_, rights, hl, rfl, hs⟩ := compareStored_error h
    cases hl
    exact not_answers_of_shapes hs output ho
  | filterRight kind left strategy =>
    obtain ⟨lefts, _, rfl, hr, hs⟩ := compareStored_error h
    cases hr
    exact not_answers_of_shapes hs output ho
  | _ => cases h

end Frame

namespace Context

theorem answers_of_fill {C : Context} {e : Expr} {rows : List Value}
    (h : (C.fill e).eval.Answers rows) : ∃ rows', e.eval.Answers rows' := by
  induction C generalizing e with
  | nil => exact ⟨rows, h⟩
  | cons frame C ih =>
    obtain ⟨rows', h⟩ := ih h
    exact Frame.answers_of_fill h

theorem pure_of_fill {C : Context} {e : Expr} (h : (C.fill e).Pure) : e.Pure := by
  induction C generalizing e with
  | nil => exact h
  | cons frame C ih =>
    refine ((Expr.pure_iff _).1 (ih h)).1 e ?_
    rw [Frame.sides_fill]
    exact List.mem_append_right _ (List.mem_cons_self ..)

theorem answer_fill {C : Context} {e e' : Expr} (hp : (C.fill e).Pure) (hp' : e'.Pure)
    (h : e.eval.answer = e'.eval.answer) :
    (C.fill e').Pure ∧ (C.fill e').eval.answer = (C.fill e).eval.answer := by
  induction C generalizing e e' with
  | nil => exact ⟨hp', h.symm⟩
  | cons frame C ih =>
    obtain ⟨hf, ha⟩ := Frame.answer_fill (pure_of_fill hp) hp' h
    exact ih hp hf ha.symm

/-- Where a context is built around an expression, it is built around a leaf with its rows, unless what is
built has no rows. -/
theorem build_leaf {C : Context} {e t : Expr} (h : C.build e = .ok t) (rows : List Value) :
    C.build (.terminal rows) = .ok (C.fill (.terminal rows)) ∨
      ∀ output, ¬ (C.fill (.terminal rows)).eval.Answers output := by
  cases C with
  | nil => exact .inl rfl
  | cons frame C =>
    rw [build_cons] at h ⊢
    obtain ⟨t', ht, h⟩ := ok_of_bind h
    cases hc : frame.compare (.terminal rows) with
    | error fault =>
      refine .inr fun output ho => ?_
      obtain ⟨output', ho⟩ := answers_of_fill (C := C) ho
      exact Frame.not_answers_of_compare hc output' ho
    | ok _ =>
      rw [Frame.build_of_compare ht hc, (Frame.build_ok ht).1] at *
      refine .inl (build_of_compare h fun outer _ => ?_)
      exact outer.compare_of_inner (frame.storedRows?_fill _)

end Context

/-- A subtree that has uniform rows can be replaced by the leaf that is made of them: whatever is built
around either, from any store both have the same rows or neither has any. -/
theorem materialise_subtree (C : Context) {e : Expr} {store : Store} {vs : List Value}
    (h : (e.eval store).result = .ok vs) (uniform : Uniform vs)
    (hp : ∀ tree, C.build e = .ok tree → tree.Pure) :
    ∃ leaf, (∀ cell, (Expr.ofItems (.list cell vs) : Eval Expr) = pure leaf) ∧
      ∀ store store' rows, (∃ tree, C.build e = .ok tree ∧ (tree.eval store).result = .ok rows) ↔
        ∃ tree, C.build leaf = .ok tree ∧ (tree.eval store').result = .ok rows := by
  refine ⟨.terminal vs, ofItems_list uniform, fun store1 store2 rows => ?_⟩
  constructor
  · rintro ⟨tree, ht, hr⟩
    have hpt := hp tree ht
    cases Context.build_ok ht
    have hpe := Context.pure_of_fill hpt
    have ha : e.eval.answer = .ok vs := by rw [← hpe.stable.result_eq store, h]
    obtain ⟨hpl, hal⟩ := Context.answer_fill hpt (Expr.pure_terminal vs) ha
    rw [hpt.stable.result_eq, ← hal] at hr
    rcases Context.build_leaf ht vs with hb | hb
    · exact ⟨_, hb, by rw [hpl.stable.result_eq, hr]⟩
    · exact absurd (hpl.stable.answers_iff.2 hr) (hb rows)
  · rintro ⟨tree, ht, hr⟩
    cases Context.build_ok ht
    have hb : C.build e = .ok (C.fill e) := by
      refine Context.build_of_compare ht fun frame hc => ?_
      cases e with
      | terminal stored =>
        cases h
        exact hc
      | _ => exact frame.compare_of_inner rfl
    have hpt := hp _ hb
    have hpe := Context.pure_of_fill hpt
    have ha : e.eval.answer = .ok vs := by rw [← hpe.stable.result_eq store, h]
    obtain ⟨hpl, hal⟩ := Context.answer_fill hpt (Expr.pure_terminal vs) ha
    refine ⟨_, hb, ?_⟩
    rw [hpt.stable.result_eq, ← hal, ← hpl.stable.result_eq store2, hr]

/-- The pairs that a projection makes of two numbers, in the place of the right side of a difference that is
the left side of a union. With the leaf in place the difference has two leaves, which are compared. -/
theorem materialise_subtree_doubled :
    let double : Callback :=
      .function ⟨0, .named, "double"⟩ [.required "x"] (.tuple [.argument "x", .argument "x"]) []
    let e : Expr := .projection (.terminal [.int 1, .int 2]) double
    let vs : List Value := [.tuple [.int 1, .int 1], .tuple [.int 2, .int 2]]
    let lefts : List Value := [.tuple [.int 2, .bool true], .tuple [.float (.zero true), .null]]
    let C : Context := [.filterRight .difference (.terminal lefts) .hash, .unionLeft (.terminal vs)]
    (e.eval .empty).result = .ok vs ∧ Uniform vs ∧ (∀ tree, C.build e = .ok tree → tree.Pure) ∧
      ∃ leaf, (∀ cell, (Expr.ofItems (.list cell vs) : Eval Expr) = pure leaf) ∧
        ∀ store store' rows, (∃ tree, C.build e = .ok tree ∧ (tree.eval store).result = .ok rows) ↔
          ∃ tree, C.build leaf = .ok tree ∧ (tree.eval store').result = .ok rows := by
  intro double e vs lefts C
  have hrows : (e.eval .empty).result = .ok vs := rfl
  have huniform : Uniform vs := ⟨.fields 2, by simp [vs, Value.shape]⟩
  have hpe : e.Pure := Expr.pure_projection (Expr.pure_terminal _) fun _ _ _ => rfl
  have hp : ∀ tree, C.build e = .ok tree → tree.Pure := by
    intro tree ht
    rw [Context.build_ok ht]
    exact Expr.pure_union (Expr.pure_filter (Expr.pure_terminal lefts) hpe) (Expr.pure_terminal vs)
  exact ⟨hrows, huniform, hp, materialise_subtree C hrows huniform hp⟩

end BagAlgebra
