/-
An evaluation has one sequence of effects only. Where two sequences that the order of effects allows
are carried out from the same store, each callback gets the same answer in both, and the answers
decide how the effects go on.
-/
import BagAlgebra.Proofs.Eval.Effects

namespace BagAlgebra

/-- Of the sequences of effects that a specification allows, at most one can be carried out from a
store, whatever comes after it. -/
def Determined {α : Type} (spec : List Effect → Except Fault α → Prop) : Prop :=
  ∀ store effects effects' rest rest' result result' log log' last last',
    spec effects result → spec effects' result' →
    Performed store (effects ++ rest) log last → Performed store (effects' ++ rest') log' last' →
    effects = effects' ∧ result = result'

theorem Determined.same {α : Type} {spec : List Effect → Except Fault α → Prop} (h : Determined spec)
    {store last last' : Store} {effects effects' rest rest' : List Effect}
    {result result' : Except Fault α} {log log' : List Event} (hs : spec effects result)
    (hs' : spec effects' result') (hp : Performed store (effects ++ rest) log last)
    (hp' : Performed store (effects' ++ rest') log' last') : effects = effects' ∧ result = result' :=
  h _ _ _ _ _ _ _ _ _ _ _ hs hs' hp hp'

theorem Performed.genuine {store last : Store} {effect : Effect} {effects : List Effect}
    {log : List Event} (h : Performed store (effect :: effects) log last) : effect.Genuine store := by
  cases h with
  | cons genuine _ => exact genuine

theorem selects_determined (predicate : Callback) (row : Value) :
    Determined (Selects predicate row) := by
  rintro store _ _ rest rest' _ _ log log' last last' ⟨reply⟩ ⟨reply'⟩ hp hp'
  have h : reply = reply' := Eq.trans (Eq.symm hp.genuine) hp'.genuine
  rw [h]
  exact ⟨rfl, rfl⟩

theorem maps_determined (mapper : Callback) (row : Value) : Determined (Maps mapper row) := by
  rintro store _ _ rest rest' reply reply' log log' last last' ⟨⟩ ⟨⟩ hp hp'
  have h : reply = reply' := Eq.trans (Eq.symm hp.genuine) hp'.genuine
  rw [h]
  exact ⟨rfl, rfl⟩

theorem pairs_determined (predicate mapper : Callback) (pair : Value × Value) :
    Determined (Pairs predicate mapper pair) := by
  rintro store _ _ rest rest' _ _ log log' last last' h h' hp hp'
  -- both begin with the predicate, whose answer decides how they go on
  have first : ∀ {effects : List Effect} {reply : Except Fault Value} {log : List Event} {last : Store},
      Performed store (.applied predicate [pair.1, pair.2] reply :: effects) log last →
        (predicate.call [pair.1, pair.2] store).result = reply := fun h => h.genuine
  cases h with
  | fail fault =>
    cases h' with
    | fail fault' =>
      have h := (first hp).symm.trans (first hp')
      cases h
      exact ⟨rfl, rfl⟩
    | pass ht => cases (first hp).symm.trans (first hp')
    | map ht reply => cases (first hp).symm.trans (first hp')
  | @pass verdict ht =>
    cases h' with
    | fail fault => cases (first hp).symm.trans (first hp')
    | pass ht' =>
      have h := (first hp).symm.trans (first hp')
      cases h
      exact ⟨rfl, rfl⟩
    | map ht' reply =>
      have h := (first hp).symm.trans (first hp')
      cases h
      rw [ht] at ht'
      cases ht'
  | @map verdict ht reply =>
    cases h' with
    | fail fault => cases (first hp).symm.trans (first hp')
    | pass ht' =>
      have h := (first hp).symm.trans (first hp')
      cases h
      rw [ht] at ht'
      cases ht'
    | map ht' reply' =>
      have h := (first hp).symm.trans (first hp')
      cases h
      cases hp with
      | cons _ hp =>
        cases hp' with
        | cons _ hp' =>
          have h : reply = reply' := Eq.trans (Eq.symm hp.genuine) hp'.genuine
          rw [h]
          exact ⟨rfl, rfl⟩

theorem inOrder_determined {α β : Type} {task : α → List Effect → Except Fault β → Prop}
    {items : List α} (h : ∀ a ∈ items, Determined (task a)) : Determined (InOrder task items) := by
  induction items with
  | nil =>
    rintro store _ _ rest rest' _ _ log log' last last' ⟨⟩ ⟨⟩ hp hp'
    exact ⟨rfl, rfl⟩
  | cons a items ih =>
    rintro store _ _ rest rest' _ _ log log' last last' h1 h2 hp hp'
    have ha := h a (List.mem_cons_self ..)
    cases h1 with
    | stop h1 =>
      cases h2 with
      | stop h2 =>
        obtain ⟨he, hr⟩ := ha.same h1 h2 hp hp'
        cases hr
        exact ⟨he, rfl⟩
      | next h2 _ =>
        rw [List.append_assoc] at hp'
        cases (ha.same h1 h2 hp hp').2
    | next h1 hr1 =>
      rw [List.append_assoc] at hp
      cases h2 with
      | stop h2 => cases (ha.same h1 h2 hp hp').2
      | next h2 hr2 =>
        rw [List.append_assoc] at hp'
        obtain ⟨he, hr⟩ := ha.same h1 h2 hp hp'
        cases he
        cases hr
        -- the first task leaves the same store behind in both, and the rest starts from there
        obtain ⟨_, mid, _, hd, hm, _⟩ := hp.split
        obtain ⟨_, mid', _, hd', hm', _⟩ := hp'.split
        obtain rfl := (hd.unique hd').2
        have hi := ih fun b hb => h b (List.mem_cons_of_mem _ hb)
        obtain ⟨he, hr⟩ := hi.same hr1 hr2 hm hm'
        rw [he, hr]
        exact ⟨rfl, rfl⟩

theorem works_determined (e : Expr) (inputs : List (List Value)) :
    Determined (e.Works inputs) := by
  rintro store _ _ rest rest' _ _ log log' last last' h h' hp hp'
  cases h with
  | bare serial =>
    cases h'
    exact ⟨rfl, rfl⟩
  | terminal rows =>
    cases h'
    exact ⟨rfl, rfl⟩
  | selection h =>
    cases h' with
    | selection h' =>
      obtain ⟨he, hr⟩ := (inOrder_determined fun row _ => selects_determined _ row).same h h' hp hp'
      rw [he, hr]
      exact ⟨rfl, rfl⟩
  | projection h =>
    cases h' with
    | projection h' =>
      exact (inOrder_determined fun row _ => maps_determined _ row).same h h' hp hp'
  | join h =>
    cases h' with
    | join h' =>
      obtain ⟨he, hr⟩ := (inOrder_determined fun pair _ => pairs_determined _ _ pair).same h h' hp hp'
      rw [he, hr]
      exact ⟨rfl, rfl⟩
  | product h =>
    cases h' with
    | product h' =>
      obtain ⟨he, hr⟩ := (inOrder_determined fun pair _ => pairs_determined _ _ pair).same h h' hp hp'
      rw [he, hr]
      exact ⟨rfl, rfl⟩
  | union reply =>
    cases h' with
    | union reply' =>
      have h : reply = reply' := Eq.trans (Eq.symm hp.genuine) hp'.genuine
      rw [h]
      exact ⟨rfl, rfl⟩
  | filter reply =>
    cases h' with
    | filter reply' =>
      have h : reply = reply' := Eq.trans (Eq.symm hp.genuine) hp'.genuine
      rw [h]
      exact ⟨rfl, rfl⟩

theorem completes_determined (e : Expr) (inputs : List (List Value)) :
    Determined (e.Completes inputs) := by
  rintro store _ _ rest rest' _ _ log log' last last' h h' hp hp'
  have hw := works_determined e inputs
  cases h with
  | fail h =>
    cases h' with
    | fail h' =>
      obtain ⟨he, hr⟩ := hw.same h h' hp hp'
      cases hr
      exact ⟨he, rfl⟩
    | done h' =>
      rw [List.append_assoc] at hp'
      cases (hw.same h h' hp hp').2
  | done h =>
    rw [List.append_assoc] at hp
    cases h' with
    | fail h' => cases (hw.same h h' hp hp').2
    | done h' =>
      rw [List.append_assoc] at hp'
      obtain ⟨he, hr⟩ := hw.same h h' hp hp'
      cases he
      cases hr
      exact ⟨rfl, rfl⟩

theorem traces_determined (e : Expr) : Determined e.Traces := by
  induction e using Expr.sides_induction with
  | h e ih =>
    rintro store _ _ rest rest' _ _ log log' last last' h h' hp hp'
    have hi := inOrder_determined ih
    cases h with
    | stop h =>
      cases h' with
      | stop h' =>
        obtain ⟨he, hr⟩ := hi.same h h' hp hp'
        cases hr
        exact ⟨he, rfl⟩
      | root h' _ =>
        rw [List.append_assoc] at hp'
        cases (hi.same h h' hp hp').2
    | root h hc =>
      rw [List.append_assoc] at hp
      cases h' with
      | stop h' => cases (hi.same h h' hp hp').2
      | root h' hc' =>
        rw [List.append_assoc] at hp'
        obtain ⟨he, hr⟩ := hi.same h h' hp hp'
        cases he
        cases hr
        -- so do the sides of the root, and its own work starts from there
        obtain ⟨_, mid, _, hd, hm, _⟩ := hp.split
        obtain ⟨_, mid', _, hd', hm', _⟩ := hp'.split
        obtain rfl := (hd.unique hd').2
        obtain ⟨he, hr⟩ := (completes_determined e _).same hc hc' hm hm'
        rw [he, hr]
        exact ⟨rfl, rfl⟩

/-- The effects of the evaluation of a tree from a store. -/
structure Expr.Effects (e : Expr) (store : Store) (effects : List Effect) : Prop where
  traces : e.Traces effects (e.eval store).result
  performed : Performed store effects (e.eval store).log (e.eval store).store

/-- An evaluation has one sequence of effects. -/
theorem Expr.existsUnique_effects (e : Expr) (store : Store) : ∃! effects, e.Effects store effects := by
  obtain ⟨effects, ht, hp⟩ := e.eval_performs store
  refine ⟨effects, ⟨ht, hp⟩, fun effects' h => ?_⟩
  have hp' := h.performed
  rw [← List.append_nil effects'] at hp'
  rw [← List.append_nil effects] at hp
  exact ((traces_determined e).same h.traces ht hp' hp).1

end BagAlgebra
