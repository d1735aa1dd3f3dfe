/-
What names keep. Only an item that is added to a list changes what other names are bound to; so any number
of other steps, whether they go through or not, leave a name with its value until they bind it anew.
-/
import BagAlgebra.Proofs.Script.Frames

namespace BagAlgebra

open Run

/-- The action adds an item to a list. -/
def Action.appends : Action → Bool
  | .append .. => true
  | _ => false

/-- What can come of two runs in a row is what can come of the second. -/
theorem Run.answers_then {α β : Type} {run : Eval α} {next : α → Eval β} {P : β → Prop}
    (h : ∀ a b, (next a).Answers b → P b) (b : β) (hb : (run >>= next).Answers b) : P b := by
  obtain ⟨a, -, hb⟩ := hb.of_bind
  exact h a b hb

/-- Only an item added to a list changes what names are bound to. -/
theorem Action.bindings_of_run {action : Action} (ha : action.appends = false) {session : Session} :
    ∀ ended : Value × Change, (action.run session).Answers ended →
      ∀ later : Session, (ended.2.apply later).bindings = later.bindings := by
  have still : ∀ (v : Value) (ended : Value × Change), (pure (v, Change.nothing) : Eval _).Answers ended →
      ∀ later : Session, (ended.2.apply later).bindings = later.bindings := by
    intro v ended h later
    rw [answers_pure h]
    rfl
  cases action with
  | append on value => cases ha
  | build term => exact answers_then fun _ => still _
  | eval on => exact answers_then fun _ => answers_then fun _ => still _
  | repr on => exact answers_then fun _ => answers_then fun _ => still _
  | equal a b => exact answers_then fun _ => answers_then fun _ => still _
  | hashable on =>
    refine answers_then fun v => ?_
    split
    · exact still _
    · exact fun _ h => absurd h not_answers_fail
  | get on field =>
    refine answers_then fun v => ?_
    split
    · exact still _
    · exact still _
    · exact fun _ h => absurd h not_answers_fail
  | set on field value =>
    refine answers_then fun v => answers_then fun w => answers_then fun _ ended h later => ?_
    rw [answers_pure h]
    rfl
  | pretty rows headers limit =>
    exact answers_then fun _ => answers_then fun _ => answers_then fun _ => answers_then fun _ => still _
  | csv rows headers delimiter =>
    exact answers_then fun _ => answers_then fun _ => answers_then fun _ => answers_then fun _ => still _

section Names

variable {session : Session} {x : String}

theorem Step.run_keeps {step : Step} (ha : step.action.appends = false)
    (hn : step.binds session x = false) :
    (step.run session).2.bindings.lookup x = session.bindings.lookup x := by
  have hend := step.run_ends session
  unfold binds at hn
  generalize step.run session = ended at hend hn ⊢
  cases hend with
  | failed he => rfl
  | unnamed he hname =>
    have hkept := Action.bindings_of_run ha _ ⟨_, congrArg Outcome.result he⟩
    rw [hkept]
  | @named _ _ _ _ name he hname =>
    have hkept := Action.bindings_of_run ha _ ⟨_, congrArg Outcome.result he⟩
    rw [lookup_bind_of_ne (ne_of_unbound hname hn rfl), hkept]

/-- Steps that add no item to a list, whether they go through or not, leave a name with its value until they
bind it anew. -/
theorem runSteps_keeps (steps : List Step) (ha : ∀ step ∈ steps, step.action.appends = false)
    (hn : ∀ i, (hi : i < steps.length) → steps[i].binds (session.after (steps.take i)) x = false) :
    (session.after steps).bindings.lookup x = session.bindings.lookup x :=
  runSteps_induction (P := fun mid => mid.bindings.lookup x = session.bindings.lookup x) steps rfl
    fun i hi hmid => (Step.run_keeps (ha _ (List.getElem_mem hi)) (hn i hi)).trans hmid

end Names

end BagAlgebra
