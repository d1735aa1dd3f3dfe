/-
Sessions: whatever is bound to a name or set as an attribute mentions objects that have been made. This
holds at the start, and each step keeps it.
-/
import BagAlgebra.Proofs.Script.Evaluations
import BagAlgebra.Proofs.Script.Terms

namespace BagAlgebra

/-! ## Fields -/

/-- The objects of a part of a node are among those of the node. -/
theorem Expr.objects_of_field? {e : Expr} {field : String} {part : Value}
    (h : e.field? field = some part) : part.objects ⊆ e.objects := by
  intro o ho
  unfold field? at h
  split at h
  case h_18 =>
    -- the inner join of a product has the parts of the product
    unfold joiner? at h
    split at h
    · cases h
      exact ho
    · cases h
  case h_19 => cases h
  -- any other field holds a part of the node itself
  all_goals
    cases h
    simp only [Value.objects, objects, List.mem_append, List.not_mem_nil] at ho ⊢ <;> tauto

theorem Value.objects_of_field? {v : Value} {field : String} {part : Value}
    (h : v.field? field = some part) : part.objects ⊆ v.objects := by
  unfold field? at h
  split at h
  · exact Expr.objects_of_field? h
  · cases h
    exact List.Subset.refl _
  · cases h

/-! ## Actions -/

/-- All objects of a session have been made. -/
structure Session.Sound (session : Session) : Prop where
  store : session.store.Sound
  bindings : KnownScope session.store.fresh session.bindings
  attributes : ∀ a ∈ session.attributes,
    Known 0 session.store.fresh a.owner.objects ∧ Known 0 session.store.fresh a.value.objects

/-- A change of known objects, and of lists only that have names or were made late enough. -/
def Change.Sound (scope : Scope) (early late : Nat) : Change → Prop
  | .nothing => True
  | .contents cell items => Known 0 late (objectsOfItems items) ∧ ∀ c, cell = some c →
    (∃ name old, scope.lookup name = some (.list (some c) old)) ∨ early ≤ c
  | .attribute owner _ value => Known 0 late owner.objects ∧ Known 0 late value.objects

/-- A value gives known objects and new ones when it is evaluated, if what was set mentions known objects. -/
theorem Session.eval_makes {session : Session} {store : Store} (hs : store.Sound)
    (ha : ∀ a ∈ session.attributes, Known 0 store.fresh a.value.objects) {v : Value}
    (hk : Known 0 store.fresh v.objects) :
    Makes store (fun n w => Known 0 n w.objects) (session.eval v) := by
  have same : ∀ {w : Value}, Known 0 store.fresh w.objects → sameNames.Renames store.fresh w w :=
    fun {w} h => ⟨(w.rename_eq_self fun _ _ => rfl).symm, h⟩
  have set : ∀ w : Value, Option.Rel (sameNames.Renames store.fresh) (session.override? w)
      (session.override? w) := by
    intro w
    cases hown : session.override? w with
    | none => exact .none
    | some own =>
      obtain ⟨a, hmem, rfl⟩ := Session.mem_of_override? hown
      exact .some (same (ha a hmem))
  obtain ⟨hg, hst, hr, _⟩ :=
    Session.eval_inStep (stores_sameNames hs) (same hk) (set v) fun _ _ serial _ => set _
  refine ⟨hg, hst.untouched, fun w h => ?_⟩
  obtain ⟨_, _, hw⟩ := hr.of_ok h
  exact hw.2

/-- An item that is added goes to the end of a list, and the list keeps its cell. -/
theorem appended_ok {v : Value} {cell : Option Nat} {items : List Value}
    {pair : Option Nat × List Value} (h : v.appended (.list cell items) = .ok pair) :
    pair = (cell, items ++ [v]) := by
  cases cell with
  | none =>
    cases h
    rfl
  | some cell =>
    rw [Value.appended] at h
    split at h
    · cases h
    · cases h
      rfl

/-- An action gives a value of known objects, and asks for a sound change. -/
theorem Action.run_makes {session : Session} (h : session.Sound) (action : Action) :
    Makes session.store
      (fun n a => Known 0 n a.1.objects ∧ a.2.Sound session.bindings session.store.fresh n)
      (action.run session) := by
  have built : ∀ (t : Term) {mid : Store}, session.store.fresh ≤ mid.fresh → mid.Sound →
      Makes mid (fun n v => Known 0 n v.objects) (t.build session.bindings) :=
    fun t mid hg hm => t.build_makes hm (h.bindings.mono hg)
  have first := fun t => built t (Nat.le_refl _) h.store
  cases action with
  | build term => exact (first term).map fun _ _ hv => ⟨hv, trivial⟩
  | eval on =>
    refine (first on).bind fun v mid hg hm hv => ?_
    refine (Session.eval_makes hm (fun a ha => ?_) hv).map fun _ _ hw => ⟨hw, trivial⟩
    exact (h.attributes a ha).2.mono hg
  | append on value =>
    refine ((first on).and (on.build_listNamed h.store h.bindings)).bind fun v mid hg hm hv => ?_
    refine (built value hg hm).bind fun item last hg' hl hitem => makes_look hl fun pair hpair => ?_
    cases v with
    | list cell items =>
      obtain rfl : pair = (cell, items ++ [item]) := appended_ok hpair
      -- the list keeps its cell, and its new items are the old ones and one that was built
      obtain ⟨hcell, hitems⟩ := known_append.1 (hv.1.mono hg')
      have hk : Known 0 last.fresh (objectsOfItems (items ++ [item])) := by
        refine known_items.2 (List.forall_mem_append.2 ⟨known_items.1 hitems, ?_⟩)
        exact List.forall_mem_singleton.2 hitem
      refine makes_pure hl ⟨known_append.2 ⟨hcell, hk⟩, hk, ?_⟩
      rintro c rfl
      rcases hv.2 c items rfl with ⟨name, hname⟩ | hlate
      · exact .inl ⟨name, items, hname⟩
      · exact .inr hlate
    | _ => cases hpair
  | repr on =>
    refine (first on).bind fun v mid _ hm _ => makes_look hm fun _ _ => ?_
    exact makes_pure hm ⟨known_nil _ _, trivial⟩
  | equal a b =>
    refine (first a).bind fun v mid hg hm _ => (built b hg hm).bind fun w last _ hl _ => ?_
    exact makes_pure hl ⟨known_nil _ _, trivial⟩
  | hashable on =>
    refine (first on).bind fun v mid _ hm _ => ?_
    split
    · exact makes_pure hm ⟨known_nil _ _, trivial⟩
    · exact makes_fail hm _
  | get on field =>
    refine (first on).bind fun v mid hg hm hv => ?_
    split
    · next part hpart => exact makes_pure hm ⟨hv.subset (Value.objects_of_field? hpart), trivial⟩
    · next value _ hvalue =>
      obtain ⟨a, ha, rfl⟩ := Option.map_eq_some_iff.1 hvalue
      exact makes_pure hm ⟨(h.attributes a (List.mem_of_find?_eq_some ha)).2.mono hg, trivial⟩
    · exact makes_fail hm _
  | set on field value =>
    refine (first on).bind fun v mid hg hm hv => (built value hg hm).bind fun w last hg' hl hw => ?_
    exact makes_look hl fun _ _ => makes_pure hl ⟨known_nil _ _, hv.mono hg', hw⟩
  | pretty rows headers limit =>
    refine (first rows).bind fun r mid hg hm hr => ?_
    refine (built headers hg hm).bind fun hd mid' hg' hm' hhd => ?_
    have hg₂ : session.store.fresh ≤ mid'.fresh := by omega
    refine (built limit hg₂ hm').bind fun l last hg'' hl _ => ?_
    refine (pretty_makes hl (hr.mono (by omega)) (hhd.mono hg'') l).map fun _ _ _ => ?_
    exact ⟨known_nil _ _, trivial⟩
  | csv rows headers delimiter =>
    refine (first rows).bind fun r mid hg hm hr => ?_
    refine (built headers hg hm).bind fun hd mid' hg' hm' hhd => ?_
    have hg₂ : session.store.fresh ≤ mid'.fresh := by omega
    refine (built delimiter hg₂ hm').bind fun d last hg'' hl _ => ?_
    refine (csv_makes hl (hr.mono (by omega)) (hhd.mono hg'') d).map fun _ _ _ => ?_
    exact ⟨known_nil _ _, trivial⟩

/-! ## Steps -/

/-- How a step ends: in a failure that leaves everything but the store as it was, or in a change of the
session, after which the value may get a name. -/
inductive Step.Ends (step : Step) (session : Session) : Reply × Session → Prop where
  | failed {fault : Fault} {log : List Event} {store : Store}
      (h : step.action.run session session.store = ⟨.error fault, log, store⟩) :
      Ends step session (⟨.error fault, log⟩, { session with store })
  | unnamed {v : Value} {change : Change} {log : List Event} {store : Store}
      (h : step.action.run session session.store = ⟨.ok (v, change), log, store⟩)
      (hn : step.name? = none) :
      Ends step session (⟨.ok v, log⟩, change.apply { session with store })
  | named {v : Value} {change : Change} {log : List Event} {store : Store} {name : String}
      (h : step.action.run session session.store = ⟨.ok (v, change), log, store⟩)
      (hn : step.name? = some name) :
      Ends step session (⟨.ok v, log⟩, (change.apply { session with store }).bind name v)

theorem Step.run_ends (step : Step) (session : Session) : step.Ends session (step.run session) := by
  unfold run
  rcases h : step.action.run session session.store with ⟨fault | ⟨v, change⟩, log, store⟩
  · exact .failed h
  · cases hn : step.name? with
    | none => exact .unnamed h hn
    | some name => exact .named h hn

namespace Session

theorem start_sound : start.Sound :=
  ⟨fun _ _ => rfl, List.forall_mem_nil _, List.forall_mem_nil _⟩

variable {session : Session}

theorem Sound.later (h : session.Sound) {store : Store} (hs : store.Sound)
    (hg : session.store.fresh ≤ store.fresh) : ({ session with store } : Session).Sound :=
  ⟨hs, h.bindings.mono hg, fun a ha => ⟨(h.attributes a ha).1.mono hg, (h.attributes a ha).2.mono hg⟩⟩

theorem Sound.bind (h : session.Sound) {v : Value} (hv : Known 0 session.store.fresh v.objects)
    (name : String) : (session.bind name v).Sound := by
  refine ⟨h.store, List.forall_mem_cons.2 ⟨hv, fun b hb => ?_⟩, h.attributes⟩
  exact h.bindings b (List.mem_of_mem_filter hb)

theorem Sound.replaceCell (h : session.Sound) {items : List Value}
    (hi : Known 0 session.store.fresh (objectsOfItems items)) (cell : Nat) :
    (session.replaceCell cell items).Sound := by
  refine ⟨h.store, fun b hb => ?_, fun a ha => ?_⟩
  · obtain ⟨old, hold, rfl⟩ := List.mem_map.1 hb
    exact Value.objects_replaceCell hi old.2 (h.bindings old hold)
  · obtain ⟨a, hold, rfl⟩ := List.mem_map.1 ha
    obtain ⟨ho, hv⟩ := h.attributes a hold
    exact ⟨Value.objects_replaceCell hi a.owner ho, Value.objects_replaceCell hi a.value hv⟩

theorem Sound.apply (h : session.Sound) {scope : Scope} {early : Nat} {change : Change}
    (hc : change.Sound scope early session.store.fresh) : (change.apply session).Sound := by
  cases change with
  | nothing => exact h
  | contents cell items =>
    cases cell with
    | none => exact h
    | some cell => exact h.replaceCell hc.1 cell
  | «attribute» owner field value =>
    exact ⟨h.store, h.bindings, List.forall_mem_cons.2 ⟨hc, h.attributes⟩⟩

/-- A change leaves the store as it is. -/
@[simp] theorem store_apply (change : Change) : (change.apply session).store = session.store := by
  cases change with
  | contents cell items => cases cell <;> rfl
  | _ => rfl

@[simp] theorem store_bind (name : String) (v : Value) : (session.bind name v).store = session.store := rfl

end Session

/-- A step keeps a session sound, and makes new objects only. -/
theorem Step.run_sound {session : Session} (h : session.Sound) (step : Step) :
    (step.run session).2.Sound ∧ session.store.fresh ≤ (step.run session).2.store.fresh := by
  obtain ⟨hg, hs, ha⟩ := step.action.run_makes h
  have hend := step.run_ends session
  generalize step.run session = ended at hend ⊢
  cases hend with
  | failed he =>
    rw [he] at hg hs
    exact ⟨h.later hs hg, hg⟩
  | unnamed he hn =>
    rw [he] at hg hs ha
    obtain ⟨_, hc⟩ := ha _ rfl
    rw [Session.store_apply]
    exact ⟨(h.later hs hg).apply hc, hg⟩
  | named he hn =>
    rw [he] at hg hs ha
    obtain ⟨hv, hc⟩ := ha _ rfl
    rw [Session.store_bind, Session.store_apply]
    refine ⟨((h.later hs hg).apply hc).bind ?_ _, hg⟩
    rw [Session.store_apply]
    exact hv

/-- The session after steps. -/
def Session.after (session : Session) (steps : List Step) : Session := (runSteps steps session).2

/-- What each step keeps, the steps keep. -/
theorem runSteps_induction {P : Session → Prop} : ∀ (steps : List Step) {session : Session}, P session →
    (∀ i, (hi : i < steps.length) → P (session.after (steps.take i)) →
      P (steps[i].run (session.after (steps.take i))).2) → P (session.after steps)
  | [], _, h, _ => h
  | step :: steps, session, h, hstep =>
    have hnext : P (step.run session).2 := hstep 0 (Nat.zero_lt_succ _) h
    runSteps_induction steps hnext fun i hi => hstep (i + 1) (Nat.succ_lt_succ hi)

/-- Whatever steps are taken, the session stays sound. -/
theorem runSteps_sound (steps : List Step) {session : Session} (h : session.Sound) :
    (runSteps steps session).2.Sound ∧
      session.store.fresh ≤ (runSteps steps session).2.store.fresh := by
  refine runSteps_induction (P := fun mid => mid.Sound ∧ session.store.fresh ≤ mid.store.fresh) steps
    ⟨h, Nat.le_refl _⟩ fun i hi hmid => ?_
  obtain ⟨hs, hg⟩ := steps[i].run_sound hmid.1
  exact ⟨hs, Nat.le_trans hmid.2 hg⟩

end BagAlgebra
