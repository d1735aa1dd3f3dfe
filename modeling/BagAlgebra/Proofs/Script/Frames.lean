/-
What steps leave alone. Only an item that is added to a list changes what other names are bound to, and what
was set as an attribute; so a name keeps a tree in which no list is that has a name, until it is bound
anew, and a bare expression keeps the `eval` that was set on it until another is set.
-/
import BagAlgebra.Proofs.Script.Sessions

namespace BagAlgebra

/-! ## Steps and lists -/

/-- The cell of a list. -/
def Value.cell? : Value → Option Nat
  | .list cell _ => cell
  | _ => none

/-- The list of a cell is bound to a name. -/
def Session.holds (session : Session) (cell : Nat) : Bool :=
  session.bindings.any fun b => b.2.cell? == some cell

/-- The step succeeds and binds its value to a name. -/
def Step.binds (step : Step) (session : Session) (name : String) : Bool :=
  step.name? == some name && (step.run session).1.result.isOk

/-- The step sets an `eval` on a bare expression of a tree. -/
def Step.overrides (step : Step) (session : Session) (e : Expr) : Bool :=
  match (step.action.run session session.store).result with
  | .ok (_, .attribute (.expr (.bare serial)) field _) => field == "eval" && e.bares.contains serial
  | _ => false

/-- A step that succeeds and does not bind a name has another one for its value. -/
theorem ne_of_unbound {step : Step} {name x : String} {result : Except Fault Value} {v : Value}
    (hname : step.name? = some name) (hn : (step.name? == some x && result.isOk) = false)
    (h : result = .ok v) : name ≠ x := by
  rintro rfl
  simp [hname, h, Except.isOk, Except.toBool] at hn

theorem lookup_mem {scope : Scope} {name : String} {v : Value} (h : scope.lookup name = some v) :
    (name, v) ∈ scope := by
  obtain ⟨l, m, rfl, _⟩ := List.lookup_eq_some_iff.1 h
  exact List.mem_append_right _ (List.mem_cons_self ..)

section Lookup

variable {session : Session} {x : String}

theorem lookup_replaceCell (cell : Nat) (items : List Value) :
    (session.replaceCell cell items).bindings.lookup x
      = (session.bindings.lookup x).map (Value.replaceCell cell items) := by
  unfold Session.replaceCell
  dsimp only
  induction session.bindings with
  | nil => rfl
  | cons b scope ih =>
    rw [List.map_cons, List.lookup_cons, List.lookup_cons, ih]
    split <;> rfl

theorem lookup_bind_of_ne {name : String} (h : name ≠ x) (v : Value) :
    (session.bind name v).bindings.lookup x = session.bindings.lookup x := by
  have hx : (x == name) = false := beq_false_of_ne (Ne.symm h)
  show List.lookup x ((name, v) :: session.bindings.filter fun b => b.1 != name) = _
  rw [List.lookup_cons, hx]
  dsimp only
  induction session.bindings with
  | nil => rfl
  | cons b scope ih =>
    -- an earlier binding is dropped only if it is one of the other name
    by_cases hb : b.1 = name
    · have hxb : (x == b.1) = false := by rw [hb, hx]
      rw [List.filter_cons_of_neg (by simp [hb]), List.lookup_cons, hxb]
      exact ih
    · rw [List.filter_cons_of_pos (by simp [hb]), List.lookup_cons, List.lookup_cons, ih]

end Lookup

/-! ## Attributes -/

section Attributes

variable {serial : Nat} (cell : Nat) (items : List Value)

theorem eq_bare_of_same {owner : Value} (h : owner.same (.expr (.bare serial)) = true) :
    owner = .expr (.bare serial) := by
  cases owner with
  | expr e =>
    cases e with
    | bare n => rw [eq_of_beq h]
    | _ => cases h
  | bool b => cases b <;> cases h
  | _ => cases h

/-- Which value is a bare expression is not changed by a change of a list. -/
theorem same_bare_replaceCell (owner : Value) :
    (owner.replaceCell cell items).same (.expr (.bare serial)) = owner.same (.expr (.bare serial)) := by
  cases owner with
  | list c vs =>
    rw [Value.replaceCell]
    split <;> rfl
  | expr e => cases e <;> rfl
  | _ => rfl

theorem attribute?_replaceCell (session : Session) (field : String) :
    (session.replaceCell cell items).attribute? (.expr (.bare serial)) field
      = (session.attribute? (.expr (.bare serial)) field).map (Value.replaceCell cell items) := by
  have hmeant : (fun a : Attribute => a.owner.same (.expr (.bare serial)) && a.field == field) ∘
      (fun a : Attribute => { a with
        owner := a.owner.replaceCell cell items, value := a.value.replaceCell cell items })
        = fun a => a.owner.same (.expr (.bare serial)) && a.field == field := by
    funext a
    exact congrArg (· && _) (same_bare_replaceCell cell items a.owner)
  unfold Session.attribute? Session.replaceCell
  rw [List.find?_map, hmeant, Option.map_map, Option.map_map]
  rfl

end Attributes

/-! ## Changes and steps -/

section Kept

variable {session : Session}

/-- A change of a list makes no difference to a value that mentions no list with a name. -/
theorem replaceCell_eq_self_of_change {cell : Nat} {items : List Value} {late : Nat}
    (hc : (Change.contents (some cell) items).Sound session.bindings session.store.fresh late) {v : Value}
    (hk : Known 0 session.store.fresh v.objects)
    (hv : ∀ o ∈ v.objects, o.kind = .list → session.holds o.serial = false) :
    v.replaceCell cell items = v := by
  refine v.replaceCell_eq_self fun ho => ?_
  -- the list has a name, or it is newer than the value
  rcases hc.2 cell rfl with ⟨name, old, hname⟩ | hlate
  · have hh := hv _ ho rfl
    rw [Session.holds, List.any_eq_false] at hh
    exact hh _ (lookup_mem hname) (beq_self_eq_true _)
  · exact absurd (hk _ ho).1 (Nat.not_lt.2 hlate)

variable (h : session.Sound)

include h

/-- A change that a step asks for leaves alone what mentions no list with a name. -/
theorem lookup_apply {x : String} {v : Value} (hx : session.bindings.lookup x = some v)
    (hv : ∀ o ∈ v.objects, o.kind = .list → session.holds o.serial = false) {store : Store} {late : Nat}
    {change : Change} (hc : change.Sound session.bindings session.store.fresh late) :
    (change.apply { session with store }).bindings.lookup x = some v := by
  cases change with
  | nothing => exact hx
  | «attribute» owner field value => exact hx
  | contents cell items =>
    cases cell with
    | none => exact hx
    | some cell =>
      show (Session.replaceCell { session with store } cell items).bindings.lookup x = _
      rw [lookup_replaceCell, hx, Option.map_some,
        replaceCell_eq_self_of_change hc (h.bindings.lookup hx) hv]

/-- A step that binds another name, or none, leaves alone what mentions no list with a name. -/
theorem Step.run_lookup {x : String} {v : Value} (hx : session.bindings.lookup x = some v)
    (hv : ∀ o ∈ v.objects, o.kind = .list → session.holds o.serial = false) {step : Step}
    (hn : step.binds session x = false) : (step.run session).2.bindings.lookup x = some v := by
  obtain ⟨_, _, ha⟩ := step.action.run_makes h
  have hend := step.run_ends session
  unfold binds at hn
  generalize step.run session = ended at hend hn ⊢
  cases hend with
  | failed he => exact hx
  | unnamed he hname =>
    rw [he] at ha
    exact lookup_apply h hx hv (ha _ rfl).2
  | @named _ _ _ _ name he hname =>
    rw [he] at ha
    rw [lookup_bind_of_ne (ne_of_unbound hname hn rfl)]
    exact lookup_apply h hx hv (ha _ rfl).2

/-- A change that sets no `eval` on a bare expression leaves alone what was set on it, if that mentions no
list with a name. -/
theorem override?_apply {serial : Nat}
    (hv : ∀ own, session.override? (.expr (.bare serial)) = some own →
      ∀ o ∈ own.objects, o.kind = .list → session.holds o.serial = false)
    {store : Store} {late : Nat} {change : Change}
    (hc : change.Sound session.bindings session.store.fresh late)
    (hn : ∀ w, change ≠ .attribute (.expr (.bare serial)) "eval" w) :
    (change.apply { session with store }).override? (.expr (.bare serial))
      = session.override? (.expr (.bare serial)) := by
  cases change with
  | nothing => rfl
  | «attribute» owner field value =>
    have hne : ¬ (owner.same (.expr (.bare serial)) && field == "eval") = true := by
      rw [Bool.and_eq_true]
      rintro ⟨ho, hf⟩
      rw [eq_bare_of_same ho, eq_of_beq hf] at hn
      exact hn value rfl
    exact congrArg (Option.map _) (List.find?_cons_of_neg hne)
  | contents cell items =>
    cases cell with
    | none => rfl
    | some cell =>
      show (Session.replaceCell { session with store } cell items).attribute? _ _ = _
      rw [attribute?_replaceCell]
      show (session.override? (.expr (.bare serial))).map _ = _
      cases hown : session.override? (.expr (.bare serial)) with
      | none => rfl
      | some own =>
        obtain ⟨a, ha, rfl⟩ := Session.mem_of_override? hown
        rw [Option.map_some, replaceCell_eq_self_of_change hc (h.attributes a ha).2 (hv _ hown)]

/-- A step that sets no `eval` on a bare expression of a tree leaves alone what was set on it, if that
mentions no list with a name. -/
theorem Step.run_override? {e : Expr} {serial : Nat} (hm : serial ∈ e.bares)
    (hv : ∀ own, session.override? (.expr (.bare serial)) = some own →
      ∀ o ∈ own.objects, o.kind = .list → session.holds o.serial = false)
    {step : Step} (hn : step.overrides session e = false) :
    (step.run session).2.override? (.expr (.bare serial))
      = session.override? (.expr (.bare serial)) := by
  obtain ⟨_, _, ha⟩ := step.action.run_makes h
  have hend := step.run_ends session
  unfold overrides at hn
  generalize step.run session = ended at hend ⊢
  cases hend with
  | failed he => rfl
  | unnamed he | named he =>
    rw [he] at ha hn
    refine override?_apply h hv (ha _ rfl).2 fun w hw => ?_
    simp [hw, hm] at hn

end Kept

namespace Session

/-- What was set as `eval` on the bare expressions of a tree. -/
def overrides (session : Session) (e : Expr) : List Value :=
  e.bares.filterMap fun serial => session.override? (.expr (.bare serial))

/-- The objects in a tree and in what was set as `eval` on its bare expressions. -/
def reach (session : Session) (e : Expr) : List Object :=
  e.objects ++ objectsOfItems (session.overrides e)

theorem objects_override?_subset {session : Session} {e : Expr} {serial : Nat} (hm : serial ∈ e.bares)
    {own : Value} (h : session.override? (.expr (.bare serial)) = some own) :
    own.objects ⊆ session.reach e := fun _ ho =>
  List.mem_append_right _ (mem_objectsOfItems.2 ⟨own, List.mem_filterMap.2 ⟨serial, hm, h⟩, ho⟩)

/-- A name is bound to a value, and on the bare expressions of a tree is set what was set in an earlier
session. -/
structure Keeps (first last : Session) (x : String) (v : Value) (e : Expr) : Prop where
  sound : last.Sound
  bound : last.bindings.lookup x = some v
  set : ∀ serial ∈ e.bares,
    last.override? (.expr (.bare serial)) = first.override? (.expr (.bare serial))

end Session

/-- The objects of a tree are those of its value. -/
theorem objects_of_tree? {v : Value} {e : Expr} (he : v.tree? = some e) : v.objects = e.objects := by
  cases v with
  | expr _ => cases he; rfl
  | builder _ => cases he; rfl
  | _ => cases he

/-- Whatever steps are taken, a name keeps a tree, and the bare expressions of the tree what was set on
them, if no list with a name is mentioned there, until the name is bound or one of them is set anew. -/
theorem runSteps_keeps_tree {first : Session} (hf : first.Sound) {x : String} {v : Value} {e : Expr}
    (hx : first.bindings.lookup x = some v) (he : v.tree? = some e) {later : List Step}
    (hv : ∀ i ≤ later.length, ∀ o ∈ first.reach e, o.kind = .list →
      (first.after (later.take i)).holds o.serial = false)
    (hn : ∀ i, (hi : i < later.length) → later[i].binds (first.after (later.take i)) x = false)
    (hs : ∀ i, (hi : i < later.length) → later[i].overrides (first.after (later.take i)) e = false) :
    first.Keeps (first.after later) x v e := by
  refine runSteps_induction (P := fun mid => first.Keeps mid x v e) later ⟨hf, hx, fun _ _ => rfl⟩
    fun i hi hmid => ?_
  have hlists := hv i (Nat.le_of_lt hi)
  refine ⟨(Step.run_sound hmid.sound _).1, ?_, fun serial hm => ?_⟩
  · refine Step.run_lookup hmid.sound hmid.bound (fun o ho => hlists o ?_) (hn i hi)
    rw [objects_of_tree? he] at ho
    exact List.mem_append_left _ ho
  · rw [Step.run_override? hmid.sound hm (fun own hown o ho => hlists o ?_) (hs i hi)]
    · exact hmid.set serial hm
    · rw [hmid.set serial hm] at hown
      exact Session.objects_override?_subset hm hown ho

end BagAlgebra
