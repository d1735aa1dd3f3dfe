/-
Evaluation in a session. What was set on the bare expressions of a tree answers for them; but for that, a
tree is evaluated in a session as it is on its own. Sessions in which the same was set, up to the names of
objects, evaluate it in step.
-/
import BagAlgebra.Proofs.Script.Provenance
import BagAlgebra.Proofs.Tree.Built
import BagAlgebra.Script.Step

namespace BagAlgebra

/-! ## Trees on which nothing was set -/

/-- The bare expressions of a tree are among its objects. -/
theorem Expr.bare_mem_objects {serial : Nat} : ∀ e : Expr, serial ∈ e.bares → ⟨.bare, serial⟩ ∈ e.objects
  | .bare _, h => by
    rw [List.mem_singleton.1 h]
    exact List.mem_singleton.2 rfl
  | .terminal _, h => by cases h
  | .selection child _, h => List.mem_append_left _ (child.bare_mem_objects h)
  | .projection child _, h => List.mem_append_left _ (child.bare_mem_objects h)
  | .join left right _ _, h => List.mem_append_left _ <| List.mem_append.2 <|
      (List.mem_append.1 h).imp left.bare_mem_objects right.bare_mem_objects
  | .product left right _, h => List.mem_append_left _ <| List.mem_append.2 <|
      (List.mem_append.1 h).imp left.bare_mem_objects right.bare_mem_objects
  | .union left right, h => List.mem_append.2 <|
      (List.mem_append.1 h).imp left.bare_mem_objects right.bare_mem_objects
  | .filter _ left right _, h => List.mem_append.2 <|
      (List.mem_append.1 h).imp left.bare_mem_objects right.bare_mem_objects

/-- The rows of a tree depend on what its own bare expressions give, and on no others. -/
theorem Expr.evalWith_congr {bare bare' : Nat → Eval (List Value)} : ∀ e : Expr,
    (∀ serial ∈ e.bares, bare serial = bare' serial) → e.evalWith bare = e.evalWith bare'
  | .bare serial, h => h serial (List.mem_singleton.2 rfl)
  | .terminal _, _ => rfl
  | .selection child _, h => by rw [evalWith, evalWith, child.evalWith_congr h]
  | .projection child _, h => by rw [evalWith, evalWith, child.evalWith_congr h]
  | .join left right _ _, h => by
    obtain ⟨hl, hr⟩ := List.forall_mem_append.1 h
    rw [evalWith, evalWith, left.evalWith_congr hl, right.evalWith_congr hr]
  | .product left right _, h => by
    obtain ⟨hl, hr⟩ := List.forall_mem_append.1 h
    rw [evalWith, evalWith, left.evalWith_congr hl, right.evalWith_congr hr]
  | .union left right, h => by
    obtain ⟨hl, hr⟩ := List.forall_mem_append.1 h
    rw [evalWith, evalWith, left.evalWith_congr hl, right.evalWith_congr hr]
  | .filter _ left right _, h => by
    obtain ⟨hl, hr⟩ := List.forall_mem_append.1 h
    rw [evalWith, evalWith, left.evalWith_congr hl, right.evalWith_congr hr]

/-- What was set on a tree was set on the bare expression that it is, if it is one. -/
theorem override?_of_tree? {v : Value} {e : Expr} (he : v.tree? = some e) :
    (∃ serial ∈ e.bares, ∀ session : Session,
      session.override? v = session.override? (.expr (.bare serial))) ∨
    ∀ session : Session, session.override? v = none := by
  cases v with
  | expr e' =>
    cases he
    cases e with
    | bare serial => exact .inl ⟨serial, List.mem_singleton.2 rfl, fun _ => rfl⟩
    | _ => exact .inr fun _ => rfl
  | builder e' =>
    cases he
    cases e with
    | bare serial => exact .inl ⟨serial, List.mem_singleton.2 rfl, fun _ => rfl⟩
    | _ => exact .inr fun _ => rfl
  | _ => cases he

theorem evalRowsWith_of_tree? {v : Value} {e : Expr} (he : v.tree? = some e)
    (bare : Nat → Eval (List Value)) : v.evalRowsWith bare = e.evalWith bare := by
  cases v with
  | expr _ => cases he; rfl
  | builder _ => cases he; rfl
  | _ => cases he

/-- A tree on whose bare expressions no `eval` was set gives its own rows, as a new list. -/
theorem Session.eval_of_none {session : Session} {v : Value} {e : Expr} (he : v.tree? = some e)
    (h : ∀ serial ∈ e.bares, session.override? (.expr (.bare serial)) = none) :
    session.eval v = v.evalRows >>= listed := by
  have hv : session.override? v = none := by
    rcases override?_of_tree? he with ⟨serial, hm, ho⟩ | ho
    · exact (ho session).trans (h serial hm)
    · exact ho session
  have hrows : e.evalWith session.rowsOf = e.eval := e.evalWith_congr fun serial hm => by
    rw [rowsOf, h serial hm]
  rw [Session.eval, hv, Value.evalRows, evalRowsWith_of_tree? he, evalRowsWith_of_tree? he, hrows]
  rfl

/-- What was set on a value is the value of an attribute. -/
theorem Session.mem_of_override? {session : Session} {v own : Value}
    (h : session.override? v = some own) : ∃ a ∈ session.attributes, a.value = own := by
  have found : ∀ {owner : Value}, session.attribute? owner "eval" = some own →
      ∃ a ∈ session.attributes, a.value = own := by
    intro owner h
    obtain ⟨a, ha, hown⟩ := Option.map_eq_some_iff.1 h
    exact ⟨a, List.mem_of_find?_eq_some ha, hown⟩
  unfold override? at h
  split at h
  · exact found h
  · exact found h
  · exact found h
  · cases h

/-! ## Evaluations in step -/

open Renaming

section InStep

variable {r : Renaming} {store store' : Store}

theorem answer_inStep (hs : r.Stores store store') {own own' : Value}
    (h : r.Renames store.fresh own own') :
    r.InStep store store' r.Renames own.answer own'.answer := by
  obtain ⟨rfl, hk⟩ := h
  cases own with
  | callable f => exact call_inStep f hs hk renamesItems_nil
  | _ => exact inStep_fail hs _

theorem listed_inStep (hs : r.Stores store store') {rows rows' : List Value}
    (h : r.RenamesItems store.fresh rows rows') :
    r.InStep store store' r.Renames (listed rows) (listed rows') := by
  refine (inStep_fresh hs).bind fun cell cell' mid mid' hg hm hc => inStep_pure hm ?_
  obtain ⟨rfl, hlt, hle⟩ := hc
  refine ⟨?_, known_append.2 ⟨List.forall_mem_singleton.2 ⟨hlt, fun _ => hle⟩, (h.mono hg).2⟩⟩
  rw [Value.rename, Option.map_some, h.1]

theorem kept_inStep (hs : r.Stores store store') {v w : Value} (h : r.Renames store.fresh v w) :
    r.InStep store store' r.Renames v.kept w.kept := by
  obtain ⟨rfl, hk⟩ := h
  cases v with
  | list cell items =>
    cases cell with
    | none => exact listed_inStep hs ⟨rfl, (known_append.1 hk).2⟩
    | some cell => exact inStep_pure hs ⟨rfl, hk⟩
  | _ => exact inStep_pure hs ⟨rfl, hk⟩

variable {session session' : Session}

/-- What a bare expression gives, if what was set on it is the same up to names. -/
theorem rowsOf_inStep (hs : r.Stores store store') {serial serial' : Nat}
    (h : Option.Rel (r.Renames store.fresh) (session.override? (.expr (.bare serial)))
      (session'.override? (.expr (.bare serial')))) :
    r.InStep store store' r.RenamesItems (session.rowsOf serial) (session'.rowsOf serial') := by
  unfold Session.rowsOf
  generalize session.override? _ = own, session'.override? _ = own' at h ⊢
  cases h with
  | none => exact inStep_fail hs _
  | some h =>
    refine (answer_inStep hs h).bind fun v w mid mid' _ hm hv => ?_
    obtain ⟨rfl, hk⟩ := hv
    cases v with
    | list cell items => exact inStep_pure hm ⟨rfl, (known_append.1 hk).2⟩
    | _ => exact inStep_fail hm _

/-- Two sessions evaluate a value in step, if what was set on it and on the bare expressions of its tree is
the same up to names. -/
theorem Session.eval_inStep (hs : r.Stores store store') {v w : Value} (hv : r.Renames store.fresh v w)
    (ho : Option.Rel (r.Renames store.fresh) (session.override? v) (session'.override? w))
    (hb : ∀ e, v.tree? = some e → ∀ serial ∈ e.bares, Option.Rel (r.Renames store.fresh)
      (session.override? (.expr (.bare serial)))
      (session'.override? (.expr (.bare (r.names serial))))) :
    r.InStep store store' r.Renames (session.eval v) (session'.eval w) := by
  have tree : ∀ e, v.tree? = some e → Known r.least store.fresh e.objects →
      r.InStep store store' r.RenamesItems (e.evalWith session.rowsOf)
        ((e.rename r.names).evalWith session'.rowsOf) := by
    intro e he hk
    refine evalWith_inStep e hs hk fun serial hm mid mid' hg hmid => rowsOf_inStep hmid ?_
    have h := hb e he serial hm
    generalize session.override? _ = own, session'.override? _ = own' at h ⊢
    cases h with
    | none => exact .none
    | some h => exact .some (h.mono hg)
  have rows : r.InStep store store' r.RenamesItems (v.evalRowsWith session.rowsOf)
      (w.evalRowsWith session'.rowsOf) := by
    obtain ⟨rfl, hk⟩ := hv
    cases v with
    | expr e => exact tree e rfl hk
    | builder e => exact tree e rfl hk
    | _ => exact inStep_fail hs _
  unfold Session.eval
  generalize session.override? v = own, session'.override? w = own' at ho ⊢
  cases ho with
  | none => exact rows.bind fun vs ws mid mid' _ hm hvs => listed_inStep hm hvs
  | some h => exact (answer_inStep hs h).bind fun a b mid mid' _ hm hab => kept_inStep hm hab

end InStep

end BagAlgebra
