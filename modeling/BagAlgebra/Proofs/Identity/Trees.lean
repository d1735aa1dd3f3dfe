/-
Trees under new names. The evaluations of a tree and of its renamed form run in step if what their bare
expressions give does: callbacks run in step, and nothing else in an evaluation depends on which objects
there are, but on whether they are the same.
-/
import BagAlgebra.Proofs.Eval.RowWise
import BagAlgebra.Proofs.Identity.Calls
import BagAlgebra.Proofs.Row.Matching
import BagAlgebra.Proofs.Tree.Nodes

namespace BagAlgebra

open Renaming

variable {r : Renaming} {store store' : Store}

/-! ## Rules of the operators -/

theorem keepWhere_inStep (predicate : Callback) : ∀ (rows : List Value) {ws : List Value}
    {store store' : Store}, r.Stores store store' → Known r.least store.fresh predicate.objects →
      r.RenamesItems store.fresh rows ws → r.InStep store store' r.RenamesItems
        (keepWhere predicate rows) (keepWhere (predicate.rename r.names) ws)
  | [], _, _, _, hs, _, ⟨rfl, _⟩ => inStep_pure hs renamesItems_nil
  | row :: rows, _, _, _, hs, hp, ⟨rfl, hk⟩ => by
    obtain ⟨hrow, hrows⟩ := renamesItems_cons.1 ⟨rfl, hk⟩
    rw [renameItems, keepWhere, keepWhere]
    have hone := renamesItems_cons.2 ⟨hrow, renamesItems_nil⟩
    refine (call_inStep predicate hs hp hone).bind fun v w mid mid' hg hm hv => ?_
    refine (keepWhere_inStep predicate rows hm (hp.mono hg) (hrows.mono hg)).bind
      fun vs ws last last' hg' hl hvs => inStep_pure hl ?_
    rw [hv.1, Value.truthy_rename]
    cases v.truthy with
    | false => exact hvs
    | true => exact renamesItems_cons.2 ⟨hrow.mono (by omega), hvs⟩

theorem mapRows_inStep (mapper : Callback) : ∀ (rows : List Value) {ws : List Value}
    {store store' : Store}, r.Stores store store' → Known r.least store.fresh mapper.objects →
      r.RenamesItems store.fresh rows ws → r.InStep store store' r.RenamesItems
        (mapRows mapper rows) (mapRows (mapper.rename r.names) ws)
  | [], _, _, _, hs, _, ⟨rfl, _⟩ => inStep_pure hs renamesItems_nil
  | row :: rows, _, _, _, hs, hf, ⟨rfl, hk⟩ => by
    obtain ⟨hrow, hrows⟩ := renamesItems_cons.1 ⟨rfl, hk⟩
    rw [renameItems, mapRows, mapRows]
    have hone := renamesItems_cons.2 ⟨hrow, renamesItems_nil⟩
    refine (call_inStep mapper hs hf hone).bind fun v w mid mid' hg hm hv => ?_
    refine (mapRows_inStep mapper rows hm (hf.mono hg) (hrows.mono hg)).bind
      fun vs ws last last' hg' hl hvs => inStep_pure hl ?_
    exact renamesItems_cons.2 ⟨hv.mono hg', hvs⟩

section Join

variable {predicate mapper : Callback}

theorem joinRow_inStep {left left' : Value} : ∀ (rights : List Value) {ws : List Value}
    {store store' : Store}, r.Stores store store' → Known r.least store.fresh predicate.objects →
      Known r.least store.fresh mapper.objects → r.Renames store.fresh left left' →
        r.RenamesItems store.fresh rights ws → r.InStep store store' r.RenamesItems
          (joinRow predicate mapper left rights)
          (joinRow (predicate.rename r.names) (mapper.rename r.names) left' ws)
  | [], _, _, _, hs, _, _, _, ⟨rfl, _⟩ => inStep_pure hs renamesItems_nil
  | right :: rights, _, store, _, hs, hp, hf, hleft, ⟨rfl, hk⟩ => by
    obtain ⟨hright, hrights⟩ := renamesItems_cons.1 ⟨rfl, hk⟩
    rw [renameItems, joinRow, joinRow]
    have hpair := renamesItems_cons.2 ⟨hleft, renamesItems_cons.2 ⟨hright, renamesItems_nil⟩⟩
    refine (call_inStep predicate hs hp hpair).bind fun v w mid mid' hg hm hv => ?_
    rw [hv.1, Value.truthy_rename]
    have hrest := fun {last last' : Store} (hg' : store.fresh ≤ last.fresh) (hl : r.Stores last last') =>
      joinRow_inStep rights hl (hp.mono hg') (hf.mono hg') (hleft.mono hg') (hrights.mono hg')
    cases v.truthy with
    | false => exact hrest hg hm
    | true =>
      refine (call_inStep mapper hm (hf.mono hg) (hpair.mono hg)).bind
        fun image image' next next' hg' hn hi => ?_
      refine (hrest (by omega) hn).bind fun vs ws last last' hg'' hl hvs => inStep_pure hl ?_
      exact renamesItems_cons.2 ⟨hi.mono hg'', hvs⟩

theorem joinRows_inStep {rights rights' : List Value} : ∀ (lefts : List Value) {ws : List Value}
    {store store' : Store}, r.Stores store store' → Known r.least store.fresh predicate.objects →
      Known r.least store.fresh mapper.objects → r.RenamesItems store.fresh rights rights' →
        r.RenamesItems store.fresh lefts ws → r.InStep store store' r.RenamesItems
          (joinRows predicate mapper lefts rights)
          (joinRows (predicate.rename r.names) (mapper.rename r.names) ws rights')
  | [], _, _, _, hs, _, _, _, ⟨rfl, _⟩ => inStep_pure hs renamesItems_nil
  | left :: lefts, _, _, _, hs, hp, hf, hrights, ⟨rfl, hk⟩ => by
    obtain ⟨hleft, hlefts⟩ := renamesItems_cons.1 ⟨rfl, hk⟩
    rw [renameItems, joinRows, joinRows]
    refine (joinRow_inStep rights hs hp hf hleft hrights).bind fun vs ws mid mid' hg hm hvs => ?_
    refine (joinRows_inStep lefts hm (hp.mono hg) (hf.mono hg) (hrights.mono hg) (hlefts.mono hg)).bind
      fun us xs last last' hg' hl hus => inStep_pure hl ?_
    exact renamesItems_append (hvs.mono hg') hus

end Join

/-! ## Shapes and membership -/

section Blind

variable (ρ : Nat ↪ Nat)

theorem requireShape_rename (location : Location) (expected : Shape) (rows : List Value) :
    requireShape location expected (renameItems ρ rows) = requireShape location expected rows := by
  induction rows with
  | nil => rfl
  | cons row rows ih =>
    rw [renameItems, requireShape, requireShape, Value.shape_rename, Value.repr?_rename, ih]

theorem commonShape_rename (location : Location) (rows : List Value) :
    commonShape location (renameItems ρ rows) = commonShape location rows := by
  cases rows with
  | nil => rfl
  | cons row rows =>
    rw [renameItems, commonShape, commonShape, Value.shape_rename, requireShape_rename]

theorem requireSharedShape_rename (operator : Operator) (lefts rights : List Value) :
    requireSharedShape operator (renameItems ρ lefts) (renameItems ρ rights)
      = requireSharedShape operator lefts rights := by
  unfold requireSharedShape
  rw [commonShape_rename, commonShape_rename]

theorem occurrencesByScan_rename (lefts rights : List Value) :
    occurrencesByScan (renameItems ρ lefts) (renameItems ρ rights) = occurrencesByScan lefts rights := by
  unfold occurrencesByScan
  rw [renameItems_eq_map, renameItems_eq_map, List.map_map]
  refine List.map_congr_left fun row _ => ?_
  rw [Function.comp_apply, occurs_rename]

theorem occurrences_rename (kind : FilterKind) (strategy : Strategy) (lefts rights : List Value) :
    occurrences kind strategy (renameItems ρ lefts) (renameItems ρ rights)
      = occurrences kind strategy lefts rights := by
  have hall : (renameItems ρ lefts ++ renameItems ρ rights).all Value.hashable
      = (lefts ++ rights).all Value.hashable := by
    rw [renameItems_eq_map, renameItems_eq_map, ← List.map_append, List.all_map]
    congr 1
    funext v
    exact v.hashable_rename
  unfold occurrences
  rw [occurrencesBySet_eq, occurrencesBySet_eq, hall, occurrencesByScan_rename]

theorem keepHits_rename (wanted : Bool) (rows : List Value) (hits : List Bool) :
    keepHits wanted (renameItems ρ rows) hits = renameItems ρ (keepHits wanted rows hits) := by
  unfold keepHits
  rw [renameItems_eq_map, renameItems_eq_map, List.zip_map_left, List.filter_map, List.map_map,
    List.map_map]
  rfl

end Blind

/-- Which rows of a filter occur on its other side, and the message of a rescan. -/
theorem occurrences_inStep_self (hs : r.Stores store store') (kind : FilterKind) (strategy : Strategy)
    (lefts rights : List Value) :
    r.InStep store store' (fun _ hits hits' => hits' = hits) (occurrences kind strategy lefts rights)
      (occurrences kind strategy lefts rights) := by
  unfold occurrences
  split
  · exact inStep_pure hs rfl
  · split
    · exact inStep_pure hs rfl
    · exact (inStep_emit hs (.rescanned kind)).bind fun _ _ _ _ _ hm _ => inStep_pure hm rfl

/-! ## Trees -/

/-- The message that a node logs when it is done, a number of rows. -/
theorem emit_inStep (hs : r.Stores store store') {event : Event} (he : event.rename r.names = event)
    {rows rows' : List Value} (h : r.RenamesItems store.fresh rows rows') :
    r.InStep store store' r.RenamesItems (do Run.emit event; return rows)
      (do Run.emit event; return rows') := by
  have hb := inStep_emit hs event
  rw [he] at hb
  exact hb.bind fun _ _ mid mid' hg hm _ => inStep_pure hm (h.mono hg)

section Sides

variable {bare bare' : Nat → Eval (List Value)} {left right : Expr}
  (hl : r.InStep store store' r.RenamesItems (left.evalWith bare)
    ((left.rename r.names).evalWith bare'))
  (hr : ∀ {mid mid' : Store}, store.fresh ≤ mid.fresh → r.Stores mid mid' →
    r.InStep mid mid' r.RenamesItems (right.evalWith bare) ((right.rename r.names).evalWith bare'))

include hl hr

/-- The rows of the sides of a node, and what is made of them. -/
theorem sides_inStep_renamed {next next' : List Value → List Value → Eval (List Value)}
    (hn : ∀ {lefts rights lefts' rights' : List Value} {last last' : Store},
      store.fresh ≤ last.fresh → r.Stores last last' → r.RenamesItems last.fresh lefts lefts' →
        r.RenamesItems last.fresh rights rights' →
          r.InStep last last' r.RenamesItems (next lefts rights) (next' lefts' rights')) :
    r.InStep store store' r.RenamesItems
      (do let lefts ← left.evalWith bare; let rights ← right.evalWith bare; next lefts rights)
      (do
        let lefts ← (left.rename r.names).evalWith bare'
        let rights ← (right.rename r.names).evalWith bare'
        next' lefts rights) := by
  refine hl.bind fun lefts lefts' mid mid' hg hm hlefts => ?_
  refine (hr hg hm).bind fun rights rights' last last' hg' hlast hrights => ?_
  exact hn (by omega) hlast (hlefts.mono hg') hrights

/-- A join of sides that are in step. -/
theorem join_inStep {predicate mapper : Callback}
    (hp : Known r.least store.fresh predicate.objects) (hf : Known r.least store.fresh mapper.objects) :
    r.InStep store store' r.RenamesItems ((Expr.join left right predicate mapper).evalWith bare)
      (((Expr.join left right predicate mapper).rename r.names).evalWith bare') := by
  rw [Expr.rename, Expr.evalWith, Expr.evalWith]
  refine sides_inStep_renamed hl hr fun hg hm hlefts hrights => ?_
  refine (joinRows_inStep _ hm (hp.mono hg) (hf.mono hg) hrights hlefts).bind
    fun rows rows' last last' _ hl hrows => ?_
  rw [renamesItems_length hlefts, renamesItems_length hrights, renamesItems_length hrows]
  exact emit_inStep hl rfl hrows

end Sides

/-- From some store on, bare expressions give what they give under their new names. -/
def Renaming.Bares (r : Renaming) (store : Store) (bare bare' : Nat → Eval (List Value))
    (serials : List Nat) : Prop :=
  ∀ serial ∈ serials, ∀ mid mid' : Store, store.fresh ≤ mid.fresh → r.Stores mid mid' →
    r.InStep mid mid' r.RenamesItems (bare serial) (bare' (r.names serial))

section Bares

variable {bare bare' : Nat → Eval (List Value)} {serials others : List Nat}

theorem Renaming.Bares.later (h : r.Bares store bare bare' serials) {mid : Store}
    (hg : store.fresh ≤ mid.fresh) : r.Bares mid bare bare' serials :=
  fun serial hm last last' hg' => h serial hm last last' (Nat.le_trans hg hg')

theorem Renaming.Bares.sides (h : r.Bares store bare bare' (serials ++ others)) :
    r.Bares store bare bare' serials ∧ r.Bares store bare bare' others :=
  List.forall_mem_append.1 h

end Bares

/-- A tree evaluated under new names, if its bare expressions give what they give under theirs. -/
theorem evalWith_inStep {bare bare' : Nat → Eval (List Value)} : ∀ (e : Expr) {store store' : Store},
    r.Stores store store' → Known r.least store.fresh e.objects → r.Bares store bare bare' e.bares →
      r.InStep store store' r.RenamesItems (e.evalWith bare) ((e.rename r.names).evalWith bare')
  | .bare serial, _, _, hs, _, hb => hb serial (List.mem_singleton.2 rfl) _ _ (Nat.le_refl _) hs
  | .terminal rows, _, _, hs, hk, _ => inStep_pure hs ⟨rfl, hk⟩
  | .selection child predicate, _, _, hs, hk, hb => by
    obtain ⟨hc, hp⟩ := known_append.1 hk
    rw [Expr.rename, Expr.evalWith, Expr.evalWith]
    refine (evalWith_inStep child hs hc hb).bind fun rows rows' mid mid' hg hm hrows => ?_
    refine (keepWhere_inStep predicate rows hm (hp.mono hg) hrows).bind
      fun kept kept' last last' _ hl hkept => ?_
    rw [renamesItems_length hkept]
    exact emit_inStep hl rfl hkept
  | .projection child mapper, _, _, hs, hk, hb => by
    obtain ⟨hc, hf⟩ := known_append.1 hk
    rw [Expr.rename, Expr.evalWith, Expr.evalWith]
    exact (evalWith_inStep child hs hc hb).bind fun rows rows' mid mid' hg hm hrows =>
      mapRows_inStep mapper rows hm (hf.mono hg) hrows
  | .join left right predicate mapper, _, _, hs, hk, hb => by
    obtain ⟨hsides, hcallbacks⟩ := known_append.1 hk
    obtain ⟨hl, hr⟩ := known_append.1 hsides
    obtain ⟨hp, hf⟩ := known_append.1 hcallbacks
    obtain ⟨hbl, hbr⟩ := hb.sides
    exact join_inStep (evalWith_inStep left hs hl hbl)
      (fun hg hm => evalWith_inStep right hm (hr.mono hg) (hbr.later hg)) hp hf
  | .product left right mapper, _, _, hs, hk, hb => by
    obtain ⟨hsides, hf⟩ := known_append.1 hk
    obtain ⟨hl, hr⟩ := known_append.1 hsides
    obtain ⟨hbl, hbr⟩ := hb.sides
    -- a product is evaluated as its inner join, whose predicate mentions no objects
    rw [Expr.rename, Expr.evalWith_product, Expr.evalWith_product]
    exact join_inStep (evalWith_inStep left hs hl hbl)
      (fun hg hm => evalWith_inStep right hm (hr.mono hg) (hbr.later hg)) (known_nil _ _) hf
  | .union left right, _, _, hs, hk, hb => by
    obtain ⟨hl, hr⟩ := known_append.1 hk
    obtain ⟨hbl, hbr⟩ := hb.sides
    rw [Expr.rename, Expr.evalWith, Expr.evalWith]
    refine sides_inStep_renamed (evalWith_inStep left hs hl hbl)
      (fun hg hm => evalWith_inStep right hm (hr.mono hg) (hbr.later hg))
      fun hg hm hlefts hrights => ?_
    have happend := renamesItems_append hlefts hrights
    obtain ⟨rfl, _⟩ := hlefts
    obtain ⟨rfl, _⟩ := hrights
    exact inStep_known hm (requireSharedShape_rename r.names .union _ _) fun _ _ =>
      inStep_pure hm happend
  | .filter kind left right strategy, _, _, hs, hk, hb => by
    obtain ⟨hl, hr⟩ := known_append.1 hk
    obtain ⟨hbl, hbr⟩ := hb.sides
    rw [Expr.rename, Expr.evalWith, Expr.evalWith]
    refine sides_inStep_renamed (evalWith_inStep left hs hl hbl)
      (fun hg hm => evalWith_inStep right hm (hr.mono hg) (hbr.later hg))
      fun hg hm hlefts hrights => ?_
    obtain ⟨rfl, hkl⟩ := hlefts
    obtain ⟨rfl, hkr⟩ := hrights
    refine inStep_known hm (requireSharedShape_rename r.names (.filter kind) _ _) fun _ _ => ?_
    -- occurrences do not depend on names, so the hits are the same on both sides
    rw [occurrences_rename]
    refine (occurrences_inStep_self hm kind strategy _ _).bind
      fun hits hits' last last' hg' hl hhits => inStep_pure hl ?_
    subst hhits
    rw [keepHits_rename]
    exact renamesItems_subset ⟨rfl, hkl.mono hg'⟩ (keepHits_subset ..)

end BagAlgebra
