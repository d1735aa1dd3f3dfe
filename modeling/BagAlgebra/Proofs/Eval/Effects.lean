/-
What an evaluation does, effect by effect. `Expr.Traces` says in which order the effects of a tree
come and with which result they end: the sides of a node one after the other, each to its end, then
the node's own work row by row, then its message, and nothing after a failure. `Performed` says what
effects log and leave behind when they are carried out from a store.

Every evaluation is the performance of such effects (`eval_performs`).
-/
import BagAlgebra.Proofs.Eval.RowWise
import BagAlgebra.Proofs.Row.Matching
import BagAlgebra.Proofs.Tree.Nodes

namespace BagAlgebra

/-! ## Effects -/

/-- The evaluation of a node that is done: the rows of its sides, and its own. -/
structure Visit where
  node : Expr
  inputs : List (List Value)
  output : List Value

/-- One effect of an evaluation. -/
inductive Effect where
  /-- A callback is applied to rows. -/
  | applied (callback : Callback) (rows : List Value) (reply : Except Fault Value)
  /-- The rows of two sides are compared by shape. -/
  | compared (operator : Operator) (lefts rights : List Value) (reply : Except Fault Unit)
  /-- A bare expression is asked for its rows. -/
  | refused (serial : Nat)
  /-- A message is logged. -/
  | noted (event : Event)
  /-- A node is done. -/
  | finished (visit : Visit)

namespace Effect

/-- What an effect logs. -/
def events (store : Store) : Effect → List Event
  | .applied f rows _ => (f.call rows store).log
  | .noted event => [event]
  | _ => []

/-- The store after an effect. -/
def after (store : Store) : Effect → Store
  | .applied f rows _ => (f.call rows store).store
  | _ => store

/-- Whether the reply that stands in an effect is the one that it gets. -/
def Genuine (store : Store) : Effect → Prop
  | .applied f rows reply => (f.call rows store).result = reply
  | .compared operator lefts rights reply => requireSharedShape operator lefts rights = reply
  | _ => True

/-- The fault that an effect fails with. -/
def fault? : Effect → Option Fault
  | .applied _ _ (.error fault) => some fault
  | .compared _ _ _ (.error fault) => some fault
  | .refused _ => some .notImplemented
  | _ => none

/-- The visit that an effect ends. -/
def visit? : Effect → Option Visit
  | .finished visit => some visit
  | _ => none

/-- The message that an effect logs. -/
def message? : Effect → Option Event
  | .noted event => some event
  | _ => none

end Effect

/-- Effects carried out one after the other: what they log, and the store that they leave. -/
inductive Performed : Store → List Effect → List Event → Store → Prop where
  | nil (store : Store) : Performed store [] [] store
  | cons {store last : Store} {effect : Effect} {effects : List Effect} {log : List Event}
      (genuine : effect.Genuine store) (rest : Performed (effect.after store) effects log last) :
      Performed store (effect :: effects) (effect.events store ++ log) last

/-! ## The order of effects -/

/-- Tasks done in order, up to the first that fails. -/
inductive InOrder {α β : Type} (task : α → List Effect → Except Fault β → Prop) :
    List α → List Effect → Except Fault (List β) → Prop where
  | nil : InOrder task [] [] (.ok [])
  | stop {a : α} {rest : List α} {effects : List Effect} {fault : Fault}
      (h : task a effects (.error fault)) : InOrder task (a :: rest) effects (.error fault)
  | next {a : α} {rest : List α} {effects more : List Effect} {b : β}
      {result : Except Fault (List β)} (h : task a effects (.ok b))
      (hr : InOrder task rest more result) :
      InOrder task (a :: rest) (effects ++ more) (result.map (b :: ·))

theorem InOrder.forall_mem {α β : Type} {task : α → List Effect → Except Fault β → Prop}
    {P : Effect → Prop} {items : List α} {effects : List Effect} {result : Except Fault (List β)}
    (h : InOrder task items effects result)
    (ht : ∀ a ∈ items, ∀ effects result, task a effects result → ∀ effect ∈ effects, P effect) :
    ∀ effect ∈ effects, P effect := by
  induction h with
  | nil => exact List.forall_mem_nil _
  | stop h => exact ht _ (List.mem_cons_self ..) _ _ h
  | next h _ ih =>
    exact List.forall_mem_append.2 ⟨ht _ (List.mem_cons_self ..) _ _ h,
      ih fun b hb => ht b (List.mem_cons_of_mem _ hb)⟩

/-- A selection applies its predicate to a row and keeps the row if the answer is true. -/
inductive Selects (predicate : Callback) (row : Value) :
    List Effect → Except Fault (List Value) → Prop where
  | apply (reply : Except Fault Value) : Selects predicate row [.applied predicate [row] reply]
      (reply.map fun verdict => if verdict.truthy then [row] else [])

/-- A projection applies its mapper to a row and gives the answer. -/
inductive Maps (mapper : Callback) (row : Value) : List Effect → Except Fault Value → Prop where
  | apply (reply : Except Fault Value) : Maps mapper row [.applied mapper [row] reply] reply

/-- A join applies its predicate to a pair of rows and, directly after and only if the answer is true,
its mapper. -/
inductive Pairs (predicate mapper : Callback) (pair : Value × Value) :
    List Effect → Except Fault (List Value) → Prop where
  | fail (fault : Fault) :
      Pairs predicate mapper pair [.applied predicate [pair.1, pair.2] (.error fault)] (.error fault)
  | pass {verdict : Value} (h : verdict.truthy = false) :
      Pairs predicate mapper pair [.applied predicate [pair.1, pair.2] (.ok verdict)] (.ok [])
  | map {verdict : Value} (h : verdict.truthy = true) (reply : Except Fault Value) :
      Pairs predicate mapper pair [.applied predicate [pair.1, pair.2] (.ok verdict),
        .applied mapper [pair.1, pair.2] reply] (reply.map fun image => [image])

namespace Expr

/-- The own work of a node on the rows of its sides. A join visits each pair of a left and a right row
once, the left row changing last. -/
inductive Works : Expr → List (List Value) → List Effect → Except Fault (List Value) → Prop where
  | bare (serial : Nat) : Works (.bare serial) [] [.refused serial] (.error .notImplemented)
  | terminal (rows : List Value) : Works (.terminal rows) [] [] (.ok rows)
  | selection {child : Expr} {predicate : Callback} {rows : List Value} {effects : List Effect}
      {result : Except Fault (List (List Value))}
      (h : InOrder (Selects predicate) rows effects result) :
      Works (.selection child predicate) [rows] effects (result.map List.flatten)
  | projection {child : Expr} {mapper : Callback} {rows : List Value} {effects : List Effect}
      {result : Except Fault (List Value)} (h : InOrder (Maps mapper) rows effects result) :
      Works (.projection child mapper) [rows] effects result
  | join {left right : Expr} {predicate mapper : Callback} {lefts rights : List Value}
      {effects : List Effect} {result : Except Fault (List (List Value))}
      (h : InOrder (Pairs predicate mapper) (lefts ×ˢ rights) effects result) :
      Works (.join left right predicate mapper) [lefts, rights] effects (result.map List.flatten)
  | product {left right : Expr} {mapper : Callback} {lefts rights : List Value}
      {effects : List Effect} {result : Except Fault (List (List Value))}
      (h : InOrder (Pairs .always mapper) (lefts ×ˢ rights) effects result) :
      Works (.product left right mapper) [lefts, rights] effects (result.map List.flatten)
  | union {left right : Expr} {lefts rights : List Value} (reply : Except Fault Unit) :
      Works (.union left right) [lefts, rights] [.compared .union lefts rights reply]
        (reply.map fun _ => lefts ++ rights)
  | filter {kind : FilterKind} {left right : Expr} {strategy : Strategy} {lefts rights : List Value}
      (reply : Except Fault Unit) :
      Works (.filter kind left right strategy) [lefts, rights]
        [.compared (.filter kind) lefts rights reply]
        (reply.map fun _ => lefts.filter fun row => occurs row rights == kind.keepsMatches)

end Expr

/-- The messages of a node that is done: a selection tells how many rows it kept, a join and a product
the numbers of left rows, right rows and produced rows, a filter by set that it had to scan. -/
def Visit.messages : Visit → List Event
  | ⟨.selection _ _, _, output⟩ => [.kept output.length]
  | ⟨.join _ _ _ _, [lefts, rights], output⟩ =>
    [.joined lefts.length rights.length output.length]
  | ⟨.product _ _ _, [lefts, rights], output⟩ =>
    [.joined lefts.length rights.length output.length]
  | ⟨.filter kind _ _ .hash, [lefts, rights], _⟩ =>
    if (lefts ++ rights).any (!·.hashable) then [.rescanned kind] else []
  | _ => []

namespace Expr

/-- The own work of a node and, if that succeeds, its messages and its end. -/
inductive Completes (e : Expr) (inputs : List (List Value)) :
    List Effect → Except Fault (List Value) → Prop where
  | fail {effects : List Effect} {fault : Fault} (h : e.Works inputs effects (.error fault)) :
      Completes e inputs effects (.error fault)
  | done {effects : List Effect} {output : List Value} (h : e.Works inputs effects (.ok output)) :
      Completes e inputs
        (effects ++ ((Visit.mk e inputs output).messages.map .noted ++ [.finished ⟨e, inputs, output⟩]))
        (.ok output)

/-- The effects of the evaluation of a tree: those of its sides in order, then those of its root. -/
inductive Traces : Expr → List Effect → Except Fault (List Value) → Prop where
  | stop {e : Expr} {effects : List Effect} {fault : Fault}
      (h : InOrder Traces e.sides effects (.error fault)) : Traces e effects (.error fault)
  | root {e : Expr} {effects more : List Effect} {inputs : List (List Value)}
      {result : Except Fault (List Value)} (h : InOrder Traces e.sides effects (.ok inputs))
      (hr : e.Completes inputs more result) : Traces e (effects ++ more) result

end Expr

/-! ## Carrying effects out -/

theorem Performed.append {store mid last : Store} {effects more : List Effect}
    {log log' : List Event} (h : Performed store effects log mid)
    (h' : Performed mid more log' last) :
    Performed store (effects ++ more) (log ++ log') last := by
  induction h with
  | nil store => exact h'
  | cons genuine _ ih =>
    rw [List.append_assoc]
    exact .cons genuine (ih h')

theorem Performed.split {store last : Store} {effects more : List Effect} {log : List Event}
    (h : Performed store (effects ++ more) log last) :
    ∃ first mid rest, Performed store effects first mid ∧ Performed mid more rest last ∧
      log = first ++ rest := by
  induction effects generalizing store log with
  | nil => exact ⟨[], store, log, .nil store, h, rfl⟩
  | cons effect effects ih =>
    cases h with
    | cons genuine rest =>
      obtain ⟨first, mid, tail, h1, h2, rfl⟩ := ih rest
      exact ⟨_, mid, tail, .cons genuine h1, h2, (List.append_assoc ..).symm⟩

/-- Effects lead from a store to one log and one store. -/
theorem Performed.unique {store last last' : Store} {effects : List Effect} {log log' : List Event}
    (h : Performed store effects log last) (h' : Performed store effects log' last') :
    log = log' ∧ last = last' := by
  induction h generalizing log' with
  | nil store =>
    cases h'
    exact ⟨rfl, rfl⟩
  | cons _ _ ih =>
    cases h' with
    | cons _ rest =>
      obtain ⟨hl, hs⟩ := ih rest
      exact ⟨by rw [hl], hs⟩

/-- A single effect. -/
theorem performed_one {store : Store} (effect : Effect) (genuine : effect.Genuine store) :
    Performed store [effect] (effect.events store) (effect.after store) := by
  have h := Performed.cons genuine (.nil _)
  rwa [List.append_nil] at h

/-- Messages are logged as they stand, and nothing else comes of them. -/
theorem performed_messages (store : Store) (messages : List Event) (visit : Visit) :
    Performed store (messages.map .noted ++ [.finished visit]) messages store := by
  induction messages with
  | nil => exact performed_one (.finished visit) trivial
  | cons message messages ih => exact (performed_one (.noted message) trivial).append ih

namespace Run

variable {α β : Type}

/-- The run carries out effects that a specification of effects and results allows. -/
def Performs (run : Eval α) (spec : List Effect → Except Fault α → Prop) : Prop :=
  ∀ store, ∃ effects, spec effects (run store).result ∧
    Performed store effects (run store).log (run store).store

theorem Performs.mono {run : Eval α} {spec spec' : List Effect → Except Fault α → Prop}
    (h : run.Performs spec) (hs : ∀ effects result, spec effects result → spec' effects result) :
    run.Performs spec' := by
  intro store
  obtain ⟨effects, h1, h2⟩ := h store
  exact ⟨effects, hs _ _ h1, h2⟩

/-- A run whose effects are specified, and then another that depends on its answer. -/
inductive Then (spec : List Effect → Except Fault α → Prop)
    (spec' : α → List Effect → Except Fault β → Prop) : List Effect → Except Fault β → Prop where
  | stop {effects : List Effect} {fault : Fault} (h : spec effects (.error fault)) :
      Then spec spec' effects (.error fault)
  | next {effects more : List Effect} {a : α} {result : Except Fault β} (h : spec effects (.ok a))
      (hn : spec' a more result) : Then spec spec' (effects ++ more) result

theorem Performs.bind {run : Eval α} {next : α → Eval β}
    {spec : List Effect → Except Fault α → Prop} {spec' : α → List Effect → Except Fault β → Prop}
    (h : run.Performs spec) (hn : ∀ a, (next a).Performs (spec' a)) :
    Performs (run >>= next) (Then spec spec') := by
  intro store
  obtain ⟨effects, h1, h2⟩ := h store
  rcases ho : run store with ⟨fault | a, log, after⟩
  · rw [ho] at h1 h2
    rw [bind_error ho]
    exact ⟨effects, .stop h1, h2⟩
  · rw [ho] at h1 h2
    rw [bind_ok ho]
    obtain ⟨more, h3, h4⟩ := hn a after
    exact ⟨effects ++ more, .next h1 h3, h2.append h4⟩

theorem performs_pure (a : α) :
    Performs (pure a) fun effects result => effects = [] ∧ result = .ok a :=
  fun store => ⟨[], ⟨rfl, rfl⟩, .nil store⟩

/-- A run and then a value made of its answer. -/
theorem Performs.map {run : Eval α} {spec : List Effect → Except Fault α → Prop}
    (h : run.Performs spec) (f : α → β) :
    Performs (do let a ← run; return f a) fun effects result =>
      ∃ answer, spec effects answer ∧ result = answer.map f := by
  refine (h.bind fun a => performs_pure (f a)).mono fun effects result ht => ?_
  cases ht with
  | stop h => exact ⟨_, h, rfl⟩
  | next h hn =>
    obtain ⟨rfl, rfl⟩ := hn
    rw [List.append_nil]
    exact ⟨_, h, rfl⟩

end Run

theorem performs_call (f : Callback) (rows : List Value) :
    (f.call rows).Performs fun effects result => effects = [.applied f rows result] := by
  intro store
  have h : Effect.Genuine store (.applied f rows (f.call rows store).result) := rfl
  exact ⟨_, rfl, performed_one _ h⟩

/-! ## Every evaluation performs its effects -/

theorem mapM_performs {α β : Type} {each : α → Eval β} {task : α → List Effect → Except Fault β → Prop}
    (h : ∀ a, (each a).Performs (task a)) : ∀ items : List α,
      (items.mapM each).Performs (InOrder task items)
  | [] => by
    rw [List.mapM_nil]
    refine (Run.performs_pure []).mono fun effects result h => ?_
    obtain ⟨rfl, rfl⟩ := h
    exact .nil
  | a :: items => by
    rw [List.mapM_cons]
    refine ((h a).bind fun b => (mapM_performs h items).map _).mono fun effects result ht => ?_
    cases ht with
    | stop h => exact .stop h
    | next h hn =>
      obtain ⟨rest, hr, rfl⟩ := hn
      exact .next h hr

theorem walk_performs {α : Type} {each : α → Eval (List Value)}
    {task : α → List Effect → Except Fault (List Value) → Prop}
    (h : ∀ a, (each a).Performs (task a)) (items : List α) :
    (walk each items).Performs fun effects result =>
      ∃ parts, InOrder task items effects parts ∧ result = parts.map List.flatten :=
  (mapM_performs h items).map List.flatten

theorem selectOne_performs (predicate : Callback) (row : Value) :
    (selectOne predicate row).Performs (Selects predicate row) := by
  refine ((performs_call predicate [row]).map _).mono fun effects result h => ?_
  obtain ⟨reply, rfl, rfl⟩ := h
  exact .apply reply

theorem mapOne_performs (mapper : Callback) (row : Value) :
    (mapper.call [row]).Performs (Maps mapper row) := by
  refine (performs_call mapper [row]).mono fun effects result h => ?_
  rw [h]
  exact .apply result

theorem joinOne_performs (predicate mapper : Callback) (pair : Value × Value) :
    (joinOne predicate mapper pair).Performs (Pairs predicate mapper pair) := by
  intro store
  obtain ⟨effects, rfl, hp⟩ := performs_call predicate [pair.1, pair.2] store
  rcases ho : predicate.call [pair.1, pair.2] store with ⟨fault | verdict, log, mid⟩
  · rw [ho] at hp
    rw [joinOne, Run.bind_error ho]
    exact ⟨_, .fail fault, hp⟩
  · rw [ho] at hp
    rw [joinOne, Run.bind_ok ho]
    -- the verdict decides whether there is a second effect
    cases ht : verdict.truthy with
    | false =>
      have h := hp.append (.nil mid)
      rw [List.append_nil] at h
      exact ⟨_, .pass ht, h⟩
    | true =>
      obtain ⟨more, ⟨reply, rfl, hr⟩, hq⟩ :=
        ((performs_call mapper [pair.1, pair.2]).map fun image => [image]) mid
      refine ⟨_, ?_, hp.append hq⟩
      rw [if_pos rfl, hr]
      exact .map ht reply

/-- A node that does its own work, logs its messages and gives the rows of its work. -/
theorem completes_performs {e : Expr} {inputs : List (List Value)} {work : Eval (List Value)}
    {finish : List Value → Eval (List Value)} (h : work.Performs (e.Works inputs))
    (hf : ∀ output store,
      finish output store = ⟨.ok output, (Visit.mk e inputs output).messages, store⟩) :
    (work >>= finish).Performs (e.Completes inputs) := by
  intro store
  obtain ⟨effects, h1, h2⟩ := h store
  rcases ho : work store with ⟨fault | output, log, after⟩
  · rw [ho] at h1 h2
    rw [Run.bind_error ho]
    exact ⟨effects, .fail h1, h2⟩
  · rw [ho] at h1 h2
    rw [Run.bind_ok ho, hf]
    exact ⟨_, .done h1, h2.append (performed_messages after _ _)⟩

/-- The messages of a filter are those of its strategy. -/
theorem occurrences_apply (kind : FilterKind) (left right : Expr) (strategy : Strategy)
    (lefts rights output : List Value) (store : Store) :
    occurrences kind strategy lefts rights store =
      ⟨.ok (occurrencesByScan lefts rights),
        (Visit.mk (.filter kind left right strategy) [lefts, rights] output).messages, store⟩ := by
  cases strategy with
  | scan => rfl
  | hash =>
    rw [occurrences, occurrencesBySet_eq, Visit.messages]
    cases h : (lefts ++ rights).all Value.hashable with
    | false =>
      have hany : (lefts ++ rights).any (!·.hashable) = true := by
        rw [← List.not_all_eq_any_not, h]; rfl
      rw [hany]; rfl
    | true =>
      have hany : (lefts ++ rights).any (!·.hashable) = false := by
        rw [← List.not_all_eq_any_not, h]; rfl
      rw [hany]; rfl

theorem comparison_performs (operator : Operator) (lefts rights : List Value) :
    Run.Performs (Run.ofExcept (requireSharedShape operator lefts rights)) fun effects result =>
      effects = [.compared operator lefts rights result] :=
  fun _ => ⟨_, rfl, performed_one (.compared operator lefts rights _) rfl⟩

/-- A filter compares the shapes, and then only looks its rows up. -/
theorem filter_eq_work (kind : FilterKind) (strategy : Strategy) (lefts rights : List Value) :
    (do
      requireSharedShape (.filter kind) lefts rights
      let hits ← occurrences kind strategy lefts rights
      return keepHits kind.keepsMatches lefts hits : Eval (List Value)) =
    (do
      let rows ← (do
        requireSharedShape (.filter kind) lefts rights
        return lefts.filter fun row => occurs row rights == kind.keepsMatches)
      let _ ← occurrences kind strategy lefts rights
      return rows) := by
  rw [bind_assoc]
  refine bind_congr fun _ => ?_
  rw [pure_bind]
  funext store
  -- any two sides will do: what a filter finds and says is up to its rows
  have ho := occurrences_apply kind (.bare 0) (.bare 0) strategy lefts rights [] store
  rw [Run.bind_ok ho, Run.bind_ok ho, keepHits_scan]

theorem Expr.performs_one {e child : Expr} (hs : e.sides = [child])
    (hc : child.eval.Performs child.Traces) {next : List Value → Eval (List Value)}
    (hn : ∀ rows, (next rows).Performs (e.Completes [rows])) :
    (child.eval >>= next).Performs e.Traces := by
  refine (hc.bind hn).mono fun effects result h => ?_
  cases h with
  | stop h => exact .stop (hs ▸ .stop h)
  | next h hn =>
    have hi := InOrder.next h .nil
    rw [List.append_nil] at hi
    exact .root (hs ▸ hi) hn

theorem Expr.performs_two {e left right : Expr} (hs : e.sides = [left, right])
    (hl : left.eval.Performs left.Traces) (hr : right.eval.Performs right.Traces)
    {next : List Value → List Value → Eval (List Value)}
    (hn : ∀ lefts rights, (next lefts rights).Performs (e.Completes [lefts, rights])) :
    Run.Performs (do let lefts ← left.eval; let rights ← right.eval; next lefts rights)
      e.Traces := by
  refine (hl.bind fun lefts => hr.bind (hn lefts)).mono fun effects result h => ?_
  cases h with
  | stop h => exact .stop (hs ▸ .stop h)
  | next h hn =>
    cases hn with
    | stop h' => exact .stop (hs ▸ .next h (.stop h'))
    | next h' hn =>
      -- the effects of the left side and those of the right side are those of the list of sides
      have hi := InOrder.next h (InOrder.next h' .nil)
      rw [List.append_nil] at hi
      rw [← List.append_assoc]
      exact .root (hs ▸ hi) hn

/-- Every evaluation performs effects in the order of its tree. -/
theorem Expr.eval_performs : ∀ e : Expr, e.eval.Performs e.Traces
  | .terminal rows => fun store =>
    ⟨_, .root .nil (.done (.terminal rows)), performed_messages store [] _⟩
  | .bare serial => fun store =>
    ⟨_, .root .nil (.fail (.bare serial)), performed_one (.refused serial) trivial⟩
  | .selection child predicate => by
    rw [eval_selection]
    refine performs_one rfl child.eval_performs fun rows => ?_
    refine completes_performs ?_ fun output store => rfl
    rw [keepWhere_eq_walk]
    refine (walk_performs (selectOne_performs predicate) rows).mono fun effects result h => ?_
    obtain ⟨parts, hp, rfl⟩ := h
    exact .selection hp
  | .projection child mapper => by
    rw [eval_projection]
    refine performs_one rfl child.eval_performs fun rows => ?_
    rw [mapRows_eq_mapM, ← bind_pure (List.mapM _ rows)]
    refine completes_performs ?_ fun output store => rfl
    exact (mapM_performs (mapOne_performs mapper) rows).mono fun effects result h => .projection h
  | .join left right predicate mapper => by
    rw [eval_join]
    refine performs_two rfl left.eval_performs right.eval_performs fun lefts rights => ?_
    refine completes_performs ?_ fun output store => rfl
    rw [joinRows_eq_walk]
    refine (walk_performs (joinOne_performs predicate mapper) _).mono fun effects result h => ?_
    obtain ⟨parts, hp, rfl⟩ := h
    exact .join hp
  | .product left right mapper => by
    rw [eval_product, eval_join]
    refine performs_two rfl left.eval_performs right.eval_performs fun lefts rights => ?_
    refine completes_performs ?_ fun output store => rfl
    rw [joinRows_eq_walk]
    refine (walk_performs (joinOne_performs .always mapper) _).mono fun effects result h => ?_
    obtain ⟨parts, hp, rfl⟩ := h
    exact .product hp
  | .union left right => by
    rw [eval_union]
    refine performs_two rfl left.eval_performs right.eval_performs fun lefts rights => ?_
    rw [← bind_pure (_ >>= _)]
    refine completes_performs ?_ fun output store => rfl
    refine ((comparison_performs .union lefts rights).map _).mono fun effects result h => ?_
    obtain ⟨reply, rfl, rfl⟩ := h
    exact .union reply
  | .filter kind left right strategy => by
    rw [eval_filter]
    refine performs_two rfl left.eval_performs right.eval_performs fun lefts rights => ?_
    rw [filter_eq_work]
    -- what is left of the search for occurrences is its message, which ends the node
    refine completes_performs ?_ fun output store => ?_
    · refine ((comparison_performs (.filter kind) lefts rights).map _).mono fun effects result h => ?_
      obtain ⟨reply, rfl, rfl⟩ := h
      exact .filter reply
    · rw [Run.bind_ok (occurrences_apply kind left right strategy lefts rights output store)]
      rw [Run.pure_apply, List.append_nil]

end BagAlgebra
