/-
The order of an evaluation seen from its tree. An evaluation that succeeds ends every node once, each
after its sides, so the messages that it logs are those of the nodes in post-order. One that fails has
ended the nodes before the failing one in that order and no other, and the failing effect is its last.
-/
import BagAlgebra.Proofs.Callback.Quiet
import BagAlgebra.Proofs.Eval.Determined

namespace BagAlgebra

/-- The visits that effects end, in order. -/
def visits (effects : List Effect) : List Visit := effects.filterMap Effect.visit?

/-- The messages that effects log, in order. -/
def messages (effects : List Effect) : List Event := effects.filterMap Effect.message?

theorem visits_append (effects more : List Effect) :
    visits (effects ++ more) = visits effects ++ visits more := List.filterMap_append

theorem messages_append (effects more : List Effect) :
    messages (effects ++ more) = messages effects ++ messages more := List.filterMap_append

/-! ## Where effects fail -/

/-- Effects go with a result: none of them fails if it is a success, and otherwise the last one fails
with its fault, and no other. -/
def EndIn {α : Type} (effects : List Effect) : Except Fault α → Prop
  | .ok _ => ∀ effect ∈ effects, effect.fault? = none
  | .error fault => ∃ done last, effects = done ++ [last] ∧ (∀ effect ∈ done, effect.fault? = none) ∧
      last.fault? = some fault

theorem EndIn.map {α β : Type} {effects : List Effect} {result : Except Fault α}
    (h : EndIn effects result) (f : α → β) : EndIn effects (result.map f) := by
  cases result with
  | ok a => exact h
  | error fault => exact h

theorem EndIn.append {α : Type} {effects more : List Effect} {result : Except Fault α}
    (h : ∀ effect ∈ effects, effect.fault? = none) (h' : EndIn more result) :
    EndIn (effects ++ more) result := by
  cases result with
  | ok a =>
    intro effect he
    rcases List.mem_append.1 he with he | he
    · exact h effect he
    · exact h' effect he
  | error fault =>
    obtain ⟨done, last, rfl, hd, hl⟩ := h'
    refine ⟨effects ++ done, last, (List.append_assoc ..).symm, fun effect he => ?_, hl⟩
    rcases List.mem_append.1 he with he | he
    · exact h effect he
    · exact hd effect he

/-- A failing effect on its own. -/
theorem endIn_error {α : Type} {effect : Effect} {fault : Fault} (h : effect.fault? = some fault) :
    EndIn [effect] (.error fault : Except Fault α) :=
  ⟨[], effect, rfl, List.forall_mem_nil _, h⟩

/-- A single effect ends in what it replies. -/
theorem endIn_single {α : Type} {effect : Effect} (reply : Except Fault α)
    (h : effect.fault? = match reply with
      | .ok _ => none
      | .error fault => some fault) : EndIn [effect] reply := by
  cases reply with
  | ok a => exact List.forall_mem_singleton.2 h
  | error fault => exact endIn_error h

theorem InOrder.endIn {α β : Type} {task : α → List Effect → Except Fault β → Prop} {items : List α}
    {effects : List Effect} {result : Except Fault (List β)} (h : InOrder task items effects result)
    (ht : ∀ a ∈ items, ∀ effects result, task a effects result → EndIn effects result) :
    EndIn effects result := by
  induction h with
  | nil => exact fun _ he => by cases he
  | @stop a rest effects fault h =>
    -- a failed task answers with nothing, and so does the whole
    have hf : EndIn effects (.error fault : Except Fault β) := ht a (List.mem_cons_self ..) _ _ h
    exact hf
  | next h _ ih =>
    have ha := ht _ (List.mem_cons_self ..) _ _ h
    exact (EndIn.append ha (ih fun b hb => ht b (List.mem_cons_of_mem _ hb))).map _

theorem selects_endIn {predicate : Callback} {row : Value} {effects : List Effect}
    {result : Except Fault (List Value)} (h : Selects predicate row effects result) :
    EndIn effects result := by
  cases h with
  | apply reply => exact (endIn_single reply (by cases reply <;> rfl)).map _

theorem maps_endIn {mapper : Callback} {row : Value} {effects : List Effect}
    {result : Except Fault Value} (h : Maps mapper row effects result) : EndIn effects result := by
  cases h with
  | apply => exact endIn_single result (by cases result <;> rfl)

theorem pairs_endIn {predicate mapper : Callback} {pair : Value × Value} {effects : List Effect}
    {result : Except Fault (List Value)} (h : Pairs predicate mapper pair effects result) :
    EndIn effects result := by
  cases h with
  | fail fault => exact endIn_error rfl
  | pass => exact List.forall_mem_singleton.2 rfl
  | @map verdict _ reply =>
    have hf : ∀ effect ∈ [Effect.applied predicate [pair.1, pair.2] (.ok verdict)],
        effect.fault? = none :=
      List.forall_mem_singleton.2 rfl
    exact EndIn.append hf ((endIn_single reply (by cases reply <;> rfl)).map _)

theorem Expr.Works.endIn {e : Expr} {inputs : List (List Value)} {effects : List Effect}
    {result : Except Fault (List Value)} (h : e.Works inputs effects result) :
    EndIn effects result := by
  cases h with
  | bare serial => exact endIn_error rfl
  | terminal rows => exact fun _ he => by cases he
  | selection h => exact (h.endIn fun _ _ _ _ h => selects_endIn h).map _
  | projection h => exact h.endIn fun _ _ _ _ h => maps_endIn h
  | join h => exact (h.endIn fun _ _ _ _ h => pairs_endIn h).map _
  | product h => exact (h.endIn fun _ _ _ _ h => pairs_endIn h).map _
  | union reply => exact (endIn_single reply (by cases reply <;> rfl)).map _
  | filter reply => exact (endIn_single reply (by cases reply <;> rfl)).map _

theorem Expr.Completes.endIn {e : Expr} {inputs : List (List Value)} {effects : List Effect}
    {result : Except Fault (List Value)} (h : e.Completes inputs effects result) :
    EndIn effects result := by
  cases h with
  | fail h => exact h.endIn
  | done h =>
    refine EndIn.append h.endIn fun effect he => ?_
    rcases List.mem_append.1 he with he | he
    · obtain ⟨event, _, rfl⟩ := List.mem_map.1 he
      rfl
    · rw [List.mem_singleton.1 he]; rfl

/-- An evaluation that succeeds has no failing effect, and one that fails has one, its last. -/
theorem Expr.Traces.endIn (e : Expr) : ∀ effects result, e.Traces effects result →
    EndIn effects result := by
  induction e using Expr.sides_induction with
  | h e ih =>
    intro effects result h
    cases h with
    | stop h => exact h.endIn ih
    | root h hr => exact EndIn.append (h.endIn ih) hr.endIn

/-! ## The order of nodes -/

/-- Effects that end no node and log no message. -/
def Silent (effects : List Effect) : Prop :=
  ∀ effect ∈ effects, effect.visit? = none ∧ effect.message? = none

theorem Silent.visits {effects : List Effect} (h : Silent effects) : visits effects = [] :=
  List.filterMap_eq_nil_iff.2 fun effect he => (h effect he).1

theorem Silent.messages {effects : List Effect} (h : Silent effects) : messages effects = [] :=
  List.filterMap_eq_nil_iff.2 fun effect he => (h effect he).2

/-- The own work of a node ends no node and logs no message. -/
theorem Expr.Works.silent {e : Expr} {inputs : List (List Value)} {effects : List Effect}
    {result : Except Fault (List Value)} (h : e.Works inputs effects result) : Silent effects := by
  have one : ∀ {effect : Effect}, effect.visit? = none → effect.message? = none → Silent [effect] :=
    fun hv hm => List.forall_mem_singleton.2 ⟨hv, hm⟩
  have pairs : ∀ (predicate mapper : Callback) (pair : Value × Value) effects result,
      Pairs predicate mapper pair effects result → Silent effects := by
    intro predicate mapper pair effects result h
    cases h with
    | fail fault => exact one rfl rfl
    | pass => exact one rfl rfl
    | map => exact List.forall_mem_cons.2 ⟨⟨rfl, rfl⟩, one rfl rfl⟩
  cases h with
  | bare serial => exact one rfl rfl
  | terminal rows => exact List.forall_mem_nil _
  | selection h => exact h.forall_mem fun _ _ _ _ ⟨_⟩ => one rfl rfl
  | projection h => exact h.forall_mem fun _ _ _ _ ⟨_⟩ => one rfl rfl
  | join h => exact h.forall_mem fun _ _ => pairs _ _ _
  | product h => exact h.forall_mem fun _ _ => pairs _ _ _
  | union reply => exact one rfl rfl
  | filter reply => exact one rfl rfl

/-- The messages that effects log are those of the visits they end. -/
def Reported (effects : List Effect) : Prop :=
  messages effects = (visits effects).flatMap Visit.messages

theorem Silent.reported {effects : List Effect} (h : Silent effects) : Reported effects := by
  rw [Reported, h.messages, h.visits]; rfl

theorem Reported.append {effects more : List Effect} (h : Reported effects) (h' : Reported more) :
    Reported (effects ++ more) := by
  rw [Reported, messages_append, visits_append, List.flatMap_append, h, h']

theorem visits_end (noted : List Event) (visit : Visit) :
    visits (noted.map .noted ++ [.finished visit]) = [visit] := by
  induction noted with
  | nil => rfl
  | cons event noted ih => exact ih

theorem messages_end (noted : List Event) (visit : Visit) :
    messages (noted.map .noted ++ [.finished visit]) = noted := by
  induction noted with
  | nil => rfl
  | cons event noted ih => exact congrArg (event :: ·) ih

theorem Expr.Completes.reported {e : Expr} {inputs : List (List Value)} {effects : List Effect}
    {result : Except Fault (List Value)} (h : e.Completes inputs effects result) :
    Reported effects := by
  cases h with
  | fail h => exact h.silent.reported
  | done h =>
    refine h.silent.reported.append ?_
    rw [Reported, visits_end, messages_end, List.flatMap_singleton]

theorem InOrder.reported {α β : Type} {task : α → List Effect → Except Fault β → Prop}
    {items : List α} {effects : List Effect} {result : Except Fault (List β)}
    (h : InOrder task items effects result)
    (ht : ∀ a ∈ items, ∀ effects result, task a effects result → Reported effects) :
    Reported effects := by
  induction h with
  | nil => rfl
  | stop h => exact ht _ (List.mem_cons_self ..) _ _ h
  | next h _ ih =>
    exact (ht _ (List.mem_cons_self ..) _ _ h).append (ih fun b hb => ht b (List.mem_cons_of_mem _ hb))

theorem Expr.Traces.reported (e : Expr) : ∀ effects result, e.Traces effects result →
    Reported effects := by
  induction e using Expr.sides_induction with
  | h e ih =>
    intro effects result h
    cases h with
    | stop h => exact h.reported ih
    | root h hr => exact (h.reported ih).append hr.reported

/-- Effects end the nodes of a list in order: all of them if the result is a success. Otherwise they end
those before some node, and no other, and the last of them are that node's own work up to its
failure. -/
def Covers {α : Type} (nodes : List Expr) (effects : List Effect) : Except Fault α → Prop
  | .ok _ => (visits effects).map Visit.node = nodes
  | .error fault => ∃ node rest before own inputs,
      nodes = (visits effects).map Visit.node ++ node :: rest ∧
        effects = before ++ own ∧ node.Works inputs own (.error fault)

theorem Covers.map {α β : Type} {nodes : List Expr} {effects : List Effect}
    {result : Except Fault α} (h : Covers nodes effects result) (f : α → β) :
    Covers nodes effects (result.map f) := by
  cases result with
  | ok a => exact h
  | error fault => exact h

/-- Nodes that come after a failure are not reached. -/
theorem Covers.extend {α β : Type} {nodes : List Expr} {effects : List Effect} {fault : Fault}
    (h : Covers nodes effects (.error fault : Except Fault α)) (more : List Expr) :
    Covers (nodes ++ more) effects (.error fault : Except Fault β) := by
  obtain ⟨node, rest, before, own, inputs, rfl, h⟩ := h
  exact ⟨node, rest ++ more, before, own, inputs, by rw [List.append_assoc, List.cons_append], h⟩

theorem Covers.append {α : Type} {nodes more : List Expr} {effects rest : List Effect}
    {result : Except Fault α} (h : (visits effects).map Visit.node = nodes)
    (h' : Covers more rest result) : Covers (nodes ++ more) (effects ++ rest) result := by
  subst h
  cases result with
  | ok a =>
    have h' : (visits rest).map Visit.node = more := h'
    show (visits (effects ++ rest)).map Visit.node = _
    rw [visits_append, List.map_append, h']
  | error fault =>
    obtain ⟨node, later, before, own, inputs, rfl, rfl, hw⟩ := h'
    refine ⟨node, later, effects ++ before, own, inputs, ?_, (List.append_assoc ..).symm, hw⟩
    rw [visits_append effects, List.map_append, List.append_assoc]

theorem Expr.Completes.covers {e : Expr} {inputs : List (List Value)} {effects : List Effect}
    {result : Except Fault (List Value)} (h : e.Completes inputs effects result) :
    Covers [e] effects result := by
  cases h with
  | fail h =>
    refine ⟨e, [], [], effects, inputs, ?_, rfl, h⟩
    rw [h.silent.visits]; rfl
  | @done own output h =>
    show (visits _).map Visit.node = [e]
    rw [visits_append, h.silent.visits, visits_end]; rfl

theorem InOrder.covers {α β : Type} {task : α → List Effect → Except Fault β → Prop} {items : List α}
    {effects : List Effect} {result : Except Fault (List β)} {nodes : α → List Expr}
    (h : InOrder task items effects result)
    (ht : ∀ a ∈ items, ∀ effects result, task a effects result → Covers (nodes a) effects result) :
    Covers (items.flatMap nodes) effects result := by
  induction h with
  | nil => rfl
  | stop h => exact (ht _ (List.mem_cons_self ..) _ _ h).extend _
  | next h _ ih =>
    have ha := ht _ (List.mem_cons_self ..) _ _ h
    exact (Covers.append ha (ih fun b hb => ht b (List.mem_cons_of_mem _ hb))).map _

/-- An evaluation ends the nodes of its tree in post-order, up to the one that fails. -/
theorem Expr.Traces.covers (e : Expr) : ∀ effects result, e.Traces effects result →
    Covers e.postorder effects result := by
  induction e using Expr.sides_induction with
  | h e ih =>
    intro effects result h
    rw [e.postorder_eq]
    cases h with
    | stop h => exact (h.covers ih).extend _
    | root h hr => exact Covers.append (h.covers ih) hr.covers

/-! ## The log -/

/-- What a node reports when it is done are messages. -/
theorem isSome_of_mem_messages {visit : Visit} {event : Event} (h : event ∈ visit.messages) :
    event.message?.isSome = true := by
  unfold Visit.messages at h
  split at h
  · rw [List.mem_singleton.1 h]; rfl
  · rw [List.mem_singleton.1 h]; rfl
  · rw [List.mem_singleton.1 h]; rfl
  · split at h
    · rw [List.mem_singleton.1 h]; rfl
    · cases h
  · cases h

/-- Of what is logged, the messages are those that nodes report: callbacks log none. -/
theorem Performed.messages_log {store last : Store} {effects : List Effect} {log : List Event}
    (h : Performed store effects log last)
    (hm : ∀ event ∈ messages effects, event.message?.isSome = true) :
    log.filter (·.message?.isSome) = messages effects := by
  induction h with
  | nil store => rfl
  | @cons store last effect effects log genuine rest ih =>
    have tail : ∀ event ∈ messages effects, event.message?.isSome = true := fun event he =>
      hm event (by
        rw [← List.singleton_append, messages_append]
        exact List.mem_append_right _ he)
    rw [List.filter_append, ih tail]
    cases effect with
    | applied f rows reply =>
      -- what a callback logs are traces
      have hq : (f.call rows store).log.filter (·.message?.isSome) = [] := by
        refine List.filter_eq_nil_iff.2 fun event he => ?_
        have ht : event.message? = none := call_logsOnly f rows store event he
        rw [ht]
        exact Bool.false_ne_true
      show (f.call rows store).log.filter _ ++ _ = _
      rw [hq]; rfl
    | compared operator lefts rights reply => rfl
    | refused serial => rfl
    | noted event =>
      have he : event.message?.isSome = true := hm event (List.mem_cons_self ..)
      show [event].filter _ ++ _ = event :: messages effects
      rw [List.filter_cons, he]; rfl
    | finished visit => rfl

/-- Every evaluation carries out one sequence of effects, in the order of its tree. It ends the nodes in
post-order and stops at the first effect that fails. The messages in its log are those of the nodes
that it ended, in the same order. -/
theorem eval_effects (e : Expr) (store : Store) :
    ∃ effects, e.Effects store effects ∧ (∀ effects', e.Effects store effects' → effects' = effects) ∧
      EndIn effects (e.eval store).result ∧ Covers e.postorder effects (e.eval store).result ∧
      (e.eval store).log.filter (·.message?.isSome) = (visits effects).flatMap Visit.messages := by
  obtain ⟨effects, h, unique⟩ := e.existsUnique_effects store
  refine ⟨effects, h, unique, h.traces.endIn, h.traces.covers, ?_⟩
  have hr : Reported effects := h.traces.reported
  rw [← hr]
  refine h.performed.messages_log fun event he => ?_
  rw [hr] at he
  obtain ⟨visit, _, hv⟩ := List.mem_flatMap.1 he
  exact isSome_of_mem_messages hv

end BagAlgebra
