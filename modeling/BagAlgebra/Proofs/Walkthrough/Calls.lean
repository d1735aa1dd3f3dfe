/-
The calls that a run of a page makes: what they are for runs put together from parts, and when they are
nested, so that every block that is left is the innermost one that was entered, and none stays open.
-/
import BagAlgebra.Proofs.Run.Stable
import BagAlgebra.Walkthrough.Call
import Mathlib.Data.List.Forall2

namespace BagAlgebra

/-- The calls of a log, without the events of the engine. -/
def calls (log : List PageEvent) : List Call :=
  log.filterMap fun
    | .engine _ => none
    | .call part => some part

theorem calls_append (log log' : List PageEvent) : calls (log ++ log') = calls log ++ calls log' :=
  List.filterMap_append

theorem calls_engine (log : List Event) : calls (log.map .engine) = [] := by
  rw [calls, List.filterMap_map]
  exact List.filterMap_eq_nil_iff.2 fun _ _ => rfl

/-! ## Runs whose calls are known -/

namespace Render

variable {α β : Type}

/-- From every store the run has this result and makes these calls. -/
def Shows (run : Render α) (result : Except Fault α) (parts : List Call) : Prop :=
  ∀ store, (run store).result = result ∧ calls (run store).log = parts

theorem shows_pure (a : α) : Shows (pure a) (.ok a) [] := fun _ => ⟨rfl, rfl⟩

theorem shows_ofExcept (result : Except Fault α) : Shows (Run.ofExcept result) result [] :=
  fun _ => ⟨rfl, rfl⟩

theorem shows_call (part : Call) : Shows (Render.call part) (.ok ()) [part] := fun _ => ⟨rfl, rfl⟩

theorem shows_engine {run : Eval α} {result : Except Fault α} (h : run.Gives result) :
    Shows (Render.engine run) result [] := fun store => ⟨h store, calls_engine _⟩

/-- Two runs in a row, where what the first one gives may depend on the store. -/
theorem shows_bind {run : Render α} {next : α → Render β} {result : Except Fault β}
    {parts more : List Call} (h : ∀ store, ∃ a, (run store).result = .ok a ∧
      calls (run store).log = parts ∧ (next a).Shows result more) :
    Shows (run >>= next) result (parts ++ more) := by
  intro store
  obtain ⟨a, hr, hc, hn⟩ := h store
  rcases ho : run store with ⟨first, log, after⟩
  rw [ho] at hr hc
  have hr : first = .ok a := hr
  have hc : calls log = parts := hc
  subst hr
  rw [Run.bind_ok ho, calls_append, hc, (hn after).2]
  exact ⟨(hn after).1, rfl⟩

theorem Shows.bind {run : Render α} {next : α → Render β} {a : α} {result : Except Fault β}
    {parts more : List Call} (h : run.Shows (.ok a) parts) (hn : (next a).Shows result more) :
    Shows (run >>= next) result (parts ++ more) :=
  shows_bind fun store => ⟨a, (h store).1, (h store).2, hn⟩

theorem Shows.bind_error {run : Render α} {fault : Fault} {parts : List Call}
    (h : run.Shows (.error fault) parts) (next : α → Render β) :
    Shows (run >>= next) (.error fault) parts := by
  intro store
  obtain ⟨hr, hc⟩ := h store
  rcases ho : run store with ⟨first, log, after⟩
  rw [ho] at hr hc
  have hr : first = .error fault := hr
  subst hr
  rw [Run.bind_error ho]
  exact ⟨rfl, hc⟩

theorem Shows.attempt {run : Render α} {result : Except Fault α} {parts : List Call}
    (h : run.Shows result parts) : Shows run.attempt (.ok result) parts :=
  fun store => ⟨congrArg Except.ok (h store).1, (h store).2⟩

/-- A call and what comes after it. -/
theorem Shows.after {next : Unit → Render β} {result : Except Fault β} {more : List Call}
    (hn : (next ()).Shows result more) (part : Call) :
    Shows (Render.call part >>= next) result (part :: more) := (shows_call part).bind hn

end Render

/-- Calls inside a block. -/
def Block.around (block : Block) (parts : List Call) : List Call :=
  .enter block :: (parts ++ [.leave block])

namespace Render

variable {α β γ : Type}

/-- A block is left whatever the result of what is put into it. -/
theorem Shows.within {run : Render α} {result : Except Fault α} {parts : List Call}
    (h : run.Shows result parts) (block : Block) :
    Shows (Render.within block run) result (block.around parts) :=
  (h.attempt.bind ((shows_ofExcept result).after (.leave block))).after (.enter block)

/-- The calls that a loop makes, one item after the other. -/
theorem shows_forM {R : α → β → Prop} {f : α → Render Unit} {g : β → List Call} {as : List α}
    {bs : List β} (h : List.Forall₂ R as bs)
    (hf : ∀ a, ∀ b ∈ bs, R a b → (f a).Shows (.ok ()) (g b)) :
    Shows (as.forM f) (.ok ()) (bs.flatMap g) := by
  induction h with
  | nil => exact shows_pure ()
  | cons hab _ ih =>
    rw [List.flatMap_cons]
    exact (hf _ _ (List.mem_cons_self ..) hab).bind
      (ih fun a b hb => hf a b (List.mem_cons_of_mem _ hb))

end Render

/-! ## Nesting -/

/-- The blocks that are open after a call, the innermost first; only the innermost can be left. -/
def Call.step (opened : List Block) : Call → Option (List Block)
  | .enter block => some (block :: opened)
  | .leave block => if opened.head? = some block then some opened.tail else none
  | _ => some opened

/-- Every block that is left is the innermost open one, and in the end none is open. -/
def Nested (parts : List Call) : Prop := parts.foldlM Call.step [] = some []

/-- Blocks around those of the calls make no difference. -/
theorem foldlM_step_append {parts : List Call} {opened after : List Block}
    (h : parts.foldlM Call.step opened = some after) (outer : List Block) :
    parts.foldlM Call.step (opened ++ outer) = some (after ++ outer) := by
  induction parts generalizing opened with
  | nil =>
    cases h
    rfl
  | cons part parts ih =>
    rw [List.foldlM_cons] at h ⊢
    obtain ⟨next, hs, h⟩ := Option.bind_eq_some_iff.1 h
    have hstep : Call.step (opened ++ outer) part = some (next ++ outer) := by
      cases part with
      | enter block =>
        cases hs
        rfl
      | leave block =>
        rw [Call.step] at hs ⊢
        split at hs
        · rename_i hb
          cases hs
          obtain ⟨rest, rfl⟩ := List.head?_eq_some_iff.1 hb
          exact if_pos rfl
        · cases hs
      | _ =>
        cases hs
        rfl
    rw [hstep]
    exact ih h

theorem Nested.foldlM_step {parts : List Call} (h : Nested parts) (opened : List Block) :
    parts.foldlM Call.step opened = some opened := foldlM_step_append h opened

theorem nested_nil : Nested [] := rfl

theorem Nested.append {parts more : List Call} (h : Nested parts) (h' : Nested more) :
    Nested (parts ++ more) := by
  rw [Nested, List.foldlM_append, h.foldlM_step]
  exact h'

theorem Nested.cons {part : Call} {parts : List Call} (hp : part.step [] = some []) (h : Nested parts) :
    Nested (part :: parts) := by
  rw [Nested, List.foldlM_cons, hp]
  exact h

theorem Nested.around {parts : List Call} (h : Nested parts) (block : Block) :
    Nested (block.around parts) := by
  show (parts ++ [Call.leave block]).foldlM Call.step [block] = some []
  rw [List.foldlM_append, h.foldlM_step]
  show (Call.step [block] (.leave block) >>= fun opened => some opened) = some []
  rw [Call.step, if_pos (by rfl)]
  rfl

theorem nested_flatMap {α : Type} {g : α → List Call} {items : List α}
    (h : ∀ a ∈ items, Nested (g a)) : Nested (items.flatMap g) := by
  induction items with
  | nil => exact nested_nil
  | cons a items ih =>
    obtain ⟨ha, hs⟩ := List.forall_mem_cons.1 h
    rw [List.flatMap_cons]
    exact ha.append (ih hs)

/-! ## Notices -/

/-- Whether a call tells how a visit ends. -/
def Call.isNotice : Call → Bool
  | .success _ | .info _ | .error _ | .fault _ | .tabs _ => true
  | _ => false

def notices (parts : List Call) : List Call := parts.filter Call.isNotice

theorem notices_append (parts more : List Call) :
    notices (parts ++ more) = notices parts ++ notices more := List.filter_append ..

theorem notices_around (block : Block) (parts : List Call) :
    notices (block.around parts) = notices parts := by
  rw [Block.around, notices, List.filter_cons_of_neg Bool.false_ne_true, List.filter_append]
  exact List.append_nil _

theorem notices_flatMap {α : Type} {g : α → List Call} {items : List α}
    (h : ∀ a ∈ items, notices (g a) = []) : notices (items.flatMap g) = [] := by
  rw [notices, List.filter_flatMap, List.flatMap_eq_nil_iff]
  exact h

namespace Render

/-- The run comes to its end and makes nested calls, none of which is a notice. -/
def Quiet (run : Render Unit) : Prop :=
  ∃ parts, run.Shows (.ok ()) parts ∧ Nested parts ∧ notices parts = []

theorem quiet_call {part : Call} (hs : part.step [] = some []) (hn : part.isNotice = false) :
    Quiet (Render.call part) :=
  ⟨[part], shows_call part, nested_nil.cons hs, List.filter_cons_of_neg (by rw [hn]; decide)⟩

theorem Quiet.bind {run : Render Unit} {next : Unit → Render Unit} (h : run.Quiet)
    (hn : (next ()).Quiet) : Quiet (run >>= next) := by
  obtain ⟨parts, hr, hp, hq⟩ := h
  obtain ⟨more, hr', hp', hq'⟩ := hn
  refine ⟨parts ++ more, hr.bind hr', hp.append hp', ?_⟩
  rw [notices_append, hq, hq', List.append_nil]

theorem Quiet.within {run : Render Unit} (h : run.Quiet) (block : Block) :
    Quiet (Render.within block run) := by
  obtain ⟨parts, hr, hp, hq⟩ := h
  exact ⟨block.around parts, hr.within block, hp.around block, (notices_around block parts).trans hq⟩

theorem quiet_forM {α : Type} {f : α → Render Unit} {items : List α} (h : ∀ a ∈ items, (f a).Quiet) :
    Quiet (items.forM f) := by
  induction items with
  | nil => exact ⟨[], shows_pure (), nested_nil, rfl⟩
  | cons a items ih =>
    obtain ⟨ha, hs⟩ := List.forall_mem_cons.1 h
    exact ha.bind (ih hs)

end Render

end BagAlgebra
