/-
Two runs in step: from stores that correspond they both give results that correspond, or both fail
with the same fault, and what they log and leave in the store corresponds too. Runs put together from
parts in step are in step.
-/
import BagAlgebra.Run

namespace BagAlgebra

/-- Two results: values that correspond, or one fault. -/
inductive ResultsCorrespond {α β : Type} (R : α → β → Prop) :
    Except Fault α → Except Fault β → Prop where
  | ok {a : α} {b : β} (h : R a b) : ResultsCorrespond R (.ok a) (.ok b)
  | error (fault : Fault) : ResultsCorrespond R (.error fault) (.error fault)

theorem ResultsCorrespond.eq {α : Type} {r r' : Except Fault α}
    (h : ResultsCorrespond (fun a b => a = b) r r') : r = r' := by
  cases h with
  | ok h => rw [h]
  | error fault => rfl

theorem ResultsCorrespond.of_ok {α β : Type} {R : α → β → Prop} {r : Except Fault α}
    {r' : Except Fault β} (h : ResultsCorrespond R r r') {a : α} (ha : r = .ok a) :
    ∃ b, r' = .ok b ∧ R a b := by
  cases h with
  | ok h =>
    cases ha
    exact ⟨_, rfl, h⟩
  | error fault => cases ha

theorem ResultsCorrespond.of_error {α β : Type} {R : α → β → Prop} {r : Except Fault α}
    {r' : Except Fault β} (h : ResultsCorrespond R r r') {fault : Fault} (hf : r = .error fault) :
    r' = .error fault := by
  cases h with
  | ok h => cases hf
  | error fault =>
    cases hf
    rfl

theorem ResultsCorrespond.map {α β α' β' : Type} {R : α → β → Prop} {R' : α' → β' → Prop}
    {r : Except Fault α} {r' : Except Fault β} (h : ResultsCorrespond R r r') {f : α → α'} {f' : β → β'}
    (hf : ∀ a b, R a b → R' (f a) (f' b)) : ResultsCorrespond R' (r.map f) (r'.map f') := by
  cases h with
  | ok h => exact .ok (hf _ _ h)
  | error fault => exact .error fault

/-- What it is for stores and for logs to correspond. -/
structure Correspondence (ε : Type) where
  stores : Store → Store → Prop
  logs : List ε → List ε → Prop
  nil : logs [] []
  append : ∀ {l l' m m' : List ε}, logs l l' → logs m m' → logs (l ++ m) (l' ++ m')

namespace Run

variable {ε α β α' β' : Type} {C : Correspondence ε} {R : α → β → Prop} {R' : α' → β' → Prop}

/-- From corresponding stores, two runs end in corresponding ways. -/
def InStep (C : Correspondence ε) (R : α → β → Prop) (run : Run ε α) (run' : Run ε β) : Prop :=
  ∀ store store', C.stores store store' →
    ResultsCorrespond R (run store).result (run' store').result ∧
      C.logs (run store).log (run' store').log ∧ C.stores (run store).store (run' store').store

theorem InStep.bind {run : Run ε α} {run' : Run ε β} {next : α → Run ε α'} {next' : β → Run ε β'}
    (h : InStep C R run run') (hn : ∀ a b, R a b → InStep C R' (next a) (next' b)) :
    InStep C R' (run >>= next) (run' >>= next') := by
  intro store store' hs
  obtain ⟨hr, hl, ha⟩ := h store store' hs
  rcases ho : run store with ⟨result, log, after⟩
  rcases ho' : run' store' with ⟨result', log', after'⟩
  rw [ho, ho'] at hr hl ha
  cases hr with
  | ok hab =>
    rw [bind_ok ho, bind_ok ho']
    obtain ⟨hr2, hl2, ha2⟩ := hn _ _ hab after after' ha
    exact ⟨hr2, C.append hl hl2, ha2⟩
  | error fault =>
    rw [bind_error ho, bind_error ho']
    exact ⟨.error fault, hl, ha⟩

end Run

end BagAlgebra
