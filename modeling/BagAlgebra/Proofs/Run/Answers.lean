/-
What lies behind an answer: a computation put together from parts gives one only if each part did.
-/
import BagAlgebra.Run

namespace BagAlgebra

variable {α β : Type}

theorem ok_bind (a : α) (next : α → Except Fault β) : ((Except.ok a) >>= next) = next a := rfl

theorem ok_of_bind {first : Except Fault α} {next : α → Except Fault β} {b : β}
    (h : (first >>= next) = .ok b) : ∃ a, first = .ok a ∧ next a = .ok b := by
  cases first with
  | error fault => cases h
  | ok a => exact ⟨a, rfl, h⟩

theorem error_of_bind {first : Except Fault α} {next : α → Except Fault β} {fault : Fault}
    (h : (first >>= next) = .error fault) :
    first = .error fault ∨ ∃ a, first = .ok a ∧ next a = .error fault := by
  cases first with
  | error fault =>
    cases h
    exact .inl rfl
  | ok a => exact .inr ⟨a, rfl, h⟩

theorem mapM_ok {f : α → Except Fault β} {g : α → β} {items : List α}
    (h : ∀ a ∈ items, f a = .ok (g a)) : items.mapM f = .ok (items.map g) := by
  induction items with
  | nil => rfl
  | cons a items ih =>
    obtain ⟨ha, hs⟩ := List.forall_mem_cons.1 h
    rw [List.mapM_cons, ha, ih hs]
    rfl

namespace Run

variable {ε : Type} {run : Run ε α} {next : α → Run ε β} {store : Store}

/-- The run gives this answer from some store. -/
def Answers (run : Run ε α) (a : α) : Prop := ∃ store, (run store).result = .ok a

theorem lift_ok (a : α) : (liftM (Except.ok a : Except Fault α) : Run ε α) = pure a := rfl

theorem Answers.of_bind {b : β} (h : (run >>= next).Answers b) :
    ∃ a, run.Answers a ∧ (next a).Answers b := by
  obtain ⟨store, h⟩ := h
  rcases ho : run store with ⟨fault | a, log, after⟩
  · rw [bind_error ho] at h
    cases h
  · rw [bind_ok ho] at h
    exact ⟨a, ⟨store, by rw [ho]⟩, after, h⟩

/-- The result of two runs in a row, the second from the store that the first leaves. -/
theorem result_then (run : Run ε α) (next : α → Run ε β) (store : Store) :
    ((run >>= next) store).result
      = (run store).result >>= fun a => (next a (run store).store).result := by
  rcases ho : run store with ⟨fault | a, log, after⟩
  · rw [bind_error ho]; rfl
  · rw [bind_ok ho]; rfl

theorem result_lift_then (first : Except Fault α) (next : α → Run ε β) (store : Store) :
    (((liftM first : Run ε α) >>= next) store).result
      = first >>= fun a => (next a store).result := by
  cases first <;> rfl

theorem store_then {run : Run ε α} {a : α} (h : (run store).result = .ok a) (next : α → Run ε β) :
    ((run >>= next) store).store = (next a (run store).store).store := by
  rcases ho : run store with ⟨first, log, after⟩
  have ha : first = .ok a := by rw [← h, ho]
  rw [ha] at ho
  rw [bind_ok ho]

theorem answers_pure {a b : α} (h : (pure a : Run ε α).Answers b) : b = a := by
  obtain ⟨store, h⟩ := h
  cases h
  rfl

theorem answers_ofExcept {result : Except Fault α} {a : α}
    (h : (ofExcept result : Run ε α).Answers a) : result = .ok a := h.choose_spec

theorem not_answers_fail {fault : Fault} {a : α} : ¬ (fail fault : Run ε α).Answers a := by
  rintro ⟨store, h⟩
  cases h

end Run

end BagAlgebra
