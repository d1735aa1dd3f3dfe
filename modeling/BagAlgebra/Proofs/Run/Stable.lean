/-
Stable runs: their result does not depend on the store they start from, whatever they log and whatever
they leave in the store. So a stable run has one answer, and the answer of runs put together is that of
their answers. Where the result is known, it is put together in the same way.
-/
import BagAlgebra.Proofs.Run.Answers

namespace BagAlgebra

namespace Run

variable {ε α β : Type}

/-- The result is the same from every store. -/
def Stable (run : Run ε α) : Prop := ∀ store store', (run store).result = (run store').result

/-- The result from the empty store; that of a stable run from any. -/
def answer (run : Run ε α) : Except Fault α := (run .empty).result

theorem Stable.result_eq {run : Run ε α} (h : run.Stable) (store : Store) :
    (run store).result = run.answer := h store .empty

theorem Stable.answers_iff {run : Run ε α} (h : run.Stable) {a : α} :
    run.Answers a ↔ run.answer = .ok a :=
  ⟨fun ⟨store, ha⟩ => (h.result_eq store).symm.trans ha, fun ha => ⟨.empty, ha⟩⟩

theorem stable_pure (a : α) : Stable (pure a : Run ε α) := fun _ _ => rfl

theorem stable_fail (fault : Fault) : Stable (fail fault : Run ε α) := fun _ _ => rfl

theorem stable_ofExcept (result : Except Fault α) : Stable (ofExcept result : Run ε α) :=
  fun _ _ => rfl

theorem stable_emit (event : ε) : Stable (emit event) := fun _ _ => rfl

/-- The result of a run put together from two, where the second does not depend on the store. -/
theorem result_bind {run : Run ε α} {next : α → Run ε β}
    (hn : ∀ a, run.Answers a → (next a).Stable) (store : Store) :
    ((run >>= next) store).result = (run store).result >>= fun a => (next a).answer := by
  rcases ho : run store with ⟨fault | a, log, after⟩
  · rw [bind_error ho]; rfl
  · rw [bind_ok ho]
    exact (hn a ⟨store, by rw [ho]⟩).result_eq after

theorem Stable.bind {run : Run ε α} {next : α → Run ε β} (h : run.Stable)
    (hn : ∀ a, run.Answers a → (next a).Stable) : Stable (run >>= next) := by
  intro store store'
  rw [result_bind hn, result_bind hn, h store store']

theorem answer_bind {run : Run ε α} {next : α → Run ε β}
    (hn : ∀ a, run.Answers a → (next a).Stable) :
    (run >>= next).answer = run.answer >>= fun a => (next a).answer := result_bind hn .empty

theorem stable_mapM {f : α → Run ε β} : ∀ {items : List α}, (∀ a ∈ items, (f a).Stable) →
    Stable (items.mapM f)
  | [], _ => by
    rw [List.mapM_nil]
    exact stable_pure _
  | a :: items, h => by
    rw [List.mapM_cons]
    refine (h a (List.mem_cons_self ..)).bind fun b _ => ?_
    exact (stable_mapM fun c hc => h c (List.mem_cons_of_mem _ hc)).bind fun _ _ => stable_pure _

theorem answer_mapM {f : α → Run ε β} : ∀ {items : List α}, (∀ a ∈ items, (f a).Stable) →
    (items.mapM f).answer = items.mapM fun a => (f a).answer
  | [], _ => by rw [List.mapM_nil, List.mapM_nil]; rfl
  | a :: items, h => by
    have hr : ∀ c ∈ items, (f c).Stable := fun c hc => h c (List.mem_cons_of_mem _ hc)
    rw [List.mapM_cons, List.mapM_cons, answer_bind fun b _ =>
      (stable_mapM hr).bind fun _ _ => stable_pure _]
    refine bind_congr fun b => ?_
    rw [answer_bind fun _ _ => stable_pure _, answer_mapM hr]
    rfl

/-! ## Known results -/

/-- The result from any store. -/
def Gives (run : Run ε α) (result : Except Fault α) : Prop := ∀ store, (run store).result = result

theorem Stable.gives_iff {run : Run ε α} (h : run.Stable) {result : Except Fault α} :
    run.Gives result ↔ run.answer = result :=
  ⟨fun hg => hg .empty, fun ha store => (h.result_eq store).trans ha⟩

theorem gives_pure (a : α) : Gives (pure a : Run ε α) (.ok a) := fun _ => rfl

theorem gives_pure_iff {a b : α} : Gives (pure a : Run ε α) (.ok b) ↔ b = a := by
  constructor
  · intro h
    cases h .empty
    rfl
  · rintro rfl
    exact gives_pure b

theorem gives_emit (event : ε) : Gives (emit event) (.ok ()) := fun _ => rfl

theorem Gives.bind {run : Run ε α} {next : α → Run ε β} {a : α} {result : Except Fault β}
    (h : run.Gives (.ok a)) (hn : (next a).Gives result) : (run >>= next).Gives result := by
  intro store
  rcases ho : run store with ⟨first, log, after⟩
  have ha : first = .ok a := by rw [← h store, ho]
  rw [ha] at ho
  rw [bind_ok ho]
  exact hn after

theorem Gives.map {run : Run ε α} {a : α} (h : run.Gives (.ok a)) (f : α → β) :
    Gives (do let a ← run; return f a) (.ok (f a)) := h.bind (gives_pure (f a))

theorem Gives.unique {run : Run ε α} {result result' : Except Fault α} (h : run.Gives result)
    (h' : run.Gives result') : result = result' := (h .empty).symm.trans (h' .empty)

theorem Gives.stable {run : Run ε α} {result : Except Fault α} (h : run.Gives result) : run.Stable :=
  fun store store' => (h store).trans (h store').symm

theorem gives_bind_iff {run : Run ε α} {next : α → Run ε β} {b : β} (h : run.Stable)
    (hn : ∀ a, run.Answers a → (next a).Stable) :
    (run >>= next).Gives (.ok b) ↔ ∃ a, run.Gives (.ok a) ∧ (next a).Gives (.ok b) := by
  constructor
  · intro hg
    rw [(h.bind hn).gives_iff, answer_bind hn] at hg
    obtain ⟨a, ha, hb⟩ := ok_of_bind hg
    exact ⟨a, h.gives_iff.2 ha, (hn a ⟨.empty, ha⟩).gives_iff.2 hb⟩
  · rintro ⟨a, ha, hb⟩
    exact ha.bind hb

theorem gives_map_iff {run : Run ε α} (h : run.Stable) {f : α → β} {b : β} :
    Gives (do let a ← run; return f a) (.ok b) ↔ ∃ a, run.Gives (.ok a) ∧ b = f a := by
  rw [gives_bind_iff h fun _ _ => stable_pure _]
  exact exists_congr fun a => and_congr_right fun _ => gives_pure_iff

/-- The run gives what the other one gives, a value or a fault. -/
def Mimics (run run' : Run ε α) : Prop := ∀ result, run'.Gives result → run.Gives result

theorem Mimics.stable {run run' : Run ε α} (h : run.Mimics run') (hs : run'.Stable) : run.Stable :=
  (h _ (hs.gives_iff.2 rfl)).stable

theorem Mimics.gives_iff {run run' : Run ε α} (h : run.Mimics run') (hs : run'.Stable)
    {result : Except Fault α} : run.Gives result ↔ run'.Gives result := by
  have hg := hs.gives_iff.2 rfl
  refine ⟨fun hr => ?_, h result⟩
  rwa [hr.unique (h _ hg)]

/-- Two stable runs that give the same values, if any, agree: they both give a value, or they both fail. -/
theorem Stable.agree {run run' : Run ε α} (h : run.Stable) (h' : run'.Stable)
    (hiff : ∀ a, run.Gives (.ok a) ↔ run'.Gives (.ok a)) :
    (∃ a, run.Gives (.ok a) ∧ run'.Gives (.ok a)) ∨
      ∃ fault fault', run.Gives (.error fault) ∧ run'.Gives (.error fault') := by
  cases ha : run.answer with
  | ok a =>
    have hg := h.gives_iff.2 ha
    exact .inl ⟨a, hg, (hiff a).1 hg⟩
  | error fault =>
    have hg := h.gives_iff.2 ha
    cases ha' : run'.answer with
    | ok a => cases hg.unique ((hiff a).2 (h'.gives_iff.2 ha'))
    | error fault' => exact .inr ⟨fault, fault', hg, h'.gives_iff.2 ha'⟩

theorem gives_mapM {f : α → Run ε β} {g : α → β} : ∀ {items : List α},
    (∀ a ∈ items, (f a).Gives (.ok (g a))) → Gives (items.mapM f) (.ok (items.map g))
  | [], _ => by
    rw [List.mapM_nil]
    exact gives_pure _
  | a :: items, h => by
    rw [List.mapM_cons]
    refine (h a (List.mem_cons_self ..)).bind ?_
    exact (gives_mapM fun c hc => h c (List.mem_cons_of_mem _ hc)).map _

end Run

end BagAlgebra
