/-
Runs under new names. From stores that correspond, two runs in step give answers that correspond, or
fail alike. The objects that they make take the next serial numbers on both sides, and so correspond
as well.
-/
import BagAlgebra.Proofs.Identity.Renaming

namespace BagAlgebra

namespace Renaming

/-- Stores that correspond: the objects still to be made do, and generators have given as many items as
their renamed forms. No object gives items before it is made. -/
structure Stores (r : Renaming) (store store' : Store) : Prop where
  least_le : r.least ≤ store.fresh
  fresh : ∀ k, r.names (store.fresh + k) = store'.fresh + k
  drawn : ∀ n, r.least ≤ n → store.drawn n = store'.drawn (r.names n)
  untouched : ∀ n, store.fresh ≤ n → store.drawn n = 0

/-- From corresponding stores, two runs end in corresponding ways. -/
structure InStep {α β : Type} (r : Renaming) (store store' : Store) (R : Nat → α → β → Prop)
    (run : Eval α) (run' : Eval β) : Prop where
  grows : store.fresh ≤ (run store).store.fresh
  stores : r.Stores (run store).store (run' store').store
  result : ResultsCorrespond (R (run store).store.fresh) (run store).result (run' store').result
  log : (run' store').log = (run store).log.map (Event.rename r.names)

end Renaming

open Renaming

variable {r : Renaming} {store store' : Store} {α β α' β' : Type} {R : Nat → α → β → Prop}
  {R' : Nat → α' → β' → Prop}

/-! ## Putting runs together -/

theorem inStep_ofExcept (hs : r.Stores store store') {a : Except Fault α} {b : Except Fault β}
    (h : ResultsCorrespond (R store.fresh) a b) :
    r.InStep store store' R (Run.ofExcept a) (Run.ofExcept b) :=
  ⟨Nat.le_refl _, hs, h, rfl⟩

theorem inStep_pure (hs : r.Stores store store') {a : α} {b : β} (h : R store.fresh a b) :
    r.InStep store store' R (pure a) (pure b) :=
  ⟨Nat.le_refl _, hs, .ok h, rfl⟩

theorem inStep_fail (hs : r.Stores store store') (fault : Fault) :
    r.InStep store store' R (Run.fail fault) (Run.fail fault) :=
  ⟨Nat.le_refl _, hs, .error fault, rfl⟩

theorem Renaming.InStep.bind {run : Eval α} {run' : Eval β} {next : α → Eval α'}
    {next' : β → Eval β'} (h : r.InStep store store' R run run')
    (hn : ∀ a b mid mid', store.fresh ≤ mid.fresh → r.Stores mid mid' → R mid.fresh a b →
      r.InStep mid mid' R' (next a) (next' b)) :
    r.InStep store store' R' (run >>= next) (run' >>= next') := by
  obtain ⟨hg, hs, hr, hl⟩ := h
  rcases ho : run store with ⟨result, log, after⟩
  rcases ho' : run' store' with ⟨result', log', after'⟩
  rw [ho, ho'] at hs hr hl
  rw [ho] at hg
  replace hl : log' = log.map (Event.rename r.names) := hl
  cases hr with
  | ok hab =>
    obtain ⟨hg2, hs2, hr2, hl2⟩ := hn _ _ after after' hg hs hab
    have hb : (run >>= next) store = _ := Run.bind_ok ho
    have hb' : (run' >>= next') store' = _ := Run.bind_ok ho'
    constructor
    · rw [hb]; exact Nat.le_trans hg hg2
    · rw [hb, hb']; exact hs2
    · rw [hb, hb']; exact hr2
    · rw [hb, hb', List.map_append, hl2, hl]
  | error fault =>
    have hb : (run >>= next) store = _ := Run.bind_error ho
    have hb' : (run' >>= next') store' = _ := Run.bind_error ho'
    constructor
    · rw [hb]; exact hg
    · rw [hb, hb']; exact hs
    · rw [hb, hb']; exact .error fault
    · rw [hb, hb', hl]

/-- A run and then a value made of its answer. -/
theorem Renaming.InStep.map {run : Eval α} {run' : Eval β} (h : r.InStep store store' R run run')
    {f : α → α'} {f' : β → β'} (hf : ∀ limit a b, R limit a b → R' limit (f a) (f' b)) :
    r.InStep store store' R' (do let a ← run; return f a) (do let b ← run'; return f' b) :=
  h.bind fun a b mid _ _ hs hab => inStep_pure hs (hf mid.fresh a b hab)

/-- What both runs know already makes no difference. -/
theorem inStep_known (hs : r.Stores store store') {a b : Except Fault α'} (hab : b = a)
    {next : α' → Eval α} {next' : α' → Eval β}
    (hn : ∀ v, a = .ok v → r.InStep store store' R (next v) (next' v)) :
    r.InStep store store' R (Run.ofExcept a >>= next) (Run.ofExcept b >>= next') := by
  subst hab
  cases b with
  | error fault => exact inStep_fail hs fault
  | ok v => exact hn v rfl

/-- Both runs make an object. -/
theorem inStep_fresh (hs : r.Stores store store') :
    r.InStep store store' (fun limit m n => n = r.names m ∧ m < limit ∧ r.least ≤ m)
      Run.fresh Run.fresh := by
  refine ⟨Nat.le_succ _, ⟨?_, fun k => ?_, hs.drawn, fun n hn => ?_⟩, ?_, rfl⟩
  · exact Nat.le_succ_of_le hs.least_le
  · show r.names (store.fresh + 1 + k) = store'.fresh + 1 + k
    rw [Nat.add_assoc, hs.fresh, Nat.add_assoc]
  · exact hs.untouched n (Nat.le_of_succ_le hn)
  · exact .ok ⟨(hs.fresh 0).symm, Nat.lt_succ_self _, hs.least_le⟩

/-- Both runs log an event. -/
theorem inStep_emit (hs : r.Stores store store') (event : Event) :
    r.InStep store store' (fun _ _ _ => True) (Run.emit event)
      (Run.emit (event.rename r.names)) :=
  ⟨Nat.le_refl _, hs, .ok trivial, rfl⟩

/-- Both runs take an item from a generator. -/
theorem inStep_draw (hs : r.Stores store store') {n : Nat} (hn : n < store.fresh) :
    r.InStep store store' (fun _ _ _ => True) (Run.draw n) (Run.draw (r.names n)) := by
  refine ⟨Nat.le_refl _, ⟨hs.least_le, hs.fresh, fun m hm => ?_, fun m hm => ?_⟩, .ok trivial, rfl⟩
  · show (if m = n then store.drawn m + 1 else store.drawn m)
      = if r.names m = r.names n then store'.drawn (r.names m) + 1 else store'.drawn (r.names m)
    rw [← hs.drawn m hm]
    -- the names are different for different generators, so no other one counts as drawn from
    by_cases hmn : m = n
    · rw [if_pos hmn, if_pos (congrArg r.names hmn)]
    · rw [if_neg hmn, if_neg fun h => hmn (r.names.injective h)]
  · show (if m = n then store.drawn m + 1 else store.drawn m) = 0
    have hm : store.fresh ≤ m := hm
    rw [if_neg (by omega)]
    exact hs.untouched m hm

end BagAlgebra
