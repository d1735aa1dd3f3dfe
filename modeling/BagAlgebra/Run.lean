/-
Runs: computations that can fail, that leave a log of events behind, and that work on a store. The
log and the store are kept when a run fails. The log of two runs in a row is the log of the first
followed by that of the second.
-/
import BagAlgebra.Fault

namespace BagAlgebra

/-- What outlives a single computation. Every object whose identity matters has a serial number;
a generator gives each of its items once. -/
structure Store where
  /-- The next serial number. -/
  fresh : Nat
  /-- The number of items that a generator has given so far. -/
  drawn : Nat → Nat

namespace Store

/-- No object made, no item given. -/
def empty : Store := ⟨0, fun _ => 0⟩

/-- The generator with this serial number has given `count` more items. -/
def advance (store : Store) (serial count : Nat) : Store :=
  { store with drawn := fun s => if s = serial then store.drawn s + count else store.drawn s }

end Store

/-- The end of a run. -/
structure Outcome (ε α : Type) where
  result : Except Fault α
  log : List ε
  store : Store

/-- A computation that logs events of type `ε`. -/
def Run (ε α : Type) : Type := Store → Outcome ε α

namespace Run

variable {ε ε' α β : Type}

protected def pure (a : α) : Run ε α := fun store => ⟨.ok a, [], store⟩

protected def bind (run : Run ε α) (next : α → Run ε β) : Run ε β := fun store =>
  match run store with
  | ⟨.ok a, log, store⟩ =>
    let rest := next a store
    ⟨rest.result, log ++ rest.log, rest.store⟩
  | ⟨.error fault, log, store⟩ => ⟨.error fault, log, store⟩

instance : Monad (Run ε) where
  pure := Run.pure
  bind := Run.bind

/-- Stops with a fault. -/
def fail (fault : Fault) : Run ε α := fun store => ⟨.error fault, [], store⟩

/-- Gives a result that is already there. -/
def ofExcept (result : Except Fault α) : Run ε α := fun store => ⟨result, [], store⟩

instance : MonadLift (Except Fault) (Run ε) := ⟨ofExcept⟩

/-- Logs one event. -/
def emit (event : ε) : Run ε Unit := fun store => ⟨.ok (), [event], store⟩

/-- Takes a new serial number. -/
def fresh : Run ε Nat := fun store => ⟨.ok store.fresh, [], { store with fresh := store.fresh + 1 }⟩

/-- The number of items that a generator has given. -/
def drawn (serial : Nat) : Run ε Nat := fun store => ⟨.ok (store.drawn serial), [], store⟩

/-- Notes that a generator has given one more item. -/
def draw (serial : Nat) : Run ε Unit := fun store => ⟨.ok (), [], store.advance serial 1⟩

/-- Renames the events. -/
def mapLog (f : ε → ε') (run : Run ε α) : Run ε' α := fun store =>
  let o := run store
  ⟨o.result, o.log.map f, o.store⟩

/-- Runs to the end whatever happens, and gives the fault as a result. -/
def attempt (run : Run ε α) : Run ε (Except Fault α) := fun store =>
  let o := run store
  ⟨.ok o.result, o.log, o.store⟩

/-! ## Laws -/

@[simp] theorem pure_apply (a : α) (store : Store) :
    (pure a : Run ε α) store = ⟨.ok a, [], store⟩ := rfl

theorem bind_apply (run : Run ε α) (next : α → Run ε β) (store : Store) :
    (run >>= next) store = Run.bind run next store := rfl

theorem bind_ok {run : Run ε α} {next : α → Run ε β} {store : Store} {a : α} {log : List ε}
    {after : Store} (h : run store = ⟨.ok a, log, after⟩) :
    (run >>= next) store
      = ⟨(next a after).result, log ++ (next a after).log, (next a after).store⟩ := by
  simp [bind_apply, Run.bind, h]

theorem bind_error {run : Run ε α} {next : α → Run ε β} {store : Store} {fault : Fault}
    {log : List ε} {after : Store} (h : run store = ⟨.error fault, log, after⟩) :
    (run >>= next) store = ⟨.error fault, log, after⟩ := by
  simp [bind_apply, Run.bind, h]

instance : LawfulMonad (Run ε) := LawfulMonad.mk' _
  (fun run => by
    funext store
    show Run.bind run (fun a => Run.pure (id a)) store = run store
    rcases h : run store with ⟨r | r, log, after⟩ <;> simp [Run.bind, Run.pure, h])
  (fun a next => by
    funext store
    show Run.bind (Run.pure a) next store = next a store
    simp [Run.bind, Run.pure])
  (fun run next last => by
    funext store
    show Run.bind (Run.bind run next) last store
      = Run.bind run (fun a => Run.bind (next a) last) store
    rcases h : run store with ⟨r | a, log, after⟩
    · simp [Run.bind, h]
    · rcases h' : next a after with ⟨r' | b, log', after'⟩ <;> simp [Run.bind, h, h'])

end Run

end BagAlgebra
