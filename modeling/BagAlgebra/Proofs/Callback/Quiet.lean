/-
What calls of callbacks log: the values that their bodies trace, and none of the messages that nodes
log.
-/
import BagAlgebra.Callback.Call

namespace BagAlgebra

/-! ## Runs that log certain events only -/

namespace Run

variable {ε α β : Type} {E : ε → Prop}

/-- Every event that the run logs is of a certain sort. -/
def LogsOnly (E : ε → Prop) (run : Run ε α) : Prop := ∀ store, ∀ event ∈ (run store).log, E event

theorem logsOnly_pure (a : α) : LogsOnly E (pure a) := fun _ _ h => by cases h

theorem logsOnly_fail (fault : Fault) : LogsOnly E (fail fault : Run ε α) := fun _ _ h => by cases h

theorem logsOnly_ofExcept (r : Except Fault α) : LogsOnly E (ofExcept r) := fun _ _ h => by cases h

theorem logsOnly_fresh : LogsOnly E (fresh : Run ε Nat) := fun _ _ h => by cases h

theorem logsOnly_drawn (serial : Nat) : LogsOnly E (drawn serial : Run ε Nat) :=
  fun _ _ h => by cases h

theorem logsOnly_draw (serial : Nat) : LogsOnly E (draw serial : Run ε Unit) :=
  fun _ _ h => by cases h

theorem LogsOnly.bind {run : Run ε α} {next : α → Run ε β} (h : LogsOnly E run)
    (hn : ∀ a, LogsOnly E (next a)) : LogsOnly E (run >>= next) := by
  intro store event he
  rcases ho : run store with ⟨fault | a, log, after⟩
  · rw [bind_error ho] at he
    exact h store event (by rw [ho]; exact he)
  · rw [bind_ok ho] at he
    rcases List.mem_append.1 he with he | he
    · exact h store event (by rw [ho]; exact he)
    · exact hn a after event he

/-- A run and then a value made of its answer. -/
theorem LogsOnly.map {run : Run ε α} (h : LogsOnly E run) (f : α → β) :
    LogsOnly E (do let a ← run; return f a) :=
  h.bind fun a => logsOnly_pure (f a)

end Run

open Run

/-! ## Arithmetic -/

section Arithmetic

variable {ε : Type} {E : ε → Prop}

theorem ofNumber_logsOnly (n : Number) : LogsOnly E (Value.ofNumber n) := by
  unfold Value.ofNumber
  split
  · exact logsOnly_pure _
  · exact logsOnly_pure _
  · exact logsOnly_fresh.map _

theorem numeric_logsOnly (op : Number → Number → Except NumberFault Number) (v w : Value) :
    LogsOnly E (Value.numeric op v w) := by
  unfold Value.numeric
  split
  · split
    · exact ofNumber_logsOnly _
    · exact logsOnly_fail _
  · exact logsOnly_fail _

theorem neg_logsOnly (v : Value) : LogsOnly E v.neg := by
  unfold Value.neg
  split
  · exact ofNumber_logsOnly _
  · exact logsOnly_fail _

theorem add_logsOnly (v w : Value) : LogsOnly E (v.add w) := by
  unfold Value.add
  split
  · exact logsOnly_pure _
  · exact logsOnly_pure _
  · exact logsOnly_pure _
  · exact numeric_logsOnly _ _ _

theorem mul_logsOnly (v w : Value) : LogsOnly E (v.mul w) := by
  unfold Value.mul
  split
  · exact logsOnly_ofExcept _
  · exact logsOnly_ofExcept _
  · exact numeric_logsOnly _ _ _

end Arithmetic

/-! ## Literals -/

section Literals

variable {ε : Type} {E : ε → Prop}

mutual

theorem literal_logsOnly (captured : List Value) : ∀ l : Literal, LogsOnly E (l.make captured)
  | .null => logsOnly_pure _
  | .bool _ => logsOnly_pure _
  | .int _ => logsOnly_pure _
  | .float _ => logsOnly_pure _
  | .nan => logsOnly_fresh.map _
  | .text _ => logsOnly_pure _
  | .tuple items => by rw [Literal.make]; exact (items_logsOnly captured items).map _
  | .list items => by rw [Literal.make]; exact (items_logsOnly captured items).map _
  | .dict entries => by rw [Literal.make]; exact (entries_logsOnly captured [] entries).map _
  | .generator items => by
    rw [Literal.make]
    exact (items_logsOnly captured items).bind fun _ => logsOnly_fresh.map _
  | .range arguments => by
    rw [Literal.make]
    exact (items_logsOnly captured arguments).bind fun _ => (logsOnly_ofExcept _).map _
  | .captured _ => logsOnly_pure _
termination_by structural l => l

theorem items_logsOnly (captured : List Value) :
    ∀ ls : List Literal, LogsOnly E (makeItems captured ls)
  | [] => logsOnly_pure _
  | l :: ls => by
    rw [makeItems]
    exact (literal_logsOnly captured l).bind fun _ => (items_logsOnly captured ls).map _
termination_by structural ls => ls

theorem entries_logsOnly (captured : List Value) (done : List Entry) :
    ∀ es : List LiteralEntry, LogsOnly E (makeEntries captured done es)
  | [] => logsOnly_pure _
  | e :: es => by
    rw [makeEntries]
    refine (entry_logsOnly captured e).bind fun (key, value) => ?_
    dsimp only
    split
    · exact entries_logsOnly captured _ es
    · exact logsOnly_fail _
termination_by structural es => es

theorem entry_logsOnly (captured : List Value) :
    ∀ e : LiteralEntry, LogsOnly E (e.make captured)
  | .mk key value => by
    rw [LiteralEntry.make]
    exact (literal_logsOnly captured key).bind fun _ => (literal_logsOnly captured value).map _
termination_by structural e => e

end

end Literals

/-! ## Bodies -/

/-- Whether an event is no message of a node. -/
def Event.IsTrace (event : Event) : Prop := event.message? = none

theorem apply_logsOnly (op : BinaryOp) (v w : Value) : LogsOnly Event.IsTrace (op.apply v w) := by
  cases op with
  | eq => exact logsOnly_pure _
  | ne => exact logsOnly_pure _
  | order relation => exact (logsOnly_ofExcept _).map _
  | add => exact add_logsOnly v w
  | sub => exact numeric_logsOnly _ _ _
  | mul => exact mul_logsOnly v w
  | floorDiv => exact numeric_logsOnly _ _ _
  | floorMod =>
    rw [BinaryOp.apply, Value.floorMod_eq_numeric]
    exact numeric_logsOnly _ _ _

mutual

theorem code_logsOnly (scope : Scope) (captured : List Value) :
    ∀ c : Code, LogsOnly Event.IsTrace (c.eval scope captured)
  | .argument name => by
    rw [Code.eval]
    split
    · exact logsOnly_pure _
    · exact logsOnly_fail _
  | .literal data => by rw [Code.eval]; exact literal_logsOnly captured data
  | .tuple items => by rw [Code.eval]; exact (codes_logsOnly scope captured items).map _
  | .list items => by rw [Code.eval]; exact (codes_logsOnly scope captured items).map _
  | .item container index => by
    rw [Code.eval]
    exact (code_logsOnly scope captured container).bind fun _ =>
      (code_logsOnly scope captured index).bind fun _ => logsOnly_ofExcept _
  | .length operand => by
    rw [Code.eval]
    exact (code_logsOnly scope captured operand).bind fun _ => (logsOnly_ofExcept _).map _
  | .str operand => by
    rw [Code.eval]
    exact (code_logsOnly scope captured operand).bind fun _ => (logsOnly_ofExcept _).map _
  | .not operand => by rw [Code.eval]; exact (code_logsOnly scope captured operand).map _
  | .neg operand => by
    rw [Code.eval]
    exact (code_logsOnly scope captured operand).bind fun v => neg_logsOnly v
  | .binary op a b => by
    rw [Code.eval]
    exact (code_logsOnly scope captured a).bind fun v =>
      (code_logsOnly scope captured b).bind fun w => apply_logsOnly op v w
  | .and a b => by
    rw [Code.eval]
    refine (code_logsOnly scope captured a).bind fun v => ?_
    split
    · exact code_logsOnly scope captured b
    · exact logsOnly_pure v
  | .or a b => by
    rw [Code.eval]
    refine (code_logsOnly scope captured a).bind fun v => ?_
    split
    · exact logsOnly_pure v
    · exact code_logsOnly scope captured b
  | .choose condition a b => by
    rw [Code.eval]
    refine (code_logsOnly scope captured condition).bind fun v => ?_
    split
    · exact code_logsOnly scope captured a
    · exact code_logsOnly scope captured b
  | .raise kind text => logsOnly_fail _
  | .trace label operand => by
    rw [Code.eval]
    refine (code_logsOnly scope captured operand).bind fun v => ?_
    intro store event he
    rw [List.mem_singleton.1 he]; rfl
termination_by structural c => c

theorem codes_logsOnly (scope : Scope) (captured : List Value) :
    ∀ cs : List Code, LogsOnly Event.IsTrace (evalItems scope captured cs)
  | [] => logsOnly_pure _
  | c :: cs => by
    rw [evalItems]
    exact (code_logsOnly scope captured c).bind fun _ => (codes_logsOnly scope captured cs).map _
termination_by structural cs => cs

end

/-! ## Calls -/

theorem drawExtreme_logsOnly (direction : Relation) (serial : Nat) :
    ∀ (best : Option Value) (vs : List Value),
      LogsOnly Event.IsTrace (drawExtreme direction serial best vs)
  | none, [] => logsOnly_fail _
  | some best, [] => logsOnly_pure best
  | none, v :: vs => by
    rw [drawExtreme]
    exact (logsOnly_draw serial).bind fun _ => drawExtreme_logsOnly direction serial (some v) vs
  | some best, v :: vs => by
    rw [drawExtreme]
    refine (logsOnly_draw serial).bind fun _ => (logsOnly_ofExcept _).bind fun further => ?_
    split
    · exact drawExtreme_logsOnly direction serial (some v) vs
    · exact drawExtreme_logsOnly direction serial (some best) vs

theorem extremeOf_logsOnly (direction : Relation) (vs : List Value) :
    LogsOnly Event.IsTrace (extremeOf direction vs) := by
  unfold extremeOf
  split
  · exact logsOnly_fail _
  · exact (logsOnly_drawn _).bind fun _ => drawExtreme_logsOnly direction _ none _
  · split
    · exact logsOnly_fail _
    · exact logsOnly_ofExcept _
    · exact logsOnly_fail _
  · exact logsOnly_ofExcept _

theorem builtin_logsOnly (b : Builtin) (vs : List Value) :
    LogsOnly Event.IsTrace (b.call vs) := by
  unfold Builtin.call
  split
  · exact logsOnly_pure _
  · exact (logsOnly_ofExcept _).map _
  · exact (logsOnly_ofExcept _).map _
  · exact (logsOnly_ofExcept _).map _
  · exact logsOnly_pure _
  · exact logsOnly_pure _
  · exact extremeOf_logsOnly _ _
  · exact extremeOf_logsOnly _ _
  · exact logsOnly_fail _

/-- A call logs traces only. -/
theorem call_logsOnly (f : Callback) (rows : List Value) :
    LogsOnly Event.IsTrace (f.call rows) := by
  cases f with
  | builtin b => exact builtin_logsOnly b rows
  | always =>
    rw [Callback.call]
    split
    · exact logsOnly_pure _
    · exact logsOnly_fail _
  | function handle params body captured =>
    rw [Callback.call]
    split
    · exact code_logsOnly _ _ body
    · exact logsOnly_fail _

end BagAlgebra
