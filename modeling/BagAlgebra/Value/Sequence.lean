/-
Values as collections: their length, their elements by position or key, walks over their items, and
how progressions and dictionaries are made from values.
A walk over a generator takes each item from it before the item is used.
-/
import BagAlgebra.Run
import BagAlgebra.Value.Match

namespace BagAlgebra

/-- The characters of a text, each a text of its own. -/
def characters (s : String) : List Value := s.toList.map fun c => .text (String.singleton c)

/-- The greatest length and the greatest position that there are: the greatest signed word of 64
bits. -/
def sizeLimit : Int := 9223372036854775807

/-- The most items that a stored sequence may have. This stands for the memory of a machine; it is no
rule for values, and another machine may have room for more or for fewer. -/
def storageLimit : Nat := 268435456

namespace Value

/-- The number of items of a text or a collection. -/
def count? : Value → Option Nat
  | .text s => some s.length
  | .tuple items => some items.length
  | .list _ items => some items.length
  | .dict entries => some entries.length
  | .range span => some span.length
  | _ => none

/-- The length of a text or a collection. -/
def length? (v : Value) : Except Fault Nat :=
  match v.count? with
  | some n => if sizeLimit < n then .error .tooLarge else .ok n
  | none => .error .typeMismatch

/-- The items of a collection that can be walked any number of times. -/
def items? : Value → Option (List Value)
  | .text s => some (characters s)
  | .tuple items => some items
  | .list _ items => some items
  | .dict entries => some (entries.map Entry.key)
  | .range span => some (span.toList.map .int)
  | _ => none

/-- Walking a collection meets as many items as it has. -/
theorem count?_eq_map_length_items? (v : Value) : v.count? = v.items?.map List.length := by
  cases v <;> simp [count?, items?, characters, String.length_toList]

/-! ## Elements -/

/-- A position counted from the start, or from the end if it is negative. -/
def position? (length : Nat) (i : Int) : Option Nat :=
  let p := if i < 0 then i + length else i
  if 0 ≤ p ∧ p < length then some p.toNat else none

/-- The element of a list at a position. -/
def nth (items : List Value) (index : Value) : Except Fault Value :=
  match index.int? with
  | none => .error .typeMismatch
  | some i =>
    match (position? items.length i).bind (items[·]?) with
    | some v => .ok v
    | none => .error .badIndex

/-- The value of a key. -/
def lookup (entries : List Entry) (key : Value) : Except Fault Value :=
  if !key.hashable then .error .typeMismatch
  else match entries.find? fun e => e.key.same key with
    | some e => .ok e.value
    | none => .error .missingKey

/-- The element of a collection at a position, or of a dictionary at a key. -/
def item : Value → Value → Except Fault Value
  | .tuple items, index => nth items index
  | .list _ items, index => nth items index
  | .text s, index => nth (characters s) index
  | .range span, index =>
    match index.int? with
    | none => .error .typeMismatch
    | some i =>
      match position? span.length i with
      | some p => .ok (.int (span.nth p))
      | none => .error .badIndex
  | .dict entries, key => lookup entries key
  | _, _ => .error .typeMismatch

/-! ## Walks -/

variable {ε β : Type}

/-- Uses the items of a generator one by one; each counts as given before it is used. -/
def drawEach (serial : Nat) (use : Value → Run ε β) : List Value → Run ε (List β)
  | [] => pure []
  | v :: vs => do
    Run.draw serial
    let b ← use v
    return b :: (← drawEach serial use vs)

/-- Uses the items of a value in order. -/
def forEach (v : Value) (use : Value → Run ε β) : Run ε (List β) :=
  match v with
  | .generator serial items => do
    drawEach serial use (items.drop (← Run.drawn serial))
  | v =>
    match v.items? with
    | some items => items.mapM use
    | none => Run.fail .typeMismatch

/-- The items of a value, stored. The room for a progression is found before any item is. -/
def collect (v : Value) : Run ε (List Value) :=
  match v with
  | .range span =>
    if sizeLimit < span.length then Run.fail .tooLarge
    else if storageLimit < span.length then Run.fail .tooLong
    else pure (span.toList.map .int)
  | v => v.forEach pure

end Value

/-! ## Progressions -/

/-- The members of a progression from one to three integers: a bound, or a start, a bound and a
step. -/
def Span.ofValues : List Value → Except Fault Span
  | [stop] =>
    match stop.int? with
    | some stop => .ok ⟨0, stop, 1⟩
    | none => .error .typeMismatch
  | [start, stop] =>
    match start.int?, stop.int? with
    | some start, some stop => .ok ⟨start, stop, 1⟩
    | _, _ => .error .typeMismatch
  | [start, stop, step] =>
    match start.int?, stop.int?, step.int? with
    | some start, some stop, some step =>
      if step = 0 then .error .badValue else .ok ⟨start, stop, step⟩
    | _, _, _ => .error .typeMismatch
  | _ => .error .typeMismatch

/-! ## Dictionaries -/

/-- Puts a value under a key: in the place of the matching key if there is one, else at the end. -/
def putEntry (entries : List Entry) (key value : Value) : List Entry :=
  if entries.any (fun e => e.key.same key) then
    entries.map fun e => if e.key.same key then .mk e.key value else e
  else entries ++ [.mk key value]

end BagAlgebra
