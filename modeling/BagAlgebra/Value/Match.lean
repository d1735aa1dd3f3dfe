/-
When two values count as one. Two values match if they are the same object or equal: numbers by exact
value whatever their type, texts by their characters, tuples and lists element by element, dictionaries
entry by entry in any order, nodes by operator and parts, and everything that has an identity by that.
Equality is matching, but for "not a number", which is not even equal to itself.
-/
import BagAlgebra.Value.Basic

namespace BagAlgebra

/-- Callbacks match if they are the same. -/
def Callback.same : Callback → Callback → Bool
  | .builtin a, .builtin b => a == b
  | .always, .always => true
  | .function a _ _ _, .function b _ _ _ => a == b
  | _, _ => false

mutual

/-- Whether two values are the same object or equal. -/
def Value.same : Value → Value → Bool
  | .null, v => match v with
    | .null => true
    | _ => false
  | .bool b, v => v.quantity? == (Value.bool b).quantity?
  | .int n, v => v.quantity? == (Value.int n).quantity?
  | .float x, v => v.quantity? == (Value.float x).quantity?
  | .nan m, v => match v with
    | .nan n => m == n
    | _ => false
  | .text s, v => match v with
    | .text t => s == t
    | _ => false
  | .tuple xs, v => match v with
    | .tuple ys => sameItems xs ys
    | _ => false
  | .list _ xs, v => match v with
    | .list _ ys => sameItems xs ys
    | _ => false
  | .dict xs, v => match v with
    | .dict ys => entriesWithin xs ys && ys.all (fun y => entryAmong xs y)
    | _ => false
  | .generator m _, v => match v with
    | .generator n _ => m == n
    | _ => false
  | .range s, v => match v with
    | .range t => s.same t
    | _ => false
  | .callable f, v => match v with
    | .callable g => f.same g
    | _ => false
  | .expr a, v => match v with
    | .expr b => a.same b
    | _ => false
  | .builder a, v => match v with
    | .builder b => a.same b
    | _ => false
termination_by structural v => v

/-- Two sequences of values that match position by position. -/
def sameItems : List Value → List Value → Bool
  | [], ys => ys.isEmpty
  | x :: xs, ys => match ys with
    | y :: ys => x.same y && sameItems xs ys
    | [] => false
termination_by structural xs => xs

/-- Two entries whose keys and values match. -/
def Entry.same : Entry → Entry → Bool
  | .mk k v, e => k.same e.key && v.same e.value
termination_by structural e => e

/-- Whether every entry of the first dictionary has a matching one in the second. -/
def entriesWithin : List Entry → List Entry → Bool
  | [], _ => true
  | x :: xs, ys => ys.any (fun y => x.same y) && entriesWithin xs ys
termination_by structural xs => xs

/-- Whether some entry of a dictionary matches an entry. -/
def entryAmong : List Entry → Entry → Bool
  | [], _ => false
  | x :: xs, y => x.same y || entryAmong xs y
termination_by structural xs => xs

/-- Nodes match if they have the same operator and matching parts. The inner join of a product does
not count: it follows from the parts. -/
def Expr.same : Expr → Expr → Bool
  | .bare m, e => match e with
    | .bare n => m == n
    | _ => false
  | .terminal xs, e => match e with
    | .terminal ys => sameItems xs ys
    | _ => false
  | .selection a p, e => match e with
    | .selection b q => a.same b && p.same q
    | _ => false
  | .projection a f, e => match e with
    | .projection b g => a.same b && f.same g
    | _ => false
  | .join a b p f, e => match e with
    | .join c d q g => a.same c && b.same d && p.same q && f.same g
    | _ => false
  | .product a b f, e => match e with
    | .product c d g => a.same c && b.same d && f.same g
    | _ => false
  | .union a b, e => match e with
    | .union c d => a.same c && b.same d
    | _ => false
  | .filter k a b s, e => match e with
    | .filter l c d t => k == l && a.same c && b.same d && s == t
    | _ => false
termination_by structural e => e

end

/-- Equality. -/
def Value.equal (v w : Value) : Bool := v.same w && !v.isNan

/-- Whether some row of a list matches a row. -/
def occurs (row : Value) (rows : List Value) : Bool := rows.any (fun r => r.same row)

/-! ## Hashing -/

mutual

/-- Whether a value can be a member of a set: no list, no dictionary, and nothing that holds one. -/
def Value.hashable : Value → Bool
  | .list _ _ => false
  | .dict _ => false
  | .tuple items => hashableItems items
  | .expr e => e.hashable
  | .builder e => e.hashable
  | _ => true
termination_by structural v => v

def hashableItems : List Value → Bool
  | [] => true
  | v :: vs => v.hashable && hashableItems vs
termination_by structural vs => vs

/-- A node is as hashable as the rows of its terminals. -/
def Expr.hashable : Expr → Bool
  | .bare _ => true
  | .terminal rows => hashableItems rows
  | .selection child _ => child.hashable
  | .projection child _ => child.hashable
  | .join left right _ _ => left.hashable && right.hashable
  | .product left right _ => left.hashable && right.hashable
  | .union left right => left.hashable && right.hashable
  | .filter _ left right _ => left.hashable && right.hashable
termination_by structural e => e

end

theorem hashableItems_eq_all (vs : List Value) : hashableItems vs = vs.all Value.hashable := by
  induction vs with
  | nil => rfl
  | cons v vs ih => simp [hashableItems, ih]

end BagAlgebra
