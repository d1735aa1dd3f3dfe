/-
What the symbolic form of a tree tells: the operators and how they nest, the numbers of rows of the terminals,
and the names of predicates and of the mappers of projections. Each part of a form shows where it ends, whatever
comes after it, so no form is the beginning of another one and the whole can be read back in one way only. Of a
name this asks that it does not have the bracket that closes it.
-/
import BagAlgebra.Value.Display
import Mathlib.Data.List.Basic
import Std.Data.String.ToNat

namespace BagAlgebra

/-! ## Skeletons -/

/-- The operators with one side. -/
inductive Pass where
  | selection
  | projection
deriving DecidableEq

def Pass.symbol : Pass → String
  | selection => "σ"
  | projection => "π"

/-- The operators with two sides; that of a join shows its predicate. -/
inductive Junction where
  | join (predicate : String)
  | product
  | union
  | filter (kind : FilterKind)
deriving DecidableEq

/-- A tree without what its symbolic form leaves out: the rows themselves, the strategies of filters, the
mappers of joins and products, and all of a callback but its name. -/
inductive Skeleton where
  | bare
  | terminal (count : Nat)
  | pass (operator : Pass) (callback : String) (child : Skeleton)
  | meet (operator : Junction) (left right : Skeleton)
deriving DecidableEq

namespace Expr

def skeleton : Expr → Skeleton
  | .bare _ => .bare
  | .terminal rows => .terminal rows.length
  | .selection child predicate => .pass .selection predicate.label child.skeleton
  | .projection child mapper => .pass .projection mapper.label child.skeleton
  | .join left right predicate _ => .meet (.join predicate.label) left.skeleton right.skeleton
  | .product left right _ => .meet .product left.skeleton right.skeleton
  | .union left right => .meet .union left.skeleton right.skeleton
  | .filter kind left right _ => .meet (.filter kind) left.skeleton right.skeleton
termination_by structural e => e

end Expr

namespace Junction

/-- The names that are shown. -/
def labels : Junction → List String
  | join predicate => [predicate]
  | _ => []

def text : Junction → String
  | join predicate => "⋈[" ++ predicate ++ "]"
  | product => "×"
  | union => "⋃"
  | filter kind => kind.symbol

end Junction

namespace Skeleton

/-- The names that are shown. -/
def labels : Skeleton → List String
  | bare => []
  | terminal _ => []
  | pass _ callback child => callback :: child.labels
  | meet operator left right => operator.labels ++ (left.labels ++ right.labels)

/-- No name that is shown has the bracket in it that closes a name. -/
def Legible (s : Skeleton) : Prop := ∀ label ∈ s.labels, ']' ∉ label.toList

def text : Skeleton → String
  | bare => "Bare"
  | terminal count => "Terminal[" ++ toString count ++ "]"
  | pass operator callback child => operator.symbol ++ "[" ++ callback ++ "](" ++ child.text ++ ")"
  | meet operator left right => "(" ++ left.text ++ ")" ++ operator.text ++ "(" ++ right.text ++ ")"

end Skeleton

/-! ## The form of a tree is that of its skeleton -/

/-- The form of a tree is that of its skeleton. -/
theorem repr_eq_text : ∀ e : Expr, e.repr = e.skeleton.text
  | .bare _ => by rw [Expr.repr, Expr.skeleton, Skeleton.text]
  | .terminal rows => by rw [Expr.repr, Expr.skeleton, Skeleton.text]
  | .selection child predicate => by
    rw [Expr.repr, repr_eq_text child, Expr.skeleton, Skeleton.text]
    simp [Pass.symbol]
  | .projection child mapper => by
    rw [Expr.repr, repr_eq_text child, Expr.skeleton, Skeleton.text]
    simp [Pass.symbol]
  | .join left right predicate mapper => by
    rw [Expr.repr, repr_eq_text left, repr_eq_text right, Expr.skeleton, Skeleton.text]
    simp [← String.toList_inj, Junction.text]
  | .product left right mapper => by
    rw [Expr.repr, repr_eq_text left, repr_eq_text right, Expr.skeleton, Skeleton.text]
    simp [← String.toList_inj, Junction.text]
  | .union left right => by
    rw [Expr.repr, repr_eq_text left, repr_eq_text right, Expr.skeleton, Skeleton.text]
    simp [← String.toList_inj, Junction.text]
  | .filter kind left right strategy => by
    rw [Expr.repr, repr_eq_text left, repr_eq_text right, Expr.skeleton, Skeleton.text, Junction.text]
termination_by structural e => e

/-! ## Reading back -/

/-- What stands before the first bracket that closes a name is the name. -/
theorem name_append_inj {name name' : String} {rest rest' : List Char} (h : ']' ∉ name.toList)
    (h' : ']' ∉ name'.toList) (he : name.toList ++ ']' :: rest = name'.toList ++ ']' :: rest') :
    name = name' ∧ rest = rest' := by
  have hs := congrArg (List.splitOn ']') he
  rw [List.splitOn_append_cons_self_of_not_mem h, List.splitOn_append_cons_self_of_not_mem h'] at hs
  obtain rfl := String.toList_inj.1 (List.cons_eq_cons.1 hs).1
  exact ⟨rfl, (List.cons_eq_cons.1 (List.append_cancel_left he)).2⟩

theorem count_append_inj {m n : Nat} {rest rest' : List Char}
    (he : (toString m).toList ++ ']' :: rest = (toString n).toList ++ ']' :: rest') :
    m = n ∧ rest = rest' := by
  have digits : ∀ k : Nat, ']' ∉ (toString k).toList := by
    intro k hk
    rw [Nat.toString_eq_repr, Nat.toList_repr] at hk
    have hd := Nat.isDigit_of_mem_toDigits (by decide) (by decide) hk
    revert hd
    decide
  obtain ⟨hn, hr⟩ := name_append_inj (digits m) (digits n) he
  exact ⟨Nat.repr_inj.1 hn, hr⟩

theorem Pass.symbol_append_inj {p q : Pass} {rest rest' : List Char}
    (h : p.symbol.toList ++ rest = q.symbol.toList ++ rest') : p = q ∧ rest = rest' := by
  cases p with
  | selection =>
    cases q with
    | selection => exact ⟨rfl, by simpa using h⟩
    | projection => simp [symbol] at h
  | projection =>
    cases q with
    | selection => simp [symbol] at h
    | projection => exact ⟨rfl, by simpa using h⟩

theorem FilterKind.symbol_append_inj {kind kind' : FilterKind} {rest rest' : List Char}
    (h : kind.symbol.toList ++ rest = kind'.symbol.toList ++ rest') : kind = kind' ∧ rest = rest' := by
  cases kind with
  | intersection =>
    cases kind' with
    | intersection => exact ⟨rfl, by simpa using h⟩
    | difference => simp [symbol] at h
  | difference =>
    cases kind' with
    | intersection => simp [symbol] at h
    | difference => exact ⟨rfl, by simpa using h⟩

theorem Junction.text_append_inj {j k : Junction} {rest rest' : List Char}
    (hj : ∀ label ∈ j.labels, ']' ∉ label.toList) (hk : ∀ label ∈ k.labels, ']' ∉ label.toList)
    (h : j.text.toList ++ rest = k.text.toList ++ rest') : j = k ∧ rest = rest' := by
  cases j with
  | join p =>
    cases k with
    | join q =>
      have hb : p.toList ++ ']' :: rest = q.toList ++ ']' :: rest' := by simpa [text] using h
      obtain ⟨rfl, hr⟩ := name_append_inj (hj p (by simp [labels])) (hk q (by simp [labels])) hb
      exact ⟨rfl, hr⟩
    | filter kind => cases kind <;> simp [text, FilterKind.symbol] at h
    | _ => simp [text] at h
  | product =>
    cases k with
    | product => exact ⟨rfl, by simpa using h⟩
    | filter kind => cases kind <;> simp [text, FilterKind.symbol] at h
    | _ => simp [text] at h
  | union =>
    cases k with
    | union => exact ⟨rfl, by simpa using h⟩
    | filter kind => cases kind <;> simp [text, FilterKind.symbol] at h
    | _ => simp [text] at h
  | filter kind =>
    cases k with
    | filter kind' =>
      obtain ⟨rfl, hr⟩ := FilterKind.symbol_append_inj h
      exact ⟨rfl, hr⟩
    | _ => cases kind <;> simp [text, FilterKind.symbol] at h

namespace Skeleton

theorem legible_pass {operator : Pass} {callback : String} {child : Skeleton} :
    (pass operator callback child).Legible ↔ ']' ∉ callback.toList ∧ child.Legible := by
  rw [Legible, labels, List.forall_mem_cons]
  rfl

theorem legible_meet {operator : Junction} {left right : Skeleton} :
    (meet operator left right).Legible ↔
      (∀ label ∈ operator.labels, ']' ∉ label.toList) ∧ left.Legible ∧ right.Legible := by
  rw [Legible, labels, List.forall_mem_append, List.forall_mem_append]
  rfl

/-- No form is the beginning of another. -/
theorem text_append_inj {a b : Skeleton} {rest rest' : List Char} (ha : a.Legible) (hb : b.Legible)
    (h : a.text.toList ++ rest = b.text.toList ++ rest') : a = b ∧ rest = rest' := by
  induction a generalizing b rest rest' with
  | bare =>
    cases b with
    | bare => exact ⟨rfl, by simpa using h⟩
    | pass operator => cases operator <;> simp [text, Pass.symbol] at h
    | _ => simp [text] at h
  | terminal m =>
    cases b with
    | terminal n =>
      have hd : (toString m).toList ++ ']' :: rest = (toString n).toList ++ ']' :: rest' := by
        simpa [text] using h
      obtain ⟨rfl, hr⟩ := count_append_inj hd
      exact ⟨rfl, hr⟩
    | pass operator => cases operator <;> simp [text, Pass.symbol] at h
    | _ => simp [text] at h
  | pass p name child ih =>
    cases b with
    | pass q name' child' =>
      obtain ⟨hn, hc⟩ := legible_pass.1 ha
      obtain ⟨hn', hc'⟩ := legible_pass.1 hb
      have ht : p.symbol.toList ++ '[' :: (name.toList ++ ']' :: '(' :: (child.text.toList ++ ')' :: rest))
          = q.symbol.toList ++ '[' :: (name'.toList ++ ']' :: '(' :: (child'.text.toList ++ ')' :: rest')) := by
        simpa [text] using h
      obtain ⟨rfl, hname⟩ := Pass.symbol_append_inj ht
      obtain ⟨rfl, hchild⟩ := name_append_inj hn hn' (List.cons_eq_cons.1 hname).2
      obtain ⟨rfl, hend⟩ := ih hc hc' (List.cons_eq_cons.1 hchild).2
      exact ⟨rfl, (List.cons_eq_cons.1 hend).2⟩
    | _ => cases p <;> simp [text, Pass.symbol] at h
  | meet j left right ihl ihr =>
    cases b with
    | meet k left' right' =>
      obtain ⟨hj, hl, hr⟩ := legible_meet.1 ha
      obtain ⟨hk, hl', hr'⟩ := legible_meet.1 hb
      have ht : left.text.toList ++ ')' :: (j.text.toList ++ '(' :: (right.text.toList ++ ')' :: rest))
          = left'.text.toList ++ ')' :: (k.text.toList ++ '(' :: (right'.text.toList ++ ')' :: rest')) := by
        simpa [text] using h
      -- the left side ends where the right one's does, so what follows it begins in the same place
      obtain ⟨rfl, hafter⟩ := ihl hl hl' ht
      obtain ⟨rfl, hright⟩ := Junction.text_append_inj hj hk (List.cons_eq_cons.1 hafter).2
      obtain ⟨rfl, hend⟩ := ihr hr hr' (List.cons_eq_cons.1 hright).2
      exact ⟨rfl, (List.cons_eq_cons.1 hend).2⟩
    | pass operator => cases operator <;> simp [text, Pass.symbol] at h
    | _ => simp [text] at h

end Skeleton

/-! ## Trees -/

/-- Trees are shown alike exactly if they have one skeleton: the same operators in the same places, the same
numbers of rows in their terminals and the same names of predicates and of mappers of projections. -/
theorem repr_eq_iff_skeleton {a b : Expr} (ha : a.skeleton.Legible) (hb : b.skeleton.Legible) :
    a.repr = b.repr ↔ a.skeleton = b.skeleton := by
  rw [repr_eq_text, repr_eq_text]
  constructor
  · intro h
    have hl : a.skeleton.text.toList ++ [] = b.skeleton.text.toList ++ [] := by rw [h]
    exact (Skeleton.text_append_inj ha hb hl).1
  · intro h
    rw [h]

/-- Trees of other rows, other functions and another strategy, with names that look like parts of a form. -/
theorem repr_eq_iff_skeleton_names :
    let function (serial : Nat) (name : String) : Callback :=
      .function ⟨serial, .named, name⟩ [.required "x"] (.argument "x") []
    let tree (rows : List Value) (serial : Nat) (name : String) (strategy : Strategy) : Expr :=
      .join (.selection (.terminal rows) (function serial name))
        (.filter .intersection (.bare serial) (.terminal []) strategy)
        (function (serial + 1) "×2Terminal") .always
    let a := tree [.int 1, .null] 0 "<lambda>" .hash
    let b := tree [.text "x", .text "y"] 2 "λ" .scan
    a.skeleton.Legible ∧ b.skeleton.Legible ∧ a.skeleton = b.skeleton ∧ a.repr = b.repr := by
  intro function tree a b
  have hs : a.skeleton = b.skeleton := by decide
  have ha : a.skeleton.Legible := by
    simp [a, tree, function, Expr.skeleton, Skeleton.Legible, Skeleton.labels, Junction.labels, Callback.label,
      Callback.name, Callback.anonymousName]
  have hb : b.skeleton.Legible := hs ▸ ha
  exact ⟨ha, hb, hs, (repr_eq_iff_skeleton ha hb).2 hs⟩

/-- The bracket that closes a name makes two forms one if it is in a name. -/
example : (Skeleton.pass .selection "a" (.pass .selection "u](σ[w" .bare)).text =
    (Skeleton.pass .selection "a](σ[u" (.pass .selection "w" .bare)).text := by decide

end BagAlgebra
