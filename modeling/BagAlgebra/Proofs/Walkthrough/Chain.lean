/-
The chain of the walkthrough. Its rows are encodings of plain data, and every stage denotes an operation
on them; so what each stage holds is a function of the threshold alone. With a threshold that has a text
and a strategy that is not refused, the chain is built from any store.
-/
import BagAlgebra.Proofs.Eval.Denotation
import BagAlgebra.Proofs.Table.Headers
import BagAlgebra.Proofs.Tree.Steps
import BagAlgebra.Walkthrough.Stages
import Mathlib.Data.Rat.Cast.Order
import Mathlib.Tactic.IntervalCases

namespace BagAlgebra

namespace Walkthrough

open Run

/-! ## Rows as data -/

/-- A number with a name. -/
def entryRow (e : Int × String) : Value := .tuple [.int e.1, .text e.2]

/-- A name with a number. -/
def pairRow (p : String × Int) : Value := .tuple [.text p.1, .int p.2]

def tripleRow (t : String × Int × String) : Value := .tuple [.text t.1, .int t.2.1, .text t.2.2]

theorem entryRow_shape (e : Int × String) : (entryRow e).shape = .fields 2 := rfl

theorem pairRow_shape (p : String × Int) : (pairRow p).shape = .fields 2 := rfl

theorem tripleRow_shape (t : String × Int × String) : (tripleRow t).shape = .fields 3 := rfl

theorem int_shape (k : Int) : (Value.int k).shape = .scalar := rfl

theorem text_shape (s : String) : (Value.text s).shape = .scalar := rfl

/-! The rows of the relations are those of the following data. -/

def starts : List (Int × String) := [(1, "a"), (2, "b"), (3, "c")]

def factors : List Int := [1, 2]

def joins : List (Int × String) := [(1, "Join1"), (2, "Join2")]

def additions : List (String × Int × String) := [("d", 3, "Union")]

def expectations : List (String × Int × String) :=
  [("c", 1, "Join1"), ("c", 2, "Join2"), ("d", 3, "Union"), ("e", 4, "Removed")]

/-! ## What the stages hold -/

section Contents

variable (n : Int)

/-! The data above the threshold, their names, the names with each factor, the triples of the join, and
what comes of the union and of the intersection. -/

def kept : List (Int × String) := starts.filter fun e => n < e.1

def names : List String := (kept n).map Prod.snd

def pairs : List (String × Int) := names n ×ˢ factors

def triples : List (String × Int × String) :=
  ((pairs n ×ˢ joins).filter fun x => x.1.2 == x.2.1).map fun x => (x.1.1, x.2.1, x.2.2)

def united : List (String × Int × String) := triples n ++ additions

def result : List (String × Int × String) :=
  (if n < 3 then [("c", 1, "Join1"), ("c", 2, "Join2")] else []) ++ additions

/-- The numbers above the threshold are the last ones. -/
theorem kept_eq_drop : kept n = starts.drop n.toNat := by
  rcases lt_or_ge n 1 with h1 | h1
  · have h2 : n < 2 := by omega
    have h3 : n < 3 := by omega
    have h0 : n.toNat = 0 := by omega
    simp [kept, starts, h1, h2, h3, h0]
  · rcases lt_or_ge n 3 with h3 | h3
    · interval_cases n <;> decide
    · have h0 : starts.length ≤ n.toNat := by simp [starts]; omega
      rw [List.drop_eq_nil_of_le h0]
      simp [kept, starts]
      omega

/-- Of the united rows the expected ones are kept: a "c" that survived the threshold has met both rows of
the join. -/
theorem filter_united : (united n).filter (fun t => expectations.contains t == true) = result n := by
  rw [united, triples, pairs, names, kept_eq_drop, result]
  have hn : n < 3 ↔ n.toNat < 3 := by omega
  rw [List.filter_append, ite_congr (propext hn) (fun _ => rfl) (fun _ => rfl)]
  generalize n.toNat = k
  rcases Nat.lt_or_ge k 3 with hk | hk
  · interval_cases k <;> decide
  · rw [List.drop_eq_nil_of_le hk, if_neg (Nat.not_lt.2 hk)]
    decide

end Contents

/-! ## Callbacks -/

/-- A function without a name that captures some values. -/
def lambda (serial : Nat) (params : List String) (body : Code) (captured : List Value) : Callback :=
  .function ⟨serial, .named, Callback.anonymousName⟩ (params.map .required) body captured

theorem lambda_usable_one (serial : Nat) (x : String) (body : Code) (captured : List Value) :
    (lambda serial [x] body captured).usableOn 1 = true := rfl

theorem lambda_usable_two (serial : Nat) (x y : String) (body : Code) (captured : List Value) :
    (lambda serial [x, y] body captured).usableOn 2 = true := rfl

theorem lambda_label (serial : Nat) (params : List String) (body : Code) (captured : List Value) :
    (lambda serial params body captured).label = "λ" := rfl

/-! The callbacks of the chain, with what they give on rows. -/

def above (n : Int) (serial : Nat) : Callback :=
  lambda serial ["x"] (.binary (.order .gt) (field "x" 0) (.literal (.captured 0))) [.int n]

def second (serial : Nat) : Callback := lambda serial ["x"] (field "x" 1) []

def pairing (serial : Nat) : Callback :=
  lambda serial ["x", "y"] (.tuple [.argument "x", .argument "y"]) []

def matching (serial : Nat) : Callback :=
  lambda serial ["x", "y"] (.binary .eq (field "x" 1) (field "y" 0)) []

def gathering (serial : Nat) : Callback :=
  lambda serial ["x", "y"] (.tuple [field "x" 0, field "y" 0, field "y" 1]) []

theorem same_int (a b : Int) : (Value.int a).same (.int b) = decide (a = b) := by
  rw [Bool.eq_iff_iff, decide_eq_true_iff, same_iff_quantity rfl]
  simp [Value.quantity?, Value.number?, Number.quantity, eq_comm]

theorem above_gives (n : Int) (serial : Nat) (e : Int × String) :
    ((above n serial).call [entryRow e]).Gives (.ok (.bool (decide (n < e.1)))) := by
  intro store
  show Except.ok (Value.bool (decide ((n : Rat) < (e.1 : Rat)))) = _
  rw [decide_eq_decide.2 Int.cast_lt]

theorem second_gives (serial : Nat) (e : Int × String) :
    ((second serial).call [entryRow e]).Gives (.ok (.text e.2)) := fun _ => rfl

theorem pairing_gives (serial : Nat) (s : String) (k : Int) :
    ((pairing serial).call [.text s, .int k]).Gives (.ok (pairRow (s, k))) := fun _ => rfl

theorem matching_gives (serial : Nat) (p : String × Int) (e : Int × String) :
    ((matching serial).call [pairRow p, entryRow e]).Gives (.ok (.bool (p.2 == e.1))) := by
  intro store
  show Except.ok (Value.bool ((Value.int p.2).same (.int e.1) && true)) = _
  rw [Bool.and_true, same_int, beq_eq_decide]

theorem gathering_gives (serial : Nat) (p : String × Int) (e : Int × String) :
    ((gathering serial).call [pairRow p, entryRow e]).Gives (.ok (tripleRow (p.1, e.1, e.2))) :=
  fun _ => rfl

/-! ## Trees -/

section Trees

variable (n : Int) (strategy : Strategy) (serial : Nat)

def selection : Expr := .selection (.terminal startRows) (above n serial)

def projection : Expr := .projection (selection n serial) (second (serial + 1))

def multiplication : Expr :=
  .product (projection n serial) (.terminal productRows) (pairing (serial + 2))

def junction : Expr :=
  .join (multiplication n serial) (.terminal Walkthrough.joinRows) (matching (serial + 3))
    (gathering (serial + 4))

def union : Expr := .union (junction n serial) (.terminal unionRows)

def intersection : Expr :=
  .filter .intersection (union n serial) (.terminal intersectRows) strategy

theorem selection_gives : (selection n serial).eval.Gives (.ok ((kept n).map entryRow)) :=
  Expr.eval_selection_gives (Expr.eval_terminal_gives startRows) (above_gives n serial)

theorem projection_gives : (projection n serial).eval.Gives (.ok ((names n).map .text)) :=
  Expr.eval_projection_gives (selection_gives n serial) (second_gives _)

theorem multiplication_gives : (multiplication n serial).eval.Gives (.ok ((pairs n).map pairRow)) := by
  have hr : (Expr.terminal productRows).eval.Gives (.ok (factors.map .int)) :=
    Expr.eval_terminal_gives productRows
  have h := Expr.eval_product_gives (projection_gives n serial) hr (pairing_gives (serial + 2))
  have hpairs : (names n ×ˢ factors).map (Function.uncurry Prod.mk) = pairs n := List.map_id _
  rwa [hpairs] at h

theorem junction_gives : (junction n serial).eval.Gives (.ok ((triples n).map tripleRow)) :=
  Expr.eval_join_gives (multiplication_gives n serial)
    (Expr.eval_terminal_gives Walkthrough.joinRows) (matching_gives _) (gathering_gives _)

theorem union_gives : (union n serial).eval.Gives (.ok ((united n).map tripleRow)) := by
  have hr : (Expr.terminal unionRows).eval.Gives (.ok (additions.map tripleRow)) :=
    Expr.eval_terminal_gives unionRows
  rw [united, List.map_append]
  refine Expr.eval_union_gives (junction_gives n serial) hr ?_
  rw [← List.map_append]
  exact uniform_map tripleRow_shape _

theorem tripleRow_same (t u : String × Int × String) :
    (tripleRow t).same (tripleRow u) = (t == u) := by
  obtain ⟨s, k, r⟩ := t
  obtain ⟨s', k', r'⟩ := u
  show (s == s' && ((Value.int k).same (.int k') && (r == r' && true))) = _
  rw [same_int, Bool.eq_iff_iff]
  simp

theorem intersection_gives :
    (intersection n strategy serial).eval.Gives (.ok ((result n).map tripleRow)) := by
  have hr : (Expr.terminal intersectRows).eval.Gives (.ok (expectations.map tripleRow)) :=
    Expr.eval_terminal_gives intersectRows
  have hu : Uniform ((united n).map tripleRow ++ expectations.map tripleRow) := by
    rw [← List.map_append]
    exact uniform_map tripleRow_shape _
  rw [← filter_united]
  exact Expr.eval_filter_gives_data .intersection strategy (union_gives n serial) hr hu tripleRow_same

end Trees

/-- The stages of the chain, whose callbacks have serial numbers from a first one on. -/
def chain (n : Int) (strategy : Strategy) (serial : Nat) : List Stage :=
  [⟨"Terminal", ⟨.terminal startRows⟩⟩, ⟨"σ x.0 > " ++ toString n, ⟨selection n serial⟩⟩,
    ⟨"π x.1", ⟨projection n serial⟩⟩, ⟨"× [1, 2]", ⟨multiplication n serial⟩⟩,
    ⟨"⋈ x.1 = y.0", ⟨junction n serial⟩⟩, ⟨"⋃ Union rows", ⟨union n serial⟩⟩,
    ⟨"∩ Expected rows", ⟨intersection n strategy serial⟩⟩]

/-- A function takes its serial number from the store. -/
theorem function_bind {ε α : Type} (params : List String) (body : Code) (captured : List Value)
    (next : Value → Run ε α) (store : Store) :
    (function params body captured >>= next) store =
      next (.callable (lambda store.fresh params body captured))
        { store with fresh := store.fresh + 1 } := rfl

/-- The strategy of the chain. There is none if the threshold has no text, or if the strategy is
refused. -/
def grant (n : Int) (v : Value) : Except Fault Strategy :=
  if Numeral.fits n then Expr.requireStrategy (.filter .intersection) v else .error .badValue

/-- The chain is built from any store unless one of the two choices is refused. -/
theorem stages_grant {ε : Type} (n : Int) (v : Value) (store : Store) :
    ((stages (.int n) v : Run ε (List Stage)) store).result
        = (grant n v).map (fun strategy => chain n strategy store.fresh) ∧
      ((stages (.int n) v : Run ε (List Stage)) store).log = [] := by
  have hstart : Uniform startRows := uniform_map entryRow_shape starts
  have hproduct : Uniform productRows := uniform_map int_shape factors
  have hjoin : Uniform Walkthrough.joinRows := uniform_map entryRow_shape joins
  have hunion : Uniform unionRows := uniform_map tripleRow_shape additions
  have hintersect : Uniform intersectRows := uniform_map tripleRow_shape expectations
  -- neither the join nor the union is a leaf, so their rows are not compared before the evaluation
  have hj : ∀ l r p m, (Expr.join l r p m).storedRows? = none := fun _ _ _ _ => rfl
  have hu : ∀ l r, (Expr.union l r).storedRows? = none := fun _ _ => rfl
  cases hn : Numeral.fits n with
  | false =>
    have ht : (Value.int n).str? = .error .badValue := by rw [str?_eq, Value.printable, hn]; rfl
    rw [grant, hn, stages, ht]
    exact ⟨rfl, rfl⟩
  | true =>
    have ht : (Value.int n).str? = .ok (toString n) := by rw [str?_eq, Value.printable, hn]; rfl
    simp only [stages, aboveThreshold, secondField, pairUp, sameNumber, nameAndFields, ht, lift_ok,
      pure_bind, function_bind, Builder.fromRows_list hstart,
      Builder.select_usable (lambda_usable_one _ _ _ _),
      Builder.project_usable (lambda_usable_one _ _ _ _),
      Builder.product_list hproduct (lambda_usable_two _ _ _ _ _),
      Builder.join_list hjoin (lambda_usable_two _ _ _ _ _) (lambda_usable_two _ _ _ _ _),
      Builder.union_list hunion (hj _ _ _ _), Builder.filter_list hintersect (hu _ _)]
    rw [grant, hn, if_pos rfl]
    cases Expr.requireStrategy (.filter .intersection) v with
    | error fault => exact ⟨rfl, rfl⟩
    | ok strategy => exact ⟨rfl, rfl⟩

end Walkthrough

end BagAlgebra
