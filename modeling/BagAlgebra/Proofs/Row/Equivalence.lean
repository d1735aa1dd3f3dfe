/-
What matching keeps apart and what it keeps together. Values that match have one shape, and a set can hold
either or neither. Numbers match by their exact values and nothing else, tuples match tuples and nodes match
nodes; dictionaries match if the entries of one, in some order, match those of the other one by one.
-/
import BagAlgebra.Proofs.Number.Exact
import BagAlgebra.Proofs.Row.Covering
import Mathlib.Data.List.Perm.Basic
import Mathlib.Tactic.NormNum

namespace BagAlgebra

/-! ## Categories -/

/-- What values are told apart by before their parts are compared. Truth values, integers and binary numbers
are all numbers. -/
inductive Category where
  | null
  | number
  | notNumber
  | text
  | tuple
  | list
  | dict
  | generator
  | range
  | callable
  | node
  | builder
deriving DecidableEq

def Value.category : Value → Category
  | .null => .null
  | .bool _ => .number
  | .int _ => .number
  | .float _ => .number
  | .nan _ => .notNumber
  | .text _ => .text
  | .tuple _ => .tuple
  | .list _ _ => .list
  | .dict _ => .dict
  | .generator _ _ => .generator
  | .range _ => .range
  | .callable _ => .callable
  | .expr _ => .node
  | .builder _ => .builder

theorem category_eq_number_iff {v : Value} : v.category = .number ↔ ∃ q, v.quantity? = some q := by
  cases v with
  | bool _ | int _ | float _ => exact ⟨fun _ => ⟨_, rfl⟩, fun _ => rfl⟩
  | _ => exact ⟨fun h => (nomatch h), fun ⟨_, h⟩ => (nomatch h)⟩

/-- Values that match are of one category. -/
theorem category_eq_of_same {v w : Value} (h : v.same w = true) : v.category = w.category := by
  cases v with
  | bool _ | int _ | float _ =>
    exact (category_eq_number_iff.2 ⟨_, (same_iff_quantity rfl).1 h⟩).symm
  | _ => cases w <;> first | rfl | cases h

/-! ## Hashing -/

/-- Whether a set can hold the values of a category; up to their parts, where there is no answer. -/
def Category.hashable? : Category → Option Bool
  | .list => some false
  | .dict => some false
  | .tuple => none
  | .node => none
  | .builder => none
  | _ => some true

theorem hashable_of_category {v : Value} {b : Bool} (h : v.category.hashable? = some b) :
    v.hashable = b := by
  cases v <;> cases h <;> rfl

theorem hashable_eq_of_category {v w : Value} {b : Bool} (hv : v.category.hashable? = some b)
    (h : v.same w = true) : v.hashable = w.hashable := by
  rw [hashable_of_category hv, hashable_of_category ((category_eq_of_same h) ▸ hv)]

mutual

/-- Values that match are as hashable as each other. -/
theorem Value.hashable_eq_of_same : ∀ (v : Value) {w : Value}, v.same w = true → v.hashable = w.hashable
  | .tuple xs, w, h => by
    cases w with
    | tuple ys =>
      rw [Value.same] at h
      exact hashableItems_eq_of_same xs h
    | _ => cases h
  | .expr a, w, h => by
    cases w with
    | expr b =>
      rw [Value.same] at h
      exact Expr.hashable_eq_of_same a h
    | _ => cases h
  | .builder a, w, h => by
    cases w with
    | builder b =>
      rw [Value.same] at h
      exact Expr.hashable_eq_of_same a h
    | _ => cases h
  | .null, _, h => hashable_eq_of_category rfl h
  | .bool _, _, h => hashable_eq_of_category rfl h
  | .int _, _, h => hashable_eq_of_category rfl h
  | .float _, _, h => hashable_eq_of_category rfl h
  | .nan _, _, h => hashable_eq_of_category rfl h
  | .text _, _, h => hashable_eq_of_category rfl h
  | .list _ _, _, h => hashable_eq_of_category rfl h
  | .dict _, _, h => hashable_eq_of_category rfl h
  | .generator _ _, _, h => hashable_eq_of_category rfl h
  | .range _, _, h => hashable_eq_of_category rfl h
  | .callable _, _, h => hashable_eq_of_category rfl h
termination_by structural v => v

theorem hashableItems_eq_of_same : ∀ (xs : List Value) {ys : List Value},
    sameItems xs ys = true → hashableItems xs = hashableItems ys
  | [], [], _ => rfl
  | x :: xs, y :: ys, h => by
    rw [sameItems, Bool.and_eq_true] at h
    rw [hashableItems, hashableItems, x.hashable_eq_of_same h.1, hashableItems_eq_of_same xs h.2]
termination_by structural xs => xs

theorem Expr.hashable_eq_of_same : ∀ (a : Expr) {b : Expr}, a.same b = true → a.hashable = b.hashable
  | .bare _, b, h => by
    cases b with
    | bare _ => rfl
    | _ => cases h
  | .terminal xs, b, h => by
    cases b with
    | terminal ys =>
      rw [Expr.same] at h
      exact hashableItems_eq_of_same xs h
    | _ => cases h
  | .selection a _, b, h => by
    cases b with
    | selection b _ =>
      rw [Expr.same, Bool.and_eq_true] at h
      rw [Expr.hashable, Expr.hashable, a.hashable_eq_of_same h.1]
    | _ => cases h
  | .projection a _, b, h => by
    cases b with
    | projection b _ =>
      rw [Expr.same, Bool.and_eq_true] at h
      rw [Expr.hashable, Expr.hashable, a.hashable_eq_of_same h.1]
    | _ => cases h
  | .join a b _ _, c, h => by
    cases c with
    | join a' b' _ _ =>
      simp only [Expr.same, Bool.and_eq_true] at h
      rw [Expr.hashable, Expr.hashable, a.hashable_eq_of_same h.1.1.1, b.hashable_eq_of_same h.1.1.2]
    | _ => cases h
  | .product a b _, c, h => by
    cases c with
    | product a' b' _ =>
      simp only [Expr.same, Bool.and_eq_true] at h
      rw [Expr.hashable, Expr.hashable, a.hashable_eq_of_same h.1.1, b.hashable_eq_of_same h.1.2]
    | _ => cases h
  | .union a b, c, h => by
    cases c with
    | union a' b' =>
      rw [Expr.same, Bool.and_eq_true] at h
      rw [Expr.hashable, Expr.hashable, a.hashable_eq_of_same h.1, b.hashable_eq_of_same h.2]
    | _ => cases h
  | .filter _ a b _, c, h => by
    cases c with
    | filter _ a' b' _ =>
      simp only [Expr.same, Bool.and_eq_true] at h
      rw [Expr.hashable, Expr.hashable, a.hashable_eq_of_same h.1.1.2, b.hashable_eq_of_same h.1.2]
    | _ => cases h
termination_by structural a => a

end

/-! ## Equality -/

theorem quantity_bool (b : Bool) :
    (Value.bool b).quantity? = some (.rational (if b then 1 else 0)) := by
  cases b <;> rfl

/-- A number equals the values of the same quantity, and no others. -/
theorem equal_iff_quantity {v : Value} {q : Quantity} (h : v.quantity? = some q) (w : Value) :
    v.equal w = true ↔ w.quantity? = some q := by
  have hn : v.isNan = false := by
    cases v with
    | nan _ => cases h
    | _ => rfl
  rw [Value.equal, hn, Bool.not_false, Bool.and_true, same_iff_quantity h]

/-- Matching is equality, or being the same object that is "not a number". -/
theorem same_iff_equal {v w : Value} :
    v.same w = true ↔ v.equal w = true ∨ ∃ serial, v = .nan serial ∧ w = .nan serial := by
  rw [Value.equal, Bool.and_eq_true]
  constructor
  · intro h
    cases v with
    | nan m =>
      cases w with
      | nan n =>
        rw [Value.same, beq_iff_eq] at h
        exact .inr ⟨m, rfl, h ▸ rfl⟩
      | _ => cases h
    | _ => exact .inl ⟨h, rfl⟩
  · rintro (⟨h, -⟩ | ⟨serial, rfl, rfl⟩)
    · exact h
    · exact Value.same_refl _

theorem binary_equal_iff (x y : Binary64) :
    (Value.float x).equal (.float y) = true ↔ x = y ∨ (x.isZero = true ∧ y.isZero = true) := by
  have hx : (Value.float x).quantity? = some x.quantity := rfl
  have hy : (Value.float y).quantity? = some y.quantity := rfl
  rw [equal_iff_quantity hx, hy, Option.some_inj, eq_comm, Binary64.quantity_eq_iff]

theorem not_number_equal (serial : Nat) (w : Value) :
    (Value.nan serial).equal w = false ∧ w.equal (.nan serial) = false := by
  refine ⟨by rw [Value.equal]; exact Bool.and_false _, ?_⟩
  rw [Bool.eq_false_iff]
  intro h
  rw [Value.equal, Bool.and_eq_true] at h
  have hw := category_eq_of_same h.1
  cases w with
  | nan _ => cases h.2
  | _ => cases hw

/-! ## Dictionaries -/

/-- What is matched one by one finds its match on the other side. -/
theorem within_of_forall₂ {α β : Type} {R : α → β → Prop} {xs : List α} {ys : List β}
    (h : List.Forall₂ R xs ys) : (∀ x ∈ xs, ∃ y ∈ ys, R x y) ∧ ∀ y ∈ ys, ∃ x ∈ xs, R x y := by
  induction h with
  | nil => exact ⟨List.forall_mem_nil _, List.forall_mem_nil _⟩
  | cons hxy _ ih =>
    refine ⟨List.forall_mem_cons.2 ⟨⟨_, List.mem_cons_self .., hxy⟩, fun x hx => ?_⟩,
      List.forall_mem_cons.2 ⟨⟨_, List.mem_cons_self .., hxy⟩, fun y hy => ?_⟩⟩
    · obtain ⟨y, hy, hs⟩ := ih.1 x hx
      exact ⟨y, List.mem_cons_of_mem _ hy, hs⟩
    · obtain ⟨x, hx, hs⟩ := ih.2 y hy
      exact ⟨x, List.mem_cons_of_mem _ hx, hs⟩

/-- No two keys match. -/
def DistinctKeys (entries : List Entry) : Prop := entries.Pairwise fun a b => a.key.same b.key = false

section Dictionaries

variable {a b c : Entry} {xs ys : List Entry}

theorem Entry.key_of_same (h : a.same b = true) : a.key.same b.key = true := by
  cases a
  rw [Entry.same, Bool.and_eq_true] at h
  exact h.1

theorem DistinctKeys.perm (h : DistinctKeys xs) (hp : xs.Perm ys) : DistinctKeys ys := by
  refine (hp.pairwise_iff fun {a b} hab => ?_).1 h
  rw [Bool.eq_false_iff] at hab ⊢
  exact fun hba => hab (Value.same_symm hba)

/-- Of entries with distinct keys only one matches a given one. -/
theorem DistinctKeys.not_both (h : DistinctKeys (a :: xs)) (hb : b ∈ xs) (hac : a.key.same c.key = true)
    (hbc : b.key.same c.key = true) : False := by
  have hab := (List.pairwise_cons.1 h).1 b hb
  rw [Value.same_trans hac (Value.same_symm hbc)] at hab
  cases hab

/-- Where the keys of either side are distinct, entries that find a match on the other side can be matched
one by one. -/
theorem exists_perm_of_within (hx : DistinctKeys xs) (hy : DistinctKeys ys)
    (h : ∀ x ∈ xs, ∃ y ∈ ys, x.same y = true) (h' : ∀ y ∈ ys, ∃ x ∈ xs, x.same y = true) :
    ∃ zs, zs.Perm ys ∧ List.Forall₂ (fun x z => x.same z = true) xs zs := by
  induction xs generalizing ys with
  | nil =>
    obtain rfl : ys = [] := List.eq_nil_iff_forall_not_mem.2 fun y hy => by
      obtain ⟨x, hx, -⟩ := h' y hy
      exact List.not_mem_nil hx
    exact ⟨[], .refl _, .nil⟩
  | cons x xs ih =>
    obtain ⟨⟨y, hm, hxy⟩, h⟩ := List.forall_mem_cons.1 h
    obtain ⟨rest, hp⟩ : ∃ rest, ys.Perm (y :: rest) := by
      obtain ⟨before, after, rfl⟩ := List.append_of_mem hm
      exact ⟨before ++ after, List.perm_middle⟩
    have hy := hy.perm hp
    -- the entry that the first one matches is free: no other matches it, and it matches no other
    have hrest : ∀ x' ∈ xs, ∃ y' ∈ rest, x'.same y' = true := by
      intro x' hx'
      obtain ⟨y', hy', hs⟩ := h x' hx'
      rcases List.mem_cons.1 (hp.mem_iff.1 hy') with rfl | hy'
      · exact (hx.not_both hx' (Entry.key_of_same hxy) (Entry.key_of_same hs)).elim
      · exact ⟨y', hy', hs⟩
    have hrest' : ∀ y' ∈ rest, ∃ x' ∈ xs, x'.same y' = true := by
      intro y' hy'
      obtain ⟨x', hx', hs⟩ := h' y' (hp.mem_iff.2 (List.mem_cons_of_mem _ hy'))
      rcases List.mem_cons.1 hx' with rfl | hx'
      · exact (hy.not_both hy' (Value.same_symm (Entry.key_of_same hxy))
          (Value.same_symm (Entry.key_of_same hs))).elim
      · exact ⟨x', hx', hs⟩
    obtain ⟨zs, hz, hf⟩ := ih (List.pairwise_cons.1 hx).2 (List.pairwise_cons.1 hy).2 hrest hrest'
    exact ⟨y :: zs, (hz.cons y).trans hp.symm, .cons hxy hf⟩

theorem same_dict_iff_perm (hx : DistinctKeys xs) (hy : DistinctKeys ys) :
    (Value.dict xs).same (.dict ys) = true ↔
      ∃ zs, zs.Perm ys ∧ List.Forall₂ (fun x z => x.same z = true) xs zs := by
  rw [same_dict_iff]
  constructor
  · rintro ⟨h, h'⟩
    exact exists_perm_of_within hx hy h h'
  · rintro ⟨zs, hp, hf⟩
    obtain ⟨h, h'⟩ := within_of_forall₂ hf
    refine ⟨fun x hm => ?_, fun y hm => h' y (hp.mem_iff.2 hm)⟩
    obtain ⟨z, hz, hs⟩ := h x hm
    exact ⟨z, hp.mem_iff.1 hz, hs⟩

end Dictionaries

/-! ## The laws -/

/-- What matching keeps, and where rows are matched. -/
structure MatchingLaws : Prop where
  equivalence : Equivalence fun v w : Value => v.same w = true
  /-- It is being equal, or being the same object. -/
  equal : ∀ v w : Value, v.same w = true ↔
    v.equal w = true ∨ ∃ serial, v = .nan serial ∧ w = .nan serial
  shape : ∀ v w : Value, v.same w = true → v.shape = w.shape
  hashable : ∀ v w : Value, v.same w = true → v.hashable = w.hashable
  /-- A scan looks for a row that matches. -/
  scan : ∀ left right,
    occurrencesByScan left right = left.map fun row => decide (∃ r ∈ right, r.same row = true)
  /-- A set finds what a scan finds, as long as all rows are hashable. -/
  set : ∀ left right, occurrencesBySet left right =
    if (left ++ right).all Value.hashable then some (occurrencesByScan left right) else none
  /-- Leaves are compared row by row. -/
  leaves : ∀ rows rows', (Expr.terminal rows).same (.terminal rows') = true ↔
    List.Forall₂ (fun row row' => row.same row' = true) rows rows'

/-- What equality goes by. -/
structure EqualityLaws : Prop where
  /-- A tuple equals no list, and a node neither a builder nor plain data. -/
  category : ∀ v w : Value, v.equal w = true → v.category = w.category
  /-- A number equals the values of the same quantity, and no others. -/
  quantity : ∀ (v : Value) q, v.quantity? = some q → ∀ w : Value, v.equal w = true ↔ w.quantity? = some q
  /-- Quantities are exact. -/
  exact : (∀ b, (Value.bool b).quantity? = some (.rational (if b then 1 else 0))) ∧
    (∀ n, (Value.int n).quantity? = some (.rational n)) ∧
    ∀ x, (Value.float x).quantity? = some (if x.isInfinite then .infinite x.negative else .rational
      ((if x.negative then -1 else 1) * Binary64.significand x.rank * 2 ^ Binary64.power x.rank))
  /-- Binary numbers are equal only to themselves, but that there are two zeros. -/
  binary : ∀ x y, (Value.float x).equal (.float y) = true ↔ x = y ∨ (x.isZero = true ∧ y.isZero = true)
  /-- What is "not a number" equals nothing. -/
  notNumber : ∀ serial w, (Value.nan serial).equal w = false ∧ w.equal (.nan serial) = false
  /-- Dictionaries are equal if the entries of one can be put in the order of the other. -/
  dict : ∀ xs ys, DistinctKeys xs → DistinctKeys ys → ((Value.dict xs).equal (.dict ys) = true ↔
    ∃ zs, zs.Perm ys ∧ List.Forall₂ (fun x z => x.same z = true) xs zs)

theorem occurrencesByScan_eq (left right : List Value) : occurrencesByScan left right =
    left.map fun row => decide (∃ r ∈ right, r.same row = true) := by
  refine List.map_congr_left fun row _ => ?_
  rw [Bool.eq_iff_iff, occurs_iff, decide_eq_true_iff]

/-- Matching is an equivalence relation of rows that respects their shape and whether a set can hold them,
and it is what sets, scans and comparisons of nodes go by. Equality is exact on numbers and does not mind the
order of a dictionary, and no two values of different categories are equal. -/
theorem matching_lawful : MatchingLaws ∧ EqualityLaws := by
  constructor
  · exact {
      equivalence := ⟨Value.same_refl, Value.same_symm, Value.same_trans⟩
      equal := fun _ _ => same_iff_equal
      shape := fun _ _ => Value.shape_eq_of_same
      hashable := fun v _ => v.hashable_eq_of_same
      scan := occurrencesByScan_eq
      set := occurrencesBySet_eq
      leaves := fun _ _ => by rw [Expr.same, sameItems_iff] }
  · exact {
      category := fun v w h => category_eq_of_same (same_iff_equal.2 (.inl h))
      quantity := fun _ _ => equal_iff_quantity
      exact := ⟨fun b => quantity_bool b, fun _ => rfl, fun x => congrArg some x.quantity_eq⟩
      binary := binary_equal_iff
      notNumber := not_number_equal
      dict := fun xs ys hx hy => by
        rw [← same_dict_iff_perm hx hy, Value.equal]
        exact Iff.of_eq (congrArg (· = true) (Bool.and_true _)) }

/-- Two dictionaries in different orders, with numbers of different types in keys and in rows of nodes. Past
the integers that a binary number can tell apart, neighbours still differ. -/
theorem matching_lawful_mixed :
    let ones : List Entry := [.mk (.int 1) (.text "x"),
      .mk (.text "a") (.tuple [.nan 7, .expr (.terminal [.int 0])])]
    let others : List Entry := [.mk (.text "a") (.tuple [.nan 7, .expr (.terminal [.bool false])]),
      .mk (.bool true) (.text "x")]
    let binary : Binary64 := ⟨false, ⟨4845873199050653696, by decide⟩⟩
    (Value.dict ones).equal (.dict others) = true ∧
    (Value.tuple [.dict ones]).shape = (Value.tuple [.dict others]).shape ∧
    (Value.tuple [.dict ones]).hashable = (Value.tuple [.dict others]).hashable ∧
    (Value.float binary).equal (.int 9007199254740992) = true ∧
    (Value.int 9007199254740993).equal (.float binary) = false := by
  intro ones others binary
  have hones : DistinctKeys ones := List.pairwise_pair.2 rfl
  have hothers : DistinctKeys others := List.pairwise_pair.2 rfl
  have hdict : (Value.dict ones).equal (.dict others) = true :=
    (matching_lawful.2.dict ones others hones hothers).2
      ⟨_, List.Perm.swap .., .cons rfl (.cons rfl .nil)⟩
  have hsame : (Value.tuple [.dict ones]).same (.tuple [.dict others]) = true :=
    sameItems_iff.2 (.cons ((matching_lawful.1.equal _ _).2 (.inl hdict)) .nil)
  have hbinary : (Value.float binary).quantity? = some (.rational 9007199254740992) := by
    rw [matching_lawful.2.exact.2.2]
    norm_num [binary, Binary64.isInfinite, Binary64.top, Binary64.significand, Binary64.power, Binary64.stride]
  refine ⟨hdict, matching_lawful.1.shape _ _ hsame, matching_lawful.1.hashable _ _ hsame,
    (matching_lawful.2.quantity _ _ hbinary _).2 rfl, ?_⟩
  rw [Bool.eq_false_iff]
  intro h
  have hq := (matching_lawful.2.quantity (.int 9007199254740993) _ rfl _).1 h
  rw [hbinary] at hq
  cases hq

end BagAlgebra
