/-
Equal nodes and builders. They have one operator and parts that match, and with the parts all that follows
from them: the symbolic form, and every field, also the inner join of a product, which is not compared itself.
A set can hold a node or a builder exactly if it can hold all rows of its terminals, and a row unless there is
a list or a dictionary in it, however deep in tuples and in the rows of nodes and builders.
-/
import BagAlgebra.Proofs.Row.Equivalence
import BagAlgebra.Proofs.Tree.Built
import BagAlgebra.Proofs.Tree.Skeletons
import BagAlgebra.Script.Step

namespace BagAlgebra

/-! ## Matching by operators -/

/-- Trees of the same operators with matching rows and callbacks. -/
inductive Expr.Matches : Expr → Expr → Prop where
  | bare (serial : Nat) : Matches (.bare serial) (.bare serial)
  | terminal {rows rows' : List Value} (h : List.Forall₂ (fun row row' => row.same row' = true) rows rows') :
      Matches (.terminal rows) (.terminal rows')
  | selection {child child' : Expr} {predicate predicate' : Callback} (h : Matches child child')
      (hp : predicate.same predicate' = true) :
      Matches (.selection child predicate) (.selection child' predicate')
  | projection {child child' : Expr} {mapper mapper' : Callback} (h : Matches child child')
      (hf : mapper.same mapper' = true) : Matches (.projection child mapper) (.projection child' mapper')
  | join {left left' right right' : Expr} {predicate predicate' mapper mapper' : Callback}
      (hl : Matches left left') (hr : Matches right right') (hp : predicate.same predicate' = true)
      (hf : mapper.same mapper' = true) :
      Matches (.join left right predicate mapper) (.join left' right' predicate' mapper')
  | product {left left' right right' : Expr} {mapper mapper' : Callback} (hl : Matches left left')
      (hr : Matches right right') (hf : mapper.same mapper' = true) :
      Matches (.product left right mapper) (.product left' right' mapper')
  | union {left left' right right' : Expr} (hl : Matches left left') (hr : Matches right right') :
      Matches (.union left right) (.union left' right')
  | filter {left left' right right' : Expr} (kind : FilterKind) (strategy : Strategy)
      (hl : Matches left left') (hr : Matches right right') :
      Matches (.filter kind left right strategy) (.filter kind left' right' strategy)

namespace Expr

theorem Matches.same {a b : Expr} (h : a.Matches b) : a.same b = true := by
  induction h with
  | bare serial => exact Expr.same_refl _
  | terminal h => rw [Expr.same, sameItems_iff]; exact h
  | selection _ hp ih => rw [Expr.same, ih, hp]; rfl
  | projection _ hf ih => rw [Expr.same, ih, hf]; rfl
  | join _ _ hp hf ihl ihr => rw [Expr.same, ihl, ihr, hp, hf]; rfl
  | product _ _ hf ihl ihr => rw [Expr.same, ihl, ihr, hf]; rfl
  | union _ _ ihl ihr => rw [Expr.same, ihl, ihr]; rfl
  | filter kind strategy _ _ ihl ihr =>
    rw [Expr.same, ihl, ihr, beq_self_eq_true, beq_self_eq_true]; rfl

theorem matches_of_same {a b : Expr} (h : a.same b = true) : a.Matches b := by
  induction a using sides_induction generalizing b with
  | h a ih =>
    cases a with
    | bare m =>
      cases b with
      | bare n =>
        rw [Expr.same, beq_iff_eq] at h
        exact h ▸ .bare m
      | _ => cases h
    | terminal rows =>
      cases b with
      | terminal rows' =>
        rw [Expr.same, sameItems_iff] at h
        exact .terminal h
      | _ => cases h
    | selection child p =>
      cases b with
      | selection child' q =>
        rw [Expr.same, Bool.and_eq_true] at h
        exact .selection (ih child (List.mem_singleton_self _) h.1) h.2
      | _ => cases h
    | projection child f =>
      cases b with
      | projection child' g =>
        rw [Expr.same, Bool.and_eq_true] at h
        exact .projection (ih child (List.mem_singleton_self _) h.1) h.2
      | _ => cases h
    | join left right p f =>
      cases b with
      | join left' right' q g =>
        simp only [Expr.same, Bool.and_eq_true] at h
        obtain ⟨⟨⟨hl, hr⟩, hp⟩, hf⟩ := h
        obtain ⟨ihl, ihr⟩ := List.forall_mem_cons.1 ih
        exact .join (ihl hl) (List.forall_mem_singleton.1 ihr hr) hp hf
      | _ => cases h
    | product left right f =>
      cases b with
      | product left' right' g =>
        simp only [Expr.same, Bool.and_eq_true] at h
        obtain ⟨⟨hl, hr⟩, hf⟩ := h
        obtain ⟨ihl, ihr⟩ := List.forall_mem_cons.1 ih
        exact .product (ihl hl) (List.forall_mem_singleton.1 ihr hr) hf
      | _ => cases h
    | union left right =>
      cases b with
      | union left' right' =>
        rw [Expr.same, Bool.and_eq_true] at h
        obtain ⟨ihl, ihr⟩ := List.forall_mem_cons.1 ih
        exact .union (ihl h.1) (List.forall_mem_singleton.1 ihr h.2)
      | _ => cases h
    | filter kind left right strategy =>
      cases b with
      | filter kind' left' right' strategy' =>
        simp only [Expr.same, Bool.and_eq_true, beq_iff_eq] at h
        obtain ⟨⟨⟨rfl, hl⟩, hr⟩, rfl⟩ := h
        obtain ⟨ihl, ihr⟩ := List.forall_mem_cons.1 ih
        exact .filter kind strategy (ihl hl) (List.forall_mem_singleton.1 ihr hr)
      | _ => cases h

theorem same_iff_matches {a b : Expr} : a.same b = true ↔ a.Matches b := ⟨matches_of_same, Matches.same⟩

end Expr

/-! ## Forms -/

/-- Callbacks that are the same bear one name. -/
theorem Callback.label_eq_of_same {f g : Callback} (h : f.same g = true) : f.label = g.label := by
  cases f with
  | builtin b =>
    cases g with
    | builtin c =>
      rw [Callback.same, beq_iff_eq] at h
      rw [h]
    | _ => cases h
  | always =>
    cases g with
    | always => rfl
    | _ => cases h
  | function handle _ _ _ =>
    cases g with
    | function handle' _ _ _ =>
      rw [Callback.same, beq_iff_eq] at h
      obtain ⟨serial, form, name⟩ := handle
      subst h
      cases form <;> rfl
    | _ => cases h

theorem Expr.Matches.skeleton_eq {a b : Expr} (h : a.Matches b) : a.skeleton = b.skeleton := by
  induction h with
  | bare serial => rfl
  | terminal h => rw [skeleton, skeleton, h.length_eq]
  | selection _ hp ih => rw [skeleton, skeleton, ih, Callback.label_eq_of_same hp]
  | projection _ hf ih => rw [skeleton, skeleton, ih, Callback.label_eq_of_same hf]
  | join _ _ hp _ ihl ihr => rw [skeleton, skeleton, ihl, ihr, Callback.label_eq_of_same hp]
  | product _ _ _ ihl ihr => rw [skeleton, skeleton, ihl, ihr]
  | union _ _ ihl ihr => rw [skeleton, skeleton, ihl, ihr]
  | filter kind strategy _ _ ihl ihr => rw [skeleton, skeleton, ihl, ihr]

theorem Expr.Matches.repr_eq {a b : Expr} (h : a.Matches b) : a.repr = b.repr := by
  rw [repr_eq_text, repr_eq_text, h.skeleton_eq]

/-! ## Fields -/

theorem Value.equal_of_not_nan {v w : Value} (h : v.isNan = false) : v.equal w = v.same w := by
  rw [Value.equal, h, Bool.not_false, Bool.and_true]

theorem equal_expr {a b : Expr} : (Value.expr a).equal (.expr b) = a.same b := by
  rw [Value.equal_of_not_nan rfl, Value.same]

/-- Whatever field the one has, the other has too, with an equal value. -/
theorem Expr.Matches.field {a b : Expr} (h : a.Matches b) {field : String} {part : Value}
    (hp : a.field? field = some part) : ∃ part', b.field? field = some part' ∧ part.equal part' = true := by
  unfold field? at hp
  split at hp
  case h_18 =>
    -- the inner join of a product has the parts of the product
    cases h with
    | product hl hr hf =>
      cases hp
      refine ⟨_, rfl, ?_⟩
      rw [Value.equal_of_not_nan rfl, Value.same]
      exact (Matches.join hl hr (Callback.same_refl _) hf).same
    | _ => cases hp
  case h_19 => cases hp
  -- any other field holds a part that is compared: rows, a side, a callback or a strategy
  all_goals
    cases hp
    cases h
    refine ⟨_, rfl, ?_⟩
    rw [Value.equal_of_not_nan rfl]
    simp [Value.same, sameItems_iff, same_iff_matches, *]

/-- What equals a node is a node, what equals a builder is a builder, and their trees match. -/
theorem tree_of_equal {a b : Value} {e : Expr} (ha : a.tree? = some e) (h : a.equal b = true) :
    ∃ e', e.Matches e' ∧ (a = .expr e ∧ b = .expr e' ∨ a = .builder e ∧ b = .builder e') := by
  cases a with
  | expr _ =>
    cases ha
    cases b with
    | expr e' =>
      rw [equal_expr, Expr.same_iff_matches] at h
      exact ⟨e', h, .inl ⟨rfl, rfl⟩⟩
    | _ => cases h
  | builder _ =>
    cases ha
    cases b with
    | builder e' =>
      rw [Value.equal_of_not_nan rfl, Value.same, Expr.same_iff_matches] at h
      exact ⟨e', h, .inr ⟨rfl, rfl⟩⟩
    | _ => cases h
  | _ => cases ha

theorem Expr.Matches.builderRepr_eq {a b : Expr} (h : a.Matches b) : a.builderRepr = b.builderRepr := by
  unfold builderRepr
  rw [h.repr_eq]

theorem repr?_of_tree {v : Value} {e : Expr} (h : v.tree? = some e) : v.repr? = .ok v.repr := by
  cases v with
  | expr _ => exact if_pos rfl
  | builder _ => exact if_pos rfl
  | _ => cases h

/-- What equals a node or a builder is shown as it is. -/
theorem repr_of_equal {a b : Value} {e : Expr} (ha : a.tree? = some e) (h : a.equal b = true) :
    ∃ text, a.repr? = .ok text ∧ b.repr? = .ok text := by
  obtain ⟨e', hm, ⟨rfl, rfl⟩ | ⟨rfl, rfl⟩⟩ := tree_of_equal ha h
  · exact ⟨e'.repr, hm.repr_eq ▸ repr?_of_tree ha, repr?_of_tree rfl⟩
  · exact ⟨e'.builderRepr, hm.builderRepr_eq ▸ repr?_of_tree ha, repr?_of_tree rfl⟩

theorem field_of_equal {a b : Value} {e : Expr} (ha : a.tree? = some e) (h : a.equal b = true)
    {field : String} {part : Value} (hp : a.field? field = some part) :
    ∃ part', b.field? field = some part' ∧ part.equal part' = true := by
  obtain ⟨e', hm, ⟨rfl, rfl⟩ | ⟨rfl, rfl⟩⟩ := tree_of_equal ha h
  · exact hm.field hp
  · unfold Value.field? at hp
    split at hp
    case h_1 heq => cases heq
    case h_2 heq =>
      cases heq
      cases hp
      exact ⟨_, rfl, by rw [equal_expr, hm.same]⟩
    case h_3 => cases hp

theorem equal_symm_of_tree {a b : Value} {e : Expr} (ha : a.tree? = some e) (h : a.equal b = true) :
    b.equal a = true := by
  rcases same_iff_equal.1 (Value.same_symm (same_iff_equal.2 (.inl h))) with h | ⟨serial, -, rfl⟩
  · exact h
  · cases ha

theorem fields_of_equal {a b : Value} {e : Expr} (ha : a.tree? = some e) (h : a.equal b = true)
    (field : String) :
    Option.Rel (fun part part' => part.equal part' = true) (a.field? field) (b.field? field) := by
  cases hp : a.field? field with
  | some part =>
    obtain ⟨part', hp', hs⟩ := field_of_equal ha h hp
    rw [hp']
    exact .some hs
  | none =>
    cases hp' : b.field? field with
    | none => exact .none
    | some part' =>
      obtain ⟨e', -, ⟨rfl, rfl⟩ | ⟨rfl, rfl⟩⟩ := tree_of_equal ha h
      all_goals
        obtain ⟨part, hq, -⟩ := field_of_equal rfl (equal_symm_of_tree ha h) hp'
        rw [hp] at hq
        cases hq

/-! ## Hashing -/

/-- The values of which the hash is taken with that of a value: items of tuples, and the rows of all terminals
of nodes and builders. -/
inductive Value.Hashes : Value → Value → Prop where
  | self (v : Value) : Hashes v v
  | item {items : List Value} {v part : Value} (hv : v ∈ items) (h : Hashes v part) :
      Hashes (.tuple items) part
  | row {v row part : Value} {e : Expr} {rows : List Value} (tree : v.tree? = some e)
      (leaf : .terminal rows ∈ e.postorder) (hr : row ∈ rows) (h : Hashes row part) : Hashes v part

theorem hashableItems_iff {vs : List Value} : hashableItems vs = true ↔ ∀ v ∈ vs, v.hashable = true := by
  rw [hashableItems_eq_all, List.all_eq_true]

theorem hashable_of_tree {v : Value} {e : Expr} (h : v.tree? = some e) : v.hashable = e.hashable := by
  cases v with
  | expr _ => cases h; rfl
  | builder _ => cases h; rfl
  | _ => cases h

namespace Expr

theorem hashable_eq_sides {e : Expr} (hi : e.sides ≠ []) : e.hashable = e.sides.all hashable := by
  cases e <;> simp [sides, hashable] at hi ⊢

/-- A tree is hashable exactly if all rows of its leaves are. -/
theorem hashable_iff (e : Expr) :
    e.hashable = true ↔ ∀ rows, .terminal rows ∈ e.postorder → ∀ row ∈ rows, row.hashable = true := by
  induction e using sides_induction with
  | h e ih =>
    by_cases hi : e.sides = []
    · cases e with
      | bare serial => simp [hashable, postorder]
      | terminal rows => simp [hashable, postorder, hashableItems_iff]
      | _ => cases hi
    · rw [hashable_eq_sides hi, List.all_eq_true]
      constructor
      · intro h rows hr
        obtain ⟨s, hs, hr⟩ := (leaf_iff_sides hi).1 hr
        exact (ih s hs).1 (h s hs) rows hr
      · intro h s hs
        exact (ih s hs).2 fun rows hr => h rows ((leaf_iff_sides hi).2 ⟨s, hs, hr⟩)

end Expr

theorem hashable_tree_iff {v : Value} {e : Expr} (h : v.tree? = some e) :
    v.hashable = true ↔ ∀ rows, .terminal rows ∈ e.postorder → ∀ row ∈ rows, row.hashable = true := by
  rw [hashable_of_tree h, Expr.hashable_iff]

theorem Value.Hashes.hashable {v part : Value} (h : v.Hashes part) (hv : v.hashable = true) :
    part.hashable = true := by
  induction h with
  | self v => exact hv
  | item hm _ ih =>
    rw [Value.hashable] at hv
    exact ih (hashableItems_iff.1 hv _ hm)
  | row tree leaf hr _ ih => exact ih ((hashable_tree_iff tree).1 hv _ leaf _ hr)

theorem sizeOf_side_lt {e s : Expr} (h : s ∈ e.sides) : sizeOf s < sizeOf e := by
  cases e with
  | bare _ | terminal _ => cases h
  | selection _ _ | projection _ _ =>
    rw [Expr.sides, List.mem_singleton] at h
    subst h
    simp +arith
  | _ =>
    rw [Expr.sides, List.mem_pair] at h
    rcases h with rfl | rfl <;> simp +arith

theorem sizeOf_node_le {e node : Expr} (h : node ∈ e.postorder) : sizeOf node ≤ sizeOf e := by
  induction e using Expr.sides_induction with
  | h e ih =>
    rcases Expr.mem_postorder_iff.1 h with ⟨s, hs, hn⟩ | rfl
    · exact (ih s hs hn).trans (sizeOf_side_lt hs).le
    · exact le_rfl

theorem sizeOf_row_lt {v row : Value} {e : Expr} {rows : List Value} (tree : v.tree? = some e)
    (leaf : .terminal rows ∈ e.postorder) (hr : row ∈ rows) : sizeOf row < sizeOf v := by
  have hrow : sizeOf row < sizeOf rows := List.sizeOf_lt_of_mem hr
  have hleaf : sizeOf (Expr.terminal rows) ≤ sizeOf e := sizeOf_node_le leaf
  have htree : sizeOf e < sizeOf v := by
    cases v with
    | expr _ => cases tree; simp
    | builder _ => cases tree; simp
    | _ => cases tree
  rw [Expr.terminal.sizeOf_spec] at hleaf
  omega

/-- Where there is no hash, it is for a list or a dictionary. -/
theorem Value.exists_hashes (v : Value) (h : v.hashable = false) :
    ∃ part, v.Hashes part ∧ (part.category = .list ∨ part.category = .dict) := by
  cases ht : v.tree? with
  | some e =>
    have hn : ¬∀ rows, .terminal rows ∈ e.postorder → ∀ row ∈ rows, row.hashable = true := by
      rw [← hashable_tree_iff ht, h]
      exact Bool.false_ne_true
    push Not at hn
    obtain ⟨rows, leaf, row, hr, hrow⟩ := hn
    have := sizeOf_row_lt ht leaf hr
    obtain ⟨part, hp, hc⟩ := exists_hashes row (Bool.eq_false_iff.2 hrow)
    exact ⟨part, .row ht leaf hr hp, hc⟩
  | none =>
    cases v with
    | list cell items => exact ⟨_, .self _, .inl rfl⟩
    | dict entries => exact ⟨_, .self _, .inr rfl⟩
    | tuple items =>
      have hn : ¬∀ item ∈ items, item.hashable = true := by
        rw [← hashableItems_iff, ← Value.hashable, h]
        exact Bool.false_ne_true
      push Not at hn
      obtain ⟨item, hi, hitem⟩ := hn
      have := List.sizeOf_lt_of_mem hi
      obtain ⟨part, hp, hc⟩ := exists_hashes item (Bool.eq_false_iff.2 hitem)
      exact ⟨part, .item hi hp, hc⟩
    | expr e => cases ht
    | builder e => cases ht
    | _ => cases h
termination_by sizeOf v
decreasing_by
  · subst_vars
    rw [Value.tuple.sizeOf_spec]
    omega
  · assumption

theorem Value.hashable_iff_hashes (v : Value) :
    v.hashable = true ↔ ∀ part, v.Hashes part → part.category ≠ .list ∧ part.category ≠ .dict := by
  constructor
  · intro h part hp
    have hh := hp.hashable h
    constructor
    all_goals
      intro hc
      rw [hashable_of_category (b := false) (by rw [hc]; rfl)] at hh
      cases hh
  · intro h
    by_contra hn
    obtain ⟨part, hp, hc | hc⟩ := v.exists_hashes (Bool.eq_false_iff.2 hn)
    · exact (h part hp).1 hc
    · exact (h part hp).2 hc

/-! ## The laws -/

theorem makeJoin_eq {left right e : Expr} {predicate mapper : Callback}
    (h : Expr.makeJoin (.expr left) (.expr right) (.callable predicate) (.callable mapper) = .ok e) :
    e = .join left right predicate mapper := by
  obtain ⟨l, hl, h⟩ := ok_of_bind h
  obtain ⟨r, hr, h⟩ := ok_of_bind h
  obtain ⟨p, hp, h⟩ := ok_of_bind h
  obtain ⟨f, hf, h⟩ := ok_of_bind h
  cases require_ok hl
  cases require_ok hr
  cases (requireCallback_ok hp).1
  cases (requireCallback_ok hf).1
  cases h
  rfl

/-- The inner join that a product has is the one that its parts make under the predicate that always holds. -/
theorem makeProduct_joiner {left right mapper : Value} {e : Expr}
    (h : Expr.makeProduct left right mapper = .ok e) : ∃ joiner, e.joiner? = some joiner ∧
      Expr.makeJoin left right (.callable .always) mapper = .ok joiner := by
  obtain ⟨l, hl, h⟩ := ok_of_bind h
  obtain ⟨r, hr, h⟩ := ok_of_bind h
  obtain ⟨f, hf, h⟩ := ok_of_bind h
  obtain ⟨joiner, hj, h⟩ := ok_of_bind h
  cases h
  rw [require_ok hl, require_ok hr, (requireCallback_ok hf).1]
  exact ⟨joiner, congrArg some (makeJoin_eq hj).symm, hj⟩

theorem joiner_of_equal {a b : Expr} (h : (Value.expr a).equal (.expr b) = true) (hp : a.operator = .product) :
    ∃ joiner joiner', a.joiner? = some joiner ∧ b.joiner? = some joiner' ∧
      (Value.expr joiner).equal (.expr joiner') = true := by
  rw [equal_expr, Expr.same_iff_matches] at h
  cases h with
  | product hl hr hf =>
    refine ⟨_, _, rfl, rfl, ?_⟩
    rw [equal_expr]
    exact (Expr.Matches.join hl hr (Callback.same_refl _) hf).same
  | _ => cases hp

/-- What nodes and builders have in common with those that equal them, and which of them a set can hold. -/
structure NodeLaws : Prop where
  /-- They are shown alike. -/
  shown : ∀ (a b : Value) e, a.tree? = some e → a.equal b = true →
    ∃ text, a.repr? = .ok text ∧ b.repr? = .ok text
  /-- They have the same fields, with equal values. -/
  fields : ∀ (a b : Value) e, a.tree? = some e → a.equal b = true → ∀ field,
    Option.Rel (fun part part' => part.equal part' = true) (a.field? field) (b.field? field)
  /-- Products have equal inner joins, though these are not compared. -/
  joiner : ∀ a b : Expr, (Value.expr a).equal (.expr b) = true → a.operator = .product →
    ∃ joiner joiner', a.joiner? = some joiner ∧ b.joiner? = some joiner' ∧
      (Value.expr joiner).equal (.expr joiner') = true
  /-- The inner join of a product is what the constructor of joins makes of its parts. -/
  joined : ∀ left right mapper e, Expr.makeProduct left right mapper = .ok e →
    ∃ joiner, e.joiner? = some joiner ∧ Expr.makeJoin left right (.callable .always) mapper = .ok joiner
  /-- A set can hold those of which it can hold every row of every leaf. -/
  hashable : ∀ (v : Value) e, v.tree? = some e →
    (v.hashable = true ↔ ∀ rows, .terminal rows ∈ e.postorder → ∀ row ∈ rows, row.hashable = true)
  /-- It can hold a value unless there is a list or a dictionary in it, in tuples or rows of leaves. -/
  rows : ∀ v : Value, v.hashable = true ↔
    ∀ part, v.Hashes part → part.category ≠ .list ∧ part.category ≠ .dict

/-- Equal nodes look alike and have equal parts, compared or not; and the rows of its leaves decide whether a
set can hold a node. -/
theorem nodes_lawful : NodeLaws where
  shown _ _ _ := repr_of_equal
  fields _ _ _ := fields_of_equal
  joiner _ _ := joiner_of_equal
  joined _ _ _ _ := makeProduct_joiner
  hashable _ _ := hashable_tree_iff
  rows := Value.hashable_iff_hashes

/-- Products of rows that are equal numbers of different types, in tuples and in nodes; and such a product with
a list in a tuple, in a builder that is a row. -/
theorem nodes_lawful_products :
    let pair : Callback := .function ⟨0, .named, "<lambda>"⟩ [.required "a", .required "b"] (.argument "a") []
    let left (one : Value) : Expr := .terminal [.tuple [one, .expr (.terminal [one])]]
    let right (row : Value) : Expr := .union (.terminal [row]) (.terminal [.builder (.terminal [row])])
    let tree (one row : Value) : Expr := .product (left one) (right row) pair
    let a := tree (.int 1) .null
    let b := tree (.bool true) .null
    let listed := tree (.int 1) (.tuple [.list (some 4) []])
    (Value.builder a).equal (.builder b) = true ∧
      (∃ text, (Value.builder a).repr? = .ok text ∧ (Value.builder b).repr? = .ok text) ∧
      (∃ joiner joiner', a.joiner? = some joiner ∧ b.joiner? = some joiner' ∧
        (Value.expr joiner).equal (.expr joiner') = true) ∧
      (Value.expr a).hashable = true ∧ (Value.expr listed).hashable = false := by
  intro pair left right tree a b listed
  have hequal : (Value.builder a).equal (.builder b) = true := rfl
  refine ⟨hequal, nodes_lawful.shown _ _ _ rfl hequal, nodes_lawful.joiner _ _ rfl rfl, ?_, ?_⟩
  · rw [nodes_lawful.hashable _ _ rfl]
    simp [a, tree, left, right, Expr.postorder, Value.hashable, hashableItems, Expr.hashable]
  · let row : Value := .builder (.terminal [.tuple [.list (some 4) []]])
    have leaf : .terminal [row] ∈ listed.postorder := by simp [listed, tree, left, right, row, Expr.postorder]
    have item : (Value.tuple [.list (some 4) []]).Hashes (.list (some 4) []) :=
      .item (List.mem_singleton_self _) (.self _)
    have inner : row.Hashes (.list (some 4) []) :=
      .row rfl (Expr.mem_postorder_self _) (List.mem_singleton_self _) item
    rw [Bool.eq_false_iff, ne_eq, nodes_lawful.rows]
    exact fun h => (h _ (.row rfl leaf (List.mem_singleton_self _) inner)).1 rfl

end BagAlgebra
