/-
Filters inside filters. On bags they obey the laws of sets: intersections with two expressions keep the rows
that occur in both, in whatever order and nesting the expressions are met, and the difference with a union
leaves what is left after the one side and then the other are taken away. Matching is an equivalence, so a
row occurs in an intersection if it occurs in both sides; and taking rows away adds no shape to those that
are compared.
-/
import BagAlgebra.Proofs.Eval.Nested
import BagAlgebra.Proofs.Row.Covering

namespace BagAlgebra

open Comparing (filter union)

/-- A filter of the first side by the second, filtered by the third. -/
def filteredTwice (kind : FilterKind) (s t : Strategy) (a b c : Except Fault Expr) : Except Fault Expr :=
  (filter kind s).makeOn ((filter kind t).makeOn a b) c

/-- The intersection of the first side with that of the others. -/
def sharedWithShared (s t : Strategy) (a b c : Except Fault Expr) : Except Fault Expr :=
  (filter .intersection s).makeOn a ((filter .intersection t).makeOn b c)

/-- The difference of the first side with the union of the others. -/
def lessUnion (s : Strategy) (a b c : Except Fault Expr) : Except Fault Expr :=
  (filter .difference s).makeOn a (union.makeOn b c)

section Steady

variable {a b c : Except Fault Expr} (ha : Steady a) (hb : Steady b) (hc : Steady c)

include ha hb hc

theorem steady_filteredTwice (kind : FilterKind) (s t : Strategy) :
    Steady (filteredTwice kind s t a b c) :=
  (filter kind s).steady_makeOn ((filter kind t).steady_makeOn ha hb) hc

theorem steady_sharedWithShared (s t : Strategy) : Steady (sharedWithShared s t a b c) :=
  (filter .intersection s).steady_makeOn ha ((filter .intersection t).steady_makeOn hb hc)

theorem steady_lessUnion (s : Strategy) : Steady (lessUnion s a b c) :=
  (filter .difference s).steady_makeOn ha (union.steady_makeOn hb hc)

end Steady

/-! ## Two intersections -/

/-- The rows of the first side that occur in both of the others. -/
def Shared (a b c : Except Fault Expr) (rows : List Value) : Prop :=
  ∃ as bs cs, Yields a as ∧ Yields b bs ∧ Yields c cs ∧
    rows = as.filter fun row => occurs row bs && occurs row cs

section Intersections

variable {a b c : Except Fault Expr} {rows rows' : List Value}

theorem Shared.unique (h : Shared a b c rows) (h' : Shared a b c rows') : rows = rows' := by
  obtain ⟨as, bs, cs, ha, hb, hc, rfl⟩ := h
  obtain ⟨as', bs', cs', ha', hb', hc', rfl⟩ := h'
  rw [ha.unique ha', hb.unique hb', hc.unique hc']

theorem Shared.swap (h : Shared a b c rows) : Shared a c b rows := by
  obtain ⟨as, bs, cs, ha, hb, hc, rfl⟩ := h
  refine ⟨as, cs, bs, ha, hc, hb, ?_⟩
  simp only [Bool.and_comm]

variable (ha : Steady a) (hb : Steady b) (hc : Steady c) {s t : Strategy}

include ha hb hc

theorem shared_of_sharedWithShared (h : Yields (sharedWithShared s t a b c) rows) :
    Shared a b c rows := by
  have hi := (filter .intersection t).steady_makeOn hb hc
  obtain ⟨as, _, hya, hys, -, rfl⟩ := ((filter .intersection s).yields_makeOn_iff ha hi).1 h
  obtain ⟨bs, cs, hyb, hyc, -, rfl⟩ := ((filter .intersection t).yields_makeOn_iff hb hc).1 hys
  refine ⟨as, bs, cs, hya, hyb, hyc, ?_⟩
  simp only [Comparing.combine, FilterKind.keepsMatches, beq_true, occurs_filter]

theorem shared_of_filteredTwice (h : Yields (filteredTwice .intersection s t a b c) rows) :
    Shared a b c rows := by
  have hi := (filter .intersection t).steady_makeOn ha hb
  obtain ⟨_, cs, hys, hyc, -, rfl⟩ := ((filter .intersection s).yields_makeOn_iff hi hc).1 h
  obtain ⟨as, bs, hya, hyb, -, rfl⟩ := ((filter .intersection t).yields_makeOn_iff ha hb).1 hys
  refine ⟨as, bs, cs, hya, hyb, hyc, ?_⟩
  simp only [Comparing.combine, FilterKind.keepsMatches, List.filter_filter, beq_true, Bool.and_comm]

/-- Whichever way two intersections are nested, their rows are the shared ones. -/
theorem shared_of_nested {made : Except Fault Expr} (hm : made ∈ [sharedWithShared s t a b c,
      filteredTwice .intersection s t a b c, filteredTwice .intersection s t a c b])
    {store : Store} (h : buildThenEval made store = .ok rows) : Shared a b c rows := by
  simp only [List.mem_cons, List.not_mem_nil, or_false] at hm
  obtain rfl | rfl | rfl := hm
  · exact shared_of_sharedWithShared ha hb hc ((steady_sharedWithShared ha hb hc s t).yields h)
  · exact shared_of_filteredTwice ha hb hc ((steady_filteredTwice ha hb hc _ s t).yields h)
  · exact (shared_of_filteredTwice ha hc hb ((steady_filteredTwice ha hc hb _ s t).yields h)).swap

end Intersections

/-! ## Two differences -/

/-- The rows of the first side that occur in neither of the others, where all three are uniform together. -/
def LeftOver (a b c : Except Fault Expr) (rows : List Value) : Prop :=
  ∃ as bs cs, Yields a as ∧ Yields b bs ∧ Yields c cs ∧ Uniform (as ++ (bs ++ cs)) ∧
    rows = as.filter fun row => !(occurs row bs || occurs row cs)

section Differences

variable {a b c : Except Fault Expr} {rows : List Value}

theorem LeftOver.swap (h : LeftOver a b c rows) : LeftOver a c b rows := by
  obtain ⟨as, bs, cs, ha, hb, hc, hu, rfl⟩ := h
  have hperm : (as ++ (cs ++ bs)).Perm (as ++ (bs ++ cs)) := List.perm_append_comm.append_left as
  refine ⟨as, cs, bs, ha, hc, hb, hu.subset hperm.subset, ?_⟩
  simp only [Bool.or_comm]

variable (ha : Steady a) (hb : Steady b) (hc : Steady c) {s t : Strategy}

include ha hb hc

theorem leftOver_of_lessUnion (h : Yields (lessUnion s a b c) rows) : LeftOver a b c rows := by
  have hi := union.steady_makeOn hb hc
  obtain ⟨as, _, hya, hyu, hall, rfl⟩ := ((filter .difference s).yields_makeOn_iff ha hi).1 h
  obtain ⟨bs, cs, hyb, hyc, -, rfl⟩ := (union.yields_makeOn_iff hb hc).1 hyu
  refine ⟨as, bs, cs, hya, hyb, hyc, hall, ?_⟩
  simp only [Comparing.combine, FilterKind.keepsMatches, occurs_append, beq_false]

/-- What is left over comes of two differences. Each compares rows that are uniform together: those of the
sides, and of the first side perhaps not even all. -/
theorem LeftOver.yields_filteredTwice (h : LeftOver a b c rows) :
    Yields (filteredTwice .difference s t a b c) rows := by
  obtain ⟨as, bs, cs, hya, hyb, hyc, hall, rfl⟩ := h
  have hi := (filter .difference t).steady_makeOn ha hb
  rw [← List.append_assoc] at hall
  have hinner : Yields ((filter .difference t).makeOn a b) (as.filter fun row => !occurs row bs) := by
    refine ((filter .difference t).yields_makeOn_iff ha hb).2 ⟨as, bs, hya, hyb, ?_, ?_⟩
    · exact hall.subset (List.subset_append_left ..)
    · simp only [Comparing.combine, FilterKind.keepsMatches, beq_false]
  refine ((filter .difference s).yields_makeOn_iff hi hc).2 ⟨_, cs, hinner, hyc, hall.subset ?_, ?_⟩
  · refine List.append_subset.2 ⟨fun row hr => ?_, List.subset_append_right ..⟩
    exact List.mem_append_left _ (List.mem_append_left _ (List.mem_of_mem_filter hr))
  · simp only [Comparing.combine, FilterKind.keepsMatches, List.filter_filter, beq_false, Bool.not_or,
      Bool.and_comm]

end Differences

/-! ## Laws -/

/-- Two intersections with a pure expression come to one list of rows, if they come to any, whichever way
they are nested and whatever their strategies. Where the difference with a union can be built and evaluated,
so can the two differences with its sides, in either order, and they have the same rows: those of the first
expression that occur in neither side, in order and as often as there. -/
theorem nested_filters {a b c : Expr} (ha : a.Pure) (hb : b.Pure) (hc : c.Pure) :
    (∃ shared, ∀ s t, ∀ made ∈ [sharedWithShared s t (.ok a) (.ok b) (.ok c),
        filteredTwice .intersection s t (.ok a) (.ok b) (.ok c),
        filteredTwice .intersection s t (.ok a) (.ok c) (.ok b)],
      ∀ store rows, buildThenEval made store = .ok rows → rows = shared) ∧
    ∀ s store rows, buildThenEval (lessUnion s (.ok a) (.ok b) (.ok c)) store = .ok rows →
      (∀ s' t store',
        buildThenEval (filteredTwice .difference s' t (.ok a) (.ok b) (.ok c)) store' = .ok rows ∧
        buildThenEval (filteredTwice .difference s' t (.ok a) (.ok c) (.ok b)) store' = .ok rows) ∧
      ∃ as bs cs, a.eval.Gives (.ok as) ∧ b.eval.Gives (.ok bs) ∧ c.eval.Gives (.ok cs) ∧
        rows = as.filter fun row => !(occurs row bs || occurs row cs) := by
  have sa := steady_ok ha
  have sb := steady_ok hb
  have sc := steady_ok hc
  refine ⟨?_, fun s store rows h => ?_⟩
  · obtain ⟨shared, hs⟩ | hnone := exists_or_forall_not (Shared (.ok a) (.ok b) (.ok c))
    · exact ⟨shared, fun s t made hm store rows h => (shared_of_nested sa sb sc hm h).unique hs⟩
    · exact ⟨[], fun s t made hm store rows h => absurd (shared_of_nested sa sb sc hm h) (hnone rows)⟩
  · have hleft := leftOver_of_lessUnion sa sb sc ((steady_lessUnion sa sb sc s).yields h)
    refine ⟨fun s' t store' => ⟨?_, ?_⟩, ?_⟩
    · exact hleft.yields_filteredTwice sa sb sc store'
    · exact hleft.swap.yields_filteredTwice sa sc sb store'
    · obtain ⟨as, bs, cs, hya, hyb, hyc, -, hrows⟩ := hleft
      exact ⟨as, bs, cs, hya, hyb, hyc, hrows⟩

/-- Pairs that a projection makes on one side, and a leaf of pairs on the other: numbers of two types, a list
that no set can hold, and two objects that are "not a number", of which one occurs nowhere else. -/
theorem nested_filters_pairs :
    let double : Callback :=
      .function ⟨0, .named, "double"⟩ [.required "x"] (.tuple [.argument "x", .argument "x"]) []
    let a : Expr := .terminal [.tuple [.int 1, .bool true], .tuple [.nan 7, .nan 7],
      .tuple [.list none [.int 2], .list none [.int 2]], .tuple [.nan 8, .nan 8], .tuple [.int 1, .int 1]]
    let b : Expr := .projection (.terminal [.int 1, .list none [.int 2]]) double
    let c : Expr := .terminal [.tuple [.nan 7, .nan 7], .tuple [.bool true, .int 1]]
    let shared : List Value := [.tuple [.int 1, .bool true], .tuple [.int 1, .int 1]]
    let rest : List Value := [.tuple [.nan 8, .nan 8]]
    a.Pure ∧ b.Pure ∧ c.Pure ∧
      buildThenEval (sharedWithShared .hash .scan (.ok a) (.ok b) (.ok c)) .empty = .ok shared ∧
      buildThenEval (lessUnion .hash (.ok a) (.ok b) (.ok c)) .empty = .ok rest ∧
      (∀ s t store rows, buildThenEval (filteredTwice .intersection s t (.ok a) (.ok c) (.ok b)) store
        = .ok rows → rows = shared) ∧
      ∀ s t store,
        buildThenEval (filteredTwice .difference s t (.ok a) (.ok c) (.ok b)) store = .ok rest := by
  intro double a b c shared rest
  have ha : a.Pure := Expr.pure_terminal _
  have hb : b.Pure := Expr.pure_projection (Expr.pure_terminal _) fun _ _ _ => rfl
  have hc : c.Pure := Expr.pure_terminal _
  have hshared :
      buildThenEval (sharedWithShared .hash .scan (.ok a) (.ok b) (.ok c)) .empty = .ok shared := rfl
  have hrest : buildThenEval (lessUnion .hash (.ok a) (.ok b) (.ok c)) .empty = .ok rest := rfl
  obtain ⟨⟨common, hcommon⟩, hless⟩ := nested_filters ha hb hc
  have heq : shared = common := hcommon _ _ _ (List.mem_cons_self ..) _ _ hshared
  refine ⟨ha, hb, hc, hshared, hrest, fun s t store rows h => ?_, fun s t store => ?_⟩
  · rw [heq]
    exact hcommon s t _ (by simp) store rows h
  · exact ((hless _ _ _ hrest).1 s t store).2

end BagAlgebra
