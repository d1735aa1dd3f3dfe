/-
The right side of an intersection or a difference. It is a test of membership and nothing else: the more
rows occur in it, the more rows of the left side are kept by the intersection and the fewer by the
difference, and right sides in which the same rows occur cannot be told apart, however their rows are
ordered, repeated or written.
-/
import BagAlgebra.Proofs.Law.Partition
import BagAlgebra.Proofs.Row.Covering

namespace BagAlgebra

section Filters

variable {a b b' : Expr} {rights rights' rows : List Value}

/-- A filter of a pure left side has the rows of it that pass the test of the right one, where the two sides
are uniform together. -/
theorem filtered_ok_iff (ha : a.Pure) (hr : b.eval.Gives (.ok rights)) (kind : FilterKind)
    (strategy : Strategy) (store : Store) :
    filtered kind strategy a b store = .ok rows ↔
      ∃ lefts, a.eval.Gives (.ok lefts) ∧ Uniform (lefts ++ rights) ∧
        rows = lefts.filter fun row => occurs row rights == kind.keepsMatches := by
  refine ((Comparing.filter kind strategy).buildThenEval_ok_iff a b).trans ?_
  constructor
  · rintro ⟨lefts, rights', hl, hr', hu, rfl⟩
    rw [hr] at hr'
    cases hr'
    exact ⟨lefts, fun store' => (ha.stable store' _).trans hl, hu, rfl⟩
  · rintro ⟨lefts, hl, hu, rfl⟩
    exact ⟨lefts, rights, hl _, hr _, hu, rfl⟩

/-- A filter that succeeds on a right side succeeds on every right side that it covers. -/
theorem filtered_of_covered (ha : a.Pure) (hr : b.eval.Gives (.ok rights))
    (hr' : b'.eval.Gives (.ok rights')) (hc : CoveredBy rights rights') {kind : FilterKind}
    {strategy : Strategy} {store : Store} (h : filtered kind strategy a b' store = .ok rows) :
    ∃ lefts : List Value, rows = (lefts.filter fun row => occurs row rights' == kind.keepsMatches) ∧
      ∀ strategy' store', filtered kind strategy' a b store' =
        .ok (lefts.filter fun row => occurs row rights == kind.keepsMatches) := by
  obtain ⟨lefts, hl, hu, rfl⟩ := (filtered_ok_iff ha hr' kind strategy store).1 h
  refine ⟨lefts, rfl, fun strategy' store' => ?_⟩
  exact (filtered_ok_iff ha hr kind strategy' store').2 ⟨lefts, hl, hu.of_covered hc, rfl⟩

/-- Right sides that cover each other give the same rows, if they give any. -/
theorem filtered_of_equivalent (ha : a.Pure) (hr : b.eval.Gives (.ok rights))
    (hr' : b'.eval.Gives (.ok rights')) (hc : CoveredBy rights rights') (hc' : CoveredBy rights' rights)
    {kind : FilterKind} {strategy : Strategy} {store : Store}
    (h : filtered kind strategy a b' store = .ok rows) (strategy' : Strategy) (store' : Store) :
    filtered kind strategy' a b store' = .ok rows := by
  obtain ⟨lefts, rfl, hall⟩ := filtered_of_covered ha hr hr' hc h
  rw [hall]
  simp only [occurs_eq_of_covered hc hc']

end Filters

/-- Pure expressions of which the rows of the second occur in the third: where a filter of the first by the
third succeeds, so does that by the second. The intersection by the second is part of that by the third, and
the difference by the third part of that by the second. If the rows of the third occur in the second too, the
filters succeed together and have the same rows. -/
theorem filters_monotone {a b b' : Expr} (ha : a.Pure) (hb : b.Pure) (hb' : b'.Pure)
    {store store' : Store} {rights rights' : List Value} (hr : (b.eval store).result = .ok rights)
    (hr' : (b'.eval store').result = .ok rights') (hc : CoveredBy rights rights') :
    (∀ s' start' kept', filtered .intersection s' a b' start' = .ok kept' → ∃ kept,
      (∀ s start, filtered .intersection s a b start = .ok kept) ∧ kept.Sublist kept') ∧
    (∀ s' start' rest', filtered .difference s' a b' start' = .ok rest' → ∃ rest,
      (∀ s start, filtered .difference s a b start = .ok rest) ∧ rest'.Sublist rest) ∧
    (CoveredBy rights' rights → ∀ kind s s' start start' rows,
      filtered kind s a b start = .ok rows ↔ filtered kind s' a b' start' = .ok rows) := by
  have hg : b.eval.Gives (.ok rights) := fun start => (hb.stable start store).trans hr
  have hg' : b'.eval.Gives (.ok rights') := fun start => (hb'.stable start store').trans hr'
  refine ⟨fun s' start' kept' h => ?_, fun s' start' rest' h => ?_,
    fun hc' kind s s' start start' rows => ⟨fun h => ?_, fun h => ?_⟩⟩
  · obtain ⟨lefts, rfl, hall⟩ := filtered_of_covered ha hg hg' hc h
    exact ⟨_, hall, filter_sublist_of_covered hc lefts⟩
  · obtain ⟨lefts, rfl, hall⟩ := filtered_of_covered ha hg hg' hc h
    exact ⟨_, hall, filter_not_sublist_of_covered hc lefts⟩
  · exact filtered_of_equivalent ha hg' hg hc' hc h s' start'
  · exact filtered_of_equivalent ha hg hg' hc hc' h s start

/-- Zeros of three types beside an object that is "not a number", and a pair that no set can hold. The second
right side has more rows than the first, and the third has those of the second in another order, repeated,
and with other zeros. -/
theorem filters_monotone_zeros :
    let listed : Value := .tuple [.list none [.int 2], .null]
    let other : Value := .tuple [.nan 7, .text "x"]
    let lefts : List Value := [.tuple [.int 0, .nan 7], other, .tuple [.bool false, .nan 7], listed]
    let few : List Value := [.tuple [.float (.zero true), .nan 7]]
    let more : List Value := [.tuple [.bool false, .nan 7], listed]
    let rewritten : List Value :=
      [listed, .tuple [.int 0, .nan 7], listed, .tuple [.float (.zero false), .nan 7]]
    let a : Expr := .terminal lefts
    a.Pure ∧ CoveredBy few more ∧ CoveredBy more rewritten ∧ CoveredBy rewritten more ∧
      (∃ kept, (∀ s start, filtered .intersection s a (.terminal few) start = .ok kept) ∧
        kept.Sublist [.tuple [.int 0, .nan 7], .tuple [.bool false, .nan 7], listed]) ∧
      (∃ rest, (∀ s start, filtered .difference s a (.terminal few) start = .ok rest) ∧
        [other].Sublist rest) ∧
      ∀ s start, filtered .difference s a (.terminal rewritten) start = .ok [other] := by
  intro listed other lefts few more rewritten a
  have pure (rows : List Value) : (Expr.terminal rows).Pure := Expr.pure_terminal rows
  have hfew : CoveredBy few more := List.all_eq_true.1 (by decide +kernel)
  have hmore : CoveredBy more rewritten := List.all_eq_true.1 (by decide +kernel)
  have hrewritten : CoveredBy rewritten more := List.all_eq_true.1 (by decide +kernel)
  have hrows : ∀ rows, ((Expr.terminal rows).eval .empty).result = .ok rows := fun _ => rfl
  obtain ⟨hi, hd, -⟩ :=
    filters_monotone (pure lefts) (pure few) (pure more) (hrows few) (hrows more) hfew
  obtain ⟨-, -, hiff⟩ :=
    filters_monotone (pure lefts) (pure more) (pure rewritten) (hrows more) (hrows rewritten) hmore
  exact ⟨pure lefts, hfew, hmore, hrewritten, hi .hash .empty _ rfl, hd .scan .empty _ rfl,
    fun s start => (hiff hrewritten .difference .hash s .empty start _).1 rfl⟩

end BagAlgebra
