/-
Calls under new names. A callback and its renamed form, applied to rows and to their renamed forms,
run in step.
-/
import BagAlgebra.Callback.Call
import BagAlgebra.Proofs.Identity.InStep

namespace BagAlgebra

open Renaming

variable {r : Renaming} {store store' : Store}

/-! ## Arithmetic -/

/-- Both runs make a "not a number". -/
theorem nan_inStep (hs : r.Stores store store') :
    r.InStep store store' r.Renames (do return .nan (← Run.fresh)) (do return .nan (← Run.fresh)) := by
  refine (inStep_fresh hs).map fun limit m n h => ?_
  obtain ⟨rfl, hm, _⟩ := h
  exact ⟨rfl, List.forall_mem_singleton.2 ⟨hm, fun h => by cases h⟩⟩

theorem ofNumber_inStep (hs : r.Stores store store') (n : Number) :
    r.InStep store store' r.Renames (Value.ofNumber n) (Value.ofNumber n) := by
  unfold Value.ofNumber
  split
  · exact inStep_pure hs (renames_plain rfl)
  · exact inStep_pure hs (renames_plain rfl)
  · exact nan_inStep hs

section Arithmetic

variable {v w v' w' : Value} (hs : r.Stores store store') (hv : r.Renames store.fresh v v')
  (hw : r.Renames store.fresh w w')

include hs hv

theorem neg_inStep : r.InStep store store' r.Renames v.neg v'.neg := by
  unfold Value.neg
  rw [hv.1, Value.number?_rename]
  split
  · exact ofNumber_inStep hs _
  · exact inStep_fail hs _

include hw

theorem numeric_inStep (op : Number → Number → Except NumberFault Number) :
    r.InStep store store' r.Renames (Value.numeric op v w) (Value.numeric op v' w') := by
  unfold Value.numeric
  rw [hv.1, hw.1, Value.number?_rename, Value.number?_rename]
  split
  · split
    · exact ofNumber_inStep hs _
    · exact inStep_fail hs _
  · exact inStep_fail hs _

theorem add_inStep : r.InStep store store' r.Renames (v.add w) (v'.add w') := by
  have hn := numeric_inStep hs hv hw Number.add
  obtain ⟨rfl, hkv⟩ := hv
  obtain ⟨rfl, hkw⟩ := hw
  cases v with
  | text s =>
    cases w with
    | text t => exact inStep_pure hs (renames_plain rfl)
    | _ => exact hn
  | tuple xs =>
    cases w with
    | tuple ys => exact inStep_pure hs (renames_tuple.2 (renamesItems_append ⟨rfl, hkv⟩ ⟨rfl, hkw⟩))
    | _ => exact hn
  | list cell xs =>
    cases w with
    | list cell' ys =>
      have hx : r.RenamesItems store.fresh xs _ := ⟨rfl, hkv.subset (List.subset_append_right ..)⟩
      have hy : r.RenamesItems store.fresh ys _ := ⟨rfl, hkw.subset (List.subset_append_right ..)⟩
      exact inStep_pure hs (renames_list.2 (renamesItems_append hx hy))
    | _ => exact hn
  | _ => exact hn

end Arithmetic

theorem repeated_renames {limit : Nat} {vs ws : List Value} (h : r.RenamesItems limit vs ws)
    (count : Int) :
    ResultsCorrespond (r.RenamesItems limit) (Value.repeated count vs) (Value.repeated count ws) := by
  obtain ⟨rfl, hk⟩ := h
  unfold Value.repeated
  rw [renameItems_eq_map, List.length_map]
  cases Value.copies count vs.length with
  | error fault => exact .error fault
  | ok n =>
    have hsub : (List.replicate n vs).flatten ⊆ vs := by
      intro v hv
      obtain ⟨l, hl, hv⟩ := List.mem_flatten.1 hv
      rwa [List.eq_of_mem_replicate hl] at hv
    have hr := renamesItems_subset ⟨rfl, hk⟩ hsub
    rw [renameItems_eq_map, List.map_flatten, List.map_replicate] at hr
    exact .ok hr

/-- What is repeated corresponds, where anything is. -/
theorem repeat?_renames {limit : Nat} {v w : Value} (h : r.Renames limit v w) (count : Int) :
    (v.repeat? count = none ∧ w.repeat? count = none) ∨
      ∃ a b, v.repeat? count = some a ∧ w.repeat? count = some b ∧
        ResultsCorrespond (r.Renames limit) a b := by
  obtain ⟨rfl, hk⟩ := h
  cases v with
  | text s =>
    refine .inr ⟨_, _, rfl, rfl, ?_⟩
    cases Value.repeatedText count s with
    | error fault => exact .error fault
    | ok t => exact .ok (renames_plain rfl)
  | tuple vs =>
    exact .inr ⟨_, _, rfl, rfl, (repeated_renames ⟨rfl, hk⟩ count).map fun _ _ h => renames_tuple.2 h⟩
  | list cell vs =>
    have hvs : r.RenamesItems limit vs _ := ⟨rfl, hk.subset (List.subset_append_right ..)⟩
    exact .inr ⟨_, _, rfl, rfl, (repeated_renames hvs count).map fun _ _ h => renames_list.2 h⟩
  | _ => exact .inl ⟨rfl, rfl⟩

theorem bind_repeat?_renames {limit : Nat} {v w : Value} (h : r.Renames limit v w)
    (count : Option Int) :
    (count.bind v.repeat? = none ∧ count.bind w.repeat? = none) ∨
      ∃ a b, count.bind v.repeat? = some a ∧ count.bind w.repeat? = some b ∧
        ResultsCorrespond (r.Renames limit) a b := by
  cases count with
  | none => exact .inl ⟨rfl, rfl⟩
  | some n => exact repeat?_renames h n

theorem mul_inStep {v w v' w' : Value} (hs : r.Stores store store')
    (hv : r.Renames store.fresh v v') (hw : r.Renames store.fresh w w') :
    r.InStep store store' r.Renames (v.mul w) (v'.mul w') := by
  have hn := numeric_inStep hs hv hw Number.mul
  have hiv : v'.int? = v.int? := by rw [hv.1, Value.int?_rename]
  have hiw : w'.int? = w.int? := by rw [hw.1, Value.int?_rename]
  unfold Value.mul
  rw [hiv, hiw]
  rcases bind_repeat?_renames hw v.int? with ⟨h1, h1'⟩ | ⟨a, b, h1, h1', hab⟩
  · rw [h1, h1']
    rcases bind_repeat?_renames hv w.int? with ⟨h2, h2'⟩ | ⟨a, b, h2, h2', hab⟩
    · rw [h2, h2']
      exact hn
    · rw [h2, h2']
      exact inStep_ofExcept hs hab
  · rw [h1, h1']
    exact inStep_ofExcept hs hab

/-! ## Literals -/

theorem ofValues_renames {limit : Nat} {vs ws : List Value} (h : r.RenamesItems limit vs ws) :
    Span.ofValues ws = Span.ofValues vs := by
  rw [h.1]
  match vs with
  | [] => rfl
  | [a] => simp only [renameItems, Span.ofValues, Value.int?_rename]
  | [a, b] => simp only [renameItems, Span.ofValues, Value.int?_rename]
  | [a, b, c] => simp only [renameItems, Span.ofValues, Value.int?_rename]
  | a :: b :: c :: d :: rest => rfl

/-- A progression made from values that correspond. -/
theorem range_inStep (hs : r.Stores store store') {vs ws : List Value}
    (h : r.RenamesItems store.fresh vs ws) :
    r.InStep store store' r.Renames (do return .range (← Span.ofValues vs))
      (do return .range (← Span.ofValues ws)) :=
  inStep_known hs (ofValues_renames h) fun _ _ => inStep_pure hs (renames_plain rfl)

section Literals

variable {captured captured' : List Value}

mutual

theorem literal_inStep : ∀ (l : Literal) {store store' : Store}, r.Stores store store' →
    r.RenamesItems store.fresh captured captured' →
      r.InStep store store' r.Renames (l.make captured) (l.make captured')
  | .null, _, _, hs, _ => inStep_pure hs (renames_plain rfl)
  | .bool _, _, _, hs, _ => inStep_pure hs (renames_plain rfl)
  | .int _, _, _, hs, _ => inStep_pure hs (renames_plain rfl)
  | .float _, _, _, hs, _ => inStep_pure hs (renames_plain rfl)
  | .nan, _, _, hs, _ => nan_inStep hs
  | .text _, _, _, hs, _ => inStep_pure hs (renames_plain rfl)
  | .tuple items, _, _, hs, hc => by
    rw [Literal.make, Literal.make]
    exact (literals_inStep items hs hc).map fun _ _ _ h => renames_tuple.2 h
  | .list items, _, _, hs, hc => by
    rw [Literal.make, Literal.make]
    exact (literals_inStep items hs hc).map fun _ _ _ h => renames_list.2 h
  | .dict entries, _, _, hs, hc => by
    rw [Literal.make, Literal.make]
    exact (literalEntries_inStep entries hs hc ⟨rfl, known_nil _ _⟩).map fun _ _ _ h =>
      renames_dict.2 h
  | .generator items, _, _, hs, hc => by
    rw [Literal.make, Literal.make]
    refine (literals_inStep items hs hc).bind fun vs ws mid mid' _ hm hv => ?_
    refine (inStep_fresh hm).bind fun m n last last' hg hl h => inStep_pure hl ?_
    obtain ⟨rfl, hlt, hle⟩ := h
    obtain ⟨rfl, hk⟩ := hv.mono hg
    exact ⟨rfl, List.forall_mem_cons.2 ⟨⟨hlt, fun _ => hle⟩, hk⟩⟩
  | .range arguments, _, _, hs, hc => by
    rw [Literal.make, Literal.make]
    exact (literals_inStep arguments hs hc).bind fun vs ws mid mid' _ hm hv => range_inStep hm hv
  | .captured slot, _, _, hs, hc => inStep_pure hs (capturedAt_renames hc slot)
termination_by structural l => l

theorem literals_inStep : ∀ (ls : List Literal) {store store' : Store}, r.Stores store store' →
    r.RenamesItems store.fresh captured captured' →
      r.InStep store store' r.RenamesItems (makeItems captured ls) (makeItems captured' ls)
  | [], _, _, hs, _ => inStep_pure hs renamesItems_nil
  | l :: ls, _, _, hs, hc => by
    rw [makeItems, makeItems]
    refine (literal_inStep l hs hc).bind fun v w mid mid' hg hm hv => ?_
    refine (literals_inStep ls hm (hc.mono hg)).bind fun vs ws last last' hg' hl hvs => ?_
    exact inStep_pure hl (renamesItems_cons.2 ⟨hv.mono hg', hvs⟩)
termination_by structural ls => ls

theorem literalEntries_inStep : ∀ (es : List LiteralEntry) {store store' : Store},
    r.Stores store store' → r.RenamesItems store.fresh captured captured' →
      ∀ {done done' : List Entry}, r.RenamesEntries store.fresh done done' →
        r.InStep store store' r.RenamesEntries (makeEntries captured done es)
          (makeEntries captured' done' es)
  | [], _, _, hs, _, _, _, hd => inStep_pure hs hd
  | e :: es, _, _, hs, hc, _, _, hd => by
    rw [makeEntries, makeEntries]
    refine (literalEntry_inStep e hs hc).bind fun p q mid mid' hg hm hpq => ?_
    obtain ⟨key, value⟩ := p
    obtain ⟨key', value'⟩ := q
    obtain ⟨hk, hv⟩ := hpq
    dsimp only at hk hv ⊢
    rw [hk.1, Value.hashable_rename, ← hk.1]
    cases key.hashable with
    | false => exact inStep_fail hm _
    | true => exact literalEntries_inStep es hm (hc.mono hg) (putEntry_renames (hd.mono hg) hk hv)
termination_by structural es => es

theorem literalEntry_inStep : ∀ (e : LiteralEntry) {store store' : Store}, r.Stores store store' →
    r.RenamesItems store.fresh captured captured' →
      r.InStep store store' (fun limit p q => r.Renames limit p.1 q.1 ∧ r.Renames limit p.2 q.2)
        (e.make captured) (e.make captured')
  | .mk key value, _, _, hs, hc => by
    rw [LiteralEntry.make, LiteralEntry.make]
    refine (literal_inStep key hs hc).bind fun k k' mid mid' hg hm hk => ?_
    refine (literal_inStep value hm (hc.mono hg)).bind fun v v' last last' hg' hl hv => ?_
    exact inStep_pure hl ⟨hk.mono hg', hv⟩
termination_by structural e => e

end

end Literals

/-! ## Bodies -/

theorem apply_inStep (op : BinaryOp) {v w v' w' : Value} (hs : r.Stores store store')
    (hv : r.Renames store.fresh v v') (hw : r.Renames store.fresh w w') :
    r.InStep store store' r.Renames (op.apply v w) (op.apply v' w') := by
  cases op with
  | eq =>
    rw [BinaryOp.apply, BinaryOp.apply, hv.1, hw.1, Value.equal_rename]
    exact inStep_pure hs (renames_plain rfl)
  | ne =>
    rw [BinaryOp.apply, BinaryOp.apply, hv.1, hw.1, Value.equal_rename]
    exact inStep_pure hs (renames_plain rfl)
  | order relation =>
    have ho : v'.order relation w' = v.order relation w := by
      rw [hv.1, hw.1, Value.order_rename]
    exact inStep_known hs ho fun _ _ => inStep_pure hs (renames_plain rfl)
  | add => exact add_inStep hs hv hw
  | sub => exact numeric_inStep hs hv hw _
  | mul => exact mul_inStep hs hv hw
  | floorDiv => exact numeric_inStep hs hv hw _
  | floorMod =>
    rw [BinaryOp.apply, BinaryOp.apply, Value.floorMod_eq_numeric, Value.floorMod_eq_numeric]
    exact numeric_inStep hs hv hw _

section Bodies

variable {captured captured' : List Value} {scope scope' : Scope}

mutual

/-- A body evaluated with values and with their renamed forms. -/
theorem code_inStep : ∀ (c : Code) {store store' : Store}, r.Stores store store' →
    r.RenamesScope store.fresh scope scope' → r.RenamesItems store.fresh captured captured' →
      r.InStep store store' r.Renames (c.eval scope captured) (c.eval scope' captured')
  | .argument name, _, _, hs, hscope, _ => by
    rw [Code.eval, Code.eval]
    rcases scope_lookup hscope name with ⟨h, h'⟩ | ⟨v, w, h, h', hv⟩
    · rw [h, h']
      exact inStep_fail hs _
    · rw [h, h']
      exact inStep_pure hs hv
  | .literal data, _, _, hs, _, hc => by
    rw [Code.eval, Code.eval]
    exact literal_inStep data hs hc
  | .tuple items, _, _, hs, hscope, hc => by
    rw [Code.eval, Code.eval]
    exact (codes_inStep items hs hscope hc).map fun _ _ _ h => renames_tuple.2 h
  | .list items, _, _, hs, hscope, hc => by
    rw [Code.eval, Code.eval]
    exact (codes_inStep items hs hscope hc).map fun _ _ _ h => renames_list.2 h
  | .item container index, _, _, hs, hscope, hc => by
    rw [Code.eval, Code.eval]
    refine (code_inStep container hs hscope hc).bind fun v w mid mid' hg hm hv => ?_
    refine (code_inStep index hm (hscope.mono hg) (hc.mono hg)).bind fun i j last last' hg' hl hi => ?_
    exact inStep_ofExcept hl (item_renames (hv.mono hg') hi)
  | .length operand, _, _, hs, hscope, hc => by
    rw [Code.eval, Code.eval]
    refine (code_inStep operand hs hscope hc).bind fun v w mid mid' _ hm hv => ?_
    have h : w.length? = v.length? := by rw [hv.1, Value.length?_rename]
    exact inStep_known hm h fun _ _ => inStep_pure hm (renames_plain rfl)
  | .str operand, _, _, hs, hscope, hc => by
    rw [Code.eval, Code.eval]
    refine (code_inStep operand hs hscope hc).bind fun v w mid mid' _ hm hv => ?_
    have h : w.str? = v.str? := by rw [hv.1, Value.str?_rename]
    exact inStep_known hm h fun _ _ => inStep_pure hm (renames_plain rfl)
  | .not operand, _, _, hs, hscope, hc => by
    rw [Code.eval, Code.eval]
    refine (code_inStep operand hs hscope hc).map fun limit v w hv => ?_
    rw [hv.1, Value.truthy_rename]
    exact renames_plain rfl
  | .neg operand, _, _, hs, hscope, hc => by
    rw [Code.eval, Code.eval]
    exact (code_inStep operand hs hscope hc).bind fun v w mid mid' _ hm hv => neg_inStep hm hv
  | .binary op a b, _, _, hs, hscope, hc => by
    rw [Code.eval, Code.eval]
    refine (code_inStep a hs hscope hc).bind fun v w mid mid' hg hm hv => ?_
    refine (code_inStep b hm (hscope.mono hg) (hc.mono hg)).bind fun u x last last' hg' hl hu => ?_
    exact apply_inStep op hl (hv.mono hg') hu
  | .and a b, _, _, hs, hscope, hc => by
    rw [Code.eval, Code.eval]
    refine (code_inStep a hs hscope hc).bind fun v w mid mid' hg hm hv => ?_
    rw [hv.1, Value.truthy_rename, ← hv.1]
    cases v.truthy with
    | true => exact code_inStep b hm (hscope.mono hg) (hc.mono hg)
    | false => exact inStep_pure hm hv
  | .or a b, _, _, hs, hscope, hc => by
    rw [Code.eval, Code.eval]
    refine (code_inStep a hs hscope hc).bind fun v w mid mid' hg hm hv => ?_
    rw [hv.1, Value.truthy_rename, ← hv.1]
    cases v.truthy with
    | true => exact inStep_pure hm hv
    | false => exact code_inStep b hm (hscope.mono hg) (hc.mono hg)
  | .choose condition a b, _, _, hs, hscope, hc => by
    rw [Code.eval, Code.eval]
    refine (code_inStep condition hs hscope hc).bind fun v w mid mid' hg hm hv => ?_
    rw [hv.1, Value.truthy_rename]
    cases v.truthy with
    | true => exact code_inStep a hm (hscope.mono hg) (hc.mono hg)
    | false => exact code_inStep b hm (hscope.mono hg) (hc.mono hg)
  | .raise kind text, _, _, hs, _, _ => inStep_fail hs _
  | .trace label operand, _, _, hs, hscope, hc => by
    rw [Code.eval, Code.eval]
    refine (code_inStep operand hs hscope hc).bind fun v w mid mid' hg hm hv => ?_
    -- the value is in the log as well
    have he : Event.traced label w = (Event.traced label v).rename r.names := by rw [hv.1]; rfl
    rw [he]
    exact (inStep_emit hm _).bind fun _ _ last last' hg' hl _ => inStep_pure hl (hv.mono hg')
termination_by structural c => c

theorem codes_inStep : ∀ (cs : List Code) {store store' : Store}, r.Stores store store' →
    r.RenamesScope store.fresh scope scope' → r.RenamesItems store.fresh captured captured' →
      r.InStep store store' r.RenamesItems (evalItems scope captured cs)
        (evalItems scope' captured' cs)
  | [], _, _, hs, _, _ => inStep_pure hs renamesItems_nil
  | c :: cs, _, _, hs, hscope, hc => by
    rw [evalItems, evalItems]
    refine (code_inStep c hs hscope hc).bind fun v w mid mid' hg hm hv => ?_
    refine (codes_inStep cs hm (hscope.mono hg) (hc.mono hg)).bind fun vs ws last last' hg' hl hvs => ?_
    exact inStep_pure hl (renamesItems_cons.2 ⟨hv.mono hg', hvs⟩)
termination_by structural cs => cs

end

end Bodies

/-! ## Extremes -/

theorem extreme_renames {limit : Nat} (direction : Relation) : ∀ (vs : List Value)
    {ws : List Value} {best best' : Value}, r.RenamesItems limit vs ws → r.Renames limit best best' →
      ResultsCorrespond (r.Renames limit) (extreme direction best vs) (extreme direction best' ws)
  | [], _, _, _, ⟨rfl, _⟩, hb => .ok hb
  | v :: vs, _, best, _, ⟨rfl, hk⟩, hb => by
    obtain ⟨hv, hvs⟩ := renamesItems_cons.1 ⟨rfl, hk⟩
    have ho : (v.rename r.names).order direction (best.rename r.names) = v.order direction best :=
      Value.order_rename ..
    rw [renameItems, extreme, extreme, hb.1, ho]
    cases v.order direction best with
    | error fault => exact .error fault
    | ok further =>
      cases further with
      | true => exact extreme_renames direction vs hvs hv
      | false => exact extreme_renames direction vs hvs (hb.1 ▸ hb)

/-- Taking the extreme of what a generator has left. -/
theorem drawExtreme_inStep (direction : Relation) {serial : Nat} : ∀ (vs : List Value)
    {best best' : Option Value} {ws : List Value} {store store' : Store}, r.Stores store store' →
      serial < store.fresh → r.RenamesItems store.fresh vs ws →
        r.RenamesItems store.fresh best.toList best'.toList →
          r.InStep store store' r.Renames (drawExtreme direction serial best vs)
            (drawExtreme direction (r.names serial) best' ws)
  | [], none, none, _, _, _, hs, _, ⟨rfl, _⟩, _ => inStep_fail hs _
  | [], some best, some best', _, _, _, hs, _, ⟨rfl, _⟩, hb => inStep_pure hs (renamesItems_cons.1 hb).1
  | _, none, some _, _, _, _, _, _, _, hb => by cases hb.1
  | _, some _, none, _, _, _, _, _, _, hb => by cases hb.1
  | v :: vs, none, none, _, _, _, hs, hlt, ⟨rfl, hk⟩, _ => by
    obtain ⟨hv, hvs⟩ := renamesItems_cons.1 ⟨rfl, hk⟩
    rw [renameItems, drawExtreme, drawExtreme]
    refine (inStep_draw hs hlt).bind fun _ _ mid mid' hg hm _ => ?_
    have hb := renamesItems_cons.2 ⟨hv.mono hg, renamesItems_nil⟩
    exact drawExtreme_inStep direction vs hm (by omega) (hvs.mono hg) hb
  | v :: vs, some best, some best', _, _, _, hs, hlt, ⟨rfl, hk⟩, hb => by
    obtain ⟨hv, hvs⟩ := renamesItems_cons.1 ⟨rfl, hk⟩
    rw [renameItems, drawExtreme, drawExtreme]
    refine (inStep_draw hs hlt).bind fun _ _ mid mid' hg hm _ => ?_
    have ho : (v.rename r.names).order direction best' = v.order direction best := by
      rw [(renamesItems_cons.1 hb).1.1, Value.order_rename]
    refine inStep_known hm ho fun further _ => ?_
    have hlt : serial < mid.fresh := by omega
    cases further with
    | true =>
      have hb := renamesItems_cons.2 ⟨hv.mono hg, renamesItems_nil⟩
      exact drawExtreme_inStep direction vs hm hlt (hvs.mono hg) hb
    | false => exact drawExtreme_inStep direction vs hm hlt (hvs.mono hg) (hb.mono hg)

theorem drawn_inStep (hs : r.Stores store store') {n : Nat} (hn : r.least ≤ n) :
    r.InStep store store' (fun _ m m' => m' = m) (Run.drawn n) (Run.drawn (r.names n)) :=
  ⟨Nat.le_refl _, hs, .ok (hs.drawn n hn).symm, rfl⟩

/-- The extreme of a collection that can be walked any number of times. -/
theorem extremeItems_inStep (direction : Relation) (hs : r.Stores store store') {v w : Value}
    (h : r.Renames store.fresh v w) :
    r.InStep store store' r.Renames
      (match v.items? with
        | some [] => Run.fail .badValue
        | some (first :: rest) => Run.ofExcept (extreme direction first rest)
        | none => Run.fail .typeMismatch)
      (match w.items? with
        | some [] => Run.fail .badValue
        | some (first :: rest) => Run.ofExcept (extreme direction first rest)
        | none => Run.fail .typeMismatch) := by
  cases hv : v.items? with
  | none =>
    rw [h.1, Value.items?_rename, hv]
    exact inStep_fail hs _
  | some vs =>
    obtain ⟨hw, hvs⟩ := renamesItems_of_items? h hv
    rw [hw]
    cases vs with
    | nil => exact inStep_fail hs _
    | cons first rest =>
      obtain ⟨hf, hr⟩ := renamesItems_cons.1 hvs
      exact inStep_ofExcept hs (extreme_renames direction rest hr hf)

theorem extremeOf_several (direction : Relation) (first second : Value) (rest : List Value) :
    extremeOf direction (first :: second :: rest)
      = Run.ofExcept (extreme direction first (second :: rest)) := by
  cases first <;> rfl

theorem extremeOf_inStep (direction : Relation) (hs : r.Stores store store') {vs ws : List Value}
    (h : r.RenamesItems store.fresh vs ws) :
    r.InStep store store' r.Renames (extremeOf direction vs) (extremeOf direction ws) := by
  obtain ⟨rfl, hk⟩ := h
  match vs with
  | [] => exact inStep_fail hs _
  | [v] =>
    have hv := (renamesItems_cons.1 ⟨rfl, hk⟩).1
    cases v with
    | generator serial items =>
      obtain ⟨⟨hlt, hle⟩, hitems⟩ := List.forall_mem_cons.1 hv.2
      -- a generator that is known has given as much under its new name
      refine (drawn_inStep hs (hle rfl)).bind fun m m' mid mid' hg hm hmm => ?_
      have hr : r.RenamesItems mid.fresh items (renameItems r.names items) :=
        ⟨rfl, Known.mono hitems hg⟩
      have hd := renamesItems_subset hr (List.drop_subset m items)
      rw [renameItems_eq_map, List.map_drop, ← renameItems_eq_map] at hd
      rw [hmm]
      exact drawExtreme_inStep direction _ hm (Nat.lt_of_lt_of_le hlt hg) hd renamesItems_nil
    | _ => exact extremeItems_inStep direction hs hv
  | first :: second :: rest =>
    obtain ⟨hf, hr⟩ := renamesItems_cons.1 ⟨rfl, hk⟩
    rw [renameItems] at hr
    rw [renameItems, renameItems, extremeOf_several, extremeOf_several]
    exact inStep_ofExcept hs (extreme_renames direction _ hr hf)

/-! ## Calls -/

theorem builtin_inStep (b : Builtin) (hs : r.Stores store store') {vs ws : List Value}
    (h : r.RenamesItems store.fresh vs ws) :
    r.InStep store store' r.Renames (b.call vs) (b.call ws) := by
  have text : ∀ {s t : Except Fault String}, t = s →
      r.InStep store store' r.Renames (do return .text (← s)) (do return .text (← t)) :=
    fun h => inStep_known hs h fun _ _ => inStep_pure hs (renames_plain rfl)
  cases b with
  | max => exact extremeOf_inStep .gt hs h
  | min => exact extremeOf_inStep .lt hs h
  | str =>
    obtain ⟨rfl, _⟩ := h
    match vs with
    | [] => exact inStep_pure hs (renames_plain rfl)
    | [v] => exact text v.str?_rename
    | _ :: _ :: _ => exact inStep_fail hs _
  | repr =>
    obtain ⟨rfl, _⟩ := h
    match vs with
    | [] => exact inStep_fail hs _
    | [v] => exact text v.repr?_rename
    | _ :: _ :: _ => exact inStep_fail hs _
  | len =>
    obtain ⟨rfl, _⟩ := h
    match vs with
    | [] => exact inStep_fail hs _
    | [v] => exact inStep_known hs v.length?_rename fun _ _ => inStep_pure hs (renames_plain rfl)
    | _ :: _ :: _ => exact inStep_fail hs _
  | bool =>
    obtain ⟨rfl, _⟩ := h
    match vs with
    | [] => exact inStep_pure hs (renames_plain rfl)
    | [v] =>
      rw [renameItems, renameItems, Builtin.call, Builtin.call, Value.truthy_rename]
      exact inStep_pure hs (renames_plain rfl)
    | _ :: _ :: _ => exact inStep_fail hs _

/-- A call under new names. -/
theorem call_inStep (f : Callback) (hs : r.Stores store store')
    (hf : Known r.least store.fresh f.objects) {vs ws : List Value}
    (h : r.RenamesItems store.fresh vs ws) :
    r.InStep store store' r.Renames (f.call vs) ((f.rename r.names).call ws) := by
  have hl := renamesItems_length h
  cases f with
  | builtin b => exact builtin_inStep b hs h
  | always =>
    show r.InStep store store' r.Renames (Callback.always.call vs) (Callback.always.call ws)
    rw [Callback.call, Callback.call, hl]
    split
    · exact inStep_pure hs (renames_plain rfl)
    · exact inStep_fail hs _
  | function handle params body captured =>
    have hc : r.RenamesItems store.fresh captured (renameItems r.names captured) :=
      ⟨rfl, (List.forall_mem_cons.1 hf).2⟩
    rw [Callback.rename, Callback.call, Callback.call, hl]
    split
    · exact code_inStep body hs (bind_renames hc params h) hc
    · exact inStep_fail hs _

end BagAlgebra
