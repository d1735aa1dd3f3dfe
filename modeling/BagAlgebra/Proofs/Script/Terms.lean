/-
What terms make. A term over names gives a value that mentions objects of the named values and new
ones; a list that was there before it gives only by its name. Tables make nothing but texts.
-/
import BagAlgebra.Proofs.Script.Provenance
import BagAlgebra.Proofs.Tree.Fit
import BagAlgebra.Table.Csv
import BagAlgebra.Table.Pretty

namespace BagAlgebra

theorem known_one {limit serial : Nat} (kind : ObjectKind) (h : serial < limit) :
    Known 0 limit [⟨kind, serial⟩] :=
  List.forall_mem_singleton.2 ⟨h, fun _ => Nat.zero_le _⟩

/-! ## Terms -/

/-- Every value of a scope mentions known objects only. -/
def KnownScope (limit : Nat) (scope : Scope) : Prop := ∀ b ∈ scope, Known 0 limit b.2.objects

theorem KnownScope.mono {limit limit' : Nat} {scope : Scope} (h : KnownScope limit scope)
    (hl : limit ≤ limit') : KnownScope limit' scope := fun b hb => (h b hb).mono hl

theorem KnownScope.lookup {limit : Nat} {scope : Scope} (h : KnownScope limit scope) {name : String}
    {v : Value} (hv : scope.lookup name = some v) : Known 0 limit v.objects := by
  induction scope with
  | nil => cases hv
  | cons b scope ih =>
    obtain ⟨hb, hs⟩ := List.forall_mem_cons.1 h
    rw [List.lookup_cons] at hv
    split at hv
    · cases hv
      exact hb
    · exact ih hs hv

section Terms

variable {scope : Scope}

mutual

/-- A term gives a value that mentions known objects and new ones. -/
theorem Term.build_makes : ∀ (t : Term) {store : Store}, store.Sound → KnownScope store.fresh scope →
    Makes store (fun n v => Known 0 n v.objects) (t.build scope)
  | .constant v plain, _, hs, _ => by
    refine makes_pure hs ?_
    rw [objects_of_isPlain plain]
    exact known_nil _ _
  | .nan, _, hs, _ => (makes_fresh hs).map fun _ _ h => known_one _ h.1
  | .tuple items, _, hs, hk => (buildItems_makes items hs hk).map fun _ _ h => h
  | .list items, _, hs, hk => by
    refine (buildItems_makes items hs hk).bind fun vs mid _ hm hvs => ?_
    refine (makes_fresh hm).bind fun cell last hg hl hc => makes_pure hl ?_
    exact known_append.2 ⟨known_one _ hc.1, hvs.mono hg⟩
  | .dict entries, _, hs, hk => (buildEntries_makes entries hs hk (known_nil _ _)).map fun _ _ h => h
  | .generator items, _, hs, hk => by
    refine (buildItems_makes items hs hk).bind fun vs mid _ hm hvs => ?_
    refine (makes_fresh hm).bind fun serial last hg hl hc => makes_pure hl ?_
    exact List.forall_mem_cons.2 ⟨⟨hc.1, fun _ => Nat.zero_le _⟩, hvs.mono hg⟩
  | .range arguments, _, hs, hk => by
    refine (buildItems_makes arguments hs hk).bind fun vs mid _ hm _ => ?_
    exact makes_look hm fun span _ => makes_pure hm (known_nil _ _)
  | .function form name params body captured, _, hs, hk => by
    refine (buildItems_makes captured hs hk).bind fun vs mid _ hm hvs => ?_
    refine (makes_fresh hm).bind fun serial last hg hl hc => makes_pure hl ?_
    exact List.forall_mem_cons.2 ⟨⟨hc.1, fun _ => Nat.zero_le _⟩, hvs.mono hg⟩
  | .reference name, _, hs, hk => by
    rw [Term.build]
    cases hv : scope.lookup name with
    | none => exact makes_fail hs _
    | some v => exact makes_pure hs (hk.lookup hv)
  | .call callee arguments, _, hs, hk =>
    (buildArguments_makes arguments hs hk).bind fun _ _ _ hm ha => call_makes hm ha callee
  | .invoke method on arguments, _, hs, hk =>
    (on.build_makes hs hk).bind fun _ _ hg hm ho =>
      (buildArguments_makes arguments hm (hk.mono hg)).bind fun _ _ hg' hl ha =>
        method_makes hl ha method (ho.mono hg')
termination_by structural t => t

theorem buildItems_makes : ∀ (ts : List Term) {store : Store}, store.Sound →
    KnownScope store.fresh scope →
      Makes store (fun n vs => Known 0 n (objectsOfItems vs)) (buildItems scope ts)
  | [], _, hs, _ => makes_pure hs (known_nil _ _)
  | t :: ts, _, hs, hk => by
    refine (t.build_makes hs hk).bind fun v mid hg hm hv => ?_
    refine (buildItems_makes ts hm (hk.mono hg)).bind fun vs last hg' hl hvs => makes_pure hl ?_
    exact known_append.2 ⟨hv.mono hg', hvs⟩
termination_by structural ts => ts

theorem buildEntries_makes : ∀ (es : List TermEntry) {store : Store}, store.Sound →
    KnownScope store.fresh scope → ∀ {done : List Entry}, Known 0 store.fresh (objectsOfEntries done) →
      Makes store (fun n ds => Known 0 n (objectsOfEntries ds)) (buildEntries scope done es)
  | [], _, hs, _, _, hd => makes_pure hs hd
  | e :: es, _, hs, hk, _, hd => by
    refine (e.build_makes hs hk).bind fun entry mid hg hm he => ?_
    obtain ⟨key, value⟩ := entry
    dsimp only
    split
    · refine buildEntries_makes es hm (hk.mono hg) ?_
      exact (putEntry_renames (r := sameNames) ⟨rfl, hd.mono hg⟩ ⟨rfl, he.1⟩ ⟨rfl, he.2⟩).2
    · exact makes_fail hm _
termination_by structural es => es

theorem TermEntry.build_makes : ∀ (e : TermEntry) {store : Store}, store.Sound →
    KnownScope store.fresh scope →
      Makes store (fun n kv => Known 0 n kv.1.objects ∧ Known 0 n kv.2.objects) (e.build scope)
  | .mk key value, _, hs, hk => by
    refine (key.build_makes hs hk).bind fun k mid hg hm hkey => ?_
    refine (value.build_makes hm (hk.mono hg)).bind fun v last hg' hl hv => makes_pure hl ?_
    exact ⟨hkey.mono hg', hv⟩
termination_by structural e => e

theorem buildArguments_makes : ∀ (as : List Argument) {store : Store}, store.Sound →
    KnownScope store.fresh scope →
      Makes store (fun n args => KnownAll n args.values) (buildArguments scope as)
  | [], _, hs, _ => makes_pure hs (List.forall_mem_nil _)
  | a :: as, _, hs, hk => by
    refine (a.build_makes hs hk).bind fun arg mid hg hm ha => ?_
    refine (buildArguments_makes as hm (hk.mono hg)).bind fun args last hg' hl has => makes_pure hl ?_
    exact KnownAll.cons (ha.mono hg') has
termination_by structural as => as

theorem Argument.build_makes : ∀ (a : Argument) {store : Store}, store.Sound →
    KnownScope store.fresh scope →
      Makes store (fun n arg => Known 0 n arg.2.objects) (a.build scope)
  | .mk _ term, _, hs, hk => (term.build_makes hs hk).map fun _ _ h => h
termination_by structural a => a

end

end Terms

/-! ## Lists -/

/-- A list that a value is has a name, or was made late enough. -/
def Value.ListNamed (scope : Scope) (limit : Nat) (v : Value) : Prop :=
  ∀ cell items, v = .list (some cell) items → (∃ name, scope.lookup name = some v) ∨ limit ≤ cell

theorem listNamed_of_tree {scope : Scope} {limit : Nat} {v : Value} {e : Expr} (h : v.tree? = some e) :
    v.ListNamed scope limit := by
  rintro _ _ rfl
  cases h

/-- Calls give trees. -/
theorem call_tree {callee : Callee} {args : Arguments} {v : Value} (h : (callee.call args).Answers v) :
    ∃ e, v.tree? = some e := by
  cases callee with
  | node operator =>
    obtain ⟨e, _, h⟩ := h.of_bind
    exact ⟨e, by rw [Run.answers_pure h]; rfl⟩
  | builderFromRows =>
    obtain ⟨_, _, h⟩ := h.of_bind
    obtain ⟨_, _, h⟩ := h.of_bind
    obtain ⟨b, _, h⟩ := h.of_bind
    exact ⟨b.expression, by rw [Run.answers_pure h]; rfl⟩
  | newBuilder =>
    obtain ⟨_, _, h⟩ := h.of_bind
    obtain ⟨_, _, h⟩ := h.of_bind
    obtain ⟨b, _, h⟩ := h.of_bind
    exact ⟨b.expression, by rw [Run.answers_pure h]; rfl⟩

/-- Operations of builders give trees. -/
theorem method_tree {method : Method} {on v : Value} {args : Arguments}
    (h : (method.invoke on args).Answers v) : ∃ e, v.tree? = some e := by
  unfold Method.invoke at h
  split at h
  · obtain ⟨b, _, h⟩ := h.of_bind
    exact ⟨b.expression, by rw [Run.answers_pure h]; rfl⟩
  · exact absurd h Run.not_answers_fail
  · exact absurd h Run.not_answers_fail
  · exact absurd h Run.not_answers_fail

/-- A term gives no list that was there before, but by its name. -/
theorem Term.build_listNamed {scope : Scope} (t : Term) {store : Store} (hs : store.Sound)
    (hk : KnownScope store.fresh scope) :
    Makes store (fun _ v => v.ListNamed scope store.fresh) (t.build scope) := by
  cases t with
  | constant v plain =>
    refine makes_pure hs ?_
    rintro _ _ rfl
    cases plain
  | list items =>
    refine (buildItems_makes items hs hk).bind fun vs mid hg hm _ => ?_
    refine (makes_fresh hm).bind fun cell last _ hl hc => makes_pure hl ?_
    -- the list is newer than its items, which are newer than what was there before
    rintro _ _ ⟨⟩
    have hcell : mid.fresh ≤ cell := hc.2
    exact .inr (by omega)
  | reference name =>
    rw [Term.build]
    cases hv : scope.lookup name with
    | none => exact makes_fail hs _
    | some v => exact makes_pure hs fun _ _ _ => .inl ⟨name, hv⟩
  | call callee arguments =>
    obtain ⟨hg, hm, _⟩ := (Term.call callee arguments).build_makes hs hk
    refine ⟨hg, hm, fun v hv => ?_⟩
    obtain ⟨args, _, h⟩ := Run.Answers.of_bind ⟨store, hv⟩
    exact listNamed_of_tree (call_tree h).choose_spec
  | invoke method on arguments =>
    obtain ⟨hg, hm, _⟩ := (Term.invoke method on arguments).build_makes hs hk
    refine ⟨hg, hm, fun v hv => ?_⟩
    obtain ⟨_, _, h⟩ := Run.Answers.of_bind ⟨store, hv⟩
    obtain ⟨args, _, h⟩ := h.of_bind
    exact listNamed_of_tree (method_tree h).choose_spec
  | nan => exact (makes_fresh hs).map fun _ _ _ _ _ h => by cases h
  | tuple items => exact (buildItems_makes items hs hk).map fun _ _ _ _ _ h => by cases h
  | dict entries =>
    exact (buildEntries_makes entries hs hk (known_nil _ _)).map fun _ _ _ _ _ h => by cases h
  | generator items =>
    refine (buildItems_makes items hs hk).bind fun vs mid _ hm _ => ?_
    exact (makes_fresh hm).map fun _ _ _ _ _ h => by cases h
  | range arguments =>
    refine (buildItems_makes arguments hs hk).bind fun vs mid _ hm _ => ?_
    exact makes_look hm fun span _ => makes_pure hm fun _ _ h => by cases h
  | function form name params body captured =>
    refine (buildItems_makes captured hs hk).bind fun vs mid _ hm _ => ?_
    exact (makes_fresh hm).map fun _ _ _ _ _ h => by cases h

/-! ## Tables -/

section Tables

variable {store : Store} (hs : store.Sound) {rows : Value} (hr : Known 0 store.fresh rows.objects)

include hs hr

/-- A walk whose answers mention no objects. -/
theorem scan_makes {β : Type} {use : Value → Eval β}
    (hu : ∀ v mid, mid.Sound → Makes mid (fun _ _ => True) (use v)) :
    Makes store (fun _ _ => True) (rows.forEach use) := by
  refine (forEach_makes (Q := fun _ _ => True) ?_ ?_ hs hr).mono fun _ _ _ => trivial
  · exact fun _ _ _ _ _ => trivial
  · exact fun v mid hm _ => hu v mid hm

theorem madeUpHeaders_makes :
    Makes store (fun _ _ => True) (madeUpHeaders rows : Eval (List String)) := by
  unfold madeUpHeaders
  split
  · exact makes_pure hs trivial
  · refine Makes.bind (scan_makes hs hr fun _ _ h => makes_look h fun _ _ => makes_pure h trivial) ?_
    intro widths mid _ hm _
    refine makes_look hm fun width _ => ?_
    split
    · exact makes_look hm fun first _ => makes_pure hm trivial
    · exact makes_pure hm trivial

theorem headersInForce_makes {headers : Value} (hh : Known 0 store.fresh headers.objects) :
    Makes store (fun _ _ => True) (headersInForce rows headers : Eval (List Value)) := by
  unfold headersInForce
  split
  · exact (madeUpHeaders_makes hs hr).map fun _ _ h => h
  · exact (collect_makes hs hh).mono fun _ _ _ => trivial

theorem pretty_makes {headers : Value} (hh : Known 0 store.fresh headers.objects) (limit : Value) :
    Makes store (fun _ _ => True) (Pretty.render rows headers limit : Eval String) := by
  unfold Pretty.render
  split
  · exact makes_pure hs trivial
  · refine (headersInForce_makes hs hr hh).bind fun vs mid hg hm _ => ?_
    split
    · exact makes_look hm fun _ _ => makes_pure hm trivial
    · refine Makes.bind (scan_makes hm (hr.mono hg) fun _ _ h => makes_ofExcept h fun _ _ => trivial) ?_
      exact fun body last _ hl _ => makes_ofExcept hl fun _ _ => trivial

theorem csv_makes {headers : Value} (hh : Known 0 store.fresh headers.objects) (delimiter : Value) :
    Makes store (fun _ _ => True) (Csv.render rows headers delimiter : Eval String) := by
  unfold Csv.render
  split
  · exact makes_fail hs _
  · refine (headersInForce_makes hs hr hh).bind fun vs mid hg hm _ => makes_look hm fun head _ => ?_
    refine Makes.bind (scan_makes hm (hr.mono hg) fun _ _ h => ?_) ?_
    · exact makes_look h fun _ _ => makes_ofExcept h fun _ _ => trivial
    · exact fun body last _ hl _ => makes_pure hl trivial

end Tables

end BagAlgebra
