/-
Values under new names. A value and its renamed form correspond while all its objects are known, which
is to say made so far; generators among them have to be made late enough. Whatever operations take out
of corresponding values, or put together from them, corresponds again.
-/
import BagAlgebra.Callback.Signature
import BagAlgebra.Proofs.Identity.Views
import BagAlgebra.Proofs.Run.InStep
import BagAlgebra.Value.Arithmetic

namespace BagAlgebra

/-- Objects that were made before a certain time; generators, not before another. -/
def Known (least limit : Nat) (objects : List Object) : Prop :=
  ∀ o ∈ objects, o.serial < limit ∧ (o.kind = .generator → least ≤ o.serial)

theorem known_nil (least limit : Nat) : Known least limit [] := List.forall_mem_nil _

theorem known_append {least limit : Nat} {l m : List Object} :
    Known least limit (l ++ m) ↔ Known least limit l ∧ Known least limit m :=
  List.forall_mem_append

theorem Known.mono {least limit limit' : Nat} {l : List Object} (h : Known least limit l)
    (hl : limit ≤ limit') : Known least limit' l := by
  intro o ho
  obtain ⟨h1, h2⟩ := h o ho
  exact ⟨by omega, h2⟩

theorem Known.subset {least limit : Nat} {l m : List Object} (h : Known least limit l) (hm : m ⊆ l) :
    Known least limit m := fun o ho => h o (hm ho)

/-- New names for objects, and the serial number from which on generators may occur. -/
structure Renaming where
  names : Nat ↪ Nat
  least : Nat

namespace Renaming

variable (r : Renaming) (limit : Nat)

/-- A value and its renamed form. -/
def Renames (v w : Value) : Prop := w = v.rename r.names ∧ Known r.least limit v.objects

def RenamesItems (vs ws : List Value) : Prop :=
  ws = renameItems r.names vs ∧ Known r.least limit (objectsOfItems vs)

def RenamesEntries (es ds : List Entry) : Prop :=
  ds = renameEntries r.names es ∧ Known r.least limit (objectsOfEntries es)

/-- Two scopes with the same names for corresponding values. -/
def RenamesScope (scope scope' : Scope) : Prop :=
  scope' = scope.map (Prod.map id (Value.rename r.names)) ∧
    ∀ b ∈ scope, Known r.least limit b.2.objects

end Renaming

variable {r : Renaming} {limit : Nat}

/-! ## More objects -/

section Mono

variable {limit' : Nat} (hl : limit ≤ limit')

include hl

theorem Renaming.Renames.mono {v w : Value} (h : r.Renames limit v w) : r.Renames limit' v w :=
  ⟨h.1, h.2.mono hl⟩

theorem Renaming.RenamesItems.mono {vs ws : List Value} (h : r.RenamesItems limit vs ws) :
    r.RenamesItems limit' vs ws :=
  ⟨h.1, h.2.mono hl⟩

theorem Renaming.RenamesEntries.mono {es ds : List Entry} (h : r.RenamesEntries limit es ds) :
    r.RenamesEntries limit' es ds :=
  ⟨h.1, h.2.mono hl⟩

theorem Renaming.RenamesScope.mono {scope scope' : Scope} (h : r.RenamesScope limit scope scope') :
    r.RenamesScope limit' scope scope' :=
  ⟨h.1, fun b hb => (h.2 b hb).mono hl⟩

end Mono

/-! ## Putting together and taking apart -/

/-- A value without objects is its own renamed form. -/
theorem renames_plain {v : Value} (h : v.objects = []) : r.Renames limit v v := by
  constructor
  · exact (v.rename_eq_self (h ▸ List.forall_mem_nil _)).symm
  · exact h ▸ known_nil _ _

theorem renamesItems_nil : r.RenamesItems limit [] [] := ⟨rfl, known_nil _ _⟩

theorem renamesItems_cons {v w : Value} {vs ws : List Value} :
    r.RenamesItems limit (v :: vs) (w :: ws) ↔ r.Renames limit v w ∧ r.RenamesItems limit vs ws := by
  unfold Renaming.RenamesItems Renaming.Renames
  rw [renameItems, objectsOfItems, known_append, List.cons.injEq]
  tauto

theorem renamesItems_length {limit : Nat} {vs ws : List Value} (h : r.RenamesItems limit vs ws) :
    ws.length = vs.length := by
  rw [h.1, renameItems_eq_map, List.length_map]

theorem renamesItems_append {vs ws vs' ws' : List Value} (h : r.RenamesItems limit vs ws)
    (h' : r.RenamesItems limit vs' ws') : r.RenamesItems limit (vs ++ vs') (ws ++ ws') := by
  obtain ⟨rfl, hk⟩ := h
  obtain ⟨rfl, hk'⟩ := h'
  refine ⟨by simp only [renameItems_eq_map, List.map_append], fun o ho => ?_⟩
  obtain ⟨v, hv, ho⟩ := mem_objectsOfItems.1 ho
  rcases List.mem_append.1 hv with hv | hv
  · exact hk o (mem_objectsOfItems.2 ⟨v, hv, ho⟩)
  · exact hk' o (mem_objectsOfItems.2 ⟨v, hv, ho⟩)

/-- Some of the items of a list that corresponds to another correspond to theirs. -/
theorem renamesItems_subset {vs ws us : List Value} (h : r.RenamesItems limit vs ws) (hs : us ⊆ vs) :
    r.RenamesItems limit us (renameItems r.names us) := by
  refine ⟨rfl, h.2.subset fun o ho => ?_⟩
  obtain ⟨v, hv, ho⟩ := mem_objectsOfItems.1 ho
  exact mem_objectsOfItems.2 ⟨v, hs hv, ho⟩

theorem renamesItems_mem {vs ws : List Value} (h : r.RenamesItems limit vs ws) {v : Value} (hv : v ∈ vs) :
    r.Renames limit v (v.rename r.names) :=
  ⟨rfl, h.2.subset fun _ ho => mem_objectsOfItems.2 ⟨v, hv, ho⟩⟩

theorem renames_tuple {vs ws : List Value} :
    r.Renames limit (.tuple vs) (.tuple ws) ↔ r.RenamesItems limit vs ws := by
  unfold Renaming.Renames Renaming.RenamesItems
  rw [Value.rename, Value.objects, Value.tuple.injEq]

/-- A list that was made just now, of which nothing else knows. -/
theorem renames_list {vs ws : List Value} :
    r.Renames limit (.list none vs) (.list none ws) ↔ r.RenamesItems limit vs ws := by
  unfold Renaming.Renames Renaming.RenamesItems
  rw [Value.rename, Value.objects, Option.map_none, Value.list.injEq, Option.toList_none, List.map_nil,
    List.nil_append]
  tauto

theorem renames_dict {es ds : List Entry} :
    r.Renames limit (.dict es) (.dict ds) ↔ r.RenamesEntries limit es ds := by
  unfold Renaming.Renames Renaming.RenamesEntries
  rw [Value.rename, Value.objects, Value.dict.injEq]

/-- The items of a collection are among its objects. -/
theorem objects_of_items? {v : Value} {vs : List Value} (h : v.items? = some vs) :
    objectsOfItems vs ⊆ v.objects := by
  intro o ho
  obtain ⟨u, hu, ho⟩ := mem_objectsOfItems.1 ho
  cases v with
  | text s =>
    cases h
    obtain ⟨c, _, rfl⟩ := List.mem_map.1 hu
    cases ho
  | tuple items =>
    cases h
    exact mem_objectsOfItems.2 ⟨u, hu, ho⟩
  | list cell items =>
    cases h
    exact List.mem_append_right _ (mem_objectsOfItems.2 ⟨u, hu, ho⟩)
  | dict entries =>
    cases h
    obtain ⟨e, he, rfl⟩ := List.mem_map.1 hu
    refine mem_objectsOfEntries.2 ⟨e, he, ?_⟩
    cases e
    exact List.mem_append_left _ ho
  | range span =>
    cases h
    obtain ⟨i, _, rfl⟩ := List.mem_map.1 hu
    cases ho
  | _ => cases h

theorem renamesItems_of_items? {v w : Value} (h : r.Renames limit v w) {vs : List Value}
    (hv : v.items? = some vs) :
    w.items? = some (renameItems r.names vs) ∧ r.RenamesItems limit vs (renameItems r.names vs) := by
  obtain ⟨rfl, hk⟩ := h
  rw [Value.items?_rename, hv, renameItems_eq_map]
  exact ⟨rfl, renameItems_eq_map _ _ ▸ rfl, hk.subset (objects_of_items? hv)⟩

/-! ## Elements -/

theorem nth_renames {vs ws : List Value} (h : r.RenamesItems limit vs ws) {i j : Value}
    (hi : r.Renames limit i j) :
    ResultsCorrespond (r.Renames limit) (Value.nth vs i) (Value.nth ws j) := by
  obtain ⟨rfl, hk⟩ := h
  obtain ⟨rfl, _⟩ := hi
  unfold Value.nth
  rw [Value.int?_rename, renameItems_eq_map, List.length_map]
  cases i.int? with
  | none => exact .error _
  | some n =>
    dsimp only
    cases Value.position? vs.length n with
    | none => exact .error _
    | some p =>
      rw [Option.bind_some, Option.bind_some, List.getElem?_map]
      cases hv : vs[p]? with
      | none => exact .error _
      | some v => exact .ok (renamesItems_mem ⟨rfl, hk⟩ (List.mem_of_getElem? hv))

theorem lookup_renames {es ds : List Entry} (h : r.RenamesEntries limit es ds) {k l : Value}
    (hk : r.Renames limit k l) :
    ResultsCorrespond (r.Renames limit) (Value.lookup es k) (Value.lookup ds l) := by
  obtain ⟨rfl, he⟩ := h
  obtain ⟨rfl, _⟩ := hk
  unfold Value.lookup
  rw [Value.hashable_rename]
  cases k.hashable with
  | false => exact .error _
  | true =>
    have hf : ((fun e : Entry => e.key.same (k.rename r.names)) ∘ Entry.rename r.names)
        = fun e : Entry => e.key.same k := by
      funext e
      rw [Function.comp_apply, Entry.key_rename, Value.same_rename]
    rw [renameEntries_eq_map, List.find?_map, hf]
    cases hfind : es.find? fun e => e.key.same k with
    | none => exact .error _
    | some e =>
      refine .ok ⟨Entry.value_rename r.names e, he.subset fun o ho => ?_⟩
      refine mem_objectsOfEntries.2 ⟨e, List.mem_of_find?_eq_some hfind, ?_⟩
      cases e
      exact List.mem_append_right _ ho

theorem item_renames {v w i j : Value} (h : r.Renames limit v w) (hi : r.Renames limit i j) :
    ResultsCorrespond (r.Renames limit) (v.item i) (w.item j) := by
  obtain ⟨rfl, hk⟩ := h
  cases v with
  | tuple vs => exact nth_renames ⟨rfl, hk⟩ hi
  | list cell vs => exact nth_renames ⟨rfl, hk.subset (List.subset_append_right ..)⟩ hi
  | text s =>
    refine nth_renames ⟨?_, fun o ho => ?_⟩ hi
    · rw [renameItems_eq_map, characters, List.map_map]; rfl
    · obtain ⟨v, hv, ho⟩ := mem_objectsOfItems.1 ho
      obtain ⟨c, _, rfl⟩ := List.mem_map.1 hv
      cases ho
  | range span =>
    obtain ⟨rfl, _⟩ := hi
    show ResultsCorrespond _ (Value.item (.range span) i) (Value.item (.range span) _)
    simp only [Value.item, Value.int?_rename]
    cases i.int? with
    | none => exact .error _
    | some n =>
      dsimp only
      cases Value.position? span.length n with
      | none => exact .error _
      | some p => exact .ok (renames_plain rfl)
  | dict es => exact lookup_renames ⟨rfl, hk⟩ hi
  | _ => exact .error _

theorem capturedAt_renames {vs ws : List Value} (h : r.RenamesItems limit vs ws) (slot : Nat) :
    r.Renames limit (capturedAt vs slot) (capturedAt ws slot) := by
  obtain ⟨rfl, hk⟩ := h
  unfold capturedAt
  rw [renameItems_eq_map, List.getElem?_map]
  cases hv : vs[slot]? with
  | none => exact renames_plain rfl
  | some v => exact renamesItems_mem ⟨rfl, hk⟩ (List.mem_of_getElem? hv)

/-! ## Scopes -/

theorem scope_lookup {scope scope' : Scope} (h : r.RenamesScope limit scope scope') (name : String) :
    (scope.lookup name = none ∧ scope'.lookup name = none) ∨
      ∃ v w, scope.lookup name = some v ∧ scope'.lookup name = some w ∧ r.Renames limit v w := by
  obtain ⟨rfl, hk⟩ := h
  induction scope with
  | nil => exact .inl ⟨rfl, rfl⟩
  | cons b scope ih =>
    obtain ⟨hb, hs⟩ := List.forall_mem_cons.1 hk
    rw [List.map_cons, List.lookup_cons, List.lookup_cons, Prod.map_fst, id_eq]
    by_cases hn : name == b.1
    · rw [hn]
      exact .inr ⟨b.2, _, rfl, rfl, rfl, hb⟩
    · rw [Bool.eq_false_iff.2 hn]
      exact ih hs

theorem renamesScope_cons {scope scope' : Scope} {name : String} {v w : Value}
    (h : r.Renames limit v w) (hs : r.RenamesScope limit scope scope') :
    r.RenamesScope limit ((name, v) :: scope) ((name, w) :: scope') := by
  obtain ⟨rfl, hk⟩ := h
  obtain ⟨rfl, hks⟩ := hs
  exact ⟨rfl, List.forall_mem_cons.2 ⟨hk, hks⟩⟩

theorem renamesScope_nil : r.RenamesScope limit [] [] := ⟨rfl, List.forall_mem_nil _⟩

theorem bindNamed_renames {captured captured' : List Value}
    (h : r.RenamesItems limit captured captured') : ∀ params : List Param,
      r.RenamesScope limit (Param.bindNamed captured params) (Param.bindNamed captured' params)
  | [] => renamesScope_nil
  | .defaulted _ slot :: ps => renamesScope_cons (capturedAt_renames h slot) (bindNamed_renames h ps)
  | .extra _ :: ps => renamesScope_cons (renames_plain rfl) (bindNamed_renames h ps)
  | .required _ :: ps => bindNamed_renames h ps
  | .rest _ :: ps => bindNamed_renames h ps
  | .positionalMark :: ps => bindNamed_renames h ps
  | .namedMark :: ps => bindNamed_renames h ps

/-- Arguments that correspond are bound alike. -/
theorem bind_renames {captured captured' : List Value} (h : r.RenamesItems limit captured captured') :
    ∀ (params : List Param) {vs ws : List Value}, r.RenamesItems limit vs ws →
      r.RenamesScope limit (Param.bind captured params vs) (Param.bind captured' params ws)
  | [], _, _, _ => renamesScope_nil
  | .required _ :: ps, [], _, ⟨rfl, _⟩ => bind_renames h ps renamesItems_nil
  | .required _ :: ps, _ :: _, _, ⟨rfl, hk⟩ =>
    have hv := renamesItems_cons.1 ⟨rfl, hk⟩
    renamesScope_cons hv.1 (bind_renames h ps hv.2)
  | .defaulted _ slot :: ps, [], _, ⟨rfl, _⟩ =>
    renamesScope_cons (capturedAt_renames h slot) (bind_renames h ps renamesItems_nil)
  | .defaulted _ _ :: ps, _ :: _, _, ⟨rfl, hk⟩ =>
    have hv := renamesItems_cons.1 ⟨rfl, hk⟩
    renamesScope_cons hv.1 (bind_renames h ps hv.2)
  | .rest _ :: ps, _, _, hv => renamesScope_cons (renames_tuple.2 hv) (bindNamed_renames h ps)
  | .extra _ :: ps, _, _, hv => renamesScope_cons (renames_plain rfl) (bind_renames h ps hv)
  | .positionalMark :: ps, _, _, hv => bind_renames h ps hv
  | .namedMark :: ps, _, _, _ => bindNamed_renames h ps

/-! ## Entries -/

theorem putEntry_renames {es ds : List Entry} (h : r.RenamesEntries limit es ds) {k l v w : Value}
    (hk : r.Renames limit k l) (hv : r.Renames limit v w) :
    r.RenamesEntries limit (putEntry es k v) (putEntry ds l w) := by
  obtain ⟨rfl, he⟩ := h
  obtain ⟨rfl, hk⟩ := hk
  obtain ⟨rfl, hv⟩ := hv
  -- a key is there under new names just if it is there under the old ones
  have hf : ∀ e : Entry, (e.rename r.names).key.same (k.rename r.names) = e.key.same k := by
    intro e
    rw [Entry.key_rename, Value.same_rename]
  have hany : (es.map (Entry.rename r.names)).any (fun e => e.key.same (k.rename r.names))
      = es.any fun e => e.key.same k := by
    rw [List.any_map]
    congr 1
    funext e
    exact hf e
  unfold Renaming.RenamesEntries putEntry
  rw [renameEntries_eq_map, hany]
  cases es.any fun e => e.key.same k with
  | true =>
    refine ⟨?_, fun o ho => ?_⟩
    · simp only [renameEntries_eq_map, List.map_map, if_true]
      refine List.map_congr_left fun e _ => ?_
      rw [Function.comp_apply, Function.comp_apply, hf]
      cases e.key.same k with
      | false => rfl
      | true => simp [Entry.rename]
    · obtain ⟨e, hm, ho⟩ := mem_objectsOfEntries.1 ho
      obtain ⟨d, hd, rfl⟩ := List.mem_map.1 hm
      have hd' : ∀ o ∈ d.objects, _ := fun o ho => he o (mem_objectsOfEntries.2 ⟨d, hd, ho⟩)
      split at ho
      · cases d
        rcases List.mem_append.1 ho with ho | ho
        · exact hd' o (List.mem_append_left _ ho)
        · exact hv o ho
      · exact hd' o ho
  | false =>
    refine ⟨?_, fun o ho => ?_⟩
    · simp [renameEntries_eq_map, Entry.rename]
    · obtain ⟨e, hm, ho⟩ := mem_objectsOfEntries.1 ho
      rcases List.mem_append.1 hm with hm | hm
      · exact he o (mem_objectsOfEntries.2 ⟨e, hm, ho⟩)
      · rw [List.mem_singleton.1 hm] at ho
        rcases List.mem_append.1 ho with ho | ho
        · exact hk o ho
        · exact hv o ho

end BagAlgebra
