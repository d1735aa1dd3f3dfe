/-
Matching is an equivalence relation on values: numbers match by exact value across their types,
collections part by part, dictionaries entry by entry, nodes by operator and parts, and whatever has
an identity by that. So a set of rows, which keeps one row of each class of matching rows, holds a row
exactly if a scan of the list finds it.
-/
import BagAlgebra.Expr.Eval
import Mathlib.Data.List.Forall2

namespace BagAlgebra

/-! ## Matching by parts -/

/-- A number matches exactly the values of the same quantity. -/
theorem same_iff_quantity {v w : Value} {q : Quantity} (h : v.quantity? = some q) :
    v.same w = true ↔ w.quantity? = some q := by
  cases v with
  | bool b => rw [Value.same, h, beq_iff_eq]
  | int n => rw [Value.same, h, beq_iff_eq]
  | float x => rw [Value.same, h, beq_iff_eq]
  | _ => simp [Value.quantity?, Value.number?, Number.quantity] at h

theorem common_of_number {v w u : Value} {q : Quantity} (h : v.quantity? = some q)
    (hw : v.same w = true) (hu : v.same u = true) : w.same u = true :=
  (same_iff_quantity ((same_iff_quantity h).1 hw)).2 ((same_iff_quantity h).1 hu)

theorem sameItems_iff : ∀ {xs ys : List Value},
    sameItems xs ys = true ↔ List.Forall₂ (fun x y => x.same y = true) xs ys
  | [], ys => by rw [sameItems, List.isEmpty_iff, List.forall₂_nil_left_iff]
  | x :: xs, [] => by simp [sameItems]
  | x :: xs, y :: ys => by
    rw [sameItems, Bool.and_eq_true, sameItems_iff, List.forall₂_cons]

theorem entriesWithin_iff {xs ys : List Entry} :
    entriesWithin xs ys = true ↔ ∀ x ∈ xs, ∃ y ∈ ys, x.same y = true := by
  induction xs with
  | nil => simp [entriesWithin]
  | cons x xs ih =>
    rw [entriesWithin, Bool.and_eq_true, ih, List.any_eq_true, List.forall_mem_cons]

theorem entryAmong_iff {xs : List Entry} {y : Entry} :
    entryAmong xs y = true ↔ ∃ x ∈ xs, x.same y = true := by
  induction xs with
  | nil => simp [entryAmong]
  | cons x xs ih => rw [entryAmong, Bool.or_eq_true, ih, List.exists_mem_cons_iff]

/-- Dictionaries match if each entry of either has a matching one in the other. -/
theorem same_dict_iff {xs ys : List Entry} :
    (Value.dict xs).same (.dict ys) = true ↔
      (∀ x ∈ xs, ∃ y ∈ ys, x.same y = true) ∧ ∀ y ∈ ys, ∃ x ∈ xs, x.same y = true := by
  rw [Value.same, Bool.and_eq_true, entriesWithin_iff, List.all_eq_true]
  simp only [entryAmong_iff]

theorem Span.same_refl (s : Span) : s.same s = true := by simp [Span.same]

theorem Span.same_of_common {s t u : Span} (h : s.same t = true) (h' : s.same u = true) :
    t.same u = true := by
  simp only [Span.same, Bool.and_eq_true, Bool.or_eq_true, beq_iff_eq, decide_eq_true_eq] at h h' ⊢
  obtain ⟨⟨hl, hs⟩, hd⟩ := h
  obtain ⟨⟨hl', hs'⟩, hd'⟩ := h'
  rw [← hl]
  refine ⟨⟨hl', ?_⟩, ?_⟩
  · rcases hs with hs | hs
    · exact .inl hs
    · exact hs'.imp id hs.symm.trans
  · rcases hd with hd | hd
    · exact .inl hd
    · exact hd'.imp id hd.symm.trans

/-! ## Callbacks -/

theorem Callback.same_refl (f : Callback) : f.same f = true := by
  cases f <;> simp [Callback.same]

theorem Callback.same_of_common {f g k : Callback} (h : f.same g = true) (h' : f.same k = true) :
    g.same k = true := by
  cases f <;> cases g <;> cases k <;> simp_all [Callback.same]

/-! ## Reflexivity -/

mutual

theorem Value.same_refl : ∀ v : Value, v.same v = true
  | .null => rfl
  | .bool _ => by rw [Value.same, beq_self_eq_true]
  | .int _ => by rw [Value.same, beq_self_eq_true]
  | .float _ => by rw [Value.same, beq_self_eq_true]
  | .nan _ => by simp [Value.same]
  | .text _ => by simp [Value.same]
  | .tuple items => by rw [Value.same]; exact sameItems_refl items
  | .list _ items => by rw [Value.same]; exact sameItems_refl items
  | .dict entries =>
    same_dict_iff.2 ⟨fun e he => ⟨e, he, entries_same_refl entries e he⟩,
      fun e he => ⟨e, he, entries_same_refl entries e he⟩⟩
  | .generator _ _ => by simp [Value.same]
  | .range s => by rw [Value.same]; exact s.same_refl
  | .callable f => by rw [Value.same]; exact f.same_refl
  | .expr e => by rw [Value.same]; exact e.same_refl
  | .builder e => by rw [Value.same]; exact e.same_refl

theorem sameItems_refl : ∀ vs : List Value, sameItems vs vs = true
  | [] => rfl
  | v :: vs => by rw [sameItems, v.same_refl, sameItems_refl vs]; rfl

theorem Entry.same_refl : ∀ e : Entry, e.same e = true
  | .mk k v => by rw [Entry.same, Entry.key, Entry.value, k.same_refl, v.same_refl]; rfl

theorem entries_same_refl : ∀ (es : List Entry), ∀ e ∈ es, e.same e = true
  | e :: es, d, hd => by
    rcases List.mem_cons.1 hd with h | hd
    · exact h ▸ e.same_refl
    · exact entries_same_refl es d hd

theorem Expr.same_refl : ∀ e : Expr, e.same e = true
  | .bare _ => by simp [Expr.same]
  | .terminal rows => by rw [Expr.same]; exact sameItems_refl rows
  | .selection child p => by rw [Expr.same, child.same_refl, p.same_refl]; rfl
  | .projection child f => by rw [Expr.same, child.same_refl, f.same_refl]; rfl
  | .join l r p f => by
    rw [Expr.same, l.same_refl, r.same_refl, p.same_refl, f.same_refl]; rfl
  | .product l r f => by rw [Expr.same, l.same_refl, r.same_refl, f.same_refl]; rfl
  | .union l r => by rw [Expr.same, l.same_refl, r.same_refl]; rfl
  | .filter k l r s => by
    rw [Expr.same, l.same_refl, r.same_refl, beq_self_eq_true, beq_self_eq_true]; rfl

end

/-! ## Two values that one value matches

One induction gives symmetry and transitivity: whatever one value matches matches each other. -/

mutual

theorem Value.same_of_common : ∀ (v : Value) {w u : Value},
    v.same w = true → v.same u = true → w.same u = true
  | .null, w, u, h, h' => by
    cases w with
    | null => exact h'
    | _ => cases h
  | .bool b, w, u, h, h' => common_of_number rfl h h'
  | .int n, w, u, h, h' => common_of_number rfl h h'
  | .float x, w, u, h, h' => common_of_number rfl h h'
  | .nan m, w, u, h, h' => by
    cases w with
    | nan n =>
      rw [Value.same, beq_iff_eq] at h
      exact h ▸ h'
    | _ => cases h
  | .text s, w, u, h, h' => by
    cases w with
    | text t =>
      rw [Value.same, beq_iff_eq] at h
      exact h ▸ h'
    | _ => cases h
  | .tuple xs, w, u, h, h' => by
    cases w with
    | tuple ys =>
      cases u with
      | tuple zs =>
        rw [Value.same] at h h' ⊢
        exact sameItems_of_common xs h h'
      | _ => cases h'
    | _ => cases h
  | .list _ xs, w, u, h, h' => by
    cases w with
    | list _ ys =>
      cases u with
      | list _ zs =>
        rw [Value.same] at h h' ⊢
        exact sameItems_of_common xs h h'
      | _ => cases h'
    | _ => cases h
  | .dict xs, w, u, h, h' => by
    cases w with
    | dict ys =>
      cases u with
      | dict zs =>
        -- an entry of either side leads to one of the common dictionary, and from there across
        obtain ⟨h1, h2⟩ := same_dict_iff.1 h
        obtain ⟨h1', h2'⟩ := same_dict_iff.1 h'
        refine same_dict_iff.2 ⟨fun y hy => ?_, fun z hz => ?_⟩
        · obtain ⟨x, hx, hxy⟩ := h2 y hy
          obtain ⟨z, hz, hxz⟩ := h1' x hx
          exact ⟨z, hz, entries_same_of_common xs x hx hxy hxz⟩
        · obtain ⟨x, hx, hxz⟩ := h2' z hz
          obtain ⟨y, hy, hxy⟩ := h1 x hx
          exact ⟨y, hy, entries_same_of_common xs x hx hxy hxz⟩
      | _ => cases h'
    | _ => cases h
  | .generator m _, w, u, h, h' => by
    cases w with
    | generator n _ =>
      rw [Value.same, beq_iff_eq] at h
      exact h ▸ h'
    | _ => cases h
  | .range s, w, u, h, h' => by
    cases w with
    | range t =>
      cases u with
      | range r =>
        rw [Value.same] at h h' ⊢
        exact Span.same_of_common h h'
      | _ => cases h'
    | _ => cases h
  | .callable f, w, u, h, h' => by
    cases w with
    | callable g =>
      cases u with
      | callable k =>
        rw [Value.same] at h h' ⊢
        exact Callback.same_of_common h h'
      | _ => cases h'
    | _ => cases h
  | .expr a, w, u, h, h' => by
    cases w with
    | expr b =>
      cases u with
      | expr c =>
        rw [Value.same] at h h' ⊢
        exact Expr.same_of_common a h h'
      | _ => cases h'
    | _ => cases h
  | .builder a, w, u, h, h' => by
    cases w with
    | builder b =>
      cases u with
      | builder c =>
        rw [Value.same] at h h' ⊢
        exact Expr.same_of_common a h h'
      | _ => cases h'
    | _ => cases h
termination_by structural v => v

theorem sameItems_of_common : ∀ (xs : List Value) {ys zs : List Value},
    sameItems xs ys = true → sameItems xs zs = true → sameItems ys zs = true
  | [], [], [], _, _ => rfl
  | x :: xs, y :: ys, z :: zs, h, h' => by
    rw [sameItems, Bool.and_eq_true] at h h' ⊢
    exact ⟨Value.same_of_common x h.1 h'.1, sameItems_of_common xs h.2 h'.2⟩
termination_by structural xs => xs

theorem Entry.same_of_common : ∀ (e : Entry) {d c : Entry},
    e.same d = true → e.same c = true → d.same c = true
  | .mk k v, .mk k' v', .mk k'' v'', h, h' => by
    rw [Entry.same, Bool.and_eq_true] at h h' ⊢
    exact ⟨Value.same_of_common k h.1 h'.1, Value.same_of_common v h.2 h'.2⟩
termination_by structural e => e

theorem entries_same_of_common : ∀ (es : List Entry), ∀ e ∈ es, ∀ {d c : Entry},
    e.same d = true → e.same c = true → d.same c = true
  | e :: es, b, hb, d, c, h, h' => by
    rcases List.mem_cons.1 hb with hb | hb
    · rw [hb] at h h'
      exact Entry.same_of_common e h h'
    · exact entries_same_of_common es b hb h h'
termination_by structural es => es

theorem Expr.same_of_common : ∀ (a : Expr) {b c : Expr},
    a.same b = true → a.same c = true → b.same c = true
  | .bare m, b, c, h, h' => by
    cases b with
    | bare n =>
      rw [Expr.same, beq_iff_eq] at h
      exact h ▸ h'
    | _ => cases h
  | .terminal xs, b, c, h, h' => by
    cases b with
    | terminal ys =>
      cases c with
      | terminal zs =>
        rw [Expr.same] at h h' ⊢
        exact sameItems_of_common xs h h'
      | _ => cases h'
    | _ => cases h
  | .selection a p, b, c, h, h' => by
    cases b with
    | selection b q =>
      cases c with
      | selection c r =>
        rw [Expr.same, Bool.and_eq_true] at h h' ⊢
        exact ⟨Expr.same_of_common a h.1 h'.1, Callback.same_of_common h.2 h'.2⟩
      | _ => cases h'
    | _ => cases h
  | .projection a f, b, c, h, h' => by
    cases b with
    | projection b g =>
      cases c with
      | projection c k =>
        rw [Expr.same, Bool.and_eq_true] at h h' ⊢
        exact ⟨Expr.same_of_common a h.1 h'.1, Callback.same_of_common h.2 h'.2⟩
      | _ => cases h'
    | _ => cases h
  | .join a b p f, d, e, h, h' => by
    cases d with
    | join a' b' q g =>
      cases e with
      | join a'' b'' r k =>
        simp only [Expr.same, Bool.and_eq_true] at h h' ⊢
        obtain ⟨⟨⟨h1, h2⟩, h3⟩, h4⟩ := h
        obtain ⟨⟨⟨h1', h2'⟩, h3'⟩, h4'⟩ := h'
        exact ⟨⟨⟨Expr.same_of_common a h1 h1', Expr.same_of_common b h2 h2'⟩,
          Callback.same_of_common h3 h3'⟩, Callback.same_of_common h4 h4'⟩
      | _ => cases h'
    | _ => cases h
  | .product a b f, d, e, h, h' => by
    cases d with
    | product a' b' g =>
      cases e with
      | product a'' b'' k =>
        simp only [Expr.same, Bool.and_eq_true] at h h' ⊢
        obtain ⟨⟨h1, h2⟩, h3⟩ := h
        obtain ⟨⟨h1', h2'⟩, h3'⟩ := h'
        exact ⟨⟨Expr.same_of_common a h1 h1', Expr.same_of_common b h2 h2'⟩,
          Callback.same_of_common h3 h3'⟩
      | _ => cases h'
    | _ => cases h
  | .union a b, d, e, h, h' => by
    cases d with
    | union a' b' =>
      cases e with
      | union a'' b'' =>
        rw [Expr.same, Bool.and_eq_true] at h h' ⊢
        exact ⟨Expr.same_of_common a h.1 h'.1, Expr.same_of_common b h.2 h'.2⟩
      | _ => cases h'
    | _ => cases h
  | .filter k a b s, d, e, h, h' => by
    cases d with
    | filter l a' b' t =>
      cases e with
      | filter m a'' b'' u =>
        simp only [Expr.same, Bool.and_eq_true, beq_iff_eq] at h h' ⊢
        obtain ⟨⟨⟨rfl, h2⟩, h3⟩, rfl⟩ := h
        obtain ⟨⟨⟨rfl, h2'⟩, h3'⟩, rfl⟩ := h'
        exact ⟨⟨⟨rfl, Expr.same_of_common a h2 h2'⟩, Expr.same_of_common b h3 h3'⟩, rfl⟩
      | _ => cases h'
    | _ => cases h
termination_by structural a => a

end

theorem Value.same_symm {v w : Value} (h : v.same w = true) : w.same v = true :=
  v.same_of_common h v.same_refl

theorem Value.same_trans {v w u : Value} (h : v.same w = true) (h' : w.same u = true) :
    v.same u = true :=
  w.same_of_common (Value.same_symm h) h'

/-! ## Membership -/

theorem occurs_iff {row : Value} {rows : List Value} :
    occurs row rows = true ↔ ∃ r ∈ rows, r.same row = true := by
  rw [occurs, List.any_eq_true]

/-- Rows that match occur in the same lists. -/
theorem occurs_congr {row row' : Value} (h : row.same row' = true) (rows : List Value) :
    occurs row rows = occurs row' rows := by
  rw [Bool.eq_iff_iff, occurs_iff, occurs_iff]
  constructor
  · rintro ⟨r, hr, hs⟩
    exact ⟨r, hr, Value.same_trans hs h⟩
  · rintro ⟨r, hr, hs⟩
    exact ⟨r, hr, Value.same_trans hs (Value.same_symm h)⟩

theorem occurs_append (row : Value) (rows rows' : List Value) :
    occurs row (rows ++ rows') = (occurs row rows || occurs row rows') := by
  rw [occurs, List.any_append]; rfl

/-! ## Sets of rows -/

/-- A set can be made of exactly the lists without an unhashable row. -/
theorem addMembers_eq_none_iff {seen rows : List Value} :
    addMembers seen rows = none ↔ ∃ row ∈ rows, row.hashable = false := by
  induction rows generalizing seen with
  | nil => simp [addMembers]
  | cons row rows ih =>
    rw [addMembers, List.exists_mem_cons_iff]
    cases hr : row.hashable with
    | false => simp
    | true => rw [if_pos rfl, ih]; simp

/-- A set holds the rows of the list that it is made of. -/
theorem occurs_addMembers {seen rows members : List Value} (h : addMembers seen rows = some members)
    (row : Value) : occurs row members = (occurs row seen || occurs row rows) := by
  induction rows generalizing seen with
  | nil => cases h; simp [occurs]
  | cons first rows ih =>
    rw [addMembers] at h
    split at h
    · rw [ih h]
      have hcons : occurs row (first :: rows) = (occurs row [first] || occurs row rows) :=
        occurs_append row [first] rows
      rw [hcons, ← Bool.or_assoc]
      congr 1
      split
      · -- the first row is dropped: if it matches the row, so does the one kept in its place
        rename_i hseen
        cases hf : first.same row with
        | false => simp [occurs, hf]
        | true =>
          rw [← occurs_congr hf, hseen]; rfl
      · exact occurs_append row seen [first]
    · cases h

/-- A set answers like a scan, unless it meets an unhashable row on either side. -/
theorem occurrencesBySet_eq (left right : List Value) :
    occurrencesBySet left right =
      if (left ++ right).all Value.hashable then some (occurrencesByScan left right) else none := by
  rw [occurrencesBySet, List.all_append]
  cases hm : addMembers [] right with
  | none =>
    obtain ⟨row, hrow, hh⟩ := addMembers_eq_none_iff.1 hm
    have hall : right.all Value.hashable = false := by
      rw [List.all_eq_false]; exact ⟨row, hrow, by rw [hh]; simp⟩
    rw [hall, Bool.and_false]; rfl
  | some members =>
    have hall : right.all Value.hashable = true := by
      rw [List.all_eq_true]
      intro row hrow
      by_contra hh
      rw [addMembers_eq_none_iff.2 ⟨row, hrow, by simpa using hh⟩] at hm
      cases hm
    rw [hall, Bool.and_true, Option.bind_eq_bind, Option.bind_some]
    -- the set is there; row by row it answers like the list, up to the first unhashable row
    induction left with
    | nil => rfl
    | cons row left ih =>
      rw [List.mapM_cons, ih, List.all_cons]
      have ho : occurs row members = occurs row right := by rw [occurs_addMembers hm]; rfl
      cases row.hashable
      · rfl
      · cases left.all Value.hashable
        · rfl
        · rw [ho]; rfl

end BagAlgebra
