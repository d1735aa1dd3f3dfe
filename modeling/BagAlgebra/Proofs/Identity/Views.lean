/-
What values are to operations that only look: whether they match, how they are ordered and shown, what
they hold. A renaming of objects makes no difference to such an operation, as it keeps
different objects apart.
-/
import BagAlgebra.Proofs.Identity.Objects
import BagAlgebra.Row.Uniform
import BagAlgebra.Value.Order
import BagAlgebra.Value.Sequence

namespace BagAlgebra

variable {ρ : Nat ↪ Nat}

/-! ## Views -/

namespace Value

@[simp] theorem number?_rename (v : Value) : (v.rename ρ).number? = v.number? := by cases v <;> rfl

@[simp] theorem quantity?_rename (v : Value) : (v.rename ρ).quantity? = v.quantity? := by
  rw [quantity?, number?_rename, quantity?]

@[simp] theorem int?_rename (v : Value) : (v.rename ρ).int? = v.int? := by cases v <;> rfl

@[simp] theorem isNan_rename (v : Value) : (v.rename ρ).isNan = v.isNan := by cases v <;> rfl

@[simp] theorem truthy_rename (v : Value) : (v.rename ρ).truthy = v.truthy := by
  cases v <;> simp [rename, truthy, renameItems_eq_map, renameEntries_eq_map]

@[simp] theorem shape_rename (v : Value) : (v.rename ρ).shape = v.shape := by
  cases v <;> simp [rename, shape, renameItems_eq_map]

@[simp] theorem length?_rename (v : Value) : (v.rename ρ).length? = v.length? := by
  have h : (v.rename ρ).count? = v.count? := by
    cases v <;> simp [rename, count?, renameItems_eq_map, renameEntries_eq_map]
  rw [length?, h, length?]

theorem items?_rename (v : Value) :
    (v.rename ρ).items? = v.items?.map (List.map (Value.rename ρ)) := by
  cases v <;> simp [rename, items?, characters, renameItems_eq_map, renameEntries_eq_map]

end Value

/-! ## Matching -/

theorem Callback.same_rename (f g : Callback) : (f.rename ρ).same (g.rename ρ) = f.same g := by
  cases f with
  | function a _ _ _ =>
    cases g with
    | function b _ _ _ =>
      obtain ⟨serial, form, name⟩ := a
      obtain ⟨serial', form', name'⟩ := b
      rw [Bool.eq_iff_iff]
      simp [rename, same, Handle.rename, ρ.injective.eq_iff]
    | _ => rfl
  | _ => cases g <;> rfl

mutual

/-- Values match under new names just if they match under the old ones. -/
theorem Value.same_rename : ∀ v w : Value, (v.rename ρ).same (w.rename ρ) = v.same w
  | .null, w => by cases w <;> rfl
  | .bool b, w => congrArg (· == (Value.bool b).quantity?) w.quantity?_rename
  | .int n, w => congrArg (· == (Value.int n).quantity?) w.quantity?_rename
  | .float x, w => congrArg (· == (Value.float x).quantity?) w.quantity?_rename
  | .nan m, w => by
    cases w with
    | nan n => rw [Value.rename, Value.rename, Value.same, Value.same, ρ.injective.beq_eq]
    | _ => rfl
  | .text s, w => by cases w <;> rfl
  | .tuple xs, w => by
    cases w with
    | tuple ys => exact sameItems_rename xs ys
    | _ => rfl
  | .list _ xs, w => by
    cases w with
    | list _ ys => exact sameItems_rename xs ys
    | _ => rfl
  | .dict xs, w => by
    cases w with
    | dict ys =>
      -- each half of the comparison of two dictionaries has its own walk
      rw [Value.rename, Value.rename, Value.same, Value.same]
      rw [entriesWithin_rename xs ys, renameEntries_eq_map ρ ys, List.all_map]
      congr 2
      funext y
      exact entryAmong_rename xs y
    | _ => rfl
  | .generator m _, w => by
    cases w with
    | generator n _ => rw [Value.rename, Value.rename, Value.same, Value.same, ρ.injective.beq_eq]
    | _ => rfl
  | .range s, w => by cases w <;> rfl
  | .callable f, w => by
    cases w with
    | callable g => exact f.same_rename g
    | _ => rfl
  | .expr a, w => by
    cases w with
    | expr b => exact a.same_rename b
    | _ => rfl
  | .builder a, w => by
    cases w with
    | builder b => exact a.same_rename b
    | _ => rfl
termination_by structural v => v

theorem sameItems_rename : ∀ xs ys : List Value,
    sameItems (renameItems ρ xs) (renameItems ρ ys) = sameItems xs ys
  | [], ys => by cases ys <;> rfl
  | x :: xs, ys => by
    cases ys with
    | nil => rfl
    | cons y ys =>
      rw [renameItems, renameItems, sameItems, sameItems]
      rw [x.same_rename y, sameItems_rename xs ys]
termination_by structural xs => xs

theorem Entry.same_rename : ∀ e d : Entry, (e.rename ρ).same (d.rename ρ) = e.same d
  | .mk k v, d => by
    rw [Entry.rename, Entry.same, Entry.same, Entry.key_rename, Entry.value_rename,
      k.same_rename d.key, v.same_rename d.value]
termination_by structural e => e

theorem entriesWithin_rename : ∀ xs ys : List Entry,
    entriesWithin (renameEntries ρ xs) (renameEntries ρ ys) = entriesWithin xs ys
  | [], _ => rfl
  | x :: xs, ys => by
    rw [renameEntries, entriesWithin, entriesWithin, entriesWithin_rename xs ys,
      renameEntries_eq_map ρ ys, List.any_map]
    congr 2
    funext y
    exact x.same_rename y
termination_by structural xs => xs

theorem entryAmong_rename : ∀ (xs : List Entry) (y : Entry),
    entryAmong (renameEntries ρ xs) (y.rename ρ) = entryAmong xs y
  | [], _ => rfl
  | x :: xs, y => by
    rw [renameEntries, entryAmong, entryAmong, x.same_rename y, entryAmong_rename xs y]
termination_by structural xs => xs

theorem Expr.same_rename : ∀ a b : Expr, (a.rename ρ).same (b.rename ρ) = a.same b
  | .bare m, b => by
    cases b with
    | bare n => rw [Expr.rename, Expr.rename, Expr.same, Expr.same, ρ.injective.beq_eq]
    | _ => rfl
  | .terminal xs, b => by
    cases b with
    | terminal ys => exact sameItems_rename xs ys
    | _ => rfl
  | .selection a p, b => by
    cases b with
    | selection c q =>
      rw [Expr.rename, Expr.rename, Expr.same, Expr.same, a.same_rename c, p.same_rename q]
    | _ => rfl
  | .projection a f, b => by
    cases b with
    | projection c g =>
      rw [Expr.rename, Expr.rename, Expr.same, Expr.same, a.same_rename c, f.same_rename g]
    | _ => rfl
  | .join a b p f, e => by
    cases e with
    | join c d q g =>
      rw [Expr.rename, Expr.rename, Expr.same, Expr.same, a.same_rename c, b.same_rename d,
        p.same_rename q, f.same_rename g]
    | _ => rfl
  | .product a b f, e => by
    cases e with
    | product c d g =>
      rw [Expr.rename, Expr.rename, Expr.same, Expr.same, a.same_rename c, b.same_rename d,
        f.same_rename g]
    | _ => rfl
  | .union a b, e => by
    cases e with
    | union c d =>
      rw [Expr.rename, Expr.rename, Expr.same, Expr.same, a.same_rename c, b.same_rename d]
    | _ => rfl
  | .filter k a b s, e => by
    cases e with
    | filter l c d t =>
      rw [Expr.rename, Expr.rename, Expr.same, Expr.same, a.same_rename c, b.same_rename d]
    | _ => rfl
termination_by structural a => a

end

theorem Value.equal_rename (v w : Value) : (v.rename ρ).equal (w.rename ρ) = v.equal w := by
  rw [Value.equal, Value.same_rename, Value.isNan_rename, Value.equal]

theorem occurs_rename (row : Value) (rows : List Value) :
    occurs (row.rename ρ) (rows.map (Value.rename ρ)) = occurs row rows := by
  rw [occurs, List.any_map, occurs]
  congr 1
  funext r
  exact Value.same_rename r row

/-! ## Hashing -/

mutual

theorem Value.hashable_rename : ∀ v : Value, (v.rename ρ).hashable = v.hashable
  | .null => rfl
  | .bool _ => rfl
  | .int _ => rfl
  | .float _ => rfl
  | .nan _ => rfl
  | .text _ => rfl
  | .tuple items => hashableItems_rename items
  | .list _ _ => rfl
  | .dict _ => rfl
  | .generator _ _ => rfl
  | .range _ => rfl
  | .callable _ => rfl
  | .expr e => e.hashable_rename
  | .builder e => e.hashable_rename
termination_by structural v => v

theorem hashableItems_rename : ∀ vs : List Value, hashableItems (renameItems ρ vs) = hashableItems vs
  | [] => rfl
  | v :: vs => by
    rw [renameItems, hashableItems, hashableItems, v.hashable_rename, hashableItems_rename vs]
termination_by structural vs => vs

theorem Expr.hashable_rename : ∀ e : Expr, (e.rename ρ).hashable = e.hashable
  | .bare _ => rfl
  | .terminal rows => hashableItems_rename rows
  | .selection child _ => child.hashable_rename
  | .projection child _ => child.hashable_rename
  | .join left right _ _ => congrArg₂ (· && ·) left.hashable_rename right.hashable_rename
  | .product left right _ => congrArg₂ (· && ·) left.hashable_rename right.hashable_rename
  | .union left right => congrArg₂ (· && ·) left.hashable_rename right.hashable_rename
  | .filter _ left right _ => congrArg₂ (· && ·) left.hashable_rename right.hashable_rename
termination_by structural e => e

end

/-! ## Shown forms -/

theorem Callback.label_rename (f : Callback) : (f.rename ρ).label = f.label := by
  cases f with
  | function handle _ _ _ =>
    obtain ⟨serial, form, name⟩ := handle
    cases form <;> rfl
  | _ => rfl

theorem Callback.repr_rename (f : Callback) : (f.rename ρ).repr = f.repr := by
  cases f with
  | function handle _ _ _ =>
    obtain ⟨serial, form, name⟩ := handle
    cases form <;> rfl
  | _ => rfl

theorem Expr.repr_rename : ∀ e : Expr, (e.rename ρ).repr = e.repr
  | .bare _ => rfl
  | .terminal rows => by
    rw [Expr.rename, Expr.repr, Expr.repr, renameItems_eq_map, List.length_map]
  | .selection child p => by
    rw [Expr.rename, Expr.repr, Expr.repr, child.repr_rename, p.label_rename]
  | .projection child f => by
    rw [Expr.rename, Expr.repr, Expr.repr, child.repr_rename, f.label_rename]
  | .join left right p _ => by
    rw [Expr.rename, Expr.repr, Expr.repr, left.repr_rename, right.repr_rename, p.label_rename]
  | .product left right _ => by
    rw [Expr.rename, Expr.repr, Expr.repr, left.repr_rename, right.repr_rename]
  | .union left right => by
    rw [Expr.rename, Expr.repr, Expr.repr, left.repr_rename, right.repr_rename]
  | .filter _ left right _ => by
    rw [Expr.rename, Expr.repr, Expr.repr, left.repr_rename, right.repr_rename]

theorem Expr.builderRepr_rename (e : Expr) : (e.rename ρ).builderRepr = e.builderRepr := by
  unfold Expr.builderRepr
  rw [e.repr_rename]

mutual

theorem Value.repr_rename : ∀ v : Value, (v.rename ρ).repr = v.repr
  | .null => rfl
  | .bool _ => rfl
  | .int _ => rfl
  | .float _ => rfl
  | .nan _ => rfl
  | .text _ => rfl
  | .tuple items => by rw [Value.rename, Value.repr, Value.repr, reprItems_rename items]
  | .list _ items => by rw [Value.rename, Value.repr, Value.repr, reprItems_rename items]
  | .dict entries => by rw [Value.rename, Value.repr, Value.repr, reprEntries_rename entries]
  | .generator _ _ => rfl
  | .range _ => rfl
  | .callable f => f.repr_rename
  | .expr e => e.repr_rename
  | .builder e => e.builderRepr_rename
termination_by structural v => v

theorem reprItems_rename : ∀ vs : List Value, reprItems (renameItems ρ vs) = reprItems vs
  | [] => rfl
  | v :: vs => by rw [renameItems, reprItems, reprItems, v.repr_rename, reprItems_rename vs]
termination_by structural vs => vs

theorem Entry.repr_rename : ∀ e : Entry, (e.rename ρ).repr = e.repr
  | .mk key value => by
    rw [Entry.rename, Entry.repr, Entry.repr, key.repr_rename, value.repr_rename]
termination_by structural e => e

theorem reprEntries_rename : ∀ es : List Entry, reprEntries (renameEntries ρ es) = reprEntries es
  | [] => rfl
  | e :: es => by rw [renameEntries, reprEntries, reprEntries, e.repr_rename, reprEntries_rename es]
termination_by structural es => es

end

mutual

theorem Value.printable_rename : ∀ v : Value, (v.rename ρ).printable = v.printable
  | .null => rfl
  | .bool _ => rfl
  | .int _ => rfl
  | .float _ => rfl
  | .nan _ => rfl
  | .text _ => rfl
  | .tuple items => printableItems_rename items
  | .list _ items => printableItems_rename items
  | .dict entries => printableEntries_rename entries
  | .generator _ _ => rfl
  | .range _ => rfl
  | .callable _ => rfl
  | .expr _ => rfl
  | .builder _ => rfl
termination_by structural v => v

theorem printableItems_rename : ∀ vs : List Value,
    printableItems (renameItems ρ vs) = printableItems vs
  | [] => rfl
  | v :: vs => by
    rw [renameItems, printableItems, printableItems, v.printable_rename, printableItems_rename vs]
termination_by structural vs => vs

theorem Entry.printable_rename : ∀ e : Entry, (e.rename ρ).printable = e.printable
  | .mk key value => by
    rw [Entry.rename, Entry.printable, Entry.printable, key.printable_rename, value.printable_rename]
termination_by structural e => e

theorem printableEntries_rename : ∀ es : List Entry,
    printableEntries (renameEntries ρ es) = printableEntries es
  | [] => rfl
  | e :: es => by
    rw [renameEntries, printableEntries, printableEntries, e.printable_rename,
      printableEntries_rename es]
termination_by structural es => es

end

@[simp] theorem Value.repr?_rename (v : Value) : (v.rename ρ).repr? = v.repr? := by
  rw [Value.repr?, v.printable_rename, v.repr_rename, Value.repr?]

@[simp] theorem Value.str?_rename (v : Value) : (v.rename ρ).str? = v.str? := by
  cases v with
  | text s => rfl
  | _ => exact Value.repr?_rename _

/-! ## Order -/

section Order

variable (relation : Relation)

theorem order_of_number (ρ : Nat ↪ Nat) (v w : Value) :
    (match (v.rename ρ).number?, (w.rename ρ).number? with
      | some a, some b => Except.ok (relation.onNumbers a b)
      | _, _ => Except.error Fault.typeMismatch) =
    match v.number?, w.number? with
      | some a, some b => Except.ok (relation.onNumbers a b)
      | _, _ => Except.error Fault.typeMismatch := by
  rw [Value.number?_rename, Value.number?_rename]

mutual

theorem Value.order_rename : ∀ v w : Value,
    (v.rename ρ).order relation (w.rename ρ) = v.order relation w
  | .text s, w => by cases w <;> rfl
  | .tuple xs, w => by
    cases w with
    | tuple ys => exact orderItems_rename xs ys
    | _ => rfl
  | .list _ xs, w => by
    cases w with
    | list _ ys => exact orderItems_rename xs ys
    | _ => rfl
  | .null, w => order_of_number relation ρ .null w
  | .bool b, w => order_of_number relation ρ (.bool b) w
  | .int n, w => order_of_number relation ρ (.int n) w
  | .float x, w => order_of_number relation ρ (.float x) w
  | .nan n, w => order_of_number relation ρ (.nan n) w
  | .dict es, w => order_of_number relation ρ (.dict es) w
  | .generator n vs, w => order_of_number relation ρ (.generator n vs) w
  | .range s, w => order_of_number relation ρ (.range s) w
  | .callable f, w => order_of_number relation ρ (.callable f) w
  | .expr e, w => order_of_number relation ρ (.expr e) w
  | .builder e, w => order_of_number relation ρ (.builder e) w
termination_by structural v => v

theorem orderItems_rename : ∀ xs ys : List Value,
    orderItems relation (renameItems ρ xs) (renameItems ρ ys) = orderItems relation xs ys
  | [], ys => by
    rw [renameItems, orderItems, orderItems, renameItems_eq_map, List.length_map]
  | x :: xs, ys => by
    cases ys with
    | nil => rfl
    | cons y ys =>
      rw [renameItems, renameItems, orderItems, orderItems, Value.same_rename x y,
        x.order_rename y, orderItems_rename xs ys]
termination_by structural xs => xs

end

end Order

end BagAlgebra
