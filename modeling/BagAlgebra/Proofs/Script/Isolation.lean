/-
Isolation: what is done after a tree was made makes no difference to it. Steps change lists, and only
lists that are bound to names; a tree that mentions none of these stays as it is, and evaluating it
later comes to the same as evaluating it at once, but for the numbers of new objects. There is one way
in: an `eval` that is set on a bare expression changes what the trees come to that have it as a leaf.
-/
import BagAlgebra.Proofs.Script.Frames

namespace BagAlgebra

/-! ## The same answer later -/

/-- New names under which objects made so far keep theirs, and the next ones come after all others. -/
def laterNames {early late : Nat} (h : early ≤ late) : Nat ↪ Nat where
  toFun n := if n < early then n else n - early + late
  inj' := by
    intro m n hmn
    dsimp only at hmn
    split at hmn <;> split at hmn <;> omega

theorem laterNames_of_lt {early late n : Nat} (h : early ≤ late) (hn : n < early) :
    laterNames h n = n := if_pos hn

theorem laterNames_add {early late : Nat} (h : early ≤ late) (k : Nat) :
    laterNames h (early + k) = late + k := by
  show (if early + k < early then early + k else early + k - early + late) = late + k
  rw [if_neg (by omega)]
  omega

theorem stores_laterNames {store store' : Store} (hs : store.Sound) (hs' : store'.Sound)
    (h : store.fresh ≤ store'.fresh) :
    Renaming.Stores ⟨laterNames h, store.fresh⟩ store store' := by
  refine ⟨Nat.le_refl _, laterNames_add h, fun n hn => ?_, hs⟩
  obtain ⟨k, rfl⟩ := Nat.exists_eq_add_of_le hn
  show store.drawn (store.fresh + k) = store'.drawn (laterNames h (store.fresh + k))
  rw [laterNames_add, hs _ (Nat.le_add_right ..), hs' _ (Nat.le_add_right ..)]

/-- The reply with every object renamed. -/
def Reply.rename (ρ : Nat ↪ Nat) (reply : Reply) : Reply :=
  ⟨reply.result.map (Value.rename ρ), reply.log.map (Event.rename ρ)⟩

/-- What a step answers is up to its action. -/
theorem Step.run_reply (step : Step) (session : Session) :
    (step.run session).1 = ⟨(step.action.run session session.store).result.map Prod.fst,
      (step.action.run session session.store).log⟩ := by
  unfold run
  rcases step.action.run session session.store with ⟨fault | ⟨v, change⟩, log, store⟩ <;> rfl

/-- To evaluate a name is to evaluate what it is bound to. -/
theorem eval_reference {session : Session} {x : String} {v : Value}
    (hx : session.bindings.lookup x = some v) :
    (Action.eval (.reference x)).run session
      = session.eval v >>= fun w => pure (w, Change.nothing) := by
  have hbuild : (Term.reference x).build session.bindings = pure v := by
    rw [Term.build, hx]
  show (Term.reference x).build session.bindings >>= _ = _
  rw [hbuild, pure_bind]

section Later

variable {first last : Session} (hf : first.Sound) (hle : first.store.fresh ≤ last.store.fresh)
  {x : String} {v : Value} {e : Expr} (hx : first.bindings.lookup x = some v) (he : v.tree? = some e)
  (hl : first.Keeps last x v e) (hg : ∀ o ∈ first.reach e, o.kind ≠ .generator)

include hf hx he hl hg

/-- A later session in which a name is kept evaluates its tree in step with the earlier one, if there is no
generator in the tree or in what was set on its bare expressions. -/
theorem Session.Keeps.inStep :
    Renaming.InStep ⟨laterNames hle, first.store.fresh⟩ first.store last.store
      (Renaming.Renames ⟨laterNames hle, first.store.fresh⟩) (first.eval v) (last.eval v) := by
  have kept : ∀ {w : Value}, Known 0 first.store.fresh w.objects → w.objects ⊆ first.reach e →
      Renaming.Renames ⟨laterNames hle, first.store.fresh⟩ first.store.fresh w w := by
    refine fun {w} hk hw => ⟨(w.rename_eq_self fun o ho => ?_).symm, fun o ho => ?_⟩
    · exact laterNames_of_lt hle (hk o ho).1
    · exact ⟨(hk o ho).1, fun hkind => absurd hkind (hg o (hw ho))⟩
  have hset : ∀ serial ∈ e.bares, Option.Rel
      (Renaming.Renames ⟨laterNames hle, first.store.fresh⟩ first.store.fresh)
      (first.override? (.expr (.bare serial))) (last.override? (.expr (.bare serial))) := by
    intro serial hm
    rw [hl.set serial hm]
    cases hown : first.override? (.expr (.bare serial)) with
    | none => exact .none
    | some own =>
      obtain ⟨a, ha, rfl⟩ := Session.mem_of_override? hown
      exact .some (kept (hf.attributes a ha).2 (Session.objects_override?_subset hm hown))
  have hv : Known 0 first.store.fresh v.objects := hf.bindings.lookup hx
  refine Session.eval_inStep (stores_laterNames hf.store hl.sound.store hle) (kept hv ?_) ?_ ?_
  · rw [objects_of_tree? he]
    exact List.subset_append_left ..
  · rcases override?_of_tree? he with ⟨serial, hm, ho⟩ | ho
    · rw [ho, ho]
      exact hset serial hm
    · rw [ho, ho]
      exact .none
  · intro e' he' serial hm
    obtain rfl : e' = e := Option.some_inj.1 (he'.symm.trans he)
    rw [objects_of_tree? he] at hv
    show Option.Rel _ _ (last.override? (.expr (.bare (laterNames hle serial))))
    rw [laterNames_of_lt hle (hv _ (e'.bare_mem_objects hm)).1]
    exact hset serial hm

/-- What a name answers when it is evaluated, it answers later, where it is kept. -/
theorem eval_reply (name? : Option String) :
    (Step.run ⟨.eval (.reference x), name?⟩ last).1
      = (Step.run ⟨.eval (.reference x), name?⟩ first).1.rename (laterNames hle) := by
  have hrun : Renaming.InStep ⟨laterNames hle, first.store.fresh⟩ first.store last.store
      (fun _ a b => b.1 = a.1.rename (laterNames hle)) ((Action.eval (.reference x)).run first)
      ((Action.eval (.reference x)).run last) := by
    rw [eval_reference hx, eval_reference hl.bound]
    exact (hl.inStep hf hle hx he hg).bind fun _ _ _ _ _ hm h => inStep_pure hm h.1
  have hmap : ∀ {r r' : Except Fault (Value × Change)},
      ResultsCorrespond (fun a b => b.1 = a.1.rename (laterNames hle)) r r' →
        r'.map Prod.fst = (r.map Prod.fst).map (Value.rename (laterNames hle)) := by
    intro r r' h
    cases h with
    | ok h => exact congrArg Except.ok h
    | error fault => rfl
  rw [Step.run_reply, Step.run_reply, Reply.rename, hmap hrun.result, hrun.log]

end Later

/-! ## Failures -/

/-- A step that fails changes no binding and no list. -/
theorem Step.run_failed {step : Step} {session : Session} {fault : Fault}
    (h : (step.run session).1.result = .error fault) :
    (step.run session).2.bindings = session.bindings ∧
      (step.run session).2.attributes = session.attributes := by
  have hend := step.run_ends session
  generalize step.run session = ended at hend h ⊢
  cases hend with
  | failed _ => exact ⟨rfl, rfl⟩
  | unnamed _ _ => cases h
  | named _ _ => cases h

/-- A tree other than a bare expression takes no attributes. -/
theorem settable_of_tree? {v : Value} {e : Expr} (he : v.tree? = some e)
    (hb : ∀ serial, v ≠ .expr (.bare serial)) : v.settable = .error .frozen := by
  cases v with
  | builder _ => rfl
  | expr e =>
    cases e with
    | bare serial => exact absurd rfl (hb serial)
    | _ => rfl
  | _ => cases he

/-- Setting a field of a tree other than a bare expression fails, whatever the new value is. -/
theorem set_reply {session : Session} {on value : Term} {field : String} {name? : Option String}
    {v : Value} {e : Expr} {log : List Event} {store : Store}
    (hon : on.build session.bindings session.store = ⟨.ok v, log, store⟩) (he : v.tree? = some e)
    (hb : ∀ serial, v ≠ .expr (.bare serial)) :
    (Step.run ⟨.set on field value, name?⟩ session).1.result
      = (value.build session.bindings store).result >>= fun _ => .error .frozen := by
  have hrun : (Action.set on field value).run session session.store = _ := Run.bind_ok hon
  -- the refusal comes after the new value is built, whatever it is
  have hnext : (fun w : Value => Run.ofExcept v.settable >>= fun _ : Unit =>
      (pure (Value.null, Change.attribute v field w) : Eval (Value × Change)))
        = fun _ => Run.fail .frozen := by
    rw [settable_of_tree? he hb]
    rfl
  rw [Step.run_reply, hrun]
  show ((value.build session.bindings >>= fun w => Run.ofExcept v.settable >>= fun _ : Unit =>
    (pure (Value.null, Change.attribute v field w) : Eval (Value × Change))) store).result.map Prod.fst = _
  rw [hnext]
  rcases hval : value.build session.bindings store with ⟨fault | w, log', store'⟩
  · rw [Run.bind_error hval]
    rfl
  · rw [Run.bind_ok hval]
    rfl

/-! ## Isolation -/

/-- The name begins and ends with two underscores. -/
def reserved (field : String) : Bool :=
  ['_', '_'].isPrefixOf field.toList && ['_', '_'].isSuffixOf field.toList

/-- A list of two rows, each with a list in it, and a builder over it. -/
def stocked : List Step :=
  [⟨.build (.list [.tuple [.constant (.int 1), .list [.constant (.int 7)]],
      .tuple [.constant (.int 2), .list []]]), some "rows"⟩,
    ⟨.build (.call .builderFromRows [.mk .rows (.reference "rows")]), some "table"⟩]

/-- The list gets a third row, rows of the builder are evaluated and changed, another builder is made of
it, and a field of it is set, in vain. -/
def reworked : List Step :=
  [⟨.append (.reference "rows") (.tuple [.constant (.int 3), .nan]), none⟩,
    ⟨.eval (.reference "table"), some "result"⟩,
    ⟨.append (.reference "result") (.constant .null), none⟩,
    ⟨.build (.invoke .union (.reference "table") [.mk .right (.reference "rows")]), some "both"⟩,
    ⟨.set (.reference "table") "expression" (.constant .null), some "table"⟩]

/-- A bare expression. -/
def sourced : Step := ⟨.build (.call (.node .bare) []), some "source"⟩

/-- An `eval` for the bare expression. -/
def answering (body : Code) (captured : List Term) : Step :=
  ⟨.set (.reference "source") "eval" (.function .named "answer" [] body captured), none⟩

/-- A new list of a number. -/
def single : Code := .list [.literal (.int 1)]

/-- A selection over the bare expression. -/
def selecting : Step :=
  ⟨.build (.call (.node .selection) [.mk .child (.reference "source"),
    .mk .predicate (.constant (.callable (.builtin .bool)))]), some "table"⟩

/-- The number of rows that a step answers. -/
def Reply.count (reply : Reply) : Option Nat :=
  match reply.result with
  | .ok (.list _ items) => some items.length
  | _ => none

theorem Reply.count_rename (ρ : Nat ↪ Nat) (reply : Reply) : (reply.rename ρ).count = reply.count := by
  rcases reply with ⟨fault | v, log⟩
  · rfl
  · cases v with
    | list cell items =>
      show some (renameItems ρ items).length = some items.length
      rw [renameItems_eq_map, List.length_map]
    | _ => rfl

/-- A name is bound to a tree that mentions no generator and no list with a name, it is not bound anew, and
yet it comes to other rows later. -/
structure Changes (before later : List Step) (x : String) (v : Value) (e : Expr) : Prop where
  bound : (Session.start.after before).bindings.lookup x = some v
  tree : v.tree? = some e
  generators : ∀ o ∈ e.objects, o.kind ≠ .generator
  lists : ∀ i ≤ later.length, ∀ o ∈ e.objects, o.kind = .list →
    ((Session.start.after before).after (later.take i)).holds o.serial = false
  kept : ∀ i, (hi : i < later.length) →
    later[i].binds ((Session.start.after before).after (later.take i)) x = false
  differs : ∀ ρ : Nat ↪ Nat,
    (Step.run ⟨.eval (.reference x), none⟩ ((Session.start.after before).after later)).1
      ≠ (Step.run ⟨.eval (.reference x), none⟩ (Session.start.after before)).1.rename ρ

end BagAlgebra
