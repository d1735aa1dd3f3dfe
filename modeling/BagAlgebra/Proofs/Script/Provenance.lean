/-
Where objects come from. Whatever a script builds mentions objects that were made before, or while it
was being built, and a generator gives no item before it is made. So all objects in a session have
been made, and the next one is new.
-/
import BagAlgebra.Proofs.Identity.Cells
import BagAlgebra.Proofs.Identity.Trees
import BagAlgebra.Proofs.Tree.Parts
import BagAlgebra.Script.Term

namespace BagAlgebra

/-- No object has given items before it was made. -/
def Store.Sound (store : Store) : Prop := ∀ n, store.fresh ≤ n → store.drawn n = 0

/-- A run makes new objects only, and its answer has a property that depends on how many objects have
been made. -/
structure Makes {α : Type} (store : Store) (Q : Nat → α → Prop) (run : Eval α) : Prop where
  grows : store.fresh ≤ (run store).store.fresh
  sound : (run store).store.Sound
  answer : ∀ a, (run store).result = .ok a → Q (run store).store.fresh a

section Makes

variable {α β : Type} {store : Store} {Q : Nat → α → Prop} {Q' : Nat → β → Prop}

theorem makes_ofExcept (hs : store.Sound) {result : Except Fault α}
    (h : ∀ a, result = .ok a → Q store.fresh a) : Makes store Q (Run.ofExcept result) :=
  ⟨Nat.le_refl _, hs, h⟩

theorem makes_pure (hs : store.Sound) {a : α} (h : Q store.fresh a) : Makes store Q (pure a) := by
  refine ⟨Nat.le_refl _, hs, fun b hb => ?_⟩
  cases hb
  exact h

theorem makes_fail (hs : store.Sound) (fault : Fault) : Makes store Q (Run.fail fault) :=
  ⟨Nat.le_refl _, hs, fun _ h => by cases h⟩

theorem Makes.bind {run : Eval α} {next : α → Eval β} (h : Makes store Q run)
    (hn : ∀ a mid, store.fresh ≤ mid.fresh → mid.Sound → Q mid.fresh a → Makes mid Q' (next a)) :
    Makes store Q' (run >>= next) := by
  obtain ⟨hg, hs, ha⟩ := h
  rcases ho : run store with ⟨fault | a, log, after⟩
  · rw [ho] at hg hs
    have hb : (run >>= next) store = _ := Run.bind_error ho
    refine ⟨?_, ?_, fun b h => ?_⟩
    · rw [hb]; exact hg
    · rw [hb]; exact hs
    · rw [hb] at h
      cases h
  · rw [ho] at hg hs ha
    have hb : (run >>= next) store = _ := Run.bind_ok ho
    obtain ⟨hg2, hs2, ha2⟩ := hn a after hg hs (ha a rfl)
    refine ⟨?_, ?_, fun b h => ?_⟩
    · rw [hb]; exact Nat.le_trans hg hg2
    · rw [hb]; exact hs2
    · rw [hb] at h ⊢
      exact ha2 b h

theorem Makes.mono {run : Eval α} (h : Makes store Q run) {Q₂ : Nat → α → Prop}
    (hq : ∀ n a, Q n a → Q₂ n a) : Makes store Q₂ run :=
  ⟨h.grows, h.sound, fun a ha => hq _ a (h.answer a ha)⟩

theorem Makes.and {run : Eval α} (h : Makes store Q run) {Q₂ : Nat → α → Prop}
    (h₂ : Makes store Q₂ run) : Makes store (fun n a => Q n a ∧ Q₂ n a) run :=
  ⟨h.grows, h.sound, fun a ha => ⟨h.answer a ha, h₂.answer a ha⟩⟩

/-- A run and then a value made of its answer. -/
theorem Makes.map {run : Eval α} (h : Makes store Q run) {f : α → β}
    (hf : ∀ n a, Q n a → Q' n (f a)) : Makes store Q' (do let a ← run; return f a) :=
  h.bind fun a mid _ hs ha => makes_pure hs (hf mid.fresh a ha)

/-- A look at what is there already. -/
theorem makes_look (hs : store.Sound) {look : Except Fault α} {next : α → Eval β}
    (h : ∀ a, look = .ok a → Makes store Q' (next a)) :
    Makes store Q' (Run.ofExcept look >>= next) := by
  cases look with
  | error fault => exact makes_fail hs fault
  | ok a => exact h a rfl

theorem makes_fresh (hs : store.Sound) : Makes store (fun n m => m < n ∧ store.fresh ≤ m) Run.fresh := by
  refine ⟨Nat.le_succ _, fun n hn => hs n (Nat.le_of_succ_le hn), fun m hm => ?_⟩
  cases hm
  exact ⟨Nat.lt_succ_self _, Nat.le_refl _⟩

theorem makes_draw (hs : store.Sound) {n : Nat} (hn : n < store.fresh) :
    Makes store (fun _ _ => True) (Run.draw n) := by
  refine ⟨Nat.le_refl _, fun m hm => ?_, fun _ _ => trivial⟩
  have hm : store.fresh ≤ m := hm
  show (if m = n then store.drawn m + 1 else store.drawn m) = 0
  rw [if_neg (by omega)]
  exact hs m hm

end Makes

/-- Every object keeps its name. -/
def sameNames : Renaming := ⟨Function.Embedding.refl Nat, 0⟩

theorem stores_sameNames {store : Store} (hs : store.Sound) : sameNames.Stores store store :=
  ⟨Nat.zero_le _, fun _ => rfl, fun _ _ => rfl, hs⟩

/-! ## Collections -/

theorem known_items {least limit : Nat} {vs : List Value} :
    Known least limit (objectsOfItems vs) ↔ ∀ v ∈ vs, Known least limit v.objects := by
  constructor
  · intro h v hv
    exact h.subset fun o ho => mem_objectsOfItems.2 ⟨v, hv, ho⟩
  · intro h o ho
    obtain ⟨v, hv, ho⟩ := mem_objectsOfItems.1 ho
    exact h v hv o ho

section Walks

variable {β : Type} {Q : Nat → β → Prop} {use : Value → Eval β} (hQ : ∀ n m b, n ≤ m → Q n b → Q m b)
  (hu : ∀ v mid, mid.Sound → Known 0 mid.fresh v.objects → Makes mid Q (use v))

include hQ hu

theorem mapM_makes : ∀ (vs : List Value) {store : Store}, store.Sound →
    Known 0 store.fresh (objectsOfItems vs) →
      Makes store (fun n bs => ∀ b ∈ bs, Q n b) (vs.mapM use)
  | [], _, hs, _ => makes_pure hs (List.forall_mem_nil _)
  | v :: vs, _, hs, hk => by
    obtain ⟨hv, hvs⟩ := known_append.1 hk
    rw [List.mapM_cons]
    refine (hu v _ hs hv).bind fun b mid hg hm hb => ?_
    refine (mapM_makes vs hm (hvs.mono hg)).bind fun bs last hg' hl hbs => makes_pure hl ?_
    exact List.forall_mem_cons.2 ⟨hQ _ _ b hg' hb, hbs⟩

theorem drawEach_makes {serial : Nat} : ∀ (vs : List Value) {store : Store}, store.Sound →
    serial < store.fresh → Known 0 store.fresh (objectsOfItems vs) →
      Makes store (fun n bs => ∀ b ∈ bs, Q n b) (Value.drawEach serial use vs)
  | [], _, hs, _, _ => makes_pure hs (List.forall_mem_nil _)
  | v :: vs, _, hs, hlt, hk => by
    obtain ⟨hv, hvs⟩ := known_append.1 hk
    rw [Value.drawEach]
    refine (makes_draw hs hlt).bind fun _ start hg hd _ => ?_
    refine (hu v start hd (hv.mono hg)).bind fun b mid hg' hm hb => ?_
    have hlt' : serial < mid.fresh := by omega
    refine (drawEach_makes vs hm hlt' (hvs.mono (by omega))).bind
      fun bs last hl hlast hbs => makes_pure hlast ?_
    exact List.forall_mem_cons.2 ⟨hQ _ _ b hl hb, hbs⟩

/-- A walk over the items of a value. -/
theorem forEach_makes {store : Store} (hs : store.Sound) {v : Value}
    (hk : Known 0 store.fresh v.objects) :
    Makes store (fun n bs => ∀ b ∈ bs, Q n b) (v.forEach use) := by
  have stored : Makes store (fun n bs => ∀ b ∈ bs, Q n b)
      (match v.items? with
        | none => Run.fail .typeMismatch
        | some items => items.mapM use) := by
    cases hv : v.items? with
    | none => exact makes_fail hs _
    | some vs => exact mapM_makes hQ hu vs hs (hk.subset (objects_of_items? hv))
  cases v with
  | generator serial items =>
    obtain ⟨⟨hlt, _⟩, hitems⟩ := List.forall_mem_cons.1 hk
    -- how much the generator has given so far does not matter: what is left is among its items
    refine Makes.bind (Q := fun _ _ => True) ⟨Nat.le_refl _, hs, fun _ _ => trivial⟩ ?_
    intro m mid hg hm _
    refine drawEach_makes hQ hu _ hm (Nat.lt_of_lt_of_le hlt hg) (known_items.2 fun v hv => ?_)
    exact known_items.1 (Known.mono hitems hg) v (List.mem_of_mem_drop hv)
  | _ => exact stored

end Walks

theorem collect_makes {store : Store} (hs : store.Sound) {v : Value}
    (hk : Known 0 store.fresh v.objects) :
    Makes store (fun n us => Known 0 n (objectsOfItems us)) (v.collect : Eval (List Value)) := by
  have walked : Makes store (fun n us => Known 0 n (objectsOfItems us))
      (v.forEach pure : Eval (List Value)) := by
    refine (forEach_makes (Q := fun n v => Known 0 n v.objects) ?_ ?_ hs hk).mono
      fun _ _ => known_items.2
    · intro n m v hl h
      exact h.mono hl
    · intro v mid hm h
      exact makes_pure hm h
  cases v with
  | range span =>
    dsimp only [Value.collect]
    split
    · exact makes_fail hs _
    · split
      · exact makes_fail hs _
      · -- the members of a progression are integers
        refine makes_pure hs (known_items.2 fun v hv => ?_)
        obtain ⟨i, _, rfl⟩ := List.mem_map.1 hv
        exact known_nil _ _
  | _ => exact walked

/-! ## Trees -/

/-- The objects of an inner node are those of its sides and of its callbacks. -/
theorem Expr.mem_objects_inner {e : Expr} (h : e.sides ≠ []) {o : Object} (ho : o ∈ e.objects) :
    (∃ s ∈ e.sides, o ∈ s.objects) ∨ ∃ f ∈ e.callbacks, o ∈ f.objects := by
  cases e with
  | bare serial => exact absurd rfl h
  | terminal rows => exact absurd rfl h
  | _ =>
    simp only [objects, sides, callbacks, List.mem_append, List.mem_cons, List.not_mem_nil, or_false,
      exists_eq_or_imp, exists_eq_left] at ho ⊢
    tauto

/-- What holds of the objects of the parts of a node holds of its own. -/
theorem Expr.MadeFrom.objects {e : Expr} {parts : List Value} (h : e.MadeFrom parts) {P : Object → Prop}
    (hp : ∀ v ∈ parts, ∀ o ∈ v.objects, P o) : ∀ o ∈ e.objects, P o := by
  intro o ho
  rcases Expr.mem_objects_inner h.inner ho with ⟨s, hs, ho⟩ | ⟨f, hf, ho⟩
  · exact hp _ (h.sides s hs) o ho
  · exact hp _ (h.callbacks f hf).1 o ho

/-- Values of which all objects are known. -/
def KnownAll (limit : Nat) (vs : List Value) : Prop := ∀ v ∈ vs, Known 0 limit v.objects

theorem KnownAll.mono {limit limit' : Nat} {vs : List Value} (h : KnownAll limit vs)
    (hl : limit ≤ limit') : KnownAll limit' vs := fun v hv => (h v hv).mono hl

theorem KnownAll.cons {limit : Nat} {v : Value} {vs : List Value} (hv : Known 0 limit v.objects)
    (h : KnownAll limit vs) : KnownAll limit (v :: vs) := List.forall_mem_cons.2 ⟨hv, h⟩

section Trees

variable {store : Store} (hs : store.Sound)

include hs

theorem ofItems_makes {v : Value} (hk : Known 0 store.fresh v.objects) :
    Makes store (fun n e => Known 0 n e.objects) (Expr.ofItems v : Eval Expr) := by
  refine (collect_makes hs hk).bind fun rows mid _ hm hr => makes_ofExcept hm fun e he => ?_
  obtain ⟨_, _, he⟩ := ok_of_bind he
  cases he
  exact hr

theorem rightSide_makes {v : Value} (hk : Known 0 store.fresh v.objects) :
    Makes store (fun n e => Known 0 n e.objects) (Builder.rightSide v : Eval Expr) := by
  unfold Builder.rightSide
  split
  · exact makes_pure hs hk
  · exact makes_pure hs hk
  · exact ofItems_makes hs hk

variable {args : Arguments} (ha : KnownAll store.fresh args.values)

include ha

theorem makeNode_makes (operator : Operator) :
    Makes store (fun n e => Known 0 n e.objects) (makeNode operator args) := by
  have hmade := makeNode_made operator args
  generalize makeNode operator args = run at hmade ⊢
  cases hmade with
  | refused fault => exact makes_fail hs fault
  | bare =>
    refine (makes_fresh hs).map fun n m h => ?_
    exact List.forall_mem_singleton.2 ⟨h.1, fun _ => Nat.zero_le _⟩
  | leaf rows hrows =>
    rcases hrows with hrows | rfl
    · exact ofItems_makes hs (ha rows hrows)
    · exact ofItems_makes hs (known_nil _ _)
  | inner e h => exact makes_pure hs (h.objects ha)

theorem invoke_makes {b : Builder} (hb : Known 0 store.fresh b.expression.objects) (method : Method) :
    Makes store (fun n b' => Known 0 n b'.expression.objects) (b.invoke method args) := by
  have hmade := invoke_made b method args
  generalize b.invoke method args = run at hmade ⊢
  cases hmade with
  | refused fault => exact makes_fail hs fault
  | inner b' h => exact makes_pure hs (h.objects (KnownAll.cons hb ha))
  | joined right next hr h =>
    refine (rightSide_makes hs (ha right hr)).bind fun side mid hg hm hside => ?_
    refine makes_ofExcept hm fun b' hb' => (h side b' hb').objects ?_
    exact KnownAll.cons (hb.mono hg) (KnownAll.cons hside (ha.mono hg))

theorem call_makes (callee : Callee) :
    Makes store (fun n v => Known 0 n v.objects) (callee.call args) := by
  cases callee with
  | node operator => exact (makeNode_makes hs ha operator).map fun _ _ h => h
  | builderFromRows =>
    refine makes_look hs fun _ _ => makes_look hs fun rows hrows => ?_
    have hmade : Makes store (fun n (b : Builder) => Known 0 n b.expression.objects)
        (Builder.fromRows rows) := by
      refine (ofItems_makes hs (ha rows (Arguments.mem_values_of_get hrows))).bind
        fun e mid _ hm he => makes_ofExcept hm fun b hb => ?_
      cases builder_make_ok hb
      exact he
    exact hmade.map fun _ _ h => h
  | newBuilder =>
    refine makes_look hs fun _ _ => makes_look hs fun part hpart => makes_look hs fun b hb => ?_
    have hk := ha part (Arguments.mem_values_of_get hpart)
    rw [builder_make_ok hb] at hk
    exact makes_pure hs hk

theorem method_makes (method : Method) {on : Value} (ho : Known 0 store.fresh on.objects) :
    Makes store (fun n v => Known 0 n v.objects) (method.invoke on args) := by
  unfold Method.invoke
  split
  · exact (invoke_makes hs ha ho method).map fun _ _ h => h
  · exact makes_fail hs _
  · exact makes_fail hs _
  · exact makes_fail hs _

end Trees

end BagAlgebra
