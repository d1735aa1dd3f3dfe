/-
Chains of calls on builders. By induction over the calls, a chain over an expression runs like the
constructors, nested in one another, that its calls stand for: it stops where the first of these fails, and
else comes to a builder over their tree. Builders made on the way stay what they are; a script that goes on
calling them, with or without success, leaves a name with the builder that it is bound to.
-/
import BagAlgebra.Proofs.Row.Matching
import BagAlgebra.Proofs.Script.Names
import BagAlgebra.Proofs.Tree.Links

namespace BagAlgebra

open Run

/-- Calls in a row, the first on a new builder over an expression. -/
def chained (e : Expr) (links : List Link) : Eval Value := do
  let start ← Callee.newBuilder.call [(.expression, .expr e)]
  links.foldlM (fun on link => link.call on) start

/-- Constructors in a row, each on the expression that the one before has made. -/
def nested (e : Expr) (links : List Link) : Eval Expr := links.foldlM Link.node e

/-! ## Runs -/

section Runs

variable {e : Expr} {store : Store}

theorem calls_eq (links : List Link) (e : Expr) :
    links.foldlM (fun on link => link.call on) (.builder e) = Value.builder <$> nested e links := by
  induction links generalizing e with
  | nil => rfl
  | cons link links ih =>
    rw [nested, List.foldlM_cons, List.foldlM_cons, link.call_eq, bind_map_left, map_bind]
    exact bind_congr fun tree => ih tree

theorem chained_eq (e : Expr) (links : List Link) : chained e links = Value.builder <$> nested e links :=
  calls_eq links e

theorem result_map {α β : Type} (f : α → β) (run : Eval α) :
    ((f <$> run) store).result = (run store).result.map f := by
  rw [← bind_pure_comp, result_then]
  rfl

theorem nested_cons (link : Link) (links : List Link) :
    nested e (link :: links) = link.node e >>= fun tree => nested tree links := List.foldlM_cons ..

theorem nested_append (before links : List Link) :
    nested e (before ++ links) = nested e before >>= fun tree => nested tree links := List.foldlM_append ..

theorem nested_snoc (links : List Link) (link : Link) :
    nested e (links ++ [link]) = nested e links >>= fun tree => link.node tree := by
  rw [nested_append]
  exact bind_congr fun tree => bind_pure _

/-- Constructors in a row stop where the first of them fails. -/
theorem nested_error_iff {links : List Link} {fault : Fault} :
    (nested e links store).result = .error fault ↔
      ∃ before link after tree, links = before ++ link :: after ∧
        (nested e before store).result = .ok tree ∧
        (link.node tree (nested e before store).store).result = .error fault := by
  constructor
  · intro h
    induction links generalizing e store with
    | nil => cases h
    | cons link links ih =>
      rw [nested_cons, result_then] at h
      obtain h | ⟨tree, ht, h⟩ := error_of_bind h
      · exact ⟨[], link, links, e, rfl, rfl, h⟩
      · obtain ⟨before, last, after, tree', rfl, hb, hl⟩ := ih h
        refine ⟨link :: before, last, after, tree', rfl, ?_, ?_⟩
        · rw [nested_cons, result_then, ht]
          exact hb
        · rw [nested_cons, store_then ht]
          exact hl
  · rintro ⟨before, link, after, tree, rfl, hb, hl⟩
    rw [nested_append, result_then, hb]
    show (nested tree (link :: after) _).result = _
    rw [nested_cons, result_then, hl]
    rfl

end Runs

/-! ## Chains -/

/-- A chain and the nest of the constructors that its calls stand for. -/
structure Nests (e : Expr) (links : List Link) : Prop where
  /-- They run alike, from any store: with the same result, log and store. -/
  runs : chained e links = Value.builder <$> nested e links
  /-- They fail with the fault of the first link that fails, on the tree of those before it. -/
  fails : ∀ store fault, ((chained e links) store).result = .error fault ↔
    ∃ before link after tree, links = before ++ link :: after ∧
      (nested e before store).result = .ok tree ∧
      (link.node tree (nested e before store).store).result = .error fault
  /-- The tree of one more link has the tree before as its first side, and the right input as its second. -/
  grows : ∀ link store node, (nested e (links ++ [link]) store).result = .ok node →
    ∃ tree rights, (nested e links store).result = .ok tree ∧
      (link.rights (nested e links store).store).result = .ok rights ∧ node.sides = tree :: rights
  /-- What does not fail is a builder over the tree, and it evaluates as the tree does. -/
  ends : ∀ store v, ((chained e links) store).result = .ok v →
    ∃ tree part, (nested e links store).result = .ok tree ∧ v.field? "expression" = some part ∧
      part.equal (.expr tree) = true ∧ v.evalRows = tree.eval

theorem chained_nests (e : Expr) (links : List Link) : Nests e links where
  runs := chained_eq e links
  fails store fault := by
    rw [chained_eq, result_map, ← nested_error_iff]
    cases (nested e links store).result <;> simp [Except.map]
  grows link store node h := by
    rw [nested_snoc, result_then] at h
    obtain ⟨tree, ht, h⟩ := ok_of_bind h
    obtain ⟨rights, hr, hs⟩ := Link.sides_of_node h
    exact ⟨tree, rights, ht, hr, hs⟩
  ends store v h := by
    rw [chained_eq, result_map] at h
    cases ht : (nested e links store).result with
    | error fault =>
      rw [ht] at h
      cases h
    | ok tree =>
      rw [ht] at h
      cases h
      refine ⟨tree, .expr tree, rfl, rfl, ?_, rfl⟩
      rw [Value.equal, Value.same_refl]
      rfl

/-- A call with a right input, on a builder. -/
structure TakesRight (e : Expr) (input : Value) (meeting : Meeting) : Prop where
  /-- The right input is converted before anything else, and if it cannot be, then that is reported. -/
  first : ∀ store fault, (converted input store).result = .error fault →
    ((Link.meet input meeting).call (.builder e) store).result = .error fault
  /-- Else the constructor decides, on the expression of the builder, the converted input and the others. -/
  next : ∀ store right, (converted input store).result = .ok right →
    ((Link.meet input meeting).call (.builder e) store).result =
      ((meeting.request e right).make (converted input store).store).result.map Value.builder
  /-- What cannot be iterated over is of a wrong type, whatever the other arguments are. -/
  iterable : input.tree? = none → input.iterable = false → ∀ store,
    ∃ fault, ((Link.meet input meeting).call (.builder e) store).result = .error fault ∧
      fault.kind = .type
  /-- A node is taken as it is, and so is the expression of a builder. -/
  tree : ∀ right, input.tree? = some right →
    (Link.meet input meeting).call (.builder e) = Value.builder <$> (meeting.request e right).make
  /-- Rows, the leaf over them and the builder over that leaf are as good as each other. -/
  rows : input.tree? = none →
    (Link.meet input meeting).call (.builder e) = (do
      let leaf ← (Request.terminal (some input)).make
      (Link.meet (.expr leaf) meeting).call (.builder e)) ∧
    (Link.meet input meeting).call (.builder e) = (do
      let right ← Callee.builderFromRows.call [(.rows, input)]
      (Link.meet right meeting).call (.builder e))

theorem takesRight (e : Expr) (input : Value) (meeting : Meeting) : TakesRight e input meeting where
  first _ _ := Link.call_meet_error
  next store right h := by
    rw [Link.call_eq, Link.node, map_bind, result_then, h]
    exact result_map _ _
  iterable ht hi store := ⟨.typeMismatch,
    Link.call_meet_error (by rw [converted_of_not_iterable ht hi]; rfl), rfl⟩
  tree right h := by
    rw [Link.call_eq, Link.node, converted_of_tree? h, pure_bind]
  rows h := ⟨Link.call_meet_rows h, Link.call_meet_fromRows h⟩

/-- Chains of calls on builders are constructors nested in one another, whatever the right inputs are given
as. And builders made on the way stay what they are: steps that add no item to a list, whether they go through
or not, leave a name with its value until they bind it anew. -/
theorem chains_nest :
    (∀ e links, Nests e links) ∧ (∀ e input meeting, TakesRight e input meeting) ∧
    ∀ (session : Session) (steps : List Step) (x : String),
      (∀ step ∈ steps, step.action.appends = false) →
      (∀ i, (hi : i < steps.length) → steps[i].binds (session.after (steps.take i)) x = false) →
        (session.after steps).bindings.lookup x = session.bindings.lookup x :=
  ⟨chained_nests, takesRight, fun _ steps _ => runSteps_keeps steps⟩

/-- A builder over two numbers, on which calls fail and succeed. -/
def branched : List Step :=
  [⟨.build (.invoke .select (.reference "base") [.mk .predicate (.constant (.int 0))]), some "wrong"⟩,
    ⟨.build (.invoke .union (.reference "base") [.mk .right (.list [.constant (.int 4)])]), some "more"⟩,
    ⟨.build (.invoke (.filter .difference) (.reference "more") [.mk .right (.reference "base"),
      .mk .strategy (.constant (.text "tree"))]), some "base"⟩,
    ⟨.eval (.reference "more"), some "rows"⟩]

/-- A chain that selects, takes the union with rows, and fails at a difference: the right input is a number,
and that is reported, although the strategy is not one either. -/
theorem chains_nest_branched :
    let e : Expr := .terminal [.int 1, .int 0]
    let truth : Callback := .builtin .bool
    let selected : Expr := .selection e truth
    let tree : Expr := .union selected (.terminal [.int 3])
    let links : List Link := [.select (.callable truth), .meet (.list none [.int 3]) .union]
    let wrong : Meeting := .filter .difference (some (.text "tree"))
    let session : Session := ⟨[("base", .builder e)], [], .empty⟩
    (chained e (links ++ [.meet (.int 5) wrong]) .empty).result = .error .typeMismatch ∧
    (chained e (links ++ [.meet (.builder e) wrong]) .empty).result =
      .error (.unknownStrategy (.filter .difference) "'tree'") ∧
    (∃ made part, (nested e links .empty).result = .ok made ∧
      (Value.builder tree).field? "expression" = some part ∧ part.equal (.expr made) = true ∧
      (Value.builder tree).evalRows = made.eval) ∧
    (∃ made rights, (nested e [.select (.callable truth)] .empty).result = .ok made ∧
      ((Link.meet (.list none [.int 3]) .union).rights .empty).result = .ok rights ∧
      tree.sides = made :: rights) ∧
    (∃ fault, ((Link.meet .null wrong).call (.builder tree) .empty).result = .error fault ∧
      fault.kind = .type) ∧
    (session.after branched).bindings.lookup "base" = some (.builder e) := by
  intro e truth selected tree links wrong session
  refine ⟨?_, ?_, ?_, ?_, ?_, ?_⟩
  · exact ((chains_nest.1 e _).fails _ _).2 ⟨links, _, [], tree, rfl, rfl, rfl⟩
  · exact ((chains_nest.1 e _).fails _ _).2 ⟨links, _, [], tree, rfl, rfl, rfl⟩
  · exact (chains_nest.1 e links).ends .empty (.builder tree) rfl
  · exact (chains_nest.1 e [_]).grows _ .empty tree rfl
  · exact (chains_nest.2.1 tree .null wrong).iterable rfl rfl .empty
  · exact chains_nest.2.2 session branched "base" (by decide) (by decide)

end BagAlgebra
