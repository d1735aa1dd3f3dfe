/-
Calls on builders, one by one. A call makes a node over the expression of the builder. If it has a right
input, it first turns that into an expression: a node is taken as it is, and so is the expression of another
builder; anything else is read as the rows of a leaf. A call and the constructor that it stands for run
alike, with the same result, the same log and the same store.
-/
import BagAlgebra.Proofs.Tree.Built
import BagAlgebra.Proofs.Tree.Requests

namespace BagAlgebra

open Run

/-! ## Calls and constructors -/

/-- What a call with a right input does with it, and its other arguments. The strategy of a filter has a
default. -/
inductive Meeting where
  | join (predicate mapper : Value)
  | product (mapper : Value)
  | union
  | filter (kind : FilterKind) (strategy : Option Value)

/-- A call on a builder. -/
inductive Link where
  | select (predicate : Value)
  | project (mapper : Value)
  | meet (right : Value) (meeting : Meeting)

namespace Meeting

def method : Meeting → Method
  | join .. => .join
  | product _ => .product
  | union => .union
  | filter kind _ => .filter kind

/-- The arguments beside the right input. -/
def others : Meeting → Arguments
  | join predicate mapper => [(.predicate, predicate), (.mapper, mapper)]
  | product mapper => [(.mapper, mapper)]
  | union => []
  | filter _ strategy => strategy.toList.map (Field.strategy, ·)

/-- The call of the constructor on two expressions. -/
def request (left right : Expr) : Meeting → Request
  | join predicate mapper => .join (.expr left) (.expr right) predicate mapper
  | product mapper => .product (.expr left) (.expr right) mapper
  | union => .union (.expr left) (.expr right)
  | filter kind strategy => .filter kind (.expr left) (.expr right) strategy

end Meeting

/-- A right input as an expression. -/
def converted (right : Value) : Eval Expr :=
  match right.tree? with
  | some e => pure e
  | none => (Request.terminal (some right)).make

namespace Link

def method : Link → Method
  | select _ => .select
  | project _ => .project
  | meet _ meeting => meeting.method

def arguments : Link → Arguments
  | select predicate => [(.predicate, predicate)]
  | project mapper => [(.mapper, mapper)]
  | meet right meeting => (.right, right) :: meeting.others

/-- The call on a value, which should be a builder. -/
def call (link : Link) (on : Value) : Eval Value := link.method.invoke on link.arguments

/-- The call of the constructor that the link stands for, after that of the leaf that its right input may
stand for. -/
def node (e : Expr) : Link → Eval Expr
  | select predicate => (Request.selection (.expr e) predicate).make
  | project mapper => (Request.projection (.expr e) mapper).make
  | meet right meeting => do
    let side ← converted right
    (meeting.request e side).make

/-- The right side, if there is one. -/
def rights : Link → Eval (List Expr)
  | meet right _ => do return [← converted right]
  | _ => pure []

end Link

/-! ## Conversion -/

theorem rightSide_eq_converted (right : Value) : Builder.rightSide right = converted right := by
  cases right <;> rfl

theorem converted_of_tree? {right : Value} {e : Expr} (h : right.tree? = some e) :
    converted right = pure e := by
  rw [converted, h]

theorem converted_of_rows {right : Value} (h : right.tree? = none) :
    converted right = (Request.terminal (some right)).make := by
  rw [converted, h]

/-- A value that has items: some that are stored, or some to come. -/
def Value.iterable (v : Value) : Bool :=
  match v with
  | .generator _ _ => true
  | v => v.items?.isSome

theorem converted_of_not_iterable {right : Value} (ht : right.tree? = none) (hi : right.iterable = false) :
    converted right = fail .typeMismatch := by
  cases right with
  | expr _ | builder _ => cases ht
  | text _ | tuple _ | list _ _ | dict _ | range _ | generator _ _ => cases hi
  | _ => rfl

/-! ## A call runs like its constructor -/

/-- A builder that is made over a node is a value once the node is. -/
theorem builder_of_made (made : Except Fault Expr) :
    (do return (← (ofExcept (do Builder.make (.expr (← made))) : Eval Builder)).toValue : Eval Value)
      = Value.builder <$> (ofExcept made : Eval Expr) := by
  cases made <;> rfl

namespace Meeting

variable (meeting : Meeting) (left right : Expr)

/-- What the constructor makes of two expressions. -/
def made : Meeting → Except Fault Expr
  | join predicate mapper => Expr.makeJoin (.expr left) (.expr right) predicate mapper
  | product mapper => Expr.makeProduct (.expr left) (.expr right) mapper
  | union => Expr.makeUnion (.expr left) (.expr right)
  | filter kind strategy =>
    Expr.makeFilter kind (.expr left) (.expr right) (strategy.getD defaultStrategy)

theorem make_request : (meeting.request left right).make = ofExcept (meeting.made left right) := by
  cases meeting with
  | filter kind strategy => cases strategy <;> rfl
  | _ => rfl

theorem invoke_eq (input : Value) :
    meeting.method.invoke (.builder left) ((.right, input) :: meeting.others)
      = converted input >>= fun right => Value.builder <$> (meeting.request left right).make := by
  have hcall : meeting.method.invoke (.builder left) ((.right, input) :: meeting.others)
      = (do
        let b ← (do
          let right ← Builder.rightSide input
          let node ← meeting.made left right
          Builder.make (.expr node) : Eval Builder)
        return b.toValue) := by
    cases meeting with
    | filter kind strategy => cases strategy <;> rfl
    | _ => rfl
  rw [hcall, bind_assoc, rightSide_eq_converted]
  refine bind_congr fun right => ?_
  rw [make_request]
  cases meeting.made left right <;> rfl

variable {meeting left right}

/-- The two expressions are the sides of the node. -/
theorem sides_of_made {node : Expr} (h : meeting.made left right = .ok node) :
    node.sides = [left, right] := by
  cases meeting with
  | union =>
    obtain ⟨_, ⟨⟩, h⟩ := ok_of_bind h
    obtain ⟨_, ⟨⟩, h⟩ := ok_of_bind h
    obtain ⟨_, -, ⟨⟩⟩ := ok_of_bind h
    rfl
  | _ =>
    obtain ⟨_, ⟨⟩, h⟩ := ok_of_bind h
    obtain ⟨_, ⟨⟩, h⟩ := ok_of_bind h
    -- a callback or a strategy, and then another check
    obtain ⟨_, -, h⟩ := ok_of_bind h
    obtain ⟨_, -, ⟨⟩⟩ := ok_of_bind h
    rfl

end Meeting

namespace Link

theorem call_eq (link : Link) (e : Expr) : link.call (.builder e) = Value.builder <$> link.node e := by
  cases link with
  | select predicate => exact builder_of_made (Expr.makeSelection (.expr e) predicate)
  | project mapper => exact builder_of_made (Expr.makeProjection (.expr e) mapper)
  | meet right meeting =>
    rw [node, map_bind]
    exact meeting.invoke_eq e right

/-- The expression of the builder is the first side of the node, and the right input the second. -/
theorem sides_of_node {link : Link} {e node : Expr} {store : Store}
    (h : (link.node e store).result = .ok node) :
    ∃ rights, (link.rights store).result = .ok rights ∧ node.sides = e :: rights := by
  cases link with
  | select predicate =>
    have h : Expr.makeSelection (.expr e) predicate = .ok node := h
    obtain ⟨_, ⟨⟩, h⟩ := ok_of_bind h
    obtain ⟨_, -, ⟨⟩⟩ := ok_of_bind h
    exact ⟨[], rfl, rfl⟩
  | project mapper =>
    have h : Expr.makeProjection (.expr e) mapper = .ok node := h
    obtain ⟨_, ⟨⟩, h⟩ := ok_of_bind h
    obtain ⟨_, -, ⟨⟩⟩ := ok_of_bind h
    exact ⟨[], rfl, rfl⟩
  | meet input meeting =>
    rw [Link.node, result_then] at h
    obtain ⟨right, hr, h⟩ := ok_of_bind h
    rw [meeting.make_request] at h
    exact ⟨[right], by rw [rights, result_then, hr]; rfl, Meeting.sides_of_made h⟩

/-! ## Right inputs -/

section Inputs

variable {input : Value} {e : Expr} {meeting : Meeting}

/-- The call on a right input, in two steps. -/
theorem call_meet : (meet input meeting).call (.builder e)
    = converted input >>= fun right => (meet (.expr right) meeting).call (.builder e) := by
  rw [call_eq, node, map_bind]
  refine bind_congr fun right => ?_
  rw [call_eq, node, converted_of_tree? rfl, pure_bind]

/-- The builder over a leaf is made as the leaf is. -/
theorem call_builderFromRows (rows : Value) : Callee.builderFromRows.call [(.rows, rows)]
    = Value.builder <$> (Request.terminal (some rows)).make := by
  show (Builder.fromRows rows >>= fun b => pure b.toValue : Eval Value)
    = Value.builder <$> (Expr.ofItems rows : Eval Expr)
  rw [Builder.fromRows, bind_assoc, ← bind_pure_comp]
  rfl

/-- The builder of an expression is as good as the expression. -/
theorem call_meet_builder (right : Expr) :
    (meet (.builder right) meeting).call (.builder e) = (meet (.expr right) meeting).call (.builder e) := by
  rw [call_meet, converted_of_tree? rfl, pure_bind]

/-- Rows are as good as the leaf over them. -/
theorem call_meet_rows (h : input.tree? = none) : (meet input meeting).call (.builder e)
    = (Request.terminal (some input)).make >>= fun leaf =>
      (meet (.expr leaf) meeting).call (.builder e) := by
  rw [call_meet, converted_of_rows h]

/-- Rows are as good as the builder over the leaf over them. -/
theorem call_meet_fromRows (h : input.tree? = none) : (meet input meeting).call (.builder e)
    = Callee.builderFromRows.call [(.rows, input)] >>= fun right =>
      (meet right meeting).call (.builder e) := by
  rw [call_meet_rows h, call_builderFromRows, bind_map_left]
  exact bind_congr fun leaf => (call_meet_builder leaf).symm

/-- A right input that cannot be read is reported, whatever the other arguments are. -/
theorem call_meet_error {fault : Fault} {store : Store}
    (h : (converted input store).result = .error fault) :
    ((meet input meeting).call (.builder e) store).result = .error fault := by
  rw [call_meet, result_then, h]
  rfl

end Inputs

end Link

end BagAlgebra
