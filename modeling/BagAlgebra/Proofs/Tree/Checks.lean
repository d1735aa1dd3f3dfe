/-
Checks of arguments. A constructor asks of each of its arguments to be an expression, to be callable on so
many rows, or to be the name of a strategy. What is done check by check reports the first that fails, and
the fault says which argument of which operator it is.
-/
import BagAlgebra.Proofs.Callback.Parameters
import BagAlgebra.Proofs.Tree.Steps

namespace BagAlgebra

/-- What a constructor asks of an argument: to be an expression, to be callable on so many rows, or to be the
name of a strategy. -/
inductive Check where
  | side (role : Role) (v : Value)
  | callback (role : Role) (v : Value) (rows : Nat)
  | strategy (v : Value)

namespace Check

/-- The argument is as it is asked to be. A callback whose parameter list cannot be inspected is trusted. -/
def Passes : Check → Prop
  | side _ v => ∃ e, v = .expr e
  | callback _ v rows =>
    ∃ f, v = .callable f ∧ ∀ params, f.params? = some params → Param.Takes params rows
  | strategy v => ∃ s : Strategy, v = .text s.name

/-- The fault that an argument is refused with. -/
def fault (operator : Operator) : Check → Fault
  | side role v => .notExpression (.node operator) role v.typeName
  | callback role (.callable f) rows =>
    match f.header? with
    | .ok header => .badArity operator role header rows
    | .error fault => fault
  | callback role v _ => .notCallable operator role v.typeName
  | strategy v => if v.printable then .unknownStrategy operator v.repr else .badValue

/-- What the fault shows of the argument has a shown form. -/
def Shown : Check → Prop
  | side .. => True
  | callback _ (.callable f) _ => f.Writable
  | callback .. => True
  | strategy v => v.printable = true

/-- How a message speaks of the argument. -/
def subject : Check → String
  | side role _ => role.name
  | callback role _ _ => role.name
  | strategy _ => "unknown strategy"

/-- The parameter lists in question can be written. -/
def Grammatical : Check → Prop
  | callback _ (.callable f) _ => ∀ params, f.params? = some params → Param.Grammatical params
  | _ => True

end Check

/-- The first check that fails. -/
inductive FirstBad : List Check → Check → Prop where
  | here {c : Check} {cs : List Check} (h : ¬ c.Passes) : FirstBad (c :: cs) c
  | later {c d : Check} {cs : List Check} (h : c.Passes) (hb : FirstBad cs d) : FirstBad (c :: cs) d

theorem FirstBad.fails {c : Check} {cs : List Check} (h : FirstBad cs c) : c ∈ cs ∧ ¬ c.Passes := by
  induction h with
  | here h => exact ⟨List.mem_cons_self .., h⟩
  | later _ _ ih => exact ⟨List.mem_cons_of_mem _ ih.1, ih.2⟩

theorem firstBad_or_pass (cs : List Check) : (∃ c, FirstBad cs c) ∨ ∀ c ∈ cs, c.Passes := by
  induction cs with
  | nil => exact .inr (List.forall_mem_nil _)
  | cons c cs ih =>
    by_cases h : c.Passes
    · rcases ih with ⟨d, hd⟩ | hcs
      · exact .inl ⟨d, .later h hd⟩
      · exact .inr (List.forall_mem_cons.2 ⟨h, hcs⟩)
    · exact .inl ⟨c, .here h⟩

/-! ## Faults of arguments -/

namespace Check

theorem fault_of_not_callable {v : Value} (h : ¬ ∃ f, v = .callable f) (operator : Operator)
    (role : Role) (rows : Nat) :
    (callback role v rows).fault operator = .notCallable operator role v.typeName := by
  cases v with
  | callable f => exact absurd ⟨f, rfl⟩ h
  | _ => rfl

/-- The message names the operator and then the argument. -/
theorem fault_shown {c : Check} (h : c.Shown) (operator : Operator) :
    (c.fault operator).kind = .expression ∧
      ∃ words, (c.fault operator).message? = some (operator.name ++ ": " ++ c.subject ++ words) := by
  cases c with
  | side role v =>
    refine ⟨rfl, " must be an Expression, got " ++ v.typeName, congrArg some ?_⟩
    show operator.name ++ ": " ++ role.name ++ " must be an Expression, got " ++ v.typeName = _
    simp only [subject, String.append_assoc]
  | callback role v rows =>
    by_cases hv : ∃ f, v = .callable f
    · obtain ⟨f, rfl⟩ := hv
      obtain ⟨header, hh⟩ := Callback.header?_writable h
      rw [fault, hh]
      refine ⟨rfl, " " ++ header ++ " cannot be called with " ++ toString rows ++ " row argument(s)",
        congrArg some ?_⟩
      show operator.name ++ ": " ++ role.name ++ " " ++ header ++ " cannot be called with "
        ++ toString rows ++ " row argument(s)" = _
      simp only [subject, String.append_assoc]
    · rw [fault_of_not_callable hv]
      refine ⟨rfl, " must be callable, got " ++ v.typeName, congrArg some ?_⟩
      show operator.name ++ ": " ++ role.name ++ " must be callable, got " ++ v.typeName = _
      simp only [subject, String.append_assoc]
  | strategy v =>
    have hp : v.printable = true := h
    rw [fault, if_pos hp]
    refine ⟨rfl, " " ++ v.repr ++ ", expected one of ('hash', 'scan')", congrArg some ?_⟩
    have hs : ": unknown strategy " = ": " ++ ("unknown strategy" ++ " ") := rfl
    show operator.name ++ ": unknown strategy " ++ v.repr ++ ", expected one of ('hash', 'scan')" = _
    rw [hs]
    simp only [subject, String.append_assoc]

theorem fault_unshown {c : Check} (h : ¬ c.Shown) (operator : Operator) :
    c.fault operator = .badValue := by
  cases c with
  | side role v => exact absurd trivial h
  | callback role v rows =>
    cases v with
    | callable f => rw [fault, Callback.header?_unwritable h]
    | _ => exact absurd trivial h
  | strategy v => exact if_neg h

theorem arity_of_fault {c : Check} {operator operator' : Operator} {role : Role} {header : String}
    {rows : Nat} (hs : c.Shown) (h : c.fault operator = .badArity operator' role header rows) :
    operator' = operator ∧ ∃ f, c = .callback role (.callable f) rows := by
  cases c with
  | side => cases h
  | callback role v rows =>
    by_cases hv : ∃ f, v = .callable f
    · obtain ⟨f, rfl⟩ := hv
      obtain ⟨header, hh⟩ := Callback.header?_writable hs
      rw [fault, hh] at h
      cases h
      exact ⟨rfl, f, rfl⟩
    · rw [fault_of_not_callable hv] at h
      cases h
  | strategy v =>
    have hp : v.printable = true := hs
    rw [fault, if_pos hp] at h
    cases h

theorem params_of_fails {role : Role} {f : Callback} {rows : Nat}
    (h : ¬ (callback role (.callable f) rows).Passes) :
    ∃ params, f.params? = some params ∧ ¬ Param.Takes params rows := by
  cases hp : f.params? with
  | none => exact absurd ⟨f, rfl, fun _ heq => nomatch hp.symm.trans heq⟩ h
  | some params =>
    refine ⟨params, rfl, fun ht => h ⟨f, rfl, fun _ heq => ?_⟩⟩
    cases hp.symm.trans heq
    exact ht

end Check

/-! ## Checks in order -/

/-- A step does a check. -/
structure Vets {α : Type} (operator : Operator) (c : Check) (step : Except Fault α) : Prop where
  pass : c.Passes → ∃ a, step = .ok a
  fail : ¬ c.Passes → step = .error (c.fault operator)

section Vets

variable (operator : Operator) (role : Role)

theorem vets_side (v : Value) :
    Vets operator (.side role v) (Expr.require (.node operator) role v) where
  pass := by
    rintro ⟨e, rfl⟩
    exact ⟨e, rfl⟩
  fail h := by
    cases v with
    | expr e => exact absurd ⟨e, rfl⟩ h
    | _ => rfl

theorem usableOn_iff {f : Callback} (h : ∀ params, f.params? = some params → Param.Grammatical params)
    {rows : Nat} :
    f.usableOn rows = true ↔ ∀ params, f.params? = some params → Param.Takes params rows := by
  unfold Callback.usableOn
  cases hp : f.params? with
  | none => exact ⟨fun _ _ ht => (nomatch ht), fun _ => rfl⟩
  | some params =>
    rw [Param.accepts_iff_takes (h params hp)]
    exact ⟨fun ht _ heq => Option.some.inj heq ▸ ht, fun ht => ht params rfl⟩

theorem vets_callback {v : Value} {rows : Nat} (hg : (Check.callback role v rows).Grammatical) :
    Vets operator (.callback role v rows) (Expr.requireCallback operator role rows v) where
  pass := by
    rintro ⟨f, rfl, ht⟩
    exact ⟨f, Expr.requireCallback_usable ((usableOn_iff hg).2 ht)⟩
  fail h := by
    cases v with
    | callable f =>
      have hu : ¬ f.usableOn rows = true := fun hu => h ⟨f, rfl, (usableOn_iff hg).1 hu⟩
      rw [Expr.requireCallback, if_neg hu, Check.fault]
      cases f.header? <;> rfl
    | _ => rfl

theorem vets_strategy (v : Value) :
    Vets operator (.strategy v) (Expr.requireStrategy operator v) where
  pass := by
    rintro ⟨s, rfl⟩
    exact ⟨s, Expr.requireStrategy_name operator s⟩
  fail h := Expr.requireStrategy_unknown fun s hv => h ⟨s, hv⟩

end Vets

/-- Checks are done in order: the first that fails is reported, and where all pass, what comes of it is left to
the rest. -/
structure Vetted (operator : Operator) (cs : List Check) (rest : Except Fault Expr → Prop)
    (made : Except Fault Expr) : Prop where
  first : ∀ c, FirstBad cs c → made = .error (c.fault operator)
  pass : (∀ c ∈ cs, c.Passes) → rest made

theorem vetted_nil {operator : Operator} {rest : Except Fault Expr → Prop} {made : Except Fault Expr}
    (h : rest made) : Vetted operator [] rest made :=
  ⟨fun _ hc => (nomatch hc), fun _ => h⟩

theorem Vets.bind {α : Type} {operator : Operator} {c : Check} {cs : List Check}
    {rest : Except Fault Expr → Prop} {step : Except Fault α} {next : α → Except Fault Expr}
    (h : Vets operator c step) (hn : ∀ a, step = .ok a → Vetted operator cs rest (next a)) :
    Vetted operator (c :: cs) rest (step >>= next) where
  first d hd := by
    cases hd with
    | here hc =>
      rw [h.fail hc]
      rfl
    | later hc hd =>
      obtain ⟨a, ha⟩ := h.pass hc
      rw [ha]
      exact (hn a ha).first d hd
  pass hcs := by
    obtain ⟨hc, hcs⟩ := List.forall_mem_cons.1 hcs
    obtain ⟨a, ha⟩ := h.pass hc
    rw [ha]
    exact (hn a ha).pass hcs

end BagAlgebra
