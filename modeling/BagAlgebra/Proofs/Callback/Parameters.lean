/-
Parameter lists. A list takes so many arguments if these can be handed out in order: one to each
parameter, the surplus to the parameter that takes it, and a default where the arguments have run out.
In a list that can be written, the counts that are compared when a node is built decide just that. A
callback that is refused is shown with its list, unless a default in it has no shown form.
-/
import BagAlgebra.Callback.Signature
import BagAlgebra.Proofs.Run.Answers

namespace BagAlgebra

namespace Param

/-! ## Arguments -/

/-- Every one of the parameters has a default. -/
def NoneRequired (params : List Param) : Prop := ∀ p ∈ params, p.isRequired = false

/-- A parameter list takes so many positional arguments. -/
inductive Takes : List Param → Nat → Prop where
  | done : Takes [] 0
  | given {name : String} {ps : List Param} {n : Nat} (h : Takes ps n) :
      Takes (.required name :: ps) (n + 1)
  | replaced {name : String} {slot : Nat} {ps : List Param} {n : Nat} (h : Takes ps n) :
      Takes (.defaulted name slot :: ps) (n + 1)
  | omitted {name : String} {slot : Nat} {ps : List Param} (h : Takes ps 0) :
      Takes (.defaulted name slot :: ps) 0
  | surplus {name : String} {ps : List Param} {n : Nat} (h : NoneRequired ps) :
      Takes (.rest name :: ps) n
  | named {ps : List Param} (h : NoneRequired ps) : Takes (.namedMark :: ps) 0
  | extra {name : String} {ps : List Param} {n : Nat} (h : Takes ps n) : Takes (.extra name :: ps) n
  | mark {ps : List Param} {n : Nat} (h : Takes ps n) : Takes (.positionalMark :: ps) n

/-- Lists that can be written: no parameter without a default follows one with a default, unless it is named,
and the surplus is taken once. -/
structure Grammatical (params : List Param) : Prop where
  defaults : (positional params).Pairwise fun p q => q.isRequired = true → p.isRequired = true
  surplus : ∀ p ∈ namedOnly params, p.isRest = false

/-- The number of positional parameters without a default. -/
def requiredCount (params : List Param) : Nat := ((positional params).filter isRequired).length

theorem accepts_iff {params : List Param} {n : Nat} :
    accepts params n = true ↔ requiredCount params ≤ n ∧
      (n ≤ (positional params).length ∨ ∃ p ∈ params, p.isRest = true) ∧
        NoneRequired (namedOnly params) := by
  simp only [accepts, requiredCount, NoneRequired, Bool.and_eq_true, Bool.or_eq_true,
    decide_eq_true_eq, List.any_eq_true, Bool.not_eq_true', List.any_eq_false, and_assoc,
    Bool.not_eq_true]

theorem exists_rest_cons {p : Param} (h : p.isRest = false) {ps : List Param} :
    (∃ q ∈ p :: ps, q.isRest = true) ↔ ∃ q ∈ ps, q.isRest = true := by
  simp only [List.mem_cons, exists_eq_or_imp, h, Bool.false_eq_true, false_or]

/-! ## One parameter more -/

section Cons

variable {name : String} {slot n : Nat} {ps : List Param}

theorem accepts_required : accepts (.required name :: ps) (n + 1) = accepts ps n := by
  have hc : requiredCount (.required name :: ps) = requiredCount ps + 1 := rfl
  have hl : (positional (.required name :: ps)).length = (positional ps).length + 1 := rfl
  rw [Bool.eq_iff_iff, accepts_iff, accepts_iff, hc, hl, exists_rest_cons rfl, Nat.add_le_add_iff_right,
    Nat.add_le_add_iff_right]
  rfl

/-- After a positional parameter with a default, none is required. -/
theorem requiredCount_eq_zero (h : Grammatical (.defaulted name slot :: ps)) :
    requiredCount ps = 0 := by
  have hp := (List.pairwise_cons.1 h.defaults).1
  refine List.length_eq_zero_iff.2 (List.filter_eq_nil_iff.2 fun p hm hr => ?_)
  cases hp p hm hr

theorem accepts_defaulted (h : Grammatical (.defaulted name slot :: ps)) :
    accepts (.defaulted name slot :: ps) n = accepts ps (n - 1) := by
  have hc : requiredCount (.defaulted name slot :: ps) = requiredCount ps := rfl
  have hl : (positional (.defaulted name slot :: ps)).length = (positional ps).length + 1 := rfl
  rw [Bool.eq_iff_iff, accepts_iff, accepts_iff, hc, hl, exists_rest_cons rfl,
    requiredCount_eq_zero h, Nat.sub_le_iff_le_add]
  simp only [Nat.zero_le, true_and]
  rfl

theorem accepts_rest : accepts (.rest name :: ps) n = true ↔ NoneRequired ps := by
  rw [accepts_iff]
  exact ⟨fun h => h.2.2, fun h => ⟨Nat.zero_le n, .inr ⟨_, List.mem_cons_self .., rfl⟩, h⟩⟩

theorem accepts_namedMark (h : Grammatical (.namedMark :: ps)) :
    accepts (.namedMark :: ps) n = true ↔ n = 0 ∧ NoneRequired ps := by
  have hrest : ¬ ∃ p ∈ ps, p.isRest = true := by
    rintro ⟨p, hp, hr⟩
    rw [h.surplus p hp] at hr
    cases hr
  rw [accepts_iff, exists_rest_cons rfl, or_iff_left hrest]
  constructor
  · rintro ⟨-, hn, hps⟩
    exact ⟨Nat.le_zero.1 hn, hps⟩
  · rintro ⟨rfl, hps⟩
    exact ⟨Nat.le_refl 0, Nat.le_refl 0, hps⟩

theorem accepts_extra : accepts (.extra name :: ps) n = accepts ps n := by
  rw [Bool.eq_iff_iff, accepts_iff, accepts_iff, exists_rest_cons rfl]
  rfl

theorem accepts_positionalMark : accepts (.positionalMark :: ps) n = accepts ps n := by
  rw [Bool.eq_iff_iff, accepts_iff, accepts_iff, exists_rest_cons rfl]
  rfl

end Cons

/-- The counts decide which calls fit. -/
theorem accepts_iff_takes {params : List Param} (h : Grammatical params) {n : Nat} :
    accepts params n = true ↔ Takes params n := by
  induction params generalizing n with
  | nil =>
    constructor
    · intro ha
      obtain ⟨-, hn | ⟨p, hp, -⟩, -⟩ := accepts_iff.1 ha
      · cases Nat.le_zero.1 hn
        exact .done
      · cases hp
    · rintro ⟨⟩
      rfl
  | cons p ps ih =>
    cases p with
    | required name =>
      have hps : Grammatical ps := ⟨(List.pairwise_cons.1 h.defaults).2, h.surplus⟩
      constructor
      · intro ha
        cases n with
        | zero => cases (accepts_iff.1 ha).1
        | succ n => exact .given ((ih hps).1 (accepts_required ▸ ha))
      · rintro ⟨⟩
        rename_i n ht
        rw [accepts_required]
        exact (ih hps).2 ht
    | defaulted name slot =>
      have hps : Grammatical ps := ⟨(List.pairwise_cons.1 h.defaults).2, h.surplus⟩
      rw [accepts_defaulted h, ih hps]
      constructor
      · intro ht
        cases n with
        | zero => exact .omitted ht
        | succ n => exact .replaced ht
      · rintro ⟨⟩ <;> assumption
    | rest name =>
      rw [accepts_rest]
      exact ⟨.surplus, fun | .surplus ht => ht⟩
    | extra name =>
      rw [accepts_extra, ih ⟨h.defaults, h.surplus⟩]
      exact ⟨.extra, fun | .extra ht => ht⟩
    | positionalMark =>
      rw [accepts_positionalMark, ih ⟨h.defaults, h.surplus⟩]
      exact ⟨.mark, fun | .mark ht => ht⟩
    | namedMark =>
      rw [accepts_namedMark h]
      constructor
      · rintro ⟨rfl, hps⟩
        exact .named hps
      · rintro ⟨⟩
        exact ⟨rfl, by assumption⟩

/-! ## Text -/

/-- A parameter can be written: its default, if it has one, has a shown form. -/
def Writable (captured : List Value) : Param → Prop
  | .defaulted _ slot => (capturedAt captured slot).printable = true
  | _ => True

variable {captured : List Value}

theorem text?_writable {p : Param} (h : p.Writable captured) : ∃ text, p.text? captured = .ok text := by
  cases p with
  | defaulted name slot =>
    have hp : (capturedAt captured slot).printable = true := h
    refine ⟨name ++ "=" ++ (capturedAt captured slot).repr, ?_⟩
    rw [text?, Value.repr?, if_pos hp]
    rfl
  | _ => exact ⟨_, rfl⟩

theorem text?_unwritable {p : Param} (h : ¬ p.Writable captured) :
    p.text? captured = .error .badValue := by
  cases p with
  | defaulted name slot =>
    have hp : ¬ (capturedAt captured slot).printable = true := h
    rw [text?, Value.repr?, if_neg hp]
    rfl
  | _ => exact absurd trivial h

theorem mapM_text?_writable {params : List Param} (h : ∀ p ∈ params, p.Writable captured) :
    ∃ texts, params.mapM (text? captured) = .ok texts := by
  induction params with
  | nil => exact ⟨[], rfl⟩
  | cons p ps ih =>
    obtain ⟨hp, hps⟩ := List.forall_mem_cons.1 h
    obtain ⟨text, ht⟩ := text?_writable hp
    obtain ⟨texts, hts⟩ := ih hps
    exact ⟨text :: texts, by rw [List.mapM_cons, ht, ok_bind, hts]; rfl⟩

theorem mapM_text?_unwritable {params : List Param} (h : ¬ ∀ p ∈ params, p.Writable captured) :
    params.mapM (text? captured) = .error .badValue := by
  induction params with
  | nil => exact absurd (List.forall_mem_nil _) h
  | cons p ps ih =>
    rw [List.mapM_cons]
    by_cases hp : p.Writable captured
    · obtain ⟨text, ht⟩ := text?_writable hp
      rw [ht, ok_bind, ih fun hps => h (List.forall_mem_cons.2 ⟨hp, hps⟩)]
      rfl
    · rw [text?_unwritable hp]
      rfl

end Param

namespace Callback

/-- The parameter list of a callback can be written. -/
def Writable : Callback → Prop
  | .function _ params _ captured => ∀ p ∈ params, p.Writable captured
  | _ => True

theorem header?_writable {f : Callback} (h : f.Writable) : ∃ text, f.header? = .ok text := by
  cases f with
  | builtin b => cases b <;> exact ⟨_, rfl⟩
  | always => exact ⟨_, rfl⟩
  | function handle params body captured =>
    have hp : ∀ p ∈ params, p.Writable captured := h
    obtain ⟨texts, ht⟩ := Param.mapM_text?_writable hp
    rw [header?, signatureText?, ht]
    exact ⟨_, rfl⟩

theorem header?_unwritable {f : Callback} (h : ¬ f.Writable) : f.header? = .error .badValue := by
  cases f with
  | function handle params body captured =>
    rw [header?, signatureText?, Param.mapM_text?_unwritable h]
    rfl
  | _ => exact absurd trivial h

end Callback

end BagAlgebra
