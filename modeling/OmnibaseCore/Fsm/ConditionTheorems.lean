import OmnibaseCore.Fsm.Condition

/-!
# Theorems about guard conditions

`GuardFaithful` is what a guard is expected to mean: a textual operator means what its symbolic
form means, `exists` and `not_exists` tell whether the field is present, and `min_length` and
`max_length` compare its length. The evaluator has no branch for most of these operators;
`guardFaithful_iff` says which guards mean what is expected nevertheless.
-/

namespace OmnibaseCore.Fsm

/-! ## The parts of a condition -/

namespace ModelFSMTransitionCondition

def field (c : ModelFSMTransitionCondition) : String := (words c.expression).getD 0 ""

def operator (c : ModelFSMTransitionCondition) : String := (words c.expression).getD 1 ""

def expectedValue (c : ModelFSMTransitionCondition) : String := (words c.expression).getD 2 ""

def withOperator (c : ModelFSMTransitionCondition) (operator : String) :
    ModelFSMTransitionCondition :=
  { c with expression := c.field ++ " " ++ operator ++ " " ++ c.expectedValue }

end ModelFSMTransitionCondition

/-- A path that the parser accepts: no segment is empty or private. -/
def AllowedFieldName (field : String) : Prop :=
  field ≠ "" ∧ startsWithUnderscore field = false ∧ ('.' ∈ field.toList →
    ∀ segment ∈ splitAt '.' field, segment ≠ "" ∧ startsWithUnderscore segment = false)

instance (field : String) : Decidable (AllowedFieldName field) :=
  inferInstanceAs (Decidable (_ ∧ _))

section
variable {i : Interpreter} {c : ModelFSMTransitionCondition} {context : Context}

theorem words_of_accepted (h : c.validateExpressionFormat = .ok ()) :
    words c.expression = [c.field, c.operator, c.expectedValue] ∧
      c.operator ∈ validOperators := by
  unfold ModelFSMTransitionCondition.validateExpressionFormat at h
  dsimp only at h
  split_ifs at h with hlength hoperator
  rw [not_ne_iff] at hlength
  rcases List.length_eq_three.mp hlength with ⟨f, o, v, heq⟩
  have hwords : words c.expression = [c.field, c.operator, c.expectedValue] := by
    unfold ModelFSMTransitionCondition.field ModelFSMTransitionCondition.operator
      ModelFSMTransitionCondition.expectedValue
    rw [heq]
    rfl
  exact ⟨hwords, hoperator⟩

variable {operator : String}

theorem mem_supportedOperators_of_valid (h : operator ∈ validOperators) :
    operator ∈ supportedOperators := by
  revert operator
  decide

theorem validateFieldName_ok_iff {field expression : String} :
    validateFieldName field expression false = .ok () ↔ AllowedFieldName field := by
  unfold validateFieldName AllowedFieldName
  dsimp only
  rw [if_neg Bool.false_ne_true]
  by_cases hempty : field = ""
  · simp [hempty]
  rw [if_neg hempty]
  by_cases hprivate : startsWithUnderscore field = true
  · simp [hprivate]
  rw [if_neg hprivate]
  by_cases hdot : '.' ∈ field.toList
  · rw [if_pos hdot]
    simp only [hempty, hprivate, hdot, ne_eq, not_false_iff, true_and, forall_const]
    split
    · rename_i e hsome
      rcases List.exists_of_findSome?_eq_some hsome with ⟨segment, hmem, hwrong⟩
      refine iff_of_false nofun fun hall => ?_
      rcases hall segment hmem with ⟨hne, hpublic⟩
      rw [if_neg hne, if_neg (by simp [hpublic])] at hwrong
      cases hwrong
    · rename_i hnone
      refine iff_of_true rfl fun segment hmem => ?_
      have hright := List.findSome?_eq_none_iff.mp hnone segment hmem
      split_ifs at hright with hne hpublic
      exact ⟨hne, Bool.not_eq_true _ ▸ hpublic⟩
  · rw [if_neg hdot]
    simp [hempty, hprivate, hdot]

/-- A condition of three words compares the field that it names, if that is allowed. -/
theorem evaluateSingleCondition_eq {field operator value : String}
    (hwords : words c.expression = [field, operator, value])
    (hoperator : operator ∈ validOperators) :
    evaluateSingleCondition i c context =
      if AllowedFieldName field then
        evaluateOperator i operator (getNestedFieldValue context field) value
      else .ok false := by
  have hstrip : ¬ strip c.expression = "" := by
    intro h
    have hnil := words_eq_nil_of_strip h
    rw [hwords] at hnil
    cases hnil
  have hempty : ¬ c.expression = "" := by
    intro h
    apply hstrip
    rw [h]
    rfl
  unfold evaluateSingleCondition parseExpression
  rw [if_neg (not_or.mpr ⟨hempty, hstrip⟩)]
  dsimp only
  rw [hwords]
  dsimp only
  rw [if_neg (not_not.mpr (mem_supportedOperators_of_valid hoperator))]
  cases hname : validateFieldName field c.expression false with
  | error e =>
    have hiff : validateFieldName field c.expression false = .ok () ↔ AllowedFieldName field :=
      validateFieldName_ok_iff
    have hnot : ¬ AllowedFieldName field := by
      rw [← hiff, hname]
      exact nofun
    rw [if_neg hnot]
  | ok _ => rw [if_pos (validateFieldName_ok_iff.mp hname)]

theorem evaluateSingleCondition_of_accepted (h : c.validateExpressionFormat = .ok ()) :
    evaluateSingleCondition i c context =
      if AllowedFieldName c.field then
        evaluateOperator i c.operator (getNestedFieldValue context c.field) c.expectedValue
      else .ok false :=
  evaluateSingleCondition_eq (words_of_accepted h).1 (words_of_accepted h).2

theorem isWord_of_valid (h : operator ∈ validOperators) : IsWord operator := by
  simp only [validOperators, List.mem_cons, List.not_mem_nil, or_false] at h
  rcases h with rfl | rfl | rfl | rfl | rfl | rfl | rfl | rfl | rfl | rfl | rfl | rfl | rfl |
    rfl | rfl | rfl | rfl | rfl | rfl | rfl <;>
  simp [IsWord, isSpace]

theorem evaluateSingleCondition_withOperator (h : c.validateExpressionFormat = .ok ())
    (hoperator : operator ∈ validOperators) :
    evaluateSingleCondition i (c.withOperator operator) context =
      if AllowedFieldName c.field then
        evaluateOperator i operator (getNestedFieldValue context c.field) c.expectedValue
      else .ok false := by
  have hwords := (words_of_accepted h).1
  have hword : ∀ w ∈ words c.expression, IsWord w := fun w => isWord_of_mem_words
  rw [hwords] at hword
  apply evaluateSingleCondition_eq _ hoperator
  exact words_three (hword _ (by simp)) (isWord_of_valid hoperator) (hword _ (by simp))

end

/-! ## What a guard should mean -/

def symbolicForm (operator : String) : Option String :=
  if operator = "greater_than" then some ">"
  else if operator = "less_than" then some "<"
  else if operator = "greater_than_or_equal" then some ">="
  else if operator = "less_than_or_equal" then some "<="
  else if operator = "equals" then some "=="
  else if operator = "not_equals" then some "!="
  else none

def FieldPresent (c : ModelFSMTransitionCondition) (context : Context) : Bool :=
  match getNestedFieldValue context c.field with
  | .none => false
  | _ => true

def LengthHolds (i : Interpreter) (c : ModelFSMTransitionCondition) (context : Context)
    (holds : ℤ → ℤ → Prop) : Prop :=
  ∃ n len, readInt c.expectedValue = some n ∧
    i.len (getNestedFieldValue context c.field) = some len ∧ holds n len

structure GuardFaithful (i : Interpreter) (c : ModelFSMTransitionCondition)
    (context : Context) : Prop where
  symbolic : ∀ operator, symbolicForm c.operator = some operator →
    evaluateSingleCondition i c context
      = evaluateSingleCondition i (c.withOperator operator) context
  existence : c.operator = "exists" ∨ c.operator = "not_exists" →
    evaluateSingleCondition i (c.withOperator "exists") context
        = .ok (FieldPresent c context) ∧
      evaluateSingleCondition i (c.withOperator "not_exists") context
        = .ok (!FieldPresent c context)
  minLength : c.operator = "min_length" →
    (evaluateSingleCondition i c context = .ok true ↔
      LengthHolds i c context fun n len => n ≤ len)
  maxLength : c.operator = "max_length" →
    (evaluateSingleCondition i c context = .ok true ↔
      LengthHolds i c context fun n len => len ≤ n)

/-! ## Which guards mean it -/

def textualComparison (operator : String) : Option (PyFloat → PyFloat → Bool) :=
  if operator = "greater_than" then some fun x y => y.lt x
  else if operator = "less_than" then some fun x y => x.lt y
  else if operator = "greater_than_or_equal" then some fun x y => y.le x
  else if operator = "less_than_or_equal" then some fun x y => x.le y
  else none

/-- The numbers do not compare: one of the two conversions fails with a `TypeError` or
`ValueError`, or the comparison is false. -/
def NumbersDiffer (i : Interpreter) (holds : PyFloat → PyFloat → Bool) (fieldValue : Value)
    (expectedValue : String) : Prop :=
  (∃ e, e.isValidationError = true ∧ (fieldNumber i fieldValue = .error e ∨
    ((∃ x, fieldNumber i fieldValue = .ok x) ∧ expectedNumber i expectedValue = .error e))) ∨
  ∃ x y, fieldNumber i fieldValue = .ok x ∧ expectedNumber i expectedValue = .ok y ∧
    holds x y = false

/-- The operator has a branch in the evaluator, or the guard is one that should be false. -/
structure GuardHonoured (i : Interpreter) (c : ModelFSMTransitionCondition)
    (context : Context) : Prop where
  comparison : ∀ holds, textualComparison c.operator = some holds →
    AllowedFieldName c.field →
      NumbersDiffer i holds (getNestedFieldValue context c.field) c.expectedValue
  existence : c.operator ≠ "exists" ∧ c.operator ≠ "not_exists"
  minLength : c.operator = "min_length" → ¬ LengthHolds i c context fun n len => n ≤ len
  maxLength : c.operator = "max_length" → ¬ LengthHolds i c context fun n len => len ≤ n

variable {i : Interpreter}

variable {holds : PyFloat → PyFloat → Bool}

theorem compareNumbers_eq_false_iff {fieldValue : Value} {expectedValue : String} :
    compareNumbers i holds fieldValue expectedValue = .ok false ↔
      NumbersDiffer i holds fieldValue expectedValue := by
  unfold compareNumbers NumbersDiffer
  cases hfield : fieldNumber i fieldValue with
  | error e =>
    cases herror : e.isValidationError <;> simp [bind, Except.bind, herror]
  | ok x =>
    cases hexpected : expectedNumber i expectedValue with
    | error e => cases herror : e.isValidationError <;> simp [bind, Except.bind, herror]
    | ok y => simp [bind, Except.bind, pure, Except.pure]

/-- The operators of the model that no branch of the evaluator knows. -/
def unknownOperators : List String := [
  "greater_than", "less_than", "greater_than_or_equal", "less_than_or_equal",
  "exists", "not_exists", "min_length", "max_length"]

variable {operator : String}

theorem evaluateOperator_of_unknown (h : operator ∈ unknownOperators)
    (fieldValue : Value) (expectedValue : String) :
    evaluateOperator i operator fieldValue expectedValue = .ok false := by
  simp only [unknownOperators, List.mem_cons, List.not_mem_nil, or_false] at h
  rcases h with rfl | rfl | rfl | rfl | rfl | rfl | rfl | rfl <;> rfl

theorem symbolicForm_of_textualComparison (h : textualComparison operator = some holds) :
    operator ∈ unknownOperators ∧ ∃ symbol ∈ validOperators,
      symbolicForm operator = some symbol ∧
        evaluateOperator i symbol = compareNumbers i holds := by
  unfold textualComparison at h
  split_ifs at h with h₁ h₂ h₃ h₄ <;> cases h
  · exact ⟨by simp [unknownOperators, h₁], ">", by decide, by rw [h₁]; rfl, rfl⟩
  · exact ⟨by simp [unknownOperators, h₂], "<", by decide, by rw [h₂]; rfl, rfl⟩
  · exact ⟨by simp [unknownOperators, h₃], ">=", by decide, by rw [h₃]; rfl, rfl⟩
  · exact ⟨by simp [unknownOperators, h₄], "<=", by decide, by rw [h₄]; rfl, rfl⟩

theorem textualComparison_of_symbolicForm {operator symbol : String}
    (h : symbolicForm operator = some symbol) :
    symbol ∈ validOperators ∧ ((∃ holds, textualComparison operator = some holds) ∨
      evaluateOperator i operator = evaluateOperator i symbol) := by
  unfold symbolicForm at h
  split_ifs at h with h₁ h₂ h₃ h₄ h₅ h₆ <;> cases h
  · exact ⟨by decide, Or.inl ⟨_, by rw [h₁]; rfl⟩⟩
  · exact ⟨by decide, Or.inl ⟨_, by rw [h₂]; rfl⟩⟩
  · exact ⟨by decide, Or.inl ⟨_, by rw [h₃]; rfl⟩⟩
  · exact ⟨by decide, Or.inl ⟨_, by rw [h₄]; rfl⟩⟩
  · exact ⟨by decide, Or.inr (by rw [h₅]; rfl)⟩
  · exact ⟨by decide, Or.inr (by rw [h₆]; rfl)⟩

section
variable {c : ModelFSMTransitionCondition} {context : Context}

section
variable (h : c.validateExpressionFormat = .ok ())
include h

theorem evaluateSingleCondition_of_unknown (hunknown : c.operator ∈ unknownOperators) :
    evaluateSingleCondition i c context = .ok false := by
  rw [evaluateSingleCondition_of_accepted h, evaluateOperator_of_unknown hunknown, ite_self]

theorem symbolic_iff :
    (∀ operator, symbolicForm c.operator = some operator →
      evaluateSingleCondition i c context
        = evaluateSingleCondition i (c.withOperator operator) context) ↔
    ∀ holds, textualComparison c.operator = some holds → AllowedFieldName c.field →
      NumbersDiffer i holds (getNestedFieldValue context c.field) c.expectedValue := by
  constructor
  · intro hsymbolic holds hholds hallowed
    rcases symbolicForm_of_textualComparison (i := i) hholds with
      ⟨hunknown, symbol, hvalid, hsymbol, heval⟩
    have heq := hsymbolic symbol hsymbol
    rw [evaluateSingleCondition_of_unknown h hunknown,
      evaluateSingleCondition_withOperator h hvalid, if_pos hallowed, heval] at heq
    exact compareNumbers_eq_false_iff.mp heq.symm
  · intro hdiffer symbol hsymbol
    rcases textualComparison_of_symbolicForm (i := i) hsymbol with ⟨hvalid, ⟨holds, hholds⟩ | heval⟩
    · rcases symbolicForm_of_textualComparison (i := i) hholds with
        ⟨hunknown, symbol', _, hsymbol', heval⟩
      rw [hsymbol] at hsymbol'
      cases hsymbol'
      rw [evaluateSingleCondition_of_unknown h hunknown,
        evaluateSingleCondition_withOperator h hvalid, heval]
      by_cases hallowed : AllowedFieldName c.field
      · rw [if_pos hallowed]
        exact (compareNumbers_eq_false_iff.mpr (hdiffer holds hholds hallowed)).symm
      · rw [if_neg hallowed]
    · rw [evaluateSingleCondition_of_accepted h, evaluateSingleCondition_withOperator h hvalid,
        heval]

theorem existence_not_complementary (present : Bool) :
    ¬ (evaluateSingleCondition i (c.withOperator "exists") context = .ok present ∧
      evaluateSingleCondition i (c.withOperator "not_exists") context = .ok (!present)) := by
  rw [evaluateSingleCondition_withOperator h (by decide), evaluateOperator_of_unknown (by decide),
    ite_self, evaluateSingleCondition_withOperator h (by decide),
    evaluateOperator_of_unknown (by decide), ite_self]
  intro ⟨hexists, hnotExists⟩
  have hpresent : false = present := Except.ok.inj hexists
  have habsent : false = !present := Except.ok.inj hnotExists
  rw [← hpresent] at habsent
  exact Bool.false_ne_true habsent

theorem unknown_true_iff (hunknown : c.operator ∈ unknownOperators) (P : Prop) :
    (evaluateSingleCondition i c context = .ok true ↔ P) ↔ ¬ P := by
  rw [evaluateSingleCondition_of_unknown h hunknown]
  have hfalse : ¬ (.ok false : Except PyException Bool) = .ok true := nofun
  simp only [hfalse, false_iff]

end

/-- The guards that mean what their operator says are those that the evaluator has a branch
for, and those that should be false. -/
theorem guardFaithful_iff (h : c.validateExpressionFormat = .ok ()) :
    GuardFaithful i c context ↔ GuardHonoured i c context := by
  constructor
  · intro hfaithful
    refine ⟨(symbolic_iff h).mp hfaithful.symbolic, ⟨fun hop => ?_, fun hop => ?_⟩,
      fun hop => ?_, fun hop => ?_⟩
    · exact existence_not_complementary h _ (hfaithful.existence (Or.inl hop))
    · exact existence_not_complementary h _ (hfaithful.existence (Or.inr hop))
    · exact (unknown_true_iff h (by rw [hop]; decide) _).mp (hfaithful.minLength hop)
    · exact (unknown_true_iff h (by rw [hop]; decide) _).mp (hfaithful.maxLength hop)
  · intro hhonoured
    refine ⟨(symbolic_iff h).mpr hhonoured.comparison, fun hexists => ?_, fun hop => ?_,
      fun hop => ?_⟩
    · exact absurd hexists (not_or.mpr hhonoured.existence)
    · exact (unknown_true_iff h (by rw [hop]; decide) _).mpr (hhonoured.minLength hop)
    · exact (unknown_true_iff h (by rw [hop]; decide) _).mpr (hhonoured.maxLength hop)

end

/-! ## A guard that is not honoured -/

/-- `count greater_than 5`. -/
def textualGuard : ModelFSMTransitionCondition :=
  { conditionName := "enough", expression := "count greater_than 5", required := true }

theorem guardFaithful_iff_textualGuard :
    GuardFaithful plainInterpreter textualGuard [("count", .int 3)] ↔
      GuardHonoured plainInterpreter textualGuard [("count", .int 3)] :=
  guardFaithful_iff (by decide +kernel)

/-- With a count of 10 the condition is accepted and false, and `count > 5` is true. -/
theorem textualGuard_not_faithful :
    textualGuard.validateExpressionFormat = .ok () ∧
      ¬ GuardFaithful plainInterpreter textualGuard [("count", .int 10)] := by
  have haccepted : textualGuard.validateExpressionFormat = .ok () := by decide +kernel
  have hform : symbolicForm textualGuard.operator = some ">" := by decide +kernel
  have htextual : evaluateSingleCondition plainInterpreter textualGuard [("count", .int 10)]
      = .ok false := by decide +kernel
  have hsymbolic : evaluateSingleCondition plainInterpreter (textualGuard.withOperator ">")
      [("count", .int 10)] = .ok true := by decide +kernel
  refine ⟨haccepted, fun hfaithful => ?_⟩
  have heq := hfaithful.symbolic ">" hform
  rw [htextual, hsymbolic] at heq
  cases heq

/-! ## Which guards the parser accepts

The model and the parser agree on the number of words and on the operators. The parser also looks
at the path of the field, which it does not let be private. -/

/-- `parse_expression` returns. -/
def GuardParses (i : Interpreter) (c : ModelFSMTransitionCondition) : Prop :=
  ∃ parsed, parseExpression i c.expression false = .ok parsed

theorem mem_validOperators_of_supported (h : operator ∈ supportedOperators) :
    operator ∈ validOperators := by
  revert operator
  decide

section
variable {c : ModelFSMTransitionCondition}

theorem validateFieldName_error {field expression : String} {e : PyException}
    (h : validateFieldName field expression false = .error e) :
    ∃ message context, e = expressionError message context := by
  unfold validateFieldName at h
  dsimp only at h
  split_ifs at h
  · exact ⟨_, _, (Except.error.inj h).symm⟩
  · exact ⟨_, _, (Except.error.inj h).symm⟩
  · -- the first segment that is wrong
    split at h
    · rename_i wrong hwrong
      obtain ⟨segment, -, hsegment⟩ := List.exists_of_findSome?_eq_some hwrong
      split_ifs at hsegment
      · exact ⟨_, _, (Except.error.inj h).symm.trans (Option.some.inj hsegment).symm⟩
      · exact ⟨_, _, (Except.error.inj h).symm.trans (Option.some.inj hsegment).symm⟩
    · cases h

theorem parseExpression_ok {expression : String} {parsed : String × String × String}
    (h : parseExpression i expression false = .ok parsed) :
    words expression = [parsed.1, parsed.2.1, parsed.2.2] ∧ parsed.2.1 ∈ supportedOperators ∧
      AllowedFieldName parsed.1 := by
  unfold parseExpression at h
  by_cases hempty : expression = "" ∨ strip expression = ""
  · rw [if_pos hempty] at h
    cases h
  rw [if_neg hempty] at h
  dsimp only at h
  split at h
  · rename_i field operator value hwords
    cases hname : validateFieldName field expression false with
    | error e =>
      rw [hname] at h
      cases h
    | ok _ =>
      rw [hname] at h
      dsimp only at h
      split_ifs at h with hoperator
      cases h
      exact ⟨hwords, hoperator, validateFieldName_ok_iff.mp hname⟩
  · cases h

/-- A guard parses if and only if its format is valid and its field is allowed. -/
theorem guardParses_iff : GuardParses i c ↔
    c.validateExpressionFormat = .ok () ∧ AllowedFieldName c.field := by
  constructor
  · rintro ⟨⟨field, operator, value⟩, hparsed⟩
    rcases parseExpression_ok hparsed with ⟨hwords, hoperator, hallowed⟩
    dsimp only at hwords hoperator hallowed
    have hfield : c.field = field := by
      unfold ModelFSMTransitionCondition.field
      rw [hwords]
      rfl
    have haccepted : c.validateExpressionFormat = .ok () := by
      unfold ModelFSMTransitionCondition.validateExpressionFormat
      rw [hwords]
      have hvalid := mem_validOperators_of_supported hoperator
      show (if operator ∉ validOperators then _ else _) = _
      rw [if_neg (not_not.mpr hvalid)]
    exact ⟨haccepted, hfield ▸ hallowed⟩
  · rintro ⟨haccepted, hallowed⟩
    rcases words_of_accepted haccepted with ⟨hwords, hoperator⟩
    have hstrip : ¬ strip c.expression = "" := by
      intro h
      have hnil := words_eq_nil_of_strip h
      rw [hwords] at hnil
      cases hnil
    have hempty : ¬ c.expression = "" := by
      intro h
      apply hstrip
      rw [h]
      rfl
    refine ⟨(c.field, c.operator, c.expectedValue), ?_⟩
    unfold parseExpression
    rw [if_neg (not_or.mpr ⟨hempty, hstrip⟩)]
    dsimp only
    rw [hwords]
    dsimp only
    rw [validateFieldName_ok_iff.mpr hallowed]
    dsimp only
    rw [if_neg (not_not.mpr (mem_supportedOperators_of_valid hoperator))]

/-- A condition that does not parse is refused with a `VALIDATION_ERROR`. -/
theorem parseExpression_error {expression : String} {e : PyException}
    (h : parseExpression i expression false = .error e) :
    ∃ message context, e = expressionError message context := by
  unfold parseExpression at h
  dsimp only at h
  split_ifs at h
  · exact ⟨_, _, (Except.error.inj h).symm⟩
  · split at h
    · rename_i field operator value _
      cases hname : validateFieldName field expression false with
      | error e' =>
        rw [hname] at h
        rw [← Except.error.inj h]
        exact validateFieldName_error hname
      | ok _ =>
        rw [hname] at h
        dsimp only at h
        split_ifs at h
        exact ⟨_, _, (Except.error.inj h).symm⟩
    · exact ⟨_, _, (Except.error.inj h).symm⟩

theorem evaluateSingleCondition_of_not_parses (h : ¬ GuardParses i c) (context : Context) :
    evaluateSingleCondition i c context = .ok false := by
  unfold evaluateSingleCondition
  cases hparsed : parseExpression i c.expression false with
  | error e => rfl
  | ok parsed => exact absurd ⟨parsed, hparsed⟩ h

end

/-- The parser accepts the conditions that the model accepts, those with a private or an empty
segment in the path of their field excepted: it returns their three words, or refuses them with a
`VALIDATION_ERROR`. A guard of an accepted machine is discarded for nothing else, and one that is
discarded is false in every context. -/
theorem guardParser_law (i : Interpreter) :
    (∀ c : ModelFSMTransitionCondition, GuardParses i c ↔
      c.validateExpressionFormat = .ok () ∧ AllowedFieldName c.field) ∧
    (∀ c : ModelFSMTransitionCondition, ∀ parsed,
      parseExpression i c.expression false = .ok parsed →
        parsed = (c.field, c.operator, c.expectedValue) ∧
          words c.expression = [c.field, c.operator, c.expectedValue]) ∧
    (∀ c : ModelFSMTransitionCondition, ∀ e, parseExpression i c.expression false = .error e →
      ∃ error, e = .modelOnexError error ∧ error.errorCode = .validationError) ∧
    (∀ fsm : ModelFSMSubcontract, fsm.Accepted i → ∀ t ∈ fsm.transitions, ∀ c ∈ t.conditions,
      (GuardParses i c ↔ AllowedFieldName c.field)) ∧
    ∀ c : ModelFSMTransitionCondition, ¬ GuardParses i c →
      ∀ context, evaluateSingleCondition i c context = .ok false := by
  refine ⟨fun c => guardParses_iff, ?_, ?_, ?_, fun c => evaluateSingleCondition_of_not_parses⟩
  · intro c parsed hparsed
    have hwords := (words_of_accepted (guardParses_iff.mp ⟨parsed, hparsed⟩).1).1
    have hsame := (parseExpression_ok hparsed).1
    rw [hwords, List.cons.injEq, List.cons.injEq, List.cons.injEq] at hsame
    exact ⟨Prod.ext hsame.1.symm (Prod.ext hsame.2.1.symm hsame.2.2.1.symm), hwords⟩
  · intro c e he
    obtain ⟨message, context, rfl⟩ := parseExpression_error he
    exact ⟨_, rfl, rfl⟩
  · intro fsm hfsm t ht c hc
    rw [guardParses_iff]
    exact and_iff_right (hfsm.2.2.1 t ht c hc)

def privateGuardFsm : ModelFSMSubcontract :=
  { stateMachineName := "vault"
    correlationId := ⟨0⟩
    states := [
      { stateName := "closed", isTerminal := false, isRecoverable := true, entryActions := [],
        exitActions := [], requiredData := [] },
      { stateName := "open", isTerminal := false, isRecoverable := true, entryActions := [],
        exitActions := [], requiredData := [] }]
    initialState := "closed"
    terminalStates := []
    errorStates := []
    transitions := [
      { transitionName := "unlock", fromState := "closed", toState := "open", trigger := "key",
        priority := 1, actions := [],
        conditions := [
          { conditionName := "known", expression := "_key == secret", required := true }] }]
    persistenceEnabled := false }

/-- The machine is accepted, but its required guard is not parsed, and so it is false whatever
the context says. -/
theorem privateGuardFsm_not_parses :
    privateGuardFsm.Accepted plainInterpreter ∧
      ∃ t ∈ privateGuardFsm.transitions, ∃ c ∈ t.conditions, c.required = true ∧
        c.validateExpressionFormat = .ok () ∧ ¬ GuardParses plainInterpreter c ∧
        ∀ context, evaluateSingleCondition plainInterpreter c context = .ok false := by
  have hnot : ¬ GuardParses plainInterpreter
      { conditionName := "known", expression := "_key == secret", required := true } := by
    rw [guardParses_iff]
    decide +kernel
  refine ⟨by decide +kernel, _, List.mem_singleton.mpr rfl, _, List.mem_singleton.mpr rfl, rfl,
    by decide +kernel, hnot, evaluateSingleCondition_of_not_parses hnot⟩

end OmnibaseCore.Fsm
