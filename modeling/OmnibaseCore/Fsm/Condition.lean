import OmnibaseCore.Fsm.Model

/-!
# Guard conditions

`parse_expression` and `_evaluate_single_condition`. The operators are texts, as in the
source: the whitelist of the condition model, that of the parser and the chain of comparisons
of the evaluator are three separate lists.
-/

namespace OmnibaseCore.Fsm

/-! ## Parsing -/

def supportedOperators : List String := [
  "equals", "not_equals",
  "==", "!=",
  "greater_than", "less_than", "greater_than_or_equal", "less_than_or_equal",
  ">", "<", ">=", "<=",
  "min_length", "max_length",
  "exists", "not_exists",
  "in", "not_in", "contains",
  "matches"]

/-- The error of `_validate_field_name` and `parse_expression`. -/
def expressionError (message : String) (context : List (String × ContextValue)) : PyException :=
  .modelOnexError { errorCode := .validationError, message := message, context := context }

/-- `text.startswith("_")`. -/
def startsWithUnderscore (s : String) : Bool := s.toList.head? = some '_'

def validateFieldName (field expression : String) (allowPrivateFields : Bool) :
    Except PyException Unit :=
  let context := [("expression", ContextValue.str expression), ("field", .str field)]
  if field = "" then
    .error (expressionError "Field name cannot be empty" context)
  else if allowPrivateFields then
    .ok ()
  else if startsWithUnderscore field then
    .error (expressionError ("Field name '" ++ field ++ "' cannot start with underscore. " ++
      "Underscore-prefixed fields are restricted for security. " ++
      "Use allow_private_fields=True if access to private fields is intentionally required.")
      context)
  else if '.' ∈ field.toList then
    let wrong := (splitAt '.' field).findSome? fun segment =>
      if segment = "" then
        some (expressionError ("Field name '" ++ field ++ "' contains empty segment. " ++
          "Field paths cannot have consecutive dots or start/end with dots.") context)
      else if startsWithUnderscore segment then
        some (expressionError ("Field segment '" ++ segment ++ "' in '" ++ field ++
          "' cannot start with underscore. " ++
          "Underscore-prefixed fields are restricted for security. " ++
          "Use allow_private_fields=True if access to private fields is intentionally required.")
          (context ++ [("invalid_segment", .str segment)]))
      else none
    match wrong with
    | some e => .error e
    | none => .ok ()
  else
    .ok ()

def parseExpression (i : Interpreter) (expression : String) (allowPrivateFields : Bool) :
    Except PyException (String × String × String) :=
  if expression = "" ∨ strip expression = "" then
    .error (expressionError "Expression cannot be empty" [("expression", .str expression)])
  else
    let tokens := words expression
    match tokens with
    | [field, operator, value] =>
      match validateFieldName field expression allowPrivateFields with
      | .error e => .error e
      | .ok () =>
        let supported := supportedOperators.insertionSort (· ≤ ·)
        if operator ∉ supportedOperators then
          .error (expressionError ("Unsupported operator '" ++ operator ++
            "'. Supported operators: " ++ i.reprStrs supported)
            [("expression", .str expression), ("operator", .str operator),
              ("supported_operators", .strs supported)])
        else
          .ok (field, operator, value)
    | _ =>
      .error (expressionError ("Expression must have exactly 3 tokens (field operator value), " ++
        "got " ++ toString tokens.length ++ ": " ++ i.reprStrs tokens)
        [("expression", .str expression), ("token_count", .int tokens.length),
          ("tokens", .strs tokens)])

/-! ## Looking up the field -/

def followPath : List String → Value → Value
  | [], current => current
  | segment :: rest, current =>
    match current with
    | .dict entries =>
      match dictGet entries segment with
      | .none => .none
      | next => followPath rest next
    | _ => .none

def getNestedFieldValue (context : Context) (fieldPath : String) : Value :=
  if '.' ∉ fieldPath.toList then context.get fieldPath
  else followPath (splitAt '.' fieldPath) context.toValue

/-! ## Evaluation -/

/-- `float(field_value or 0)`. -/
def fieldNumber (i : Interpreter) (fieldValue : Value) : Except PyException PyFloat :=
  match i.truthy fieldValue with
  | .error e => .error e
  | .ok truthy => i.float (if truthy then fieldValue else .int 0)

/-- `float(expected_value or "0")`. -/
def expectedNumber (i : Interpreter) (expectedValue : String) : Except PyException PyFloat :=
  i.float (.str (if expectedValue = "" then "0" else expectedValue))

/-- The four numeric comparisons. What cannot be converted does not compare. -/
def compareNumbers (i : Interpreter) (holds : PyFloat → PyFloat → Bool) (fieldValue : Value)
    (expectedValue : String) : Except PyException Bool :=
  let comparison := do
    let x ← fieldNumber i fieldValue
    let y ← expectedNumber i expectedValue
    return holds x y
  match comparison with
  | .error e => if e.isValidationError then .ok false else .error e
  | .ok b => .ok b

def evaluateEquals (i : Interpreter) (lhs rhs : Value) : Except PyException Bool := do
  let l ← i.str lhs
  let r ← i.str rhs
  return l = r

def evaluateNotEquals (i : Interpreter) (lhs rhs : Value) : Except PyException Bool := do
  let l ← i.str lhs
  let r ← i.str rhs
  return l ≠ r

/-- `[v.strip() for v in expected_value.split(",")]`. -/
def expectedList (expectedValue : String) : List String := (splitAt ',' expectedValue).map strip

/-- The chain of comparisons in `_evaluate_single_condition`. -/
def evaluateOperator (i : Interpreter) (operator : String) (fieldValue : Value)
    (expectedValue : String) : Except PyException Bool :=
  if operator = "==" ∨ operator = "equals" then
    evaluateEquals i fieldValue (.str expectedValue)
  else if operator = "!=" ∨ operator = "not_equals" then
    evaluateNotEquals i fieldValue (.str expectedValue)
  else if operator = ">" then
    compareNumbers i (fun x y => y.lt x) fieldValue expectedValue
  else if operator = "<" then
    compareNumbers i (fun x y => x.lt y) fieldValue expectedValue
  else if operator = ">=" then
    compareNumbers i (fun x y => y.le x) fieldValue expectedValue
  else if operator = "<=" then
    compareNumbers i (fun x y => x.le y) fieldValue expectedValue
  else if operator = "in" then do
    let text ← i.str fieldValue
    return text ∈ expectedList expectedValue
  else if operator = "not_in" then do
    let text ← i.str fieldValue
    return text ∉ expectedList expectedValue
  else if operator = "contains" then
    match fieldValue with
    | .none => .ok false
    | _ => do
      let text ← i.str fieldValue
      return expectedValue.toList <:+: text.toList
  else if operator = "matches" then
    match fieldValue with
    | .none => .ok false
    | _ =>
      let matched := do
        let text ← i.str fieldValue
        i.reMatch expectedValue text
      match matched with
      | .error (.reError _) => .ok false
      | r => r
  else
    -- an operator that no branch knows
    .ok false

def evaluateSingleCondition (i : Interpreter) (condition : ModelFSMTransitionCondition)
    (context : Context) : Except PyException Bool :=
  match parseExpression i condition.expression false with
  | .error _ => .ok false
  | .ok (fieldName, operator, expectedValue) =>
    evaluateOperator i operator (getNestedFieldValue context fieldName) expectedValue

end OmnibaseCore.Fsm
