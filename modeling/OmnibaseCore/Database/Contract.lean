import OmnibaseCore.Validation.ContractGraph

/-!
# Contracts of database repositories

`ModelDbRepositoryContract` as the validators of its SQL read it.
-/

namespace OmnibaseCore.Database

open Validation

/-- `ModelDbOperation.mode`. -/
inductive OperationMode
  | read
  | write

structure ModelDbSafetyPolicy where
  allowDeleteWithoutWhere : Bool := false
  allowUpdateWithoutWhere : Bool := false
  allowMultiStatement : Bool := false

structure ModelDbOperation where
  mode : OperationMode
  sql : String
  safetyPolicy : ModelDbSafetyPolicy := {}
  sql_length : 1 ≤ sql.length

structure ModelDbRepositoryContract where
  tables : List String
  /-- A dictionary, in the order of its items -/
  ops : List (String × ModelDbOperation)
  tables_length : 1 ≤ tables.length
  ops_length : 1 ≤ ops.length
  ops_nodup : (ops.map Prod.fst).Nodup

/-- `ModelValidationResult.create_valid`. -/
def createValid (summary : String) : ModelValidationResult :=
  { isValid := true, summary := summary }

/-- `ModelValidationResult.create_invalid`. -/
def createInvalid (errors : List String) (summary : String) : ModelValidationResult :=
  { isValid := false
    issues := errors.map fun error => { severity := .error, message := error }
    errors := errors
    summary := summary }

end OmnibaseCore.Database
