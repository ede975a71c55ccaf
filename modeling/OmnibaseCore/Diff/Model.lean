import OmnibaseCore.Json.Value
import OmnibaseCore.Python.Float

/-!
# Contract diffs

The values of dumped contracts, `ModelDiffConfiguration`, and the entries of a
`ModelContractDiff`. A diff also has an identifier, a time and the fingerprints of the two
contracts, which nothing here reads.
-/

namespace OmnibaseCore.Diff

/-! ## Dumped contracts -/

/-- A value in what `model_dump` returns. -/
abbrev DumpValue := Json JsonPrimitive

/-- What `model_dump` returns. A `nan`, which is no value of JSON, is left out. -/
structure ModelDump where
  entries : List (String × DumpValue)
  uniqueKeys : (Json.dict entries).UniqueKeys
  noNan : (Json.dict entries).All fun a => a ≠ .strict (.float .nan)

structure Contract where
  className : String
  name : Option DumpValue := none
  contractName : Option DumpValue := none
  nodeName : Option DumpValue := none
  modelDump : ModelDump

structure DumpInterpreter where
  /-- `repr` of a finite `float` -/
  floatRepr : ℚ → String
  /-- `str` of a date -/
  datetimeStr : Bool → ℤ → String
  /-- `str` of a list or a dictionary -/
  containerStr : DumpValue → Except PyException String
  /-- `str` of a tuple -/
  tupleStr : DumpValue → Except PyException String
  /-- `str` of an attribute of what is no dictionary, unless it is missing or `None` -/
  attributeText : DumpValue → String → Except PyException (Option String)
  /-- The order in which a set is visited, given the order in which it was filled -/
  setOrder : List DumpValue → List DumpValue
  perm_setOrder : ∀ l, (setOrder l).Perm l

/-- `str` of a leaf. -/
def DumpInterpreter.leafStr (i : DumpInterpreter) : JsonPrimitive → Except PyException String
  | .strict (.bool b) => .ok (if b then "True" else "False")
  | .strict (.int n) => SemVer.intStr n
  | .strict (.float .nan) => .ok "nan"
  | .strict (.float .negInf) => .ok "-inf"
  | .strict (.float (.finite q)) => .ok (i.floatRepr q)
  | .strict (.float .inf) => .ok "inf"
  | .strict (.str s) => .ok s
  | .uuid u => .ok u.str
  | .datetime aware instant => .ok (i.datetimeStr aware instant)

/-- `str(v)`. -/
def DumpInterpreter.str (i : DumpInterpreter) : DumpValue → Except PyException String
  | .null => .ok "None"
  | .prim a => i.leafStr a
  | v => i.containerStr v

/-- `type(v).__name__`. -/
def typeName : DumpValue → String
  | .null => "NoneType"
  | .prim (.strict (.bool _)) => "bool"
  | .prim (.strict (.int _)) => "int"
  | .prim (.strict (.float _)) => "float"
  | .prim (.strict (.str _)) => "str"
  | .prim (.uuid _) => "UUID"
  | .prim (.datetime _ _) => "datetime"
  | .list _ => "list"
  | .dict _ => "dict"

/-! ## Configuration -/

/-- `ModelDiffConfiguration`, the fields that are read. -/
structure ModelDiffConfiguration where
  excludeFields : List String := ["correlation_id", "execution_id", "computed_at", "fingerprint"]
  identityKeys : List (String × String) := [("transitions", "name"), ("states", "name"),
    ("steps", "step_id"), ("actions", "name"), ("events", "event_type"),
    ("handlers", "handler_id"), ("dependencies", "name")]
  includeUnchanged : Bool := false

/-- `field_path.rsplit(".", maxsplit=1)[-1]`. -/
def finalComponent (fieldPath : String) : String :=
  (splitAt '.' fieldPath).getLastD ""

def ModelDiffConfiguration.getIdentityKey (c : ModelDiffConfiguration) (fieldPath : String) :
    Option String :=
  match c.identityKeys.lookup fieldPath with
  | some key => some key
  | none => c.identityKeys.lookup (finalComponent fieldPath)

def ModelDiffConfiguration.shouldExclude (c : ModelDiffConfiguration) (fieldPath : String) : Bool :=
  fieldPath ∈ c.excludeFields || finalComponent fieldPath ∈ c.excludeFields

/-! ## Entries of a diff -/

inductive EnumContractDiffChangeType
  | added
  | removed
  | modified
  | moved
  | unchanged
deriving DecidableEq

/-- `ModelNumericValue`, with `INTEGER` or `FLOAT` for its type. -/
structure ModelNumericValue where
  value : PyFloat
  isInteger : Bool
deriving DecidableEq

/-- The leaves of a `ModelSchemaValue`. -/
inductive SchemaPrimitive
  | string (s : String)
  | number (x : ModelNumericValue)
  | boolean (b : Bool)
deriving DecidableEq

abbrev ModelSchemaValue := Json SchemaPrimitive

def ModelNumericValue.fromInt (n : ℤ) : Except PyException ModelNumericValue :=
  if floatOverflows n then .error (.overflowError "int too large to convert to float")
  else .ok ⟨.finite (nearestFloat n), true⟩

/-- `ModelSchemaValue.from_value` of a leaf. -/
def DumpInterpreter.fromLeaf (i : DumpInterpreter) :
    JsonPrimitive → Except PyException SchemaPrimitive
  | .strict (.bool b) => .ok (.boolean b)
  | .strict (.str s) => .ok (.string s)
  | .strict (.int n) => (ModelNumericValue.fromInt n).map .number
  | .strict (.float x) => .ok (.number ⟨x, false⟩)
  | .uuid u => .ok (.string u.str)
  | .datetime aware instant => .ok (.string (i.datetimeStr aware instant))

/-- `ModelSchemaValue.from_value`. -/
def DumpInterpreter.fromValue (i : DumpInterpreter) :
    DumpValue → Except PyException ModelSchemaValue :=
  Json.fold (.ok .null) (fun a => (i.fromLeaf a).map .prim)
    (fun items => do
      let items ← items.mapM id
      return .list items)
    fun entries => do
      let entries ← entries.mapM fun e => do
        let value ← e.2
        return (e.1, value)
      return .dict entries

structure ModelContractFieldDiff where
  fieldPath : String
  changeType : EnumContractDiffChangeType
  oldValue : Option ModelSchemaValue := none
  newValue : Option ModelSchemaValue := none
  valueType : String := "unknown"
  oldIndex : Option ℕ := none
  newIndex : Option ℕ := none
deriving DecidableEq

/-- The constraints of the fields, and `validate_change_type_consistency`. -/
def ModelContractFieldDiff.validate (d : ModelContractFieldDiff) :
    Except PyException ModelContractFieldDiff :=
  if d.fieldPath = "" then .error (.validationError "String should have at least 1 character")
  else match d.changeType with
    | .added =>
      if d.oldValue.isSome then
        .error (.validationError "ADDED change type must not have old_value")
      else if d.newValue.isNone then .error (.validationError "ADDED change type requires new_value")
      else .ok d
    | .removed =>
      if d.newValue.isSome then
        .error (.validationError "REMOVED change type must not have new_value")
      else if d.oldValue.isNone then
        .error (.validationError "REMOVED change type requires old_value")
      else .ok d
    | .modified =>
      if d.oldValue.isNone then .error (.validationError "MODIFIED change type requires old_value")
      else if d.newValue.isNone then
        .error (.validationError "MODIFIED change type requires new_value")
      else .ok d
    | .moved =>
      if d.oldIndex.isNone then .error (.validationError "MOVED change type requires old_index")
      else if d.newIndex.isNone then .error (.validationError "MOVED change type requires new_index")
      else .ok d
    | .unchanged =>
      if d.oldValue.isNone || d.newValue.isNone then
        .error (.validationError "UNCHANGED change type requires both old_value and new_value")
      else .ok d

/-- The entry has the values and the positions that its type of change requires. -/
def ModelContractFieldDiff.Consistent (d : ModelContractFieldDiff) : Prop :=
  match d.changeType with
  | .added => d.oldValue = none ∧ d.newValue.isSome
  | .removed => d.newValue = none ∧ d.oldValue.isSome
  | .modified => d.oldValue.isSome ∧ d.newValue.isSome
  | .moved => d.oldIndex.isSome ∧ d.newIndex.isSome
  | .unchanged => d.oldValue.isSome ∧ d.newValue.isSome

structure ModelContractListDiff where
  fieldPath : String
  identityKey : String
  addedItems : List ModelContractFieldDiff := []
  removedItems : List ModelContractFieldDiff := []
  modifiedItems : List ModelContractFieldDiff := []
  movedItems : List ModelContractFieldDiff := []
  unchangedCount : ℕ := 0
deriving DecidableEq

/-- The constraints of the fields. -/
def ModelContractListDiff.validate (d : ModelContractListDiff) :
    Except PyException ModelContractListDiff :=
  if d.fieldPath = "" ∨ d.identityKey = "" then
    .error (.validationError "String should have at least 1 character")
  else .ok d

/-- `has_changes` of a list. -/
def ModelContractListDiff.hasChanges (d : ModelContractListDiff) : Bool :=
  0 < d.addedItems.length || 0 < d.removedItems.length || 0 < d.modifiedItems.length ||
    0 < d.movedItems.length

structure ModelContractDiff where
  beforeContractName : String
  afterContractName : String
  fieldDiffs : List ModelContractFieldDiff := []
  listDiffs : List ModelContractListDiff := []
deriving DecidableEq

/-- The constraints of the fields. -/
def ModelContractDiff.validate (d : ModelContractDiff) : Except PyException ModelContractDiff :=
  if d.beforeContractName = "" ∨ d.afterContractName = "" then
    .error (.validationError "String should have at least 1 character")
  else .ok d

def ModelContractDiff.hasChanges (d : ModelContractDiff) : Bool :=
  d.fieldDiffs.any (fun fd => fd.changeType ≠ .unchanged) || d.listDiffs.any (·.hasChanges)

/-! ## What can be built -/

theorem ModelContractFieldDiff.validate_eq_ok_iff {d d' : ModelContractFieldDiff} :
    d.validate = .ok d' ↔ d.fieldPath ≠ "" ∧ d.Consistent ∧ d' = d := by
  obtain ⟨path, type, old, new, valueType, oldIndex, newIndex⟩ := d
  unfold validate Consistent
  by_cases hpath : path = ""
  · simp [hpath]
  · cases type <;> cases old <;> cases new <;> cases oldIndex <;> cases newIndex <;>
      simp [hpath, eq_comm]

theorem ModelContractListDiff.validate_eq_ok_iff {d d' : ModelContractListDiff} :
    d.validate = .ok d' ↔ d.fieldPath ≠ "" ∧ d.identityKey ≠ "" ∧ d' = d := by
  unfold validate
  by_cases h : d.fieldPath = "" ∨ d.identityKey = ""
  · rw [if_pos h]
    simp only [reduceCtorEq, false_iff]
    rintro ⟨hpath, hkey, -⟩
    exact h.elim hpath hkey
  · rw [if_neg h]
    simp only [Except.ok.injEq]
    exact ⟨fun heq => ⟨fun hp => h (Or.inl hp), fun hk => h (Or.inr hk), heq.symm⟩,
      fun ⟨_, _, heq⟩ => heq.symm⟩

end OmnibaseCore.Diff
