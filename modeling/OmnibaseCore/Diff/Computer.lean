import OmnibaseCore.Diff.Model

/-!
# The diff of two contracts

`ContractDiffComputer`, with its configuration and the interpreter as arguments. A method that
appends to the accumulators `field_diffs` and `list_diffs` returns what it appends.

`_items_equal` also keeps the objects it has entered, to stop at one that contains itself. What
`model_dump` returns is made anew and contains no such object.
-/

namespace OmnibaseCore.Diff

/-! ## Configuration -/

/-- `DEFAULT_IDENTITY_KEYS` of the module. -/
def defaultIdentityKeys : List (String × String) := [("dependencies", "name"),
  ("handlers", "name"), ("handlers__add", "name"), ("states", "state_name"),
  ("transitions", "transition_name"), ("operations", "operation_name"),
  ("capability_inputs__add", "__value__"), ("capability_outputs__add", "name"),
  ("consumed_events__add", "__value__"), ("published_events", "event_name"),
  ("external_services", "service_name"), ("steps", "step_id"), ("actions", "name"),
  ("events", "event_type")]

/-- The configuration of a computer made without one. -/
def defaultConfiguration : ModelDiffConfiguration where
  identityKeys := defaultIdentityKeys.foldl (fun d e => dictSet d e.1 e.2)
    ({} : ModelDiffConfiguration).identityKeys

/-- `get_identity_key` where it is true as a condition. -/
def ModelDiffConfiguration.identityKeyAt (c : ModelDiffConfiguration) (fieldPath : String) :
    Option String :=
  (c.getIdentityKey fieldPath).filter fun key => key ≠ ""

/-! ## Values -/

/-- `a == b`. -/
def DumpValue.pyEq : DumpValue → DumpValue → Bool := Json.pyEq JsonPrimitive.pyEq

def maxRecursionDepth : ℕ := 100

/-- `type(a) is type(b)` of leaves. -/
def sameType (a b : JsonPrimitive) : Bool := typeName (.prim a) = typeName (.prim b)

/-- `_items_equal`, from a depth on. -/
def itemsEqualAt (c : ModelDiffConfiguration) : DumpValue → ℕ → DumpValue → Bool :=
  Json.fold (fun depth item => depth ≤ maxRecursionDepth && item.isNull)
    (fun a depth item => depth ≤ maxRecursionDepth && match item with
      | .prim b => sameType a b && a.pyEq b
      | _ => false)
    (fun items depth item => depth ≤ maxRecursionDepth && match item with
      | .list items' => items.length = items'.length &&
        (List.zipWith (fun equal v => equal (depth + 1) v) items items').all id
      | _ => false)
    fun entries depth item => depth ≤ maxRecursionDepth && match item with
      | .dict entries' =>
        (entries.all fun e => e.1 ∈ entries'.map Prod.fst) &&
        (entries'.all fun e => e.1 ∈ entries.map Prod.fst) &&
        entries.all fun e => c.shouldExclude e.1 || match entries'.lookup e.1 with
          | some v => e.2 (depth + 1) v
          | none => false
      | _ => false

def itemsEqual (c : ModelDiffConfiguration) (item1 item2 : DumpValue) : Bool :=
  itemsEqualAt c item1 0 item2

/-- `_to_hashable`. A tuple is written as the list of its items. -/
def toHashable : DumpValue → DumpValue :=
  Json.fold .null .prim .list fun entries =>
    .list ((sortedAsc Prod.fst entries).map fun e => .list [.prim (.strict (.str e.1)), e.2])

/-- The elements of the set of some values, in the order in which they are put into it. -/
def setOf (values : List DumpValue) : List DumpValue :=
  values.foldl (fun s v => if s.any fun u => u.pyEq v then s else s ++ [v]) []

/-- `s - t`. -/
def setDifference (s t : List DumpValue) : List DumpValue :=
  s.filter fun v => !t.any fun u => u.pyEq v

section
variable (i : DumpInterpreter)

/-- `str(val)` of a hashable value. -/
def DumpInterpreter.hashableStr : DumpValue → Except PyException String
  | .list items => i.tupleStr (.list items)
  | v => i.str v

/-- `ModelSchemaValue.from_value` of a hashable value. -/
def DumpInterpreter.fromHashable : DumpValue → Except PyException ModelSchemaValue
  | .list items => (i.tupleStr (.list items)).map fun text => .prim (.string text)
  | v => i.fromValue v

/-- `type(val).__name__` of a hashable value. -/
def hashableTypeName : DumpValue → String
  | .list _ => "tuple"
  | v => typeName v

/-! ## Paths -/

def fieldPath (path key : String) : String := if path = "" then key else path ++ "." ++ key

def elementPath (path element : String) : String := path ++ "[" ++ element ++ "]"

/-! ## Fields -/

/-- What is appended to `field_diffs` and to `list_diffs`. -/
structure Diffs where
  fieldDiffs : List ModelContractFieldDiff := []
  listDiffs : List ModelContractListDiff := []

def Diffs.concat (parts : List Diffs) : Diffs where
  fieldDiffs := parts.flatMap Diffs.fieldDiffs
  listDiffs := parts.flatMap Diffs.listDiffs

/-- The value of an entry. A missing value and `None` are wrapped for UNCHANGED only. -/
def DumpInterpreter.wrapped (changeType : EnumContractDiffChangeType) (value : DumpValue) :
    Except PyException (Option ModelSchemaValue) :=
  if value.isNull ∧ changeType ≠ .unchanged then .ok none else (i.fromValue value).map some

def addFieldDiff (path : String) (oldValue newValue : DumpValue)
    (changeType : EnumContractDiffChangeType) : Except PyException Diffs := do
  let oldWrapped ← i.wrapped changeType oldValue
  let newWrapped ← i.wrapped changeType newValue
  let d ← ModelContractFieldDiff.validate {
    fieldPath := path
    changeType := changeType
    oldValue := oldWrapped
    newValue := newWrapped
    valueType :=
      if !oldValue.isNull then typeName oldValue
      else if !newValue.isNull then typeName newValue
      else "NoneType" }
  return { fieldDiffs := [d] }

variable (c : ModelDiffConfiguration)

/-- The last two branches of `_diff_objects`. -/
def diffScalars (path : String) (beforeVal afterVal : DumpValue) : Except PyException Diffs :=
  if !beforeVal.pyEq afterVal then addFieldDiff i path beforeVal afterVal .modified
  else if c.includeUnchanged then addFieldDiff i path beforeVal afterVal .unchanged
  else .ok {}

/-! ## Lists with identities -/

def DumpInterpreter.identityValue (identityKey : String) :
    DumpValue → Except PyException (Option String)
  | .dict entries =>
    match entries.lookup identityKey with
    | none | some .null => .ok none
    | some rawValue => (i.str rawValue).map some
  | item => i.attributeText item identityKey

/-- The key under which an item is entered, given the keys that are there. -/
def mapKey (keys : List String) (idx : ℕ) : Option String → String
  | some identity =>
    if identity ∈ keys then identity ++ "::idx:" ++ toString idx else identity
  | none => "__idx_" ++ toString idx ++ "__"

def buildIdentityMap (items : List DumpValue) (identityKey : String) :
    Except PyException (List (String × ℕ × DumpValue)) :=
  items.zipIdx.foldlM (fun identityMap e => do
    let identity ← i.identityValue identityKey e.1
    return dictSet identityMap (mapKey (identityMap.map Prod.fst) e.2 identity) (e.2, e.1)) []

def beforeItemDiff (path : String) (afterMap : List (String × ℕ × DumpValue))
    (e : String × ℕ × DumpValue) : Except PyException (Option ModelContractFieldDiff) :=
  let (identity, beforeIdx, beforeItem) := e
  match afterMap.lookup identity with
  | none => do
    let old ← i.fromValue beforeItem
    let d ← ModelContractFieldDiff.validate {
      fieldPath := elementPath path identity
      changeType := .removed
      oldValue := old
      valueType := typeName beforeItem }
    return some d
  | some (afterIdx, afterItem) =>
    if !itemsEqual c beforeItem afterItem then do
      let old ← i.fromValue beforeItem
      let new ← i.fromValue afterItem
      let d ← ModelContractFieldDiff.validate {
        fieldPath := elementPath path identity
        changeType := .modified
        oldValue := old
        newValue := new
        valueType := typeName beforeItem }
      return some d
    else if beforeIdx ≠ afterIdx then do
      let old ← i.fromValue beforeItem
      let new ← i.fromValue afterItem
      let d ← ModelContractFieldDiff.validate {
        fieldPath := elementPath path identity
        changeType := .moved
        oldValue := old
        newValue := new
        valueType := typeName beforeItem
        oldIndex := some beforeIdx
        newIndex := some afterIdx }
      return some d
    else .ok none

def addedItemDiff (path : String) (e : String × ℕ × DumpValue) :
    Except PyException ModelContractFieldDiff := do
  let new ← i.fromValue e.2.2
  ModelContractFieldDiff.validate {
    fieldPath := elementPath path e.1
    changeType := .added
    newValue := some new
    valueType := typeName e.2.2 }

/-- `sorted(values, key=str)`. -/
def DumpInterpreter.sortedByStr (values : List DumpValue) :
    Except PyException (List (String × DumpValue)) := do
  let texts ← values.mapM fun v => do
    let text ← i.hashableStr v
    return (text, v)
  return sortedAsc Prod.fst texts

def diffPrimitiveList (before after : List DumpValue) (path : String) :
    Except PyException ModelContractListDiff := do
  let beforeSet := setOf (before.map toHashable)
  let afterSet := setOf (after.map toHashable)
  let addedValues ← i.sortedByStr (i.setOrder (setDifference afterSet beforeSet))
  let addedItems ← addedValues.mapM fun e => do
    let new ← i.fromHashable e.2
    ModelContractFieldDiff.validate {
      fieldPath := elementPath path e.1
      changeType := .added
      newValue := some new
      valueType := hashableTypeName e.2 }
  let removedValues ← i.sortedByStr (i.setOrder (setDifference beforeSet afterSet))
  let removedItems ← removedValues.mapM fun e => do
    let old ← i.fromHashable e.2
    ModelContractFieldDiff.validate {
      fieldPath := elementPath path e.1
      changeType := .removed
      oldValue := some old
      valueType := hashableTypeName e.2 }
  ModelContractListDiff.validate {
    fieldPath := path
    identityKey := "__value__"
    addedItems := addedItems
    removedItems := removedItems
    unchangedCount := (beforeSet.filter fun v => afterSet.any fun u => u.pyEq v).length }

def diffListWithIdentity (before after : List DumpValue) (path identityKey : String) :
    Except PyException ModelContractListDiff := do
  if identityKey = "__value__" then diffPrimitiveList i before after path
  else
    let beforeMap ← buildIdentityMap i before identityKey
    let afterMap ← buildIdentityMap i after identityKey
    let items ← beforeMap.mapM (beforeItemDiff i c path afterMap)
    let addedItems ← (afterMap.filter fun e => e.1 ∉ beforeMap.map Prod.fst).mapM
      (addedItemDiff i path)
    let changed := items.reduceOption
    ModelContractListDiff.validate {
      fieldPath := path
      identityKey := identityKey
      addedItems := addedItems
      removedItems := changed.filter fun d => d.changeType = .removed
      modifiedItems := changed.filter fun d => d.changeType = .modified
      movedItems := changed.filter fun d => d.changeType = .moved
      unchangedCount := items.countP Option.isNone }

/-- The branch of `_diff_objects` for lists with an identity key. -/
def diffIdentityList (before after : List DumpValue) (path identityKey : String) :
    Except PyException Diffs := do
  let listDiff ← diffListWithIdentity i c before after path identityKey
  return { listDiffs := if listDiff.hasChanges || c.includeUnchanged then [listDiff] else [] }

/-! ## The recursion -/

/-- The comparison of a value with another one, at a path. -/
abbrev Compare := String → DumpValue → Except PyException Diffs

/-- A turn of the loop of `_diff_objects`, the values of the first object with their
comparison. -/
def diffKey (before : List (String × DumpValue × Compare)) (after : List (String × DumpValue))
    (path key : String) : Except PyException Diffs :=
  let path := fieldPath path key
  if c.shouldExclude path then .ok {}
  else match before.lookup key, after.lookup key with
    | none, some value => addFieldDiff i path .null value .added
    | some (value, _), none => addFieldDiff i path value .null .removed
    | some (_, compare), some value => compare path value
    -- the key is in one of the two
    | none, none => .ok {}

/-- `sorted(set(before.keys()) | set(after.keys()))`. -/
def allKeys (before after : List String) : List String :=
  sortedAsc id (before ++ after).dedup

def diffObjects (before : List (String × DumpValue × Compare))
    (after : List (String × DumpValue)) (path : String) : Except PyException Diffs := do
  let parts ← (allKeys (before.map Prod.fst) (after.map Prod.fst)).mapM
    (diffKey i c before after path)
  return Diffs.concat parts

/-- A turn of the loop of `_diff_list_positional`. -/
def diffIndex (before : List (DumpValue × Compare)) (after : List DumpValue) (path : String)
    (idx : ℕ) : Except PyException Diffs :=
  let itemPath := elementPath path (toString idx)
  match before[idx]?, after[idx]? with
  | none, some item => addFieldDiff i itemPath .null item .added
  | some (item, _), none => addFieldDiff i itemPath item .null .removed
  | some (beforeItem, compare), some afterItem =>
    if !beforeItem.pyEq afterItem then
      match beforeItem, afterItem with
      | .dict _, .dict _ => compare itemPath afterItem
      | _, _ => addFieldDiff i itemPath beforeItem afterItem .modified
    else if c.includeUnchanged then addFieldDiff i itemPath beforeItem afterItem .unchanged
    else .ok {}
  -- the index is one of the longer list
  | none, none => .ok {}

def diffListPositional (before : List (DumpValue × Compare)) (after : List DumpValue)
    (path : String) : Except PyException Diffs := do
  let parts ← (List.range (max before.length after.length)).mapM (diffIndex i c before after path)
  return Diffs.concat parts

/-- What `_diff_objects` does with a field of both objects. -/
def diffValues : DumpValue → Compare :=
  Json.foldValues (fun path afterVal => diffScalars i c path .null afterVal)
    (fun a path afterVal => diffScalars i c path (.prim a) afterVal)
    (fun items path afterVal => match afterVal with
      | .list items' =>
        match c.identityKeyAt path with
        | some identityKey => diffIdentityList i c (items.map Prod.fst) items' path identityKey
        | none => diffListPositional i c items items' path
      | _ => diffScalars i c path (.list (items.map Prod.fst)) afterVal)
    fun entries path afterVal => match afterVal with
      | .dict entries' => diffObjects i c entries entries' path
      | _ => diffScalars i c path (.dict (entries.map fun e => (e.1, e.2.1))) afterVal

/-! ## Contracts -/

def DumpInterpreter.getContractName (contract : Contract) : Except PyException String :=
  match [contract.name, contract.contractName, contract.nodeName].findSome? fun attr =>
      attr.filter fun name => !name.isNull with
  | some name => i.str name
  | none => .ok contract.className

def computeDiff (before after : Contract) : Except PyException ModelContractDiff := do
  let beforeName ← i.getContractName before
  let afterName ← i.getContractName after
  let diffs ← diffValues i c (.dict before.modelDump.entries) "" (.dict after.modelDump.entries)
  ModelContractDiff.validate {
    beforeContractName := beforeName
    afterContractName := afterName
    fieldDiffs := diffs.fieldDiffs
    listDiffs := diffs.listDiffs }

end

/-!
## The places that a diff comes to

* `diffValues_eq`: the diff of two values is put together from those of the places that the
  comparison comes to, which can be listed beforehand.
-/

variable (i : DumpInterpreter) (c : ModelDiffConfiguration)

/-- A place that the comparison comes to: a value of one side only, two values that are compared
by `==`, or two lists whose items have identities. -/
inductive Step
  | added (path : String) (value : DumpValue)
  | removed (path : String) (value : DumpValue)
  | values (path : String) (before after : DumpValue)
  | lists (path identityKey : String) (before after : List DumpValue)

/-- What the computer appends there. -/
def Step.run : Step → Except PyException Diffs
  | added path value => addFieldDiff i path .null value .added
  | removed path value => addFieldDiff i path value .null .removed
  | values path before after => diffScalars i c path before after
  | lists path identityKey before after => diffIdentityList i c before after path identityKey

/-- What the computer appends at some places. -/
def runAll (steps : List Step) : Except PyException Diffs := do
  let parts ← steps.mapM (Step.run i c)
  return Diffs.concat parts

/-! ## The places -/

/-- The places below a key of two objects, given those below two values. -/
def keySteps (before : List (String × DumpValue × (String → DumpValue → List Step)))
    (after : List (String × DumpValue)) (path key : String) : List Step :=
  let path := fieldPath path key
  if c.shouldExclude path then []
  else match before.lookup key, after.lookup key with
    | none, some value => [.added path value]
    | some (value, _), none => [.removed path value]
    | some (_, steps), some value => steps path value
    | none, none => []

/-- The places at an index of two lists. Only dictionaries that differ are entered. -/
def indexSteps (before : List (DumpValue × (String → DumpValue → List Step)))
    (after : List DumpValue) (path : String) (idx : ℕ) : List Step :=
  let itemPath := elementPath path (toString idx)
  match before[idx]?, after[idx]? with
  | none, some item => [.added itemPath item]
  | some (item, _), none => [.removed itemPath item]
  | some (beforeItem, steps), some afterItem =>
    match beforeItem, afterItem with
    | .dict entries, .dict entries' =>
      if DumpValue.pyEq (.dict entries) (.dict entries') then
        [.values itemPath (.dict entries) (.dict entries')]
      else steps itemPath (.dict entries')
    | _, _ => [.values itemPath beforeItem afterItem]
  | none, none => []

def steps : DumpValue → String → DumpValue → List Step :=
  Json.foldValues (fun path after => [.values path .null after])
    (fun a path after => [.values path (.prim a) after])
    (fun items path after => match after with
      | .list items' =>
        match c.identityKeyAt path with
        | some identityKey => [.lists path identityKey (items.map Prod.fst) items']
        | none => (List.range (max items.length items'.length)).flatMap
          (indexSteps items items' path)
      | _ => [.values path (.list (items.map Prod.fst)) after])
    fun entries path after => match after with
      | .dict entries' =>
        (allKeys (entries.map Prod.fst) (entries'.map Prod.fst)).flatMap
          (keySteps c entries entries' path)
      | _ => [.values path (.dict (entries.map fun e => (e.1, e.2.1))) after]

/-! ### Values of each kind -/

def nested : DumpValue → DumpValue → Bool
  | .list _, .list _ => true
  | .dict _, .dict _ => true
  | _, _ => false

section
variable {i c} {items items' : List DumpValue} {entries entries' : List (String × DumpValue)}
  {path identityKey : String}

theorem diffValues_identity (h : c.identityKeyAt path = some identityKey) :
    diffValues i c (.list items) path (.list items')
      = diffIdentityList i c items items' path identityKey := by
  unfold diffValues
  simp [h, Function.comp_def]

theorem diffValues_positional (h : c.identityKeyAt path = none) :
    diffValues i c (.list items) path (.list items')
      = diffListPositional i c (items.map fun v => (v, diffValues i c v)) items' path := by
  unfold diffValues
  simp [h]

theorem diffValues_dict :
    diffValues i c (.dict entries) path (.dict entries')
      = diffObjects i c (entries.map fun e => (e.1, e.2, diffValues i c e.2)) entries' path := by
  unfold diffValues
  simp

theorem diffValues_of_not_nested {before after : DumpValue} (h : nested before after = false) :
    diffValues i c before path after = diffScalars i c path before after := by
  unfold diffValues
  cases before <;> cases after <;> first | cases h; done | simp [Function.comp_def]

theorem steps_identity (h : c.identityKeyAt path = some identityKey) :
    steps c (.list items) path (.list items') = [.lists path identityKey items items'] := by
  unfold steps
  simp [h, Function.comp_def]

theorem steps_positional (h : c.identityKeyAt path = none) :
    steps c (.list items) path (.list items')
      = (List.range (max items.length items'.length)).flatMap
        (indexSteps (items.map fun v => (v, steps c v)) items' path) := by
  unfold steps
  simp [h]

theorem steps_dict :
    steps c (.dict entries) path (.dict entries')
      = (allKeys (entries.map Prod.fst) (entries'.map Prod.fst)).flatMap
        (keySteps c (entries.map fun e => (e.1, e.2, steps c e.2)) entries' path) := by
  unfold steps
  simp [Function.comp_def]

theorem steps_of_not_nested {before after : DumpValue} (h : nested before after = false) :
    steps c before path after = [.values path before after] := by
  unfold steps
  cases before <;> cases after <;> first | cases h; done | simp [Function.comp_def]

end

/-! ## The diff from the places -/

@[simp] theorem runAll_nil : runAll i c [] = .ok {} := rfl

@[simp] theorem runAll_singleton (s : Step) : runAll i c [s] = s.run i c := by
  unfold runAll
  rw [List.mapM_cons, List.mapM_nil]
  cases hs : s.run i c with
  | error e => rfl
  | ok d =>
    show Except.ok (Diffs.concat [d]) = .ok d
    unfold Diffs.concat
    rw [List.flatMap_singleton, List.flatMap_singleton]

/-- Turns of a loop that each come to some places come to all of them in order. -/
theorem runAll_flatMap {β : Type} {turn : β → Except PyException Diffs} {places : β → List Step}
    {l : List β} (h : ∀ b ∈ l, turn b = runAll i c (places b)) :
    (do
      let parts ← l.mapM turn
      return Diffs.concat parts) = runAll i c (l.flatMap places) := by
  unfold runAll
  induction l with
  | nil => rfl
  | cons b rest ih =>
    rw [List.forall_mem_cons] at h
    have hrest := ih h.2
    rw [List.mapM_cons, h.1, List.flatMap_cons, List.mapM_append]
    unfold runAll
    cases (places b).mapM (Step.run i c) with
    | error e => rfl
    | ok parts =>
      cases hturns : rest.mapM turn with
      | error e =>
        rw [hturns] at hrest
        cases hsteps : (rest.flatMap places).mapM (Step.run i c) with
        | error e' =>
          rw [hsteps] at hrest
          exact hrest
        | ok parts' =>
          rw [hsteps] at hrest
          exact nomatch hrest
      | ok turns =>
        rw [hturns] at hrest
        cases hsteps : (rest.flatMap places).mapM (Step.run i c) with
        | error e' =>
          rw [hsteps] at hrest
          exact nomatch hrest
        | ok parts' =>
          rw [hsteps] at hrest
          have heq : Diffs.concat turns = Diffs.concat parts' := Except.ok.inj hrest
          show Except.ok (Diffs.concat (Diffs.concat parts :: turns))
            = .ok (Diffs.concat (parts ++ parts'))
          unfold Diffs.concat at *
          rw [Diffs.mk.injEq] at heq
          simp only [List.flatMap_cons, List.flatMap_append, heq.1, heq.2]

theorem lookup_mapValues {β γ : Type} (f : β → γ) (entries : List (String × β)) (key : String) :
    (entries.map fun e => (e.1, f e.2)).lookup key = (entries.lookup key).map f := by
  induction entries with
  | nil => rfl
  | cons e rest ih =>
    rw [List.map_cons, List.lookup_cons, List.lookup_cons, ih]
    cases key == e.1 <;> rfl

theorem mem_of_lookup {β : Type} {entries : List (String × β)} {key : String} {value : β}
    (h : entries.lookup key = some value) : (key, value) ∈ entries := by
  obtain ⟨before, after, heq, -⟩ := List.lookup_eq_some_iff.mp h
  rw [heq]
  exact List.mem_append_right before List.mem_cons_self

variable {i c}

theorem diffKey_eq {entries entries' : List (String × DumpValue)} (path key : String)
    (h : ∀ e ∈ entries, ∀ path after,
      diffValues i c e.2 path after = runAll i c (steps c e.2 path after)) :
    diffKey i c (entries.map fun e => (e.1, e.2, diffValues i c e.2)) entries' path key
      = runAll i c (keySteps c (entries.map fun e => (e.1, e.2, steps c e.2)) entries' path key) := by
  unfold diffKey keySteps
  rw [lookup_mapValues (fun v => (v, diffValues i c v)), lookup_mapValues (fun v => (v, steps c v))]
  dsimp only
  by_cases hexcluded : c.shouldExclude (fieldPath path key) = true
  · rw [if_pos hexcluded, if_pos hexcluded, runAll_nil]
  · rw [if_neg hexcluded, if_neg hexcluded]
    cases hbefore : entries.lookup key with
    | none =>
      cases entries'.lookup key with
      | none => rfl
      | some value => exact (runAll_singleton i c (.added (fieldPath path key) value)).symm
    | some value =>
      cases entries'.lookup key with
      | none => exact (runAll_singleton i c (.removed (fieldPath path key) value)).symm
      | some value' => exact h (key, value) (mem_of_lookup hbefore) _ _

/-- A turn of the positional loop, from the places at its index. -/
theorem diffIndex_eq {items items' : List DumpValue} (path : String) (idx : ℕ)
    (h : ∀ v ∈ items, ∀ path after,
      diffValues i c v path after = runAll i c (steps c v path after)) :
    diffIndex i c (items.map fun v => (v, diffValues i c v)) items' path idx
      = runAll i c (indexSteps (items.map fun v => (v, steps c v)) items' path idx) := by
  unfold diffIndex indexSteps
  rw [List.getElem?_map, List.getElem?_map]
  dsimp only
  cases hbefore : items[idx]? with
  | none =>
    cases items'[idx]? with
    | none => rfl
    | some item => exact (runAll_singleton i c (.added _ item)).symm
  | some item =>
    cases items'[idx]? with
    | none => exact (runAll_singleton i c (.removed _ item)).symm
    | some item' =>
      have hitem := h item (List.mem_of_getElem? hbefore)
      dsimp only [Option.map_some]
      by_cases heq : DumpValue.pyEq item item' = true
      · rw [heq, Bool.not_true, if_neg Bool.false_ne_true]
        have hrun : ∀ path, runAll i c [.values path item item']
            = if c.includeUnchanged then addFieldDiff i path item item' .unchanged else .ok {} := by
          intro path
          rw [runAll_singleton, Step.run, diffScalars, heq, Bool.not_true,
            if_neg Bool.false_ne_true]
        rw [← hrun]
        cases item <;> cases item' <;> first | rfl | (dsimp only; rw [if_pos heq])
      · rw [Bool.not_eq_true] at heq
        rw [heq, Bool.not_false, if_pos rfl]
        have hrun : ∀ path, runAll i c [.values path item item']
            = addFieldDiff i path item item' .modified := by
          intro path
          rw [runAll_singleton, Step.run, diffScalars, heq, Bool.not_false, if_pos rfl]
        cases item <;> cases item' <;>
          first
          | exact (hrun _).symm
          | (dsimp only; rw [heq, if_neg Bool.false_ne_true]; exact hitem _ _)

/-- The diff of two values is what is appended at the places that the comparison comes to. -/
theorem diffValues_eq (before : DumpValue) (path : String) (after : DumpValue) :
    diffValues i c before path after = runAll i c (steps c before path after) := by
  induction before using Json.ind generalizing path after with
  | null => exact (runAll_singleton i c (.values path .null after)).symm
  | prim a => exact (runAll_singleton i c (.values path (.prim a) after)).symm
  | list items ih =>
    cases after with
    | list items' =>
      cases hkey : c.identityKeyAt path with
      | some identityKey =>
        rw [diffValues_identity hkey, steps_identity hkey, runAll_singleton]
        rfl
      | none =>
        rw [diffValues_positional hkey, steps_positional hkey]
        unfold diffListPositional
        rw [List.length_map]
        exact runAll_flatMap i c fun idx _ => diffIndex_eq path idx ih
    | _ => rw [diffValues_of_not_nested rfl, steps_of_not_nested rfl, runAll_singleton]; rfl
  | dict entries ih =>
    cases after with
    | dict entries' =>
      rw [diffValues_dict, steps_dict]
      unfold diffObjects
      rw [List.map_map]
      exact runAll_flatMap i c fun key _ => diffKey_eq path key ih
    | _ => rw [diffValues_of_not_nested rfl, steps_of_not_nested rfl, runAll_singleton]; rfl

end OmnibaseCore.Diff
