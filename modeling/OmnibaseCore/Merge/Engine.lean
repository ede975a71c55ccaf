import OmnibaseCore.Merge.Model
import OmnibaseCore.Python.Sorted

/-!
# The contract merge engine

`ContractMergeEngine`: the merge rules, one patch on top of given fields
(`_apply_patch_to_base`), and the fold over a stack of overlays (`_merge_internal`). The factory
of the profiles is an argument. Nothing is emitted: the engine has no event emitter.
-/

namespace OmnibaseCore.Merge

/-! ## Merge rules -/

def mergeScalar {α : Type*} (base patch : Option α) : Option α :=
  match patch with
  | some v => some v
  | none => base

section
variable {α : Type*}

def applyListAdd (base : List α) (addItems : Option (List α)) : List α :=
  match addItems with
  | none => base
  | some items => base ++ items

def applyListRemove (base : List α) (removeKeys : Option (List String)) (keyExtractor : α → String) :
    List α :=
  match removeKeys with
  | none => base
  | some keys => base.filter fun item => keyExtractor item ∉ keys

def applyListOperations (base : List α) (addItems : Option (List α))
    (removeKeys : Option (List String)) (keyExtractor : α → String) : List α :=
  applyListAdd (applyListRemove base removeKeys keyExtractor) addItems

end

/-! ## Behaviour and capabilities -/

/-- The behaviour of a profile without one. -/
def defaultBehavior : ModelHandlerBehavior :=
  { nodeArchetype := .compute, purity := .sideEffecting, idempotent := false }

def mergeBehavior (baseBehavior : Option ModelHandlerBehavior)
    (patchDescriptor : Option ModelDescriptorPatch) : ModelHandlerBehavior :=
  let base := baseBehavior.getD defaultBehavior
  match patchDescriptor with
  | none => base
  | some patch =>
    { nodeArchetype := base.nodeArchetype
      purity := (mergeScalar (some base.purity) patch.purity).getD base.purity
      idempotent := patch.idempotent.getD base.idempotent
      timeoutMs := mergeScalar base.timeoutMs patch.timeoutMs
      retryPolicy := mergeScalar base.retryPolicy patch.retryPolicy
      circuitBreaker := mergeScalar base.circuitBreaker patch.circuitBreaker
      concurrencyPolicy :=
        (mergeScalar (some base.concurrencyPolicy) patch.concurrencyPolicy).getD
          base.concurrencyPolicy
      isolationPolicy :=
        (mergeScalar (some base.isolationPolicy) patch.isolationPolicy).getD base.isolationPolicy
      observabilityLevel :=
        (mergeScalar (some base.observabilityLevel) patch.observabilityLevel).getD
          base.observabilityLevel
      capabilityInputs := base.capabilityInputs
      capabilityOutputs := base.capabilityOutputs }

def mergeCapabilityInputs (i : TextInterpreter) (baseInputs : List String)
    (addInputs removeInputs : Option (List String)) :
    Except PyException (List ModelCapabilityDependency) :=
  (applyListOperations baseInputs addInputs removeInputs id).mapM fun name =>
    ModelCapabilityDependency.make i (replaceChar '.' "_" name) name

def mergeCapabilityOutputs (baseOutputs : List String)
    (addOutputs : Option (List ModelCapabilityProvided)) (removeOutputs : Option (List String)) :
    List String :=
  applyListOperations baseOutputs (addOutputs.map fun l => l.map ModelCapabilityProvided.name)
    removeOutputs id

/-! ## One patch -/

/-- The base arguments of `_apply_patch_to_base`. -/
structure BaseFields where
  name : String
  contractVersion : SemVer.ModelSemVer
  description : Option String
  inputModel : String
  outputModel : String
  behavior : Option ModelHandlerBehavior
  tags : List String
  handlerRouting : Option ModelHandlerRoutingSubcontract
  yamlConsumedEvents : List ModelConsumedEventEntry
  yamlPublishedEvents : List ModelPublishedEventEntry

/-- The arguments that `_merge_internal` takes from a profile. -/
def ModelContractBase.fields (base : ModelContractBase) : BaseFields :=
  { name := base.name
    contractVersion := base.contractVersion
    description := some base.description
    inputModel := base.inputModel
    outputModel := base.outputModel
    behavior := base.behavior
    tags := base.tags
    handlerRouting := base.handlerRouting
    yamlConsumedEvents := base.yamlConsumedEvents
    yamlPublishedEvents := base.yamlPublishedEvents }

/-- The arguments that `_apply_overlay_entry` takes from the contract merged so far. -/
def ModelHandlerContract.fields (current : ModelHandlerContract) : BaseFields :=
  { name := current.name
    contractVersion := current.contractVersion
    description := current.description
    inputModel := current.inputModel
    outputModel := current.outputModel
    behavior := some current.descriptor
    tags := current.tags
    handlerRouting := current.handlerRouting
    yamlConsumedEvents := current.yamlConsumedEvents
    yamlPublishedEvents := current.yamlPublishedEvents }

/-- The error for a scalar that is `None` after the merge. -/
def missingError (message field : String) : PyException :=
  .modelOnexError {
    errorCode := .validationError, message := message, context := [("field", .str field)] }

/-- `f"node.{merged_name.lower().replace(' ', '_')}"`. -/
def handlerIdOf (i : TextInterpreter) (name : String) : String :=
  "node." ++ replaceChar ' ' "_" (i.lower name)

/-- The lines that `_apply_patch_to_base` adds to the list of changes. Printing a version can
fail. -/
def patchChanges (i : TextInterpreter) (base : BaseFields) (patch : ModelContractPatch) :
    Except PyException (List String) := do
  let name :=
    match patch.name with
    | some name => if name ≠ base.name then ["name: " ++ base.name ++ " -> " ++ name] else []
    | none => []
  let version ←
    match patch.nodeVersion with
    | some version => do
      let versionText ← version.pyStr
      let baseText ← base.contractVersion.pyStr
      pure ["node_version: set to " ++ versionText ++ " (base contract_version: " ++ baseText ++
        ")"]
    | none => pure []
  let description :=
    if patch.description ≠ none ∧ patch.description ≠ base.description then
      ["description: updated"]
    else []
  let model := fun (field baseModel : String) (reference : Option ModelReference) =>
    match reference with
    | some reference => [field ++ ": " ++ baseModel ++ " -> " ++ reference.pyStr i]
    | none => []
  let descriptor := if patch.descriptor ≠ none then ["descriptor: updated"] else []
  let count := fun (field done : String) (n : ℕ) =>
    if n ≠ 0 then [field ++ ": " ++ done ++ " " ++ toString n ++ " items"] else []
  return name ++ version ++ description ++ model "input_model" base.inputModel patch.inputModel ++
    model "output_model" base.outputModel patch.outputModel ++ descriptor ++
    count "capability_inputs" "added" (patch.capabilityInputsAdd.getD []).length ++
    count "capability_inputs" "removed" (patch.capabilityInputsRemove.getD []).length ++
    count "capability_outputs" "added" (patch.capabilityOutputsAdd.getD []).length ++
    count "capability_outputs" "removed" (patch.capabilityOutputsRemove.getD []).length

def applyPatchToBase (i : TextInterpreter) (base : BaseFields) (patch : ModelContractPatch)
    (changesApplied : List String) : Except PyException (ModelHandlerContract × List String) := do
  let mergedName ←
    match mergeScalar (some base.name) patch.name with
    | some name => pure name
    | none => .error (missingError "Contract name cannot be None after merge" "name")
  let changes ← patchChanges i base patch
  let mergedInputModel ←
    match mergeScalar (some base.inputModel) (patch.inputModel.map (ModelReference.pyStr i)) with
    | some model => pure model
    | none => .error (missingError "input_model cannot be None after merge" "input_model")
  let mergedOutputModel ←
    match mergeScalar (some base.outputModel) (patch.outputModel.map (ModelReference.pyStr i)) with
    | some model => pure model
    | none => .error (missingError "output_model cannot be None after merge" "output_model")
  let mergedBehavior := mergeBehavior base.behavior patch.descriptor
  let mergedCapabilityInputs ← mergeCapabilityInputs i mergedBehavior.capabilityInputs
    patch.capabilityInputsAdd patch.capabilityInputsRemove
  let mergedCapabilityOutputs := mergeCapabilityOutputs mergedBehavior.capabilityOutputs
    patch.capabilityOutputsAdd patch.capabilityOutputsRemove
  let result ← ModelHandlerContract.make i
    { handlerId := handlerIdOf i mergedName
      name := mergedName
      contractVersion := patch.nodeVersion.getD base.contractVersion
      description := mergeScalar base.description patch.description
      descriptor := mergedBehavior
      capabilityInputs := mergedCapabilityInputs
      capabilityOutputs := mergedCapabilityOutputs
      inputModel := mergedInputModel
      outputModel := mergedOutputModel
      tags := base.tags
      handlerRouting := base.handlerRouting
      yamlConsumedEvents := base.yamlConsumedEvents
      yamlPublishedEvents := base.yamlPublishedEvents }
  return (result, changesApplied ++ changes)

/-! ## The stack -/

def applyOverlayEntry (i : TextInterpreter) (current : ModelHandlerContract)
    (entry : ModelOverlayStackEntry) (orderIndex : ℕ) (changesApplied : List String) :
    Except PyException (ModelHandlerContract × List String) :=
  applyPatchToBase i current.fields entry.overlayPatch (changesApplied ++
    ["overlay[" ++ toString orderIndex ++ "] '" ++ entry.overlayId ++ "' (scope=" ++
      entry.scope.value ++ ", version=" ++ entry.version ++ ")"])

def appliedRef (entry : ModelOverlayStackEntry) (orderIndex : ℕ) : ModelOverlayRef :=
  { overlayId := entry.overlayId
    version := entry.version
    contentHash := none
    scope := entry.scope
    orderIndex := orderIndex }

/-- The loop over the overlays in `_merge_internal`, from the place `orderIndex` on. -/
def applyOverlays (i : TextInterpreter) :
    List ModelOverlayStackEntry → ℕ → ModelHandlerContract → List String → List ModelOverlayRef →
      Except PyException (ModelHandlerContract × List ModelOverlayRef)
  | [], _, result, _, appliedRefs => .ok (result, appliedRefs)
  | entry :: rest, orderIndex, result, changesApplied, appliedRefs => do
    let (result, changesApplied) ← applyOverlayEntry i result entry orderIndex changesApplied
    applyOverlays i rest (orderIndex + 1) result changesApplied
      (appliedRefs ++ [appliedRef entry orderIndex])

def profilePrefixToNodeType : List (String × EnumNodeType) := [
  ("compute", .computeGeneric),
  ("effect", .effectGeneric),
  ("reducer", .reducerGeneric),
  ("orchestrator", .orchestratorGeneric),
  ("transformer", .transformer),
  ("validator", .validator),
  ("gateway", .gateway),
  ("aggregator", .aggregator)]

def resolveNodeType (i : TextInterpreter) (patch : ModelContractPatch)
    (explicitType : Option EnumNodeType) : EnumNodeType :=
  match explicitType with
  | some nodeType => nodeType
  | none =>
    let profileName := i.lower patch.extends_.profile
    match profilePrefixToNodeType.find? fun e => e.1.toList <+: profileName.toList with
    | some e => e.2
    | none => .computeGeneric

/-- `get_profile` of the profile factory. -/
abbrev ProfileFactory :=
  EnumNodeType → String → String → Except PyException ModelContractBase

def mergeInternal (i : TextInterpreter) (profileFactory : ProfileFactory)
    (patch : ModelContractPatch) (nodeType : Option EnumNodeType)
    (overlays : List ModelOverlayStackEntry) :
    Except PyException (ModelHandlerContract × List ModelOverlayRef) := do
  let base ← profileFactory (resolveNodeType i patch nodeType) patch.extends_.profile
    patch.extends_.version
  let (result, changesApplied) ← applyPatchToBase i base.fields patch []
  applyOverlays i overlays 0 result changesApplied []

/-- `all(scope_values[i] <= scope_values[i + 1] ...)`. -/
def scopesSorted (overlays : List ModelOverlayStackEntry) : Bool :=
  (List.range (overlays.length - 1)).all fun n =>
    let scopeValues := overlays.map fun entry => scopeOrder entry.scope
    scopeValues.getD n 0 ≤ scopeValues.getD (n + 1) 0

/-- The error of `_sort_overlays`. -/
def scopeOrderError (overlays : List ModelOverlayStackEntry) : PyException :=
  .modelOnexError {
    errorCode := .validationError
    message := "Overlays are not in canonical scope order " ++
      "(BASE→ORG→PROJECT→ENV→USER→SESSION): " ++ ", ".intercalate
        (overlays.zipIdx.map fun e =>
          "[" ++ toString e.2 ++ "] " ++ e.1.overlayId ++ " (" ++ e.1.scope.value ++ ")")
    context := [] }

def sortOverlays (overlays : List ModelOverlayStackEntry) (strictOrdering : Bool) :
    Except PyException (List ModelOverlayStackEntry) :=
  if overlays.isEmpty then .ok overlays
  else if scopesSorted overlays then .ok overlays
  else if strictOrdering then .error (scopeOrderError overlays)
  else .ok (sortedAsc (fun entry => scopeOrder entry.scope) overlays)

def merge (i : TextInterpreter) (profileFactory : ProfileFactory) (patch : ModelContractPatch)
    (nodeType : Option EnumNodeType) : Except PyException ModelHandlerContract := do
  let (result, _) ← mergeInternal i profileFactory patch nodeType []
  return result

def mergeWithOverlays (i : TextInterpreter) (profileFactory : ProfileFactory)
    (patch : ModelContractPatch) (overlays : List ModelOverlayStackEntry)
    (nodeType : Option EnumNodeType) (strictOrdering : Bool) :
    Except PyException ModelHandlerContract := do
  let sortedOverlays ← sortOverlays overlays strictOrdering
  let (result, _) ← mergeInternal i profileFactory patch nodeType sortedOverlays
  return result

end OmnibaseCore.Merge
