import OmnibaseCore.Diff.ComputerTheorems
import OmnibaseCore.Json.Equality

/-!
# A diff the other way round
-/

namespace OmnibaseCore.Diff

/-! ## Reversed entries -/

def EnumContractDiffChangeType.getReverse : EnumContractDiffChangeType → EnumContractDiffChangeType
  | .added => .removed
  | .removed => .added
  | t => t

def ModelContractFieldDiff.toReverse (d : ModelContractFieldDiff) : ModelContractFieldDiff where
  fieldPath := d.fieldPath
  changeType := d.changeType.getReverse
  oldValue := d.newValue
  newValue := d.oldValue
  valueType := d.valueType
  oldIndex := d.newIndex
  newIndex := d.oldIndex

section
variable (i : DumpInterpreter)

/-- Two entries of a value that is `v` on one side and `w` on the other name the types of the
two. -/
def NamesTypes (d d' : ModelContractFieldDiff) : Prop :=
  ∃ v w s t, i.fromValue v = .ok s ∧ i.fromValue w = .ok t ∧
    d.oldValue = some s ∧ d.newValue = some t ∧
    d.valueType = typeName v ∧ d'.valueType = typeName w

/-- An entry, and the one that the diff the other way round has for it. -/
structure Mirrors (d d' : ModelContractFieldDiff) : Prop where
  reverse : d' = { d.toReverse with valueType := d'.valueType }
  valueType :
    if d.changeType = .modified ∨ d.changeType = .unchanged then NamesTypes i d d'
    else d'.valueType = d.valueType

/-- The same for entries in any order. -/
def MirrorItems (l l' : List ModelContractFieldDiff) : Prop :=
  ∃ m, List.Forall₂ (Mirrors i) l m ∧ m.Perm l'

structure ListMirrors (d d' : ModelContractListDiff) : Prop where
  fieldPath : d'.fieldPath = d.fieldPath
  identityKey : d'.identityKey = d.identityKey
  addedItems : MirrorItems i d.removedItems d'.addedItems
  removedItems : MirrorItems i d.addedItems d'.removedItems
  modifiedItems : MirrorItems i d.modifiedItems d'.modifiedItems
  movedItems : MirrorItems i d.movedItems d'.movedItems
  unchangedCount : d'.unchangedCount = d.unchangedCount

/-- The same for what is appended to `field_diffs` and `list_diffs`, in order. -/
structure Diffs.Mirrors (d d' : Diffs) : Prop where
  fieldDiffs : List.Forall₂ (Diff.Mirrors i) d.fieldDiffs d'.fieldDiffs
  listDiffs : List.Forall₂ (ListMirrors i) d.listDiffs d'.listDiffs

structure ContractMirrors (d d' : ModelContractDiff) : Prop where
  beforeContractName : d'.beforeContractName = d.afterContractName
  afterContractName : d'.afterContractName = d.beforeContractName
  fieldDiffs : List.Forall₂ (Mirrors i) d.fieldDiffs d'.fieldDiffs
  listDiffs : List.Forall₂ (ListMirrors i) d.listDiffs d'.listDiffs

/-- Both calls return and what they return mirrors each other, or both raise. -/
def MirrorResults (x x' : Except PyException ModelContractDiff) : Prop :=
  match x, x' with
  | .ok d, .ok d' => ContractMirrors i d d'
  | .error _, .error _ => True
  | _, _ => False

end

/-! ## Places -/

/-- The place the other way round. -/
def Step.mirror : Step → Step
  | added path value => removed path value
  | removed path value => added path value
  | values path before after => values path after before
  | lists path identityKey before after => lists path identityKey after before

def Step.UniqueKeys : Step → Prop
  | added _ _ | removed _ _ => True
  | values _ before after => before.UniqueKeys ∧ after.UniqueKeys
  | lists _ _ before after => ∀ v ∈ before ++ after, Json.UniqueKeys v

section
variable {c : ModelDiffConfiguration}

theorem DumpValue.pyEq_comm {v w : DumpValue} (hv : Json.UniqueKeys v) (hw : Json.UniqueKeys w) :
    v.pyEq w = w.pyEq v := by
  rw [Bool.eq_iff_iff]
  constructor
  · exact Json.pyEq_symm (fun _ _ => JsonPrimitive.pyEq_symm) hv hw
  · exact Json.pyEq_symm (fun _ _ => JsonPrimitive.pyEq_symm) hw hv

theorem DumpValue.pyEq_trans {u v w : DumpValue} (huv : u.pyEq v = true) (hvw : v.pyEq w = true) :
    u.pyEq w = true := by
  apply Json.pyEq_trans _ huv hvw
  exact fun _ _ _ => JsonPrimitive.pyEq_trans

theorem isNull_of_pyEq {v w : DumpValue} (h : v.pyEq w = true) : v.isNull = w.isNull := by
  cases v <;> cases w <;> first | rfl | exact nomatch h

theorem allKeys_comm (before after : List String) : allKeys before after = allKeys after before :=
  sortedAsc_eq_of_perm id Function.injective_id List.perm_append_comm.dedup

variable {entries entries' : List (String × DumpValue)}

theorem keySteps_mirror (path key : String) (h : ∀ e ∈ entries, ∀ e' ∈ entries', ∀ path,
      steps c e'.2 path e.2 = (steps c e.2 path e'.2).map Step.mirror) :
    keySteps c (entries'.map fun e => (e.1, e.2, steps c e.2)) entries path key
      = (keySteps c (entries.map fun e => (e.1, e.2, steps c e.2)) entries' path key).map
        Step.mirror := by
  unfold keySteps
  rw [lookup_mapValues (fun v => (v, steps c v)), lookup_mapValues (fun v => (v, steps c v))]
  dsimp only
  by_cases hexcluded : c.shouldExclude (fieldPath path key) = true
  · rw [if_pos hexcluded, if_pos hexcluded, List.map_nil]
  · rw [if_neg hexcluded, if_neg hexcluded]
    cases hbefore : entries.lookup key with
    | none => cases entries'.lookup key <;> rfl
    | some value =>
      cases hafter : entries'.lookup key with
      | none => rfl
      | some value' => exact h _ (mem_of_lookup hbefore) _ (mem_of_lookup hafter) _

theorem indexSteps_mirror {items items' : List DumpValue} (path : String) (idx : ℕ)
    (hkeys : ∀ v ∈ items, Json.UniqueKeys v) (hkeys' : ∀ v ∈ items', Json.UniqueKeys v)
    (h : ∀ v ∈ items, ∀ v' ∈ items', ∀ path,
      steps c v' path v = (steps c v path v').map Step.mirror) :
    indexSteps (items'.map fun v => (v, steps c v)) items path idx
      = (indexSteps (items.map fun v => (v, steps c v)) items' path idx).map Step.mirror := by
  unfold indexSteps
  rw [List.getElem?_map, List.getElem?_map]
  dsimp only
  cases hbefore : items[idx]? with
  | none => cases items'[idx]? <;> rfl
  | some item =>
    cases hafter : items'[idx]? with
    | none => rfl
    | some item' =>
      have hmem := List.mem_of_getElem? hbefore
      have hmem' := List.mem_of_getElem? hafter
      have hcomm := DumpValue.pyEq_comm (hkeys item hmem) (hkeys' item' hmem')
      have hsteps := h item hmem item' hmem'
      dsimp only [Option.map_some]
      cases item <;> cases item' <;> first | rfl | skip
      -- two dictionaries
      dsimp only
      rw [hcomm]
      split_ifs
      · rfl
      · exact hsteps _

theorem nested_comm (before after : DumpValue) : nested before after = nested after before := by
  cases before <;> cases after <;> rfl

variable {before after : DumpValue}

/-- The comparison the other way round comes to the same places. -/
theorem steps_mirror (hbefore : before.UniqueKeys) (hafter : after.UniqueKeys) (path : String) :
    steps c after path before = (steps c before path after).map Step.mirror := by
  induction before using Json.ind generalizing path after with
  | null =>
    rw [steps_of_not_nested (nested_comm .null after ▸ rfl), steps_of_not_nested rfl]
    rfl
  | prim a =>
    rw [steps_of_not_nested (nested_comm (.prim a) after ▸ rfl), steps_of_not_nested rfl]
    rfl
  | list items ih =>
    cases after with
    | list items' =>
      rw [Json.uniqueKeys_list] at hbefore hafter
      cases hkey : c.identityKeyAt path with
      | some identityKey =>
        rw [steps_identity hkey, steps_identity hkey]
        rfl
      | none =>
        rw [steps_positional hkey, steps_positional hkey, List.map_flatMap, max_comm]
        apply List.flatMap_congr
        intro idx _
        apply indexSteps_mirror path idx hbefore hafter
        exact fun v hv v' hv' path => ih v hv (hbefore v hv) (hafter v' hv') path
    | _ => rw [steps_of_not_nested rfl, steps_of_not_nested rfl]; rfl
  | dict entries ih =>
    cases after with
    | dict entries' =>
      rw [Json.uniqueKeys_dict] at hbefore hafter
      rw [steps_dict, steps_dict, List.map_flatMap, allKeys_comm]
      apply List.flatMap_congr
      intro key _
      apply keySteps_mirror path key
      exact fun e he e' he' path => ih e he (hbefore.2 e he) (hafter.2 e' he') path
    | _ => rw [steps_of_not_nested rfl, steps_of_not_nested rfl]; rfl

theorem forall_indexSteps {P : Step → Prop} {items items' : List DumpValue} {path : String}
    {idx : ℕ} (hadded : ∀ path v, P (.added path v)) (hremoved : ∀ path v, P (.removed path v))
    (hvalues : ∀ v ∈ items, ∀ v' ∈ items', ∀ path, P (.values path v v'))
    (hsteps : ∀ v ∈ items, ∀ v' ∈ items', ∀ path, ∀ s ∈ steps c v path v', P s) :
    ∀ s ∈ indexSteps (items.map fun v => (v, steps c v)) items' path idx, P s := by
  intro s hs
  unfold indexSteps at hs
  rw [List.getElem?_map] at hs
  dsimp only at hs
  cases hitem : items[idx]? with
  | none =>
    cases hitem' : items'[idx]? with
    | none => simp [hitem, hitem'] at hs
    | some v =>
      simp [hitem, hitem'] at hs
      exact hs ▸ hadded _ v
  | some v =>
    cases hitem' : items'[idx]? with
    | none =>
      simp [hitem, hitem'] at hs
      exact hs ▸ hremoved _ v
    | some v' =>
      have hv := List.mem_of_getElem? hitem
      have hv' := List.mem_of_getElem? hitem'
      rw [hitem, hitem'] at hs
      dsimp only [Option.map_some] at hs
      split at hs
      · split_ifs at hs
        · exact List.mem_singleton.mp hs ▸ hvalues _ hv _ hv' _
        · exact hsteps _ hv _ hv' _ s hs
      · exact List.mem_singleton.mp hs ▸ hvalues v hv v' hv' _

theorem forall_keySteps {P : Step → Prop} {path key : String} (hadded : ∀ path v, P (.added path v))
    (hremoved : ∀ path v, P (.removed path v))
    (hsteps : ∀ e ∈ entries, ∀ e' ∈ entries', ∀ path, ∀ s ∈ steps c e.2 path e'.2, P s) :
    ∀ s ∈ keySteps c (entries.map fun e => (e.1, e.2, steps c e.2)) entries' path key, P s := by
  intro s hs
  unfold keySteps at hs
  rw [lookup_mapValues (fun v => (v, steps c v))] at hs
  dsimp only at hs
  split_ifs at hs
  · exact nomatch hs
  cases hentry : entries.lookup key with
  | none =>
    cases hentry' : entries'.lookup key with
    | none => simp [hentry, hentry'] at hs
    | some v =>
      simp [hentry, hentry'] at hs
      exact hs ▸ hadded _ v
  | some v =>
    cases hentry' : entries'.lookup key with
    | none =>
      simp [hentry, hentry'] at hs
      exact hs ▸ hremoved _ v
    | some v' =>
      rw [hentry, hentry'] at hs
      exact hsteps _ (mem_of_lookup hentry) _ (mem_of_lookup hentry') _ s hs

theorem uniqueKeys_values (hnested : nested before after = false) (hbefore : before.UniqueKeys)
    (hafter : after.UniqueKeys) (path : String) :
    ∀ s ∈ steps c before path after, s.UniqueKeys := by
  rw [steps_of_not_nested hnested, List.forall_mem_singleton]
  exact ⟨hbefore, hafter⟩

/-- The values at every place have unique keys if the two dumps do. -/
theorem uniqueKeys_steps (hbefore : before.UniqueKeys) (hafter : after.UniqueKeys) (path : String) :
    ∀ s ∈ steps c before path after, s.UniqueKeys := by
  induction before using Json.ind generalizing path after with
  | null => exact uniqueKeys_values rfl hbefore hafter path
  | prim a => exact uniqueKeys_values rfl hbefore hafter path
  | list items ih =>
    cases after with
    | list items' =>
      rw [Json.uniqueKeys_list] at hbefore hafter
      cases hkey : c.identityKeyAt path with
      | some identityKey =>
        rw [steps_identity hkey, List.forall_mem_singleton]
        exact List.forall_mem_append.mpr ⟨hbefore, hafter⟩
      | none =>
        rw [steps_positional hkey]
        intro s hs
        obtain ⟨idx, -, hs⟩ := List.mem_flatMap.mp hs
        refine forall_indexSteps (fun _ _ => trivial) (fun _ _ => trivial) ?_ ?_ s hs
        · exact fun v hv v' hv' _ => ⟨hbefore v hv, hafter v' hv'⟩
        · exact fun v hv v' hv' path => ih v hv (hbefore v hv) (hafter v' hv') path
    | _ => exact uniqueKeys_values rfl hbefore hafter path
  | dict entries ih =>
    cases after with
    | dict entries' =>
      rw [Json.uniqueKeys_dict] at hbefore hafter
      rw [steps_dict]
      intro s hs
      obtain ⟨key, -, hs⟩ := List.mem_flatMap.mp hs
      refine forall_keySteps (fun _ _ => trivial) (fun _ _ => trivial) ?_ s hs
      exact fun e he e' he' path => ih e he (hbefore.2 e he) (hafter.2 e' he') path
    | _ => exact uniqueKeys_values rfl hbefore hafter path

end

/-! ## Fields -/

section
variable {i : DumpInterpreter} {path : String} {v w : DumpValue}

theorem mirrors_added (hv : v ≠ .null) :
    Mirrors i (fieldDiffOf i path .null v .added) (fieldDiffOf i path v .null .removed) := by
  have hnull := isNull_eq_false_iff.mpr hv
  refine ⟨?_, ?_⟩
  · simp [fieldDiffOf, ModelContractFieldDiff.toReverse, EnumContractDiffChangeType.getReverse]
  · simp [fieldDiffOf, hnull]

theorem mirrors_removed (hv : v ≠ .null) :
    Mirrors i (fieldDiffOf i path v .null .removed) (fieldDiffOf i path .null v .added) := by
  have hnull := isNull_eq_false_iff.mpr hv
  refine ⟨?_, ?_⟩
  · simp [fieldDiffOf, ModelContractFieldDiff.toReverse, EnumContractDiffChangeType.getReverse]
  · simp [fieldDiffOf, hnull]

theorem mirrors_values {changeType : EnumContractDiffChangeType} (hv : Sized v) (hw : Sized w)
    (htype : changeType = .modified ∧ v.isNull = false ∧ w.isNull = false ∨
      changeType = .unchanged ∧ v.isNull = w.isNull) :
    Mirrors i (fieldDiffOf i path v w changeType) (fieldDiffOf i path w v changeType) := by
  have hname : ∀ u : DumpValue, u.isNull = true → typeName u = "NoneType" := by
    intro u hu
    rw [Json.isNull_iff.mp hu]
    rfl
  refine ⟨?_, ?_⟩
  · rcases htype with ⟨rfl, -⟩ | ⟨rfl, -⟩ <;>
      simp [fieldDiffOf, ModelContractFieldDiff.toReverse, EnumContractDiffChangeType.getReverse]
  · have hsides : (fieldDiffOf i path v w changeType).changeType = .modified ∨
        (fieldDiffOf i path v w changeType).changeType = .unchanged :=
      htype.imp (fun h => h.1) fun h => h.1
    rw [if_pos hsides]
    refine ⟨v, w, _, _, fromValue_eq_ok_iff.mpr ⟨hv, rfl⟩, fromValue_eq_ok_iff.mpr ⟨hw, rfl⟩, ?_⟩
    rcases htype with ⟨rfl, hv, hw⟩ | ⟨rfl, hnull⟩
    · simp [fieldDiffOf, hv, hw]
    · cases hw : w.isNull with
      | true =>
        rw [hw] at hnull
        simp [fieldDiffOf, hnull, hw, hname v hnull, hname w hw]
      | false =>
        rw [hw] at hnull
        simp [fieldDiffOf, hnull, hw]

end

end OmnibaseCore.Diff
