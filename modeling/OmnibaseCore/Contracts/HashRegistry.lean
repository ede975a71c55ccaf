import OmnibaseCore.Json.Text

/-!
# Contract fingerprints

`contract_hash_registry`: the two passes over the dumped contract, its text, and its
fingerprint. A contract is what `model_dump(mode="json")` gives, a dictionary.
-/

namespace OmnibaseCore.Contracts

variable {α : Type}

/-! ## The passes -/

def nonEmptyDict (entries : List (String × Json α)) : Option (Json α) :=
  if entries.isEmpty then none else some (.dict entries)

mutual

def removeNullsRecursive : List (String × Json α) → List (String × Json α)
  | [] => []
  | (key, value) :: rest =>
    match keptValue value with
    | none => removeNullsRecursive rest
    | some kept => (key, kept) :: removeNullsRecursive rest

/-- What `_remove_nulls_recursive` adds to its result for the value of a key. -/
def keptValue : Json α → Option (Json α)
  | .null => none
  | .dict value => nonEmptyDict (removeNullsRecursive value)
  -- lists are added even if empty
  | .list items => some (.list (removeNullItems items))
  | .prim a => some (.prim a)

def removeNullItems : List (Json α) → List (Json α)
  | [] => []
  | item :: rest =>
    match keptItem item with
    | none => removeNullItems rest
    | some kept => kept :: removeNullItems rest

def keptItem : Json α → Option (Json α)
  | .null => none
  | .dict item => nonEmptyDict (removeNullsRecursive item)
  -- a list is no instance of `dict`: it is appended as it is
  | .list items => some (.list items)
  | .prim a => some (.prim a)

end

mutual

/-- The entries of the result of `_canonical_order_recursive`, in the order of the input. -/
def orderedEntries : List (String × Json α) → List (String × Json α)
  | [] => []
  | (key, value) :: rest => (key, orderedValue value) :: orderedEntries rest

/-- What `_canonical_order_recursive` stores for the value of a key. -/
def orderedValue : Json α → Json α
  | .dict value => .dict (sortedAsc Prod.fst (orderedEntries value))
  | .list items => .list (orderedItems items)
  | value => value

def orderedItems : List (Json α) → List (Json α)
  | [] => []
  | item :: rest => orderedItem item :: orderedItems rest

def orderedItem : Json α → Json α
  | .dict item => .dict (sortedAsc Prod.fst (orderedEntries item))
  | item => item

end

/-- `_canonical_order_recursive`. The keys stay as they are, so they may be sorted last. -/
def canonicalOrderRecursive (data : List (String × Json α)) : List (String × Json α) :=
  sortedAsc Prod.fst (orderedEntries data)

/-! ## The text -/

/-- `ModelContractNormalizationConfig`, the fields that are read. -/
structure ModelContractNormalizationConfig where
  removeNulls : Bool := true
  sortKeys : Bool := true
  compactJson : Bool := true
  hashLength : ℕ := 12
  ge_hashLength : 8 ≤ hashLength := by decide
  hashLength_le : hashLength ≤ 64 := by decide

/-- Steps 1 and 2 of `normalize_contract`. -/
def normalizedData (config : ModelContractNormalizationConfig)
    (contract : List (String × Json α)) : List (String × Json α) :=
  let normalized := if config.removeNulls then removeNullsRecursive contract else contract
  if config.sortKeys then canonicalOrderRecursive normalized else normalized

def normalizeContract (leaf : α → Except PyException String) (contractType : String)
    (contract : List (String × Json α)) (config : ModelContractNormalizationConfig) :
    Except PyException String :=
  let style := if config.compactJson then JsonStyle.compact else JsonStyle.indent 2
  match Json.dumps leaf style (.dict (normalizedData config contract)) with
  | .ok text => .ok text
  | .error e =>
    if e.isValidationError then
      .error (.modelOnexError {
        errorCode := .validationError
        message := "Failed to normalize contract: " ++ e.str
        context := [("original_error", .str e.str), ("original_error_type", .str e.typeName),
          ("contract_type", .str contractType)] })
    else .error e

/-! ## The fingerprint -/

structure ModelContractVersion where
  major : ℕ
  minor : ℕ
  patch : ℕ

/-- `ModelContractFingerprint`, without the time. -/
structure ModelContractFingerprint where
  version : ModelContractVersion
  hashPrefix : String
  fullHash : String
  normalizedContent : Option String

/-- `compute_contract_fingerprint`, given the version that is read from the contract and the
hash function. -/
def computeContractFingerprint (sha256 : String → String)
    (leaf : α → Except PyException String) (contractType : String)
    (version : Except PyException ModelContractVersion) (contract : List (String × Json α))
    (config : ModelContractNormalizationConfig) (includeNormalizedContent : Bool) :
    Except PyException ModelContractFingerprint := do
  let version ← version
  let normalized ← normalizeContract leaf contractType contract config
  let fullHash := sha256 normalized
  return {
    version := version
    hashPrefix := String.ofList (fullHash.toList.take config.hashLength)
    fullHash := fullHash
    normalizedContent := if includeNormalizedContent then some normalized else none }

/-!
## What the fingerprint of a contract depends on

Two contracts hold the same data (`SameData`) if they differ in the order of entries and in
entries without a value. The passes do not go into a list that is an item of a list.

* `canonical_iff`: contracts with the same data are normalized to the same text, without such
  entries, if and only if neither has one inside a list of lists.
-/

variable {α : Type}

/-! ## What the passes keep -/

theorem removeNullsRecursive_eq (entries : List (String × Json α)) :
    removeNullsRecursive entries
      = entries.filterMap fun e => (keptValue e.2).map fun j => (e.1, j) := by
  induction entries with
  | nil => rfl
  | cons e rest ih =>
    rw [removeNullsRecursive, ih, List.filterMap_cons]
    cases keptValue e.2 with
    | none => rfl
    | some kept => rfl

theorem removeNullItems_eq (items : List (Json α)) :
    removeNullItems items = items.filterMap keptItem := by
  induction items with
  | nil => rfl
  | cons j rest ih =>
    rw [removeNullItems, ih, List.filterMap_cons]
    cases keptItem j with
    | none => rfl
    | some kept => rfl

theorem orderedEntries_eq (entries : List (String × Json α)) :
    orderedEntries entries = entries.map fun e => (e.1, orderedValue e.2) := by
  induction entries with
  | nil => rfl
  | cons e rest ih => rw [orderedEntries, ih, List.map_cons]

theorem orderedItems_eq (items : List (Json α)) :
    orderedItems items = items.map orderedItem := by
  induction items with
  | nil => rfl
  | cons j rest ih => rw [orderedItems, ih, List.map_cons]

theorem canonicalOrderRecursive_eq (entries : List (String × Json α)) :
    canonicalOrderRecursive entries
      = (sortedAsc Prod.fst entries).map fun e => (e.1, orderedValue e.2) := by
  rw [canonicalOrderRecursive, orderedEntries_eq, Json.sortedAsc_mapValues]

/-! ## Changes of the order -/

/-- `f` sorts the entries of a value, except those inside lists of lists, perhaps; `g` does so
for an item of a list. -/
structure Reorders (f g : Json α → Json α) : Prop where
  null : f .null = .null
  prim : ∀ a, f (.prim a) = .prim a
  list : ∀ items, f (.list items) = .list (items.map g)
  dict : ∀ entries, f (.dict entries)
    = .dict ((sortedAsc Prod.fst entries).map fun e => (e.1, f e.2))
  item_null : g .null = .null
  item_prim : ∀ a, g (.prim a) = .prim a
  item_list : ∀ items, ∃ items', g (.list items) = .list items'
  item_dict : ∀ entries, g (.dict entries) = f (.dict entries)

theorem reorders_sortKeys : Reorders (Json.sortKeys (α := α)) Json.sortKeys where
  null := rfl
  prim _ := rfl
  list := Json.sortKeys_list
  dict := Json.sortKeys_dict
  item_null := rfl
  item_prim _ := rfl
  item_list items := ⟨_, Json.sortKeys_list items⟩
  item_dict _ := rfl

theorem reorders_ordered : Reorders (orderedValue (α := α)) orderedItem where
  null := rfl
  prim _ := rfl
  list items := congrArg Json.list (orderedItems_eq items)
  dict entries := congrArg Json.dict (canonicalOrderRecursive_eq entries)
  item_null := rfl
  item_prim _ := rfl
  item_list items := ⟨items, rfl⟩
  item_dict _ := rfl

section
variable {f g : Json α → Json α} (hf : Reorders f g)
include hf

theorem map_nonEmptyDict (entries : List (String × Json α)) :
    (nonEmptyDict entries).map f
      = nonEmptyDict ((sortedAsc Prod.fst entries).map fun e => (e.1, f e.2)) := by
  have hempty : ((sortedAsc Prod.fst entries).map fun e => (e.1, f e.2)).isEmpty
      = entries.isEmpty := by
    rw [List.isEmpty_map, Bool.eq_iff_iff, List.isEmpty_iff, List.isEmpty_iff]
    constructor
    · intro h
      exact (h ▸ perm_sortedAsc Prod.fst entries).nil_eq.symm
    · intro h
      rw [h]
      rfl
  unfold nonEmptyDict
  rw [hempty]
  by_cases h : entries.isEmpty = true
  · rw [if_pos h, if_pos h]
    rfl
  · rw [if_neg h, if_neg h, Option.map_some, hf.dict]

theorem map_nonEmptyDict_item (entries : List (String × Json α)) :
    (nonEmptyDict entries).map g = (nonEmptyDict entries).map f := by
  unfold nonEmptyDict
  by_cases h : entries.isEmpty = true
  · rw [if_pos h]
    rfl
  · rw [if_neg h, Option.map_some, Option.map_some, hf.item_dict]

theorem keptItem_reordered {j : Json α} (h : (keptValue j).map f = keptValue (f j)) :
    (keptItem j).map g = keptItem (g j) := by
  cases j with
  | null => rw [hf.item_null]; rfl
  | prim a =>
    rw [hf.item_prim]
    exact congrArg some (hf.item_prim a)
  | list items =>
    obtain ⟨items', hitems⟩ := hf.item_list items
    rw [hitems]
    exact congrArg some hitems
  | dict entries =>
    rw [hf.item_dict, hf.dict, keptItem, map_nonEmptyDict_item hf]
    rw [hf.dict] at h
    exact h

omit hf in
theorem removeNullsRecursive_reordered {entries : List (String × Json α)}
    (h : ∀ e ∈ entries, (keptValue e.2).map f = keptValue (f e.2)) :
    removeNullsRecursive ((sortedAsc Prod.fst entries).map fun e => (e.1, f e.2))
      = (sortedAsc Prod.fst (removeNullsRecursive entries)).map fun e => (e.1, f e.2) := by
  have hsorted : sortedAsc Prod.fst
        (entries.filterMap fun e => (keptValue e.2).map fun j => (e.1, j))
      = (sortedAsc Prod.fst entries).filterMap fun e => (keptValue e.2).map fun j => (e.1, j) := by
    apply sortedAsc_filterMap
    intro e e' he
    obtain ⟨j, -, rfl⟩ := Option.map_eq_some_iff.mp he
    rfl
  rw [removeNullsRecursive_eq, removeNullsRecursive_eq, hsorted, List.filterMap_map,
    List.map_filterMap]
  apply List.filterMap_congr
  intro e he
  have hmem : e ∈ entries := (perm_sortedAsc Prod.fst entries).mem_iff.mp he
  show (keptValue (f e.2)).map (fun j => (e.1, j)) = _
  rw [← h e hmem, Option.map_map, Option.map_map]
  rfl

theorem keptValue_reordered (j : Json α) : (keptValue j).map f = keptValue (f j) := by
  induction j with
  | null => rw [hf.null]; rfl
  | prim a =>
    rw [hf.prim]
    exact congrArg some (hf.prim a)
  | list items ih =>
    rw [hf.list, keptValue, keptValue, Option.map_some, hf.list, removeNullItems_eq,
      removeNullItems_eq, List.map_filterMap, List.filterMap_map]
    refine congrArg (fun l => some (Json.list l)) (List.filterMap_congr fun j hj => ?_)
    exact keptItem_reordered hf (ih j hj)
  | dict entries ih =>
    rw [hf.dict, keptValue, keptValue, map_nonEmptyDict hf,
      removeNullsRecursive_reordered ih]

end

/-! ## Entries without a value -/

mutual

def nestedListEntries : Json α → List (String × Json α)
  | .list items => nestedListEntriesOfItems items
  | .dict entries => nestedListEntriesOfDict entries
  | _ => []

def nestedListEntriesOfItems : List (Json α) → List (String × Json α)
  | [] => []
  | .list items :: rest => (Json.list items).allEntries ++ nestedListEntriesOfItems rest
  | j :: rest => nestedListEntries j ++ nestedListEntriesOfItems rest

def nestedListEntriesOfDict : List (String × Json α) → List (String × Json α)
  | [] => []
  | (_, j) :: rest => nestedListEntries j ++ nestedListEntriesOfDict rest

end

/-- No dict inside a list of lists has an entry without a value. -/
def NestedNullFree (j : Json α) : Prop := ∀ e ∈ nestedListEntries j, e.2.isNull = false

def ItemNullFree : Json α → Prop
  | .list items => (Json.list items).NullFree
  | j => NestedNullFree j

instance (j : Json α) : Decidable (NestedNullFree j) :=
  inferInstanceAs (Decidable (∀ e ∈ nestedListEntries j, e.2.isNull = false))

theorem nestedNullFree_list {items : List (Json α)} :
    NestedNullFree (.list items) ↔ ∀ j ∈ items, ItemNullFree j := by
  unfold NestedNullFree
  rw [nestedListEntries]
  induction items with
  | nil => simp [nestedListEntriesOfItems]
  | cons j rest ih =>
    rw [List.forall_mem_cons, ← ih]
    cases j <;> rw [nestedListEntriesOfItems, List.forall_mem_append] <;> first | rfl | simp

variable {entries : List (String × Json α)}

theorem nestedNullFree_dict :
    NestedNullFree (.dict entries) ↔ ∀ e ∈ entries, NestedNullFree e.2 := by
  unfold NestedNullFree
  rw [nestedListEntries]
  induction entries with
  | nil => simp [nestedListEntriesOfDict]
  | cons e rest ih =>
    rw [List.forall_mem_cons, ← ih, nestedListEntriesOfDict, List.forall_mem_append]

theorem keptValue_dropNullEntries {j : Json α} (h : NestedNullFree j) :
    keptValue j.dropNullEntries = keptValue j := by
  induction j with
  | null => rfl
  | prim a => rfl
  | list items ih =>
    rw [nestedNullFree_list] at h
    rw [Json.dropNullEntries_list, keptValue, keptValue, removeNullItems_eq, removeNullItems_eq,
      List.filterMap_map]
    refine congrArg (fun l => some (Json.list l)) (List.filterMap_congr fun j hj => ?_)
    show keptItem j.dropNullEntries = keptItem j
    have hj' := h j hj
    cases j with
    | list inner => rw [Json.dropNullEntries_of_nullFree hj']
    | _ => exact ih _ hj hj'
  | dict entries ih =>
    rw [nestedNullFree_dict] at h
    rw [Json.dropNullEntries_dict, keptValue, keptValue, removeNullsRecursive_eq,
      removeNullsRecursive_eq, List.filterMap_map, List.filterMap_filter]
    refine congrArg nonEmptyDict (List.filterMap_congr fun e he => ?_)
    show (if !e.2.isNull then (keptValue e.2.dropNullEntries).map _ else none) = _
    rw [ih e he (h e he)]
    cases hnull : e.2 <;> simp [Json.isNull, keptValue]

/-! ## What comes out of the first pass -/

theorem nonEmptyDict_eq_some {kept : Json α} (h : nonEmptyDict entries = some kept) :
    kept = .dict entries := by
  unfold nonEmptyDict at h
  by_cases hempty : entries.isEmpty = true
  · rw [if_pos hempty] at h
    exact nomatch h
  · rw [if_neg hempty] at h
    exact (Option.some.inj h).symm

theorem forall_nonEmptyDict_iff : (∀ kept, nonEmptyDict entries = some kept → kept.NullFree) ↔
      (Json.dict entries).NullFree := by
  constructor
  · intro h
    by_cases hempty : entries.isEmpty = true
    · rw [List.isEmpty_iff.mp hempty, Json.nullFree_dict]
      simp
    · exact h _ (if_neg hempty)
  · intro h kept hkept
    rw [nonEmptyDict_eq_some hkept]
    exact h

theorem isNull_of_keptValue {j kept : Json α} (h : keptValue j = some kept) :
    kept.isNull = false := by
  cases j with
  | null => exact nomatch h
  | prim a => rw [← Option.some.inj h]; rfl
  | list items => rw [← Option.some.inj h]; rfl
  | dict entries => rw [nonEmptyDict_eq_some h]; rfl

theorem nullFree_removeNullsRecursive_iff : (Json.dict (removeNullsRecursive entries)).NullFree ↔
      ∀ e ∈ entries, ∀ kept, keptValue e.2 = some kept → kept.NullFree := by
  rw [Json.nullFree_dict, removeNullsRecursive_eq]
  constructor
  · intro h e he kept hkept
    exact (h (e.1, kept) (List.mem_filterMap.mpr ⟨e, he, by rw [hkept]; rfl⟩)).2
  · intro h e' he'
    obtain ⟨e, he, hmap⟩ := List.mem_filterMap.mp he'
    obtain ⟨kept, hkept, rfl⟩ := Option.map_eq_some_iff.mp hmap
    exact ⟨isNull_of_keptValue hkept, h e he kept hkept⟩

/-- What is kept of a value has no null, unless a dict in a list of lists has one. -/
theorem keptValue_nullFree_iff (j : Json α) :
    (∀ kept, keptValue j = some kept → kept.NullFree) ↔ NestedNullFree j := by
  have hleaf : ∀ i : Json α, nestedListEntries i = [] → NestedNullFree i := by
    intro i hi e he
    rw [hi] at he
    exact absurd he List.not_mem_nil
  induction j with
  | null => exact iff_of_true (fun kept h => nomatch h) (hleaf _ rfl)
  | prim a =>
    refine iff_of_true (fun kept h => ?_) (hleaf _ rfl)
    rw [← Option.some.inj h]
    exact Json.nullFree_prim a
  | list items ih =>
    have hitem : ∀ i ∈ items,
        (∀ kept, keptItem i = some kept → kept.NullFree) ↔ ItemNullFree i := by
      intro i hi
      cases i with
      | list inner =>
        exact ⟨fun h => h _ rfl, fun h kept hkept => Option.some.inj hkept ▸ h⟩
      | _ => exact ih _ hi
    have hkept : (∀ kept, keptValue (.list items) = some kept → kept.NullFree) ↔
        ∀ i ∈ items, ∀ kept, keptItem i = some kept → kept.NullFree := by
      rw [keptValue, removeNullItems_eq]
      constructor
      · intro h i hi kept hkept
        exact Json.nullFree_list.mp (h _ rfl) kept (List.mem_filterMap.mpr ⟨i, hi, hkept⟩)
      · intro h kept hkept
        rw [← Option.some.inj hkept, Json.nullFree_list]
        intro i' hi'
        obtain ⟨i, hi, hi'⟩ := List.mem_filterMap.mp hi'
        exact h i hi i' hi'
    rw [hkept, nestedNullFree_list]
    exact forall₂_congr hitem
  | dict entries ih =>
    rw [keptValue, forall_nonEmptyDict_iff, nullFree_removeNullsRecursive_iff,
      nestedNullFree_dict]
    exact forall₂_congr ih

/-! ## The passes twice -/

theorem filterMap_filterMap_self {β : Type} {f : β → Option β} {l : List β}
    (h : ∀ a ∈ l, ∀ b, f a = some b → f b = some b) :
    (l.filterMap f).filterMap f = l.filterMap f := by
  rw [List.filterMap_filterMap]
  apply List.filterMap_congr
  intro a ha
  cases hf : f a with
  | none => rfl
  | some b => exact h a ha b hf

theorem removeNullsRecursive_self
    (h : ∀ e ∈ entries, ∀ kept, keptValue e.2 = some kept → keptValue kept = some kept) :
    removeNullsRecursive (removeNullsRecursive entries) = removeNullsRecursive entries := by
  rw [removeNullsRecursive_eq, removeNullsRecursive_eq]
  apply filterMap_filterMap_self
  intro e he e' he'
  obtain ⟨kept, hkept, rfl⟩ := Option.map_eq_some_iff.mp he'
  rw [h e he kept hkept]
  rfl

theorem keptValue_of_keptValue (j : Json α) :
    ∀ kept, keptValue j = some kept → keptValue kept = some kept := by
  induction j with
  | null => exact fun kept h => nomatch h
  | prim a =>
    intro kept h
    rw [← Option.some.inj h]
    rfl
  | list items ih =>
    intro kept h
    have hitem : ∀ i ∈ items, ∀ kept, keptItem i = some kept → keptItem kept = some kept := by
      intro i hi kept hkept
      cases i with
      | list inner => rw [← Option.some.inj hkept]; rfl
      | null => exact nomatch hkept
      | prim a => rw [← Option.some.inj hkept]; rfl
      | dict entries =>
        have hdict := ih _ hi kept hkept
        rw [nonEmptyDict_eq_some hkept] at hdict ⊢
        exact hdict
    rw [← Option.some.inj h, keptValue, removeNullItems_eq, removeNullItems_eq,
      filterMap_filterMap_self hitem]
  | dict entries ih =>
    intro kept h
    have hkept := nonEmptyDict_eq_some h
    rw [hkept] at h ⊢
    rw [keptValue, removeNullsRecursive_self ih]
    exact h

/-- Reordering is settled by the order of the keys. -/
theorem Reorders.apply_orderedValue {f g : Json α → Json α} (hf : Reorders f g) (j : Json α) :
    f (orderedValue j) = f j := by
  induction j with
  | null => rfl
  | prim a => rfl
  | list items ih =>
    rw [reorders_ordered.list, hf.list, hf.list, List.map_map]
    refine congrArg Json.list (List.map_congr_left fun i hi => ?_)
    cases i with
    | dict entries =>
      show g (orderedValue (.dict entries)) = g (.dict entries)
      rw [hf.item_dict, ← ih _ hi, reorders_ordered.dict, hf.item_dict]
    | _ => rfl
  | dict entries ih =>
    rw [reorders_ordered.dict, hf.dict, hf.dict, Json.sortedAsc_mapValues, sortedAsc_sortedAsc,
      List.map_map]
    refine congrArg Json.dict (List.map_congr_left fun e he => ?_)
    have hmem : e ∈ entries := (perm_sortedAsc Prod.fst entries).mem_iff.mp he
    exact congrArg (Prod.mk e.1) (ih e hmem)

theorem nullFree_orderedValue_iff (j : Json α) : (orderedValue j).NullFree ↔ j.NullFree := by
  have hf := reorders_ordered (α := α)
  induction j with
  | null => rfl
  | prim a => rfl
  | list items ih =>
    rw [hf.list, Json.nullFree_list, Json.nullFree_list, List.forall_mem_map]
    refine forall₂_congr fun i hi => ?_
    cases i with
    | list inner => rfl
    | _ => exact ih _ hi
  | dict entries ih =>
    have hnull : ∀ i : Json α, (orderedValue i).isNull = i.isNull := by
      intro i
      cases i <;> rfl
    rw [hf.dict, Json.nullFree_dict, Json.nullFree_dict, List.forall_mem_map]
    constructor
    · intro h e he
      have hsorted := h e ((perm_sortedAsc Prod.fst entries).mem_iff.mpr he)
      rw [hnull] at hsorted
      exact ⟨hsorted.1, (ih e he).mp hsorted.2⟩
    · intro h e he
      have hmem : e ∈ entries := (perm_sortedAsc Prod.fst entries).mem_iff.mp he
      rw [hnull]
      exact ⟨(h e hmem).1, (ih e hmem).mpr (h e hmem).2⟩

/-- The passes commute, and with any settings what is normalized stays as it is. -/
theorem normalizedData_stable (config : ModelContractNormalizationConfig)
    (contract : List (String × Json α)) :
    removeNullsRecursive (canonicalOrderRecursive contract)
        = canonicalOrderRecursive (removeNullsRecursive contract) ∧
      normalizedData config (normalizedData config contract) = normalizedData config contract := by
  have hcommute (entries : List (String × Json α)) :
      removeNullsRecursive (canonicalOrderRecursive entries)
        = canonicalOrderRecursive (removeNullsRecursive entries) := by
    rw [canonicalOrderRecursive_eq, canonicalOrderRecursive_eq,
      removeNullsRecursive_reordered fun e _ => keptValue_reordered reorders_ordered e.2]
  have hordered (entries : List (String × Json α)) :
      canonicalOrderRecursive (canonicalOrderRecursive entries) = canonicalOrderRecursive entries :=
    Json.dict.inj (reorders_ordered.apply_orderedValue (.dict entries))
  have hkept : removeNullsRecursive (removeNullsRecursive contract)
      = removeNullsRecursive contract :=
    removeNullsRecursive_self fun e _ => keptValue_of_keptValue e.2
  refine ⟨hcommute contract, ?_⟩
  unfold normalizedData
  cases config.removeNulls <;> cases config.sortKeys <;> simp [hcommute, hordered, hkept]

/-! ## The data of a contract -/

/-- Two contracts that differ in the order of entries and in entries without a value only, at
any depth. -/
def SameData (contract contract' : List (String × Json α)) : Prop :=
  (Json.dict contract).dropNullEntries.sortKeys = (Json.dict contract').dropNullEntries.sortKeys

theorem normalizedData_eq {config : ModelContractNormalizationConfig}
    (hnulls : config.removeNulls = true) (hkeys : config.sortKeys = true)
    (contract : List (String × Json α)) :
    Json.dict (normalizedData config contract)
      = orderedValue (.dict (removeNullsRecursive contract)) := by
  unfold normalizedData
  rw [if_pos hkeys, if_pos hnulls]
  rfl

theorem sortKeys_removeNullsRecursive {contract : List (String × Json α)}
    (h : NestedNullFree (.dict contract)) :
    (Json.dict (removeNullsRecursive contract)).sortKeys
      = (((keptValue (Json.dict contract).dropNullEntries.sortKeys).getD (.dict []))) := by
  rw [← keptValue_reordered reorders_sortKeys, keptValue_dropNullEntries h, keptValue]
  unfold nonEmptyDict
  by_cases hempty : (removeNullsRecursive contract).isEmpty = true
  · rw [if_pos hempty, List.isEmpty_iff.mp hempty]
    rfl
  · rw [if_neg hempty]
    rfl

section
variable (sha256 : String → String) (leaf : α → Except PyException String)
  (contractType : String) (version : Except PyException ModelContractVersion)
  (config : ModelContractNormalizationConfig) (includeNormalizedContent : Bool)

/-- The normalized form is reached, and has no entry without a value. -/
structure Normalized (contract : List (String × Json α)) : Prop where
  stable : normalizedData config (normalizedData config contract) = normalizedData config contract
  nullFree : (Json.dict (normalizedData config contract)).NullFree

/-- Two contracts have the same text and the same fingerprint, and a normalized form. -/
structure Canonical (contract contract' : List (String × Json α)) : Prop where
  sameText : normalizeContract leaf contractType contract config
    = normalizeContract leaf contractType contract' config
  sameFingerprint :
    computeContractFingerprint sha256 leaf contractType version contract config
        includeNormalizedContent
      = computeContractFingerprint sha256 leaf contractType version contract' config
        includeNormalizedContent
  left : Normalized config contract
  right : Normalized config contract'

variable {config} (hnulls : config.removeNulls = true) (hkeys : config.sortKeys = true)
include hnulls hkeys

variable (contract : List (String × Json α))

theorem normalizedData_normalizedData :
    normalizedData config (normalizedData config contract) = normalizedData config contract := by
  apply Json.dict.inj
  rw [normalizedData_eq hnulls hkeys, normalizedData_eq hnulls hkeys]
  have hordered : Json.dict (removeNullsRecursive (normalizedData config contract))
      = orderedValue (.dict (removeNullsRecursive contract)) := by
    have hdata : normalizedData config contract
        = (sortedAsc Prod.fst (removeNullsRecursive contract)).map
          fun e => (e.1, orderedValue e.2) := by
      apply Json.dict.inj
      rw [normalizedData_eq hnulls hkeys, reorders_ordered.dict]
    rw [hdata, removeNullsRecursive_reordered fun e _ => keptValue_reordered reorders_ordered e.2,
      removeNullsRecursive_self fun e _ => keptValue_of_keptValue e.2, reorders_ordered.dict]
  rw [hordered, reorders_ordered.apply_orderedValue]

theorem nullFree_normalizedData_iff :
    (Json.dict (normalizedData config contract)).NullFree ↔ NestedNullFree (.dict contract) := by
  rw [normalizedData_eq hnulls hkeys, nullFree_orderedValue_iff, ← keptValue_nullFree_iff,
    keptValue, forall_nonEmptyDict_iff]

theorem normalizeContract_congr {contract contract' : List (String × Json α)}
    (hdata : SameData contract contract') (h : NestedNullFree (.dict contract))
    (h' : NestedNullFree (.dict contract')) :
    normalizeContract leaf contractType contract config
      = normalizeContract leaf contractType contract' config := by
  have hsorted : (Json.dict (normalizedData config contract)).sortKeys
      = (Json.dict (normalizedData config contract')).sortKeys := by
    rw [normalizedData_eq hnulls hkeys, normalizedData_eq hnulls hkeys,
      reorders_sortKeys.apply_orderedValue, reorders_sortKeys.apply_orderedValue,
      sortKeys_removeNullsRecursive h, sortKeys_removeNullsRecursive h',
      hdata]
  have htext := fun style => Json.dumps_congr leaf style hsorted
  unfold normalizeContract
  simp only [htext]

/-- The normalization is canonical for two contracts with the same data if and only if neither
has an entry without a value in a dict inside a list of lists. -/
theorem canonical_iff {contract contract' : List (String × Json α)}
    (hdata : SameData contract contract') :
    Canonical sha256 leaf contractType version config includeNormalizedContent contract contract'
      ↔ NestedNullFree (.dict contract) ∧ NestedNullFree (.dict contract') := by
  constructor
  · intro h
    exact ⟨(nullFree_normalizedData_iff hnulls hkeys contract).mp h.left.nullFree,
      (nullFree_normalizedData_iff hnulls hkeys contract').mp h.right.nullFree⟩
  · intro ⟨h, h'⟩
    have htext := normalizeContract_congr leaf contractType hnulls hkeys hdata h h'
    refine ⟨htext, ?_, ⟨normalizedData_normalizedData hnulls hkeys contract,
      (nullFree_normalizedData_iff hnulls hkeys contract).mpr h⟩,
      ⟨normalizedData_normalizedData hnulls hkeys contract',
      (nullFree_normalizedData_iff hnulls hkeys contract').mpr h'⟩⟩
    unfold computeContractFingerprint
    rw [htext]

end

/-- A contract whose owner is `null`, and the same without an owner. -/
theorem canonical_iff_owner :
    let contract : List (String × Json StrictJsonPrimitive) :=
      [("owner", .null), ("name", .prim (.str "grid"))]
    let contract' : List (String × Json StrictJsonPrimitive) := [("name", .prim (.str "grid"))]
    SameData contract contract' ∧
      (Canonical id (StrictJsonPrimitive.text fun _ => "0.0") "ModelContractCompute"
        (.ok ⟨1, 0, 0⟩) {} true contract contract' ↔
        NestedNullFree (.dict contract) ∧ NestedNullFree (.dict contract')) :=
  ⟨rfl, canonical_iff id _ _ _ true rfl rfl rfl⟩

/-! ## A matrix with an empty cell -/

def matrixContract : List (String × Json StrictJsonPrimitive) :=
  [("matrix", .list [.list [.dict [("cell", .null)]]])]

/-- The same data, the entry left out. -/
def matrixContract' : List (String × Json StrictJsonPrimitive) :=
  [("matrix", .list [.list [.dict []]])]

/-- The entry is left where it is, and shows in the text. -/
theorem matrixContract_not_canonical :
    SameData matrixContract matrixContract' ∧
      normalizeContract (StrictJsonPrimitive.text fun _ => "0.0") "ModelContractCompute"
        matrixContract {} = .ok "\x7b\"matrix\":[[\x7b\"cell\":null\x7d]]\x7d" ∧
      normalizeContract (StrictJsonPrimitive.text fun _ => "0.0") "ModelContractCompute"
        matrixContract' {} = .ok "\x7b\"matrix\":[[\x7b\x7d]]\x7d" ∧
      ¬ Canonical id (StrictJsonPrimitive.text fun _ => "0.0") "ModelContractCompute"
        (.ok ⟨1, 0, 0⟩) {} true matrixContract matrixContract' := by
  have hnull : ¬ (Json.dict (normalizedData {} matrixContract)).NullFree := by decide
  exact ⟨rfl, rfl, rfl, fun h => hnull h.left.nullFree⟩

end OmnibaseCore.Contracts
