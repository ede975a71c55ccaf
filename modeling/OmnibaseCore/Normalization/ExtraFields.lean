import OmnibaseCore.Normalization.Normalizer
import OmnibaseCore.Python.Memory

/-!
# Folding unknown fields into the annotations

What `normalize_misc_extra_fields` keeps of a contract, on values and on the objects in memory
(`normalizeMiscExtraFieldsAt`). The input is left as it is, but an unknown field takes the place of
an annotation with its name, and annotations that are no mapping are given up:
`foldsWithoutLoss_iff`.
-/

namespace OmnibaseCore.Normalization

variable {α : Type}

/-! ## Objects -/

def existingItems (memory : Memory α) (items : List (String × Ref α)) : List (String × Ref α) :=
  match items.lookup "annotations" with
  | some (.address n) => (memory.entries n).getD []
  | _ => []

/-- `normalize_misc_extra_fields` of the dictionary at an address: the memory after the call and
the address that it returns. -/
def normalizeMiscExtraFieldsAt (knownKeys : List String) (memory : Memory α) (raw : ℕ) :
    Option (Memory α × ℕ) := do
  let items ← memory.entries raw
  let extra := items.filter fun e => e.1 ∉ knownKeys
  if extra = [] then
    -- `dict(raw)` is a new object
    return (memory ++ [.dict items], memory.length)
  let known := items.filter fun e => e.1 ∈ knownKeys
  let result := memory.length
  let annotations := memory.length + 1
  let memory := memory ++ [.dict known, .dict (existingItems memory items)]
  let memory ← memory.update annotations extra
  let memory ← memory.setItem result "annotations" (.address annotations)
  return (memory, result)

def StoredAt (memory : Memory α) (raw : PyDict String (Json α)) (n : ℕ) : Prop :=
  Stored (fun n => memory[n]?) (.dict raw.entries) (.address n)

/-- A call leaves every object as it is, and returns a dictionary for the folded contract. -/
def LeavesInput (knownKeys : List String) (raw : PyDict String (Json α)) : Prop :=
  ∀ (memory : Memory α) (n : ℕ), StoredAt memory raw n →
    ∃ memory' n', normalizeMiscExtraFieldsAt knownKeys memory n = some (memory', n') ∧
      memory <+: memory' ∧ StoredAt memory' (normalizeMiscExtraFields knownKeys raw) n'

/-! ## Data -/

/-- What is kept of a contract. -/
structure KeepsData (knownKeys : List String) (raw result : PyDict String (Json α)) : Prop where
  /-- An unknown field is found among the annotations -/
  unknown : ∀ k v, k ∉ knownKeys → raw.get k = some v →
    ∃ annotations, result.get "annotations" = some (.dict annotations) ∧
      annotations.lookup k = some v
  /-- So is every entry of the annotations that were there -/
  entries : ∀ existing, raw.get "annotations" = some (.dict existing) →
    ∀ k v, existing.lookup k = some v →
      ∃ annotations, result.get "annotations" = some (.dict annotations) ∧
        annotations.lookup k = some v
  /-- Annotations that are no mapping stay what they are -/
  other : "annotations" ∈ knownKeys → ∀ v, raw.get "annotations" = some v → v ≠ .null →
    (∀ existing, v ≠ .dict existing) → result.get "annotations" = some v
  known : ∀ k ∈ knownKeys, k ≠ "annotations" → result.get k = raw.get k

def FoldsWithoutLoss (knownKeys : List String) (raw : PyDict String (Json α)) : Prop :=
  KeepsData knownKeys raw (normalizeMiscExtraFields knownKeys raw) ∧ LeavesInput knownKeys raw

/-- There is an unknown field. -/
def HasExtra (knownKeys : List String) (raw : PyDict String (Json α)) : Prop :=
  ∃ k v, k ∉ knownKeys ∧ raw.get k = some v

/-- The annotations have room for the unknown fields: they are a mapping, or nothing, and hold no
other value under the name of an unknown field. -/
structure HasRoom (knownKeys : List String) (raw : PyDict String (Json α)) : Prop where
  mapping : "annotations" ∈ knownKeys → ∀ v, raw.get "annotations" = some v →
    v = .null ∨ ∃ existing, v = .dict existing
  agree : ∀ existing, raw.get "annotations" = some (.dict existing) →
    ∀ k ∉ knownKeys, ∀ v w, existing.lookup k = some v → raw.get k = some w → v = w

/-! ## Values -/

section
variable {knownKeys : List String} {raw : PyDict String (Json α)}

theorem normalizeMiscExtraFields_of_known
    (h : ∀ k, raw.get k ≠ none → k ∈ knownKeys) :
    normalizeMiscExtraFields knownKeys raw = raw := by
  unfold normalizeMiscExtraFields
  dsimp only
  rw [if_pos]
  rw [PyDict.filterKeys_eq_nil_iff]
  intro k hk
  simp [h k hk]

theorem normalizeMiscExtraFields_of_not_hasExtra (h : ¬ HasExtra knownKeys raw) :
    normalizeMiscExtraFields knownKeys raw = raw := by
  apply normalizeMiscExtraFields_of_known
  intro k hk
  obtain ⟨v, hv⟩ := Option.ne_none_iff_exists'.mp hk
  by_contra hknown
  exact h ⟨k, v, hknown, hv⟩

theorem get_normalizeMiscExtraFields (knownKeys : List String) (raw : PyDict String (Json α))
    {k : String} (hk : k ≠ "annotations") :
    (normalizeMiscExtraFields knownKeys raw).get k = if k ∈ knownKeys then raw.get k else none := by
  unfold normalizeMiscExtraFields
  dsimp only
  split_ifs with hextra hknown hknown
  · rfl
  · -- without extra fields an unknown field is not there
    rw [PyDict.filterKeys_eq_nil_iff] at hextra
    by_contra hget
    have hmem := hextra k hget
    simp [hknown] at hmem
  · rw [PyDict.get_setItem, if_neg hk, PyDict.get_filterKeys, if_pos (by simpa using hknown)]
  · rw [PyDict.get_setItem, if_neg hk, PyDict.get_filterKeys, if_neg (by simpa using hknown)]

theorem get_annotations (h : HasExtra knownKeys raw) :
    (normalizeMiscExtraFields knownKeys raw).get "annotations" = some (.dict
      (Dict.update (existingAnnotations raw) (raw.filterKeys fun k => k ∉ knownKeys).entries)) := by
  have hextra : (raw.filterKeys fun k => k ∉ knownKeys).entries ≠ [] := by
    rw [ne_eq, PyDict.filterKeys_eq_nil_iff]
    intro hnone
    obtain ⟨k, v, hk, hv⟩ := h
    have hknown := hnone k (by simp [hv])
    simp [hk] at hknown
  unfold normalizeMiscExtraFields
  dsimp only
  rw [if_neg hextra, PyDict.get_setItem, if_pos rfl]

theorem lookup_annotations (k : String) :
    (Dict.update (existingAnnotations raw)
        (raw.filterKeys fun k => k ∉ knownKeys).entries).lookup k =
      if k ∈ knownKeys then (existingAnnotations raw).lookup k
      else (raw.get k).or ((existingAnnotations raw).lookup k) := by
  rw [Dict.lookup_update (PyDict.nodup_keys _)]
  have hget := raw.get_filterKeys (fun k => k ∉ knownKeys) k
  unfold PyDict.get at hget ⊢
  rw [hget]
  by_cases hk : k ∈ knownKeys <;> simp [hk]

theorem existingAnnotations_of_dict {existing : List (String × Json α)}
    (h : raw.get "annotations" = some (.dict existing)) : existingAnnotations raw = existing := by
  unfold existingAnnotations
  rw [h]

theorem hasRoom_of_keepsData (hextra : HasExtra knownKeys raw)
    (h : KeepsData knownKeys raw (normalizeMiscExtraFields knownKeys raw)) :
    HasRoom knownKeys raw where
  mapping hknown v hv := by
    by_contra hnot
    push Not at hnot
    have hsame := h.other hknown v hv hnot.1 hnot.2
    rw [get_annotations hextra] at hsame
    exact hnot.2 _ (Option.some.inj hsame).symm
  agree existing hexisting k hk v w hv hw := by
    obtain ⟨annotations, hannotations, hlookup⟩ := h.entries existing hexisting k v hv
    rw [get_annotations hextra, Option.some.injEq, Json.dict.injEq] at hannotations
    -- the unknown field has taken the place of the annotation
    rw [← hannotations, lookup_annotations, if_neg hk, hw, Option.some_or] at hlookup
    exact (Option.some.inj hlookup).symm

theorem keepsData_of_not_hasExtra (h : ¬ HasExtra knownKeys raw) :
    KeepsData knownKeys raw (normalizeMiscExtraFields knownKeys raw) := by
  rw [normalizeMiscExtraFields_of_not_hasExtra h]
  refine ⟨?_, ?_, fun _ _ hv _ _ => hv, fun _ _ _ => rfl⟩
  · intro k v hk hv
    exact absurd ⟨k, v, hk, hv⟩ h
  · intro existing hexisting k v hv
    exact ⟨existing, hexisting, hv⟩

theorem keepsData_of_hasRoom (hextra : HasExtra knownKeys raw) (h : HasRoom knownKeys raw) :
    KeepsData knownKeys raw (normalizeMiscExtraFields knownKeys raw) where
  unknown k v hk hv := by
    refine ⟨_, get_annotations hextra, ?_⟩
    rw [lookup_annotations, if_neg hk, hv, Option.some_or]
  entries existing hexisting k v hv := by
    refine ⟨_, get_annotations hextra, ?_⟩
    rw [lookup_annotations, existingAnnotations_of_dict hexisting]
    split_ifs with hk
    · exact hv
    · cases hw : raw.get k with
      | none => exact hv
      | some w =>
        rw [h.agree existing hexisting k hk v w hv hw]
        rfl
  other hknown v hv hnull hdict := by
    rcases h.mapping hknown v hv with hv | ⟨existing, hv⟩
    · exact absurd hv hnull
    · exact absurd hv (hdict existing)
  known k hk hne := by rw [get_normalizeMiscExtraFields knownKeys raw hne, if_pos hk]

/-! ## Objects -/

theorem storedEntries_existingItems {memory : Memory α} {items : List (String × Ref α)}
    (h : StoredEntries (fun n => memory[n]?) raw.entries items) :
    StoredEntries (fun n => memory[n]?) (existingAnnotations raw)
      (existingItems memory items) := by
  unfold existingAnnotations existingItems
  cases hget : raw.get "annotations" with
  | none =>
    rw [h.lookup_of_none hget]
    exact .nil
  | some v =>
    obtain ⟨r, hlookup, hr⟩ := h.lookup_of_some hget
    rw [hlookup]
    cases v with
    | null =>
      rw [show r = .null from hr]
      exact .nil
    | prim a =>
      rw [show r = .prim a from hr]
      exact .nil
    | list values =>
      obtain ⟨n, refs, rfl, hn, -⟩ := stored_list_iff.mp hr
      dsimp only at hn ⊢
      unfold Memory.entries
      rw [hn]
      exact .nil
    | dict entries =>
      obtain ⟨n, refs, rfl, hn, hrefs⟩ := stored_dict_iff.mp hr
      dsimp only
      rw [Memory.entries_eq_some_iff.mpr hn]
      exact hrefs

/-- A call makes new objects and changes none that was there. -/
theorem leavesInput (knownKeys : List String) (raw : PyDict String (Json α)) :
    LeavesInput knownKeys raw := by
  intro memory n hstored
  obtain ⟨n', items, hn', hitems, hentries⟩ := stored_dict_iff.mp hstored
  rw [Ref.address.injEq] at hn'
  subst hn'
  have hextra : StoredEntries (fun n => memory[n]?) (raw.filterKeys fun k => k ∉ knownKeys).entries
      (items.filter fun e => e.1 ∉ knownKeys) := hentries.filter fun k => k ∉ knownKeys
  have hknown : StoredEntries (fun n => memory[n]?) (raw.filterKeys fun k => k ∈ knownKeys).entries
      (items.filter fun e => e.1 ∈ knownKeys) := hentries.filter fun k => k ∈ knownKeys
  have hnil : (items.filter fun e => e.1 ∉ knownKeys) = [] ↔
      (raw.filterKeys fun k => k ∉ knownKeys).entries = [] := by
    rw [← List.length_eq_zero_iff, ← List.length_eq_zero_iff, hextra.length_eq]
  unfold normalizeMiscExtraFieldsAt normalizeMiscExtraFields
  rw [Memory.entries_eq_some_iff.mpr hitems]
  dsimp only [Option.bind_eq_bind, Option.bind_some]
  by_cases hempty : (items.filter fun e => e.1 ∉ knownKeys) = []
  · rw [if_pos hempty, if_pos (hnil.mp hempty)]
    refine ⟨_, _, rfl, List.prefix_append _ _, ?_⟩
    exact stored_dict_iff.mpr ⟨memory.length, items, rfl, by simp, hentries.append _⟩
  · rw [if_neg hempty, if_neg (mt hnil.mpr hempty)]
    -- the annotations are the last object, the result the one before
    have hlast : (memory ++ [.dict (items.filter fun e => e.1 ∈ knownKeys),
        .dict (existingItems memory items)])[memory.length + 1]? =
          some (.dict (existingItems memory items)) := by simp
    have hfirst : ((memory ++ [Object.dict (items.filter fun e => e.1 ∈ knownKeys),
        Object.dict (existingItems memory items)]).set (memory.length + 1) (.dict (Dict.update
          (existingItems memory items) (items.filter fun e => e.1 ∉ knownKeys))))[memory.length]? =
            some (.dict (items.filter fun e => e.1 ∈ knownKeys)) := by
      rw [List.getElem?_set_ne (by omega)]
      simp
    rw [Memory.update_eq hlast, Option.bind_some, Memory.setItem_eq hfirst, Option.bind_some,
      List.set_append_right _ _ (by omega), List.set_append_right _ _ le_rfl]
    refine ⟨_, _, rfl, List.prefix_append _ _, ?_⟩
    have hannotations := ((storedEntries_existingItems hentries).append
      [.dict (Dict.setItem (items.filter fun e => e.1 ∈ knownKeys)
          ("annotations", .address (memory.length + 1))),
        .dict (Dict.update (existingItems memory items)
          (items.filter fun e => e.1 ∉ knownKeys))]).update (hextra.append _)
    refine stored_dict_iff.mpr ⟨memory.length, Dict.setItem (items.filter fun e => e.1 ∈ knownKeys)
      ("annotations", .address (memory.length + 1)), rfl, by simp, ?_⟩
    refine StoredEntries.setItem ?_ (stored_dict_iff.mpr ⟨memory.length + 1,
      Dict.update (existingItems memory items) (items.filter fun e => e.1 ∉ knownKeys), rfl,
      by simp, ?_⟩)
    · simpa using hknown.append _
    · simpa using hannotations

/-! ## The law -/

/-- Folding loses nothing exactly if there is nothing to fold, or the annotations have room for
the unknown fields. -/
theorem foldsWithoutLoss_iff (knownKeys : List String) (raw : PyDict String (Json α)) :
    FoldsWithoutLoss knownKeys raw ↔ HasExtra knownKeys raw → HasRoom knownKeys raw := by
  unfold FoldsWithoutLoss
  constructor
  · intro h hextra
    exact hasRoom_of_keepsData hextra h.1
  · intro h
    refine ⟨?_, leavesInput knownKeys raw⟩
    by_cases hextra : HasExtra knownKeys raw
    · exact keepsData_of_hasRoom hextra (h hextra)
    · exact keepsData_of_not_hasExtra hextra

end

def twoOwners : RawContract where
  entries := [("name", str "node_orders"), ("annotations", .dict [("owner", str "platform")]),
    ("owner", str "orders")]
  nodup_keys := by decide

/-- The owner among the annotations is lost. -/
theorem twoOwners_not_foldsWithoutLoss : ¬ FoldsWithoutLoss knownContractKeys twoOwners := by
  rintro ⟨hkeeps, -⟩
  obtain ⟨annotations, hannotations, howner⟩ := hkeeps.entries [("owner", str "platform")] rfl
    "owner" (str "platform") rfl
  have hextra : HasExtra knownContractKeys twoOwners :=
    ⟨"owner", str "orders", by decide +kernel, rfl⟩
  rw [get_annotations hextra, Option.some.injEq, Json.dict.injEq] at hannotations
  rw [← hannotations, lookup_annotations, if_neg (by decide +kernel)] at howner
  have howners : str "orders" = str "platform" := Option.some.inj howner
  unfold str at howners
  simp at howners

end OmnibaseCore.Normalization
