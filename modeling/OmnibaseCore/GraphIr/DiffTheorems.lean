import OmnibaseCore.GraphIr.Importer

/-!
# What the diff misses

Nothing: without excluded keys, the diff of two normalized contracts is empty exactly when they
have the same values under the same keys (`diffContractDicts_eq_nil_iff`), and then there are no
changes to report (`hasChanges_categorize`). A contract in normal form is determined by its values
(`form_lookup_inj`).
-/

namespace OmnibaseCore.GraphIr

/-! ## Diffs -/

variable {i : TextInterpreter}

theorem diffContractLists_eq_nil_iff {old new : List String} {path : String} :
    diffContractLists i old new path = [] ↔ old = new := by
  unfold diffContractLists
  rw [List.flatMap_eq_nil_iff]
  constructor
  · intro h
    apply List.ext_getElem?
    intro k
    by_cases hk : k < max old.length new.length
    · have hitem := h k (List.mem_range.mpr hk)
      cases hold : old[k]? with
      | none =>
        rw [hold] at hitem
        exact absurd hitem (by simp)
      | some a =>
        cases hnew : new[k]? with
        | none =>
          rw [hold, hnew] at hitem
          exact absurd hitem (by simp)
        | some b =>
          rw [hold, hnew] at hitem
          by_contra hne
          rw [Option.some.injEq] at hne
          exact absurd hitem (by simp [hne])
    · rw [List.getElem?_eq_none (by omega), List.getElem?_eq_none (by omega)]
  · rintro rfl k hk
    have hlt : k < old.length := by simpa using hk
    rw [List.getElem?_eq_getElem hlt]
    simp

variable {key : String}

theorem diffKey_eq_nil_iff {old new : Form} (hexcluded : shouldExcludeFromDiff key = false)
    (hkey : (old.lookup key).isSome = true ∨ (new.lookup key).isSome = true) :
    diffKey i old new key = [] ↔ old.lookup key = new.lookup key := by
  unfold diffKey
  rw [hexcluded, if_neg Bool.false_ne_true]
  cases hold : old.lookup key with
  | none =>
    cases hnew : new.lookup key with
    | none =>
      rw [hold, hnew] at hkey
      exact absurd hkey (by decide)
    | some b => simp
  | some a =>
    cases hnew : new.lookup key with
    | none => simp
    | some b =>
      cases a with
      | text s => by_cases heq : FormValue.text s = b <;> simp [heq]
      | texts l =>
        cases b with
        | text s => simp
        | texts l' =>
          by_cases heq : l = l'
          · simp [heq]
          · simp [heq, diffContractLists_eq_nil_iff]

theorem isSome_lookup_iff {form : Form} :
    (form.lookup key).isSome = true ↔ key ∈ form.map Prod.fst := by
  induction form with
  | nil => simp
  | cons e form ih =>
    rw [List.lookup_cons, List.map_cons, List.mem_cons]
    by_cases hkey : key = e.1
    · simp [hkey]
    · rw [beq_eq_false_iff_ne.mpr hkey]
      simp [ih, hkey]

/-- The diff is empty exactly when the contracts agree on all keys. -/
theorem diffContractDicts_eq_nil_iff {old new : Form}
    (hold : ∀ key ∈ old.map Prod.fst, shouldExcludeFromDiff key = false)
    (hnew : ∀ key ∈ new.map Prod.fst, shouldExcludeFromDiff key = false) :
    diffContractDicts i old new = [] ↔ ∀ key, old.lookup key = new.lookup key := by
  unfold diffContractDicts
  rw [List.flatMap_eq_nil_iff]
  simp only [(perm_sortedAsc id _).mem_iff, List.mem_dedup, List.mem_append]
  constructor
  · intro h key
    by_cases hkey : key ∈ old.map Prod.fst ∨ key ∈ new.map Prod.fst
    · refine (diffKey_eq_nil_iff ?_ ?_).mp (h key hkey)
      · exact hkey.elim (hold key) (hnew key)
      · rwa [isSome_lookup_iff, isSome_lookup_iff]
    · rw [not_or, ← isSome_lookup_iff, ← isSome_lookup_iff, Option.not_isSome_iff_eq_none,
        Option.not_isSome_iff_eq_none] at hkey
      rw [hkey.1, hkey.2]
  · intro h key hkey
    refine (diffKey_eq_nil_iff ?_ ?_).mpr (h key)
    · exact hkey.elim (hold key) (hnew key)
    · rwa [isSome_lookup_iff, isSome_lookup_iff]

theorem hasChanges_foldl (diffs : List ModelDiffEntry) (result : ModelDiffResult) :
    (diffs.foldl
      (fun result entry =>
        if isBehavioralField entry.path then
          { result with behavioralChanges := result.behavioralChanges ++ [entry] }
        else
          match entry.changeType with
          | .added => { result with added := result.added ++ [entry] }
          | .removed => { result with removed := result.removed ++ [entry] }
          | .changed => { result with changed := result.changed ++ [entry] })
      result).hasChanges = (result.hasChanges || !diffs.isEmpty) := by
  induction diffs generalizing result with
  | nil => simp
  | cons entry diffs ih =>
    rw [List.foldl_cons, ih]
    -- the entry is in one of the lists now
    split_ifs
    · simp [ModelDiffResult.hasChanges]
    · cases entry.changeType <;> simp [ModelDiffResult.hasChanges]

/-- There are changes if there is an entry. -/
theorem hasChanges_categorize (diffs : List ModelDiffEntry) :
    (categorizeDiffEntries diffs).hasChanges = !diffs.isEmpty :=
  hasChanges_foldl diffs _

/-! ## Normal forms -/

/-- The normalized contract with these values. -/
def form (handlerId name nodeType : String) (publish subscribe : List String)
    (inputModel outputModel : Option String) : Form :=
  [("handler_id", .text handlerId), ("name", .text name), ("node_type", .text nodeType)] ++
    topicsField "publish_topics" publish ++ topicsField "subscribe_topics" subscribe ++
    modelField "input_model" inputModel ++ modelField "output_model" outputModel

def topicsValue (topics : List String) : Option FormValue :=
  if topics = [] then none else some (.texts topics)

theorem lookup_cons_eq (key : String) (value : FormValue) (rest : Form) (key' : String) :
    List.lookup key' ((key, value) :: rest)
      = if key' = key then some value else rest.lookup key' := by
  by_cases hkey : key' = key
  · rw [hkey, if_pos rfl, List.lookup_cons_self]
  · rw [if_neg hkey, List.lookup_cons, beq_eq_false_iff_ne.mpr hkey]

theorem lookup_append (f g : Form) (key : String) :
    (f ++ g).lookup key = (f.lookup key <|> g.lookup key) := by
  induction f with
  | nil => rfl
  | cons e f ih =>
    rw [List.cons_append, List.lookup_cons, List.lookup_cons]
    cases key == e.1 with
    | true => rfl
    | false => exact ih

theorem lookup_topicsField (key key' : String) (topics : List String) :
    (topicsField key topics).lookup key' = if key' = key then topicsValue topics else none := by
  unfold topicsField topicsValue
  by_cases hkey : key' = key
  · by_cases htopics : topics = [] <;> simp [hkey, htopics]
  · by_cases htopics : topics = []
    · simp [htopics]
    · rw [if_neg htopics, lookup_cons_eq, if_neg hkey, if_neg hkey, List.lookup_nil]

theorem lookup_modelField (key key' : String) (model : Option String) :
    (modelField key model).lookup key' = if key' = key then model.map .text else none := by
  unfold modelField
  cases model with
  | none => simp
  | some model =>
    by_cases hkey : key' = key
    · simp [hkey]
    · rw [lookup_cons_eq]
      rfl

theorem topicsValue_injective : Function.Injective topicsValue := by
  intro l l' h
  unfold topicsValue at h
  split_ifs at h with hl hl' hl'
  · rw [hl, hl']
  · simpa using h

variable {handlerId name nodeType : String} {publish subscribe : List String}
  {inputModel outputModel : Option String}

theorem lookup_form (key : String) :
    (form handlerId name nodeType publish subscribe inputModel outputModel).lookup key =
      if key = "handler_id" then some (.text handlerId)
      else if key = "name" then some (.text name)
      else if key = "node_type" then some (.text nodeType)
      else if key = "publish_topics" then topicsValue publish
      else if key = "subscribe_topics" then topicsValue subscribe
      else if key = "input_model" then inputModel.map .text
      else if key = "output_model" then outputModel.map .text
      else none := by
  unfold form
  rw [lookup_append, lookup_append, lookup_append, lookup_append, lookup_topicsField,
    lookup_topicsField, lookup_modelField, lookup_modelField, lookup_cons_eq, lookup_cons_eq,
    lookup_cons_eq, List.lookup_nil]
  split_ifs <;> simp_all

theorem mem_keys_form
    (h : key ∈ (form handlerId name nodeType publish subscribe inputModel outputModel).map
      Prod.fst) : shouldExcludeFromDiff key = false := by
  rw [← isSome_lookup_iff, lookup_form] at h
  split_ifs at h with h₁ h₂ h₃ h₄ h₅ h₆ h₇
  all_goals first | exact absurd h (by decide) | (subst_vars; decide)

/-- Normal forms that agree on all keys have the same values. -/
theorem form_lookup_inj {handlerId' name' nodeType' : String} {publish' subscribe' : List String}
    {inputModel' outputModel' : Option String} :
    (∀ key, (form handlerId name nodeType publish subscribe inputModel outputModel).lookup key =
      (form handlerId' name' nodeType' publish' subscribe' inputModel' outputModel').lookup key) ↔
      handlerId = handlerId' ∧ name = name' ∧ nodeType = nodeType' ∧ publish = publish' ∧
        subscribe = subscribe' ∧ inputModel = inputModel' ∧ outputModel = outputModel' := by
  have htext : Function.Injective FormValue.text := fun _ _ h => FormValue.text.inj h
  constructor
  · intro h
    have h₁ := h "handler_id"
    have h₂ := h "name"
    have h₃ := h "node_type"
    have h₄ := h "publish_topics"
    have h₅ := h "subscribe_topics"
    have h₆ := h "input_model"
    have h₇ := h "output_model"
    simp only [lookup_form] at h₁ h₂ h₃ h₄ h₅ h₆ h₇
    exact ⟨by simpa using h₁, by simpa using h₂, by simpa using h₃,
      topicsValue_injective (by simpa using h₄), topicsValue_injective (by simpa using h₅),
      Option.map_injective htext (by simpa using h₆),
      Option.map_injective htext (by simpa using h₇)⟩
  · rintro ⟨rfl, rfl, rfl, rfl, rfl, rfl, rfl⟩ key
    rfl

end OmnibaseCore.GraphIr
