import OmnibaseCore.Diff.Mirror
import OmnibaseCore.Python.Join
import OmnibaseCore.Python.Return

/-!
# Lists and contracts the other way round

* `computeDiff_mirror`: the diff of two contracts the other way round has the reversed entries.
  Only the type that an entry names is that of its own old value, where it has one, so that it
  can be another one for values that differ or that are equal and of two types.
-/

namespace OmnibaseCore.Diff

/-! ## Lists of items with identities -/

section
variable {c : ModelDiffConfiguration} {i : DumpInterpreter} {identityKey : String}

theorem identityMapOf_spec (items : List DumpValue) :
    (Dict.keys (identityMapOf i identityKey items)).Nodup ∧
      ∀ e ∈ identityMapOf i identityKey items, e.2.2 ∈ items := by
  unfold identityMapOf
  cases hmap : buildIdentityMap i items identityKey with
  | error e => exact ⟨List.nodup_nil, fun e he => (nomatch he)⟩
  | ok identityMap =>
    refine invariant_foldlM (I := fun m : List (String × ℕ × DumpValue) =>
      (Dict.keys m).Nodup ∧ ∀ e ∈ m, e.2.2 ∈ items) ?_ ?_ hmap
    rotate_left
    · exact ⟨List.nodup_nil, fun e he => (nomatch he)⟩
    intro m e he m' hstep hm
    obtain ⟨identity, -, hm'⟩ := bind_eq_ok hstep
    rw [← Except.ok.inj hm']
    have hset : ∀ key, dictSet m key (e.2, e.1) = Dict.setItem m (key, e.2, e.1) := fun _ => rfl
    rw [hset]
    refine ⟨Dict.nodup_keys_setItem _ hm.1, fun e' he' => ?_⟩
    rcases Dict.mem_of_mem_setItem he' with rfl | he'
    · exact List.fst_mem_of_mem_zipIdx he
    · exact hm.2 e' he'

def itemChange (c : ModelDiffConfiguration) (before after : ℕ × DumpValue) :
    Option EnumContractDiffChangeType :=
  if !itemsEqual c before.2 after.2 then some .modified
  else if before.1 ≠ after.1 then some .moved
  else none

def commonDiffs (i : DumpInterpreter) (c : ModelDiffConfiguration) (path : String)
    (changeType : EnumContractDiffChangeType)
    (beforeMap afterMap : List (String × ℕ × DumpValue)) : List ModelContractFieldDiff :=
  ((Dict.joined beforeMap afterMap).filter fun j =>
    itemChange c j.2.1 j.2.2 = some changeType).map fun j =>
      changedItemDiff i path (j.1, j.2.1) (changeType, some j.2.2)

variable {path : String} {beforeMap afterMap : List (String × ℕ × DumpValue)}

variable (e : String × ℕ × DumpValue)

theorem changeOf_eq :
    changeOf c afterMap e = match afterMap.lookup e.1 with
      | none => some (.removed, none)
      | some after => (itemChange c e.2 after).map fun t => (t, some after) := by
  unfold changeOf itemChange
  cases afterMap.lookup e.1 with
  | none => rfl
  | some after =>
    dsimp only
    split_ifs <;> rfl

theorem filter_removed :
    ((beforeMap.filterMap fun e => (changeOf c afterMap e).map (changedItemDiff i path e)).filter
      fun d => d.changeType = .removed)
      = (beforeMap.filter fun e => e.1 ∉ afterMap.map Prod.fst).map fun e =>
        changedItemDiff i path e (.removed, none) := by
  rw [List.filter_filterMap, ← List.filterMap_eq_filter, List.map_filterMap]
  apply List.filterMap_congr
  intro e _
  rw [changeOf_eq]
  cases hlookup : afterMap.lookup e.1 with
  | none =>
    have hkey : e.1 ∉ afterMap.map Prod.fst := Dict.lookup_eq_none_iff.mp hlookup
    simp [hkey, Option.guard, changedItemDiff]
  | some after =>
    have hkey : e.1 ∈ afterMap.map Prod.fst := Dict.exists_lookup_iff.mp ⟨after, hlookup⟩
    unfold itemChange
    dsimp only
    split_ifs <;> simp [hkey, Option.guard, changedItemDiff]

variable {changeType : EnumContractDiffChangeType}

theorem filter_common (htype : changeType ≠ .removed) :
    ((beforeMap.filterMap fun e => (changeOf c afterMap e).map (changedItemDiff i path e)).filter
      fun d => d.changeType = changeType) = commonDiffs i c path changeType beforeMap afterMap := by
  unfold commonDiffs Dict.joined
  rw [List.filter_filterMap, List.filter_filterMap, List.map_filterMap]
  apply List.filterMap_congr
  intro e _
  rw [changeOf_eq]
  cases hlookup : afterMap.lookup e.1 with
  | none => simp [changedItemDiff, htype.symm]
  | some after =>
    cases hchange : itemChange c e.2 after with
    | none => simp [hchange]
    | some t =>
      by_cases ht : t = changeType
      · simp [Option.filter, hchange, ht, changedItemDiff]
      · simp [Option.filter, hchange, ht, changedItemDiff]

theorem countP_unchanged :
    (beforeMap.map fun e =>
        (changeOf c afterMap e).map (changedItemDiff i path e)).countP Option.isNone
      = (Dict.joined beforeMap afterMap).countP fun j => (itemChange c j.2.1 j.2.2).isNone := by
  unfold Dict.joined
  rw [List.countP_map, List.countP_filterMap]
  apply List.countP_congr
  intro e _
  rw [Function.comp_apply, changeOf_eq]
  cases hlookup : afterMap.lookup e.1 with
  | none => simp
  | some after => simp

/-! ### Comparison of items -/

variable {depth : ℕ}

theorem itemsEqualAt_list (items : List DumpValue) (w : DumpValue) :
    itemsEqualAt c (.list items) depth w = (decide (depth ≤ maxRecursionDepth) &&
      match w with
      | .list items' => (items.map (itemsEqualAt c)).length = items'.length &&
        (List.zipWith (fun equal v => equal (depth + 1) v) (items.map (itemsEqualAt c))
          items').all id
      | _ => false) := by
  unfold itemsEqualAt
  cases w <;> rw [Json.fold_list]

theorem itemsEqualAt_list_iff {items : List DumpValue} {w : DumpValue} :
    itemsEqualAt c (.list items) depth w = true ↔
      depth ≤ maxRecursionDepth ∧ ∃ items', w = .list items' ∧
        List.Forall₂ (fun v w => itemsEqualAt c v (depth + 1) w = true) items items' := by
  rw [itemsEqualAt_list, Bool.and_eq_true, decide_eq_true_eq]
  apply and_congr_right
  intro _
  cases w with
  | list items' =>
    dsimp only
    rw [List.length_map, Bool.and_eq_true, decide_eq_true_eq, List.zipWith_map_left]
    have hzip : _ ↔ List.Forall₂ (fun v w => itemsEqualAt c v (depth + 1) w = true) items items' :=
      Json.zipWith_all_iff
    rw [List.zipWith_map_left] at hzip
    rw [hzip]
    simp
  | _ => simp

theorem itemsEqualAt_dict (entries : List (String × DumpValue)) (w : DumpValue) :
    itemsEqualAt c (.dict entries) depth w = (decide (depth ≤ maxRecursionDepth) &&
      match w with
      | .dict entries' =>
        ((entries.map fun e => (e.1, itemsEqualAt c e.2)).all fun e =>
          e.1 ∈ entries'.map Prod.fst) &&
        (entries'.all fun e =>
          e.1 ∈ (entries.map fun e => (e.1, itemsEqualAt c e.2)).map Prod.fst) &&
        (entries.map fun e => (e.1, itemsEqualAt c e.2)).all fun e => c.shouldExclude e.1 ||
          match entries'.lookup e.1 with
          | some v => e.2 (depth + 1) v
          | none => false
      | _ => false) := by
  unfold itemsEqualAt
  cases w with
  | dict entries' =>
    exact congrArg (fun equal : ℕ → DumpValue → Bool => equal depth (.dict entries'))
      (Json.fold_dict _ _ _ _ entries)
  | _ => rw [Json.fold_dict]

variable {entries : List (String × DumpValue)}

theorem entryEqual_iff {e : String × DumpValue} :
    (c.shouldExclude e.1 ||
      match entries.lookup e.1 with
      | some v => itemsEqualAt c e.2 (depth + 1) v
      | none => false) = true ↔
      c.shouldExclude e.1 = true ∨
        ∃ v, entries.lookup e.1 = some v ∧ itemsEqualAt c e.2 (depth + 1) v = true := by
  cases entries.lookup e.1 <;> simp

theorem itemsEqualAt_dict_iff {w : DumpValue} :
    itemsEqualAt c (.dict entries) depth w = true ↔
      depth ≤ maxRecursionDepth ∧ ∃ entries', w = .dict entries' ∧
        (∀ e ∈ entries, e.1 ∈ Dict.keys entries') ∧ (∀ e ∈ entries', e.1 ∈ Dict.keys entries) ∧
        ∀ e ∈ entries, c.shouldExclude e.1 = true ∨
          ∃ v, entries'.lookup e.1 = some v ∧ itemsEqualAt c e.2 (depth + 1) v = true := by
  rw [itemsEqualAt_dict, Bool.and_eq_true, decide_eq_true_eq]
  apply and_congr_right
  intro _
  cases w with
  | dict entries' =>
    dsimp only
    rw [Bool.and_eq_true, Bool.and_eq_true, List.all_map, List.all_map, List.all_eq_true,
      List.all_eq_true, List.all_eq_true, and_assoc, List.map_map]
    simp only [Function.comp_apply, decide_eq_true_eq, Json.dict.injEq, exists_eq_left']
    apply and_congr Iff.rfl
    apply and_congr Iff.rfl
    refine forall_congr' fun e => imp_congr_right fun _ => ?_
    exact entryEqual_iff
  | _ => simp

variable {v w : DumpValue}

/-- `_items_equal` does not depend on the order of its arguments. -/
theorem itemsEqualAt_symm (hv : v.UniqueKeys) (hw : w.UniqueKeys)
    (h : itemsEqualAt c v depth w = true) : itemsEqualAt c w depth v = true := by
  induction v using Json.ind generalizing depth w with
  | null =>
    cases w with
    | null => exact h
    | _ => simp [itemsEqualAt, Json.isNull] at h
  | prim a =>
    cases w with
    | prim b =>
      simp only [itemsEqualAt, Json.fold_prim, Bool.and_eq_true, sameType, decide_eq_true_eq]
        at h ⊢
      exact ⟨h.1, h.2.1.symm, JsonPrimitive.pyEq_symm h.2.2⟩
    | _ => simp [itemsEqualAt] at h
  | list items ih =>
    obtain ⟨hdepth, items', rfl, hitems⟩ := itemsEqualAt_list_iff.mp h
    rw [Json.uniqueKeys_list] at hv hw
    rw [itemsEqualAt_list_iff]
    refine ⟨hdepth, items, rfl, ?_⟩
    clear h
    induction hitems with
    | nil => exact List.Forall₂.nil
    | @cons v w items items' hvw _ ihitems =>
      rw [List.forall_mem_cons] at hv hw ih
      exact List.Forall₂.cons (ih.1 hv.1 hw.1 hvw) (ihitems ih.2 hv.2 hw.2)
  | dict entries ih =>
    obtain ⟨hdepth, entries', rfl, hkeys, hkeys', hentries⟩ := itemsEqualAt_dict_iff.mp h
    rw [Json.uniqueKeys_dict] at hv hw
    rw [itemsEqualAt_dict_iff]
    refine ⟨hdepth, entries, rfl, hkeys', hkeys, fun e he => ?_⟩
    obtain ⟨v, hlookup⟩ := Dict.exists_lookup_iff.mpr (hkeys' e he)
    have hmem := Dict.mem_of_lookup hlookup
    rcases hentries _ hmem with hexcluded | ⟨v', hlookup', hequal⟩
    · exact Or.inl hexcluded
    · rw [(Dict.lookup_eq_some_iff hw.1).mpr (show (e.1, e.2) ∈ entries' from he),
        Option.some.injEq] at hlookup'
      rw [← hlookup'] at hequal
      exact Or.inr ⟨v, hlookup, ih _ hmem (hv.2 _ hmem) (hw.2 e he) hequal⟩

theorem itemsEqual_comm (hv : v.UniqueKeys) (hw : w.UniqueKeys) :
    itemsEqual c v w = itemsEqual c w v := by
  rw [Bool.eq_iff_iff]
  exact ⟨itemsEqualAt_symm hv hw, itemsEqualAt_symm hw hv⟩

theorem typeName_of_itemsEqual (h : itemsEqual c v w = true) : typeName w = typeName v := by
  unfold itemsEqual at h
  cases v with
  | null =>
    cases w with
    | null => rfl
    | _ => simp [itemsEqualAt, Json.isNull] at h
  | prim a =>
    cases w with
    | prim b =>
      simp only [itemsEqualAt, Json.fold_prim, Bool.and_eq_true, sameType, decide_eq_true_eq] at h
      exact h.2.1.symm
    | _ => simp [itemsEqualAt] at h
  | list items =>
    obtain ⟨-, items', rfl, -⟩ := itemsEqualAt_list_iff.mp h
    rfl
  | dict entries =>
    obtain ⟨-, entries', rfl, -⟩ := itemsEqualAt_dict_iff.mp h
    rfl

theorem itemChange_comm {before after : ℕ × DumpValue} (hbefore : Json.UniqueKeys before.2)
    (hafter : Json.UniqueKeys after.2) : itemChange c before after = itemChange c after before := by
  unfold itemChange
  rw [itemsEqual_comm hbefore hafter]
  simp only [ne_comm (a := before.1)]

/-! ### Two maps -/

theorem MirrorItems.of_map {β : Type} {l : List β} {f g : β → ModelContractFieldDiff}
    {l' : List ModelContractFieldDiff} (hfg : ∀ b ∈ l, Mirrors i (f b) (g b))
    (hperm : (l.map g).Perm l') : MirrorItems i (l.map f) l' := by
  refine ⟨l.map g, ?_, hperm⟩
  rw [List.forall₂_map_left_iff, List.forall₂_map_right_iff, List.forall₂_same]
  exact hfg

theorem MirrorItems.length_eq {l l' : List ModelContractFieldDiff} (h : MirrorItems i l l') :
    l'.length = l.length := by
  obtain ⟨m, hm, hperm⟩ := h
  rw [← hperm.length_eq, hm.length_eq]

theorem MirrorItems.nil : MirrorItems i [] [] := ⟨[], List.Forall₂.nil, List.Perm.nil⟩

theorem mirrors_removedItem :
    Mirrors i (changedItemDiff i path e (.removed, none)) (addedDiffOf i path e) := by
  refine ⟨?_, ?_⟩
  · simp [changedItemDiff, addedDiffOf, ModelContractFieldDiff.toReverse,
      EnumContractDiffChangeType.getReverse]
  · simp [changedItemDiff, addedDiffOf]

theorem mirrors_addedItem :
    Mirrors i (addedDiffOf i path e) (changedItemDiff i path e (.removed, none)) := by
  refine ⟨?_, ?_⟩
  · simp [changedItemDiff, addedDiffOf, ModelContractFieldDiff.toReverse,
      EnumContractDiffChangeType.getReverse]
  · simp [changedItemDiff, addedDiffOf]

theorem mirrors_commonItem {key : String} {before after : ℕ × DumpValue}
    (hchange : itemChange c before after = some changeType) (hbefore : Sized before.2)
    (hafter : Sized after.2) :
    Mirrors i (changedItemDiff i path (key, before) (changeType, some after))
      (changedItemDiff i path (key, after) (changeType, some before)) := by
  unfold itemChange at hchange
  split_ifs at hchange with hequal hmoved
  · rw [← Option.some.inj hchange]
    refine ⟨?_, ?_⟩
    · simp [changedItemDiff, ModelContractFieldDiff.toReverse,
        EnumContractDiffChangeType.getReverse]
    · have hsides : (changedItemDiff i path (key, before)
          (.modified, some after)).changeType = .modified ∨ (changedItemDiff i path (key, before)
          (.modified, some after)).changeType = .unchanged := Or.inl rfl
      rw [if_pos hsides]
      exact ⟨before.2, after.2, _, _, fromValue_eq_ok_iff.mpr ⟨hbefore, rfl⟩,
        fromValue_eq_ok_iff.mpr ⟨hafter, rfl⟩, rfl, rfl, rfl, rfl⟩
  · rw [← Option.some.inj hchange]
    refine ⟨?_, ?_⟩
    · simp [changedItemDiff, ModelContractFieldDiff.toReverse,
        EnumContractDiffChangeType.getReverse]
    · rw [if_neg (by simp [changedItemDiff])]
      -- an item that has only moved is of the same type
      have hsame : itemsEqual c before.2 after.2 = true := by simpa using hequal
      exact typeName_of_itemsEqual hsame

def MapUniqueKeys (m : List (String × ℕ × DumpValue)) : Prop :=
  (Dict.keys m).Nodup ∧ ∀ e ∈ m, Json.UniqueKeys e.2.2

variable {j : String × (ℕ × DumpValue) × ℕ × DumpValue}

theorem itemChange_swapped (hbefore : MapUniqueKeys beforeMap) (hafter : MapUniqueKeys afterMap)
    (hj : j ∈ Dict.joined beforeMap afterMap) :
    itemChange c j.2.2 j.2.1 = itemChange c j.2.1 j.2.2 := by
  obtain ⟨hj, hj'⟩ := (Dict.mem_joined hafter.1).mp hj
  exact (itemChange_comm (hbefore.2 _ hj) (hafter.2 _ hj')).symm

/-- Every item that has changed can be wrapped, on both sides. -/
def MapsSized (c : ModelDiffConfiguration) (beforeMap afterMap : List (String × ℕ × DumpValue)) :
    Prop :=
  (∀ e ∈ beforeMap, ∀ change, changeOf c afterMap e = some change →
    Sized e.2.2 ∧ ∀ after, change.2 = some after → Sized after.2) ∧
  ∀ e ∈ afterMap.filter fun e => e.1 ∉ beforeMap.map Prod.fst, Sized e.2.2

section
variable (h : MapsSized c beforeMap afterMap)
include h

theorem MapsSized.common (hafter : (Dict.keys afterMap).Nodup)
    (hj : j ∈ Dict.joined beforeMap afterMap)
    (hchange : itemChange c j.2.1 j.2.2 = some changeType) : Sized j.2.1.2 ∧ Sized j.2.2.2 := by
  obtain ⟨hmem, hmem'⟩ := (Dict.mem_joined hafter).mp hj
  have hsized := h.1 _ hmem (changeType, some j.2.2) (by
    rw [changeOf_eq, (Dict.lookup_eq_some_iff hafter).mpr hmem']
    simp [hchange])
  exact ⟨hsized.1, hsized.2 _ rfl⟩

theorem MapsSized.symm (hbefore : MapUniqueKeys beforeMap)
    (hafter : MapUniqueKeys afterMap) : MapsSized c afterMap beforeMap := by
  refine ⟨fun e he change hchange => ?_, fun e he => ?_⟩
  · rw [changeOf_eq] at hchange
    cases hlookup : beforeMap.lookup e.1 with
    | none =>
      rw [hlookup] at hchange
      rw [← Option.some.inj hchange]
      have hkey : e.1 ∉ beforeMap.map Prod.fst := Dict.lookup_eq_none_iff.mp hlookup
      refine ⟨h.2 e (List.mem_filter.mpr ⟨he, by simpa using hkey⟩), ?_⟩
      exact fun after hafter => nomatch hafter
    | some before =>
      rw [hlookup] at hchange
      obtain ⟨t, ht, rfl⟩ := Option.map_eq_some_iff.mp hchange
      have hjoined : (e.1, before, e.2) ∈ Dict.joined beforeMap afterMap :=
        (Dict.mem_joined hafter.1).mpr ⟨Dict.mem_of_lookup hlookup, he⟩
      have hsized := h.common hafter.1 hjoined
        ((itemChange_swapped hbefore hafter hjoined).symm.trans ht)
      refine ⟨hsized.2, fun after hafter => ?_⟩
      rw [← Option.some.inj hafter]
      exact hsized.1
  · obtain ⟨he, hkey⟩ := List.mem_filter.mp he
    rw [decide_eq_true_eq] at hkey
    have hnone : afterMap.lookup e.1 = none := Dict.lookup_eq_none_iff.mpr hkey
    exact (h.1 e he (.removed, none) (by rw [changeOf_eq, hnone])).1

theorem mirrorItems_common (hbefore : MapUniqueKeys beforeMap) (hafter : MapUniqueKeys afterMap) :
    MirrorItems i (commonDiffs i c path changeType beforeMap afterMap)
      (commonDiffs i c path changeType afterMap beforeMap) := by
  unfold commonDiffs
  refine MirrorItems.of_map (g := fun j => changedItemDiff i path (j.1, j.2.2)
    (changeType, some j.2.1)) ?_ ?_
  · intro j hj
    obtain ⟨hj, hchange⟩ := List.mem_filter.mp hj
    rw [decide_eq_true_eq] at hchange
    have hsized := h.common hafter.1 hj hchange
    exact mirrors_commonItem hchange hsized.1 hsized.2
  · refine List.Perm.trans ?_
      (((Dict.perm_joined_swap hbefore.1 hafter.1).filter _).map _)
    rw [List.filter_map, List.map_map]
    apply List.Perm.of_eq
    refine congrArg (List.map _) (List.filter_congr fun j hj => ?_)
    simp only [Function.comp_apply, Dict.swapped, itemChange_swapped hbefore hafter hj]

end

theorem mapsDiff_eq :
    mapsDiff i c path identityKey beforeMap afterMap = {
      fieldPath := path
      identityKey := identityKey
      addedItems := (afterMap.filter fun e => e.1 ∉ beforeMap.map Prod.fst).map (addedDiffOf i path)
      removedItems := (beforeMap.filter fun e => e.1 ∉ afterMap.map Prod.fst).map fun e =>
        changedItemDiff i path e (.removed, none)
      modifiedItems := commonDiffs i c path .modified beforeMap afterMap
      movedItems := commonDiffs i c path .moved beforeMap afterMap
      unchangedCount := (Dict.joined beforeMap afterMap).countP fun j =>
        (itemChange c j.2.1 j.2.2).isNone } := by
  unfold mapsDiff
  dsimp only
  rw [reduceOption_changes, filter_removed, filter_common (by decide), filter_common (by decide),
    countP_unchanged]

/-- The diff of two maps. -/
theorem listMirrors_mapsDiff (h : MapsSized c beforeMap afterMap)
    (hbefore : MapUniqueKeys beforeMap) (hafter : MapUniqueKeys afterMap) :
    ListMirrors i (mapsDiff i c path identityKey beforeMap afterMap)
      (mapsDiff i c path identityKey afterMap beforeMap) := by
  rw [mapsDiff_eq, mapsDiff_eq]
  refine ⟨rfl, rfl, ?_, ?_, ?_, ?_, ?_⟩
  · exact MirrorItems.of_map (fun e _ => mirrors_removedItem e) (.refl _)
  · exact MirrorItems.of_map (fun e _ => mirrors_addedItem e) (.refl _)
  · exact mirrorItems_common h hbefore hafter
  · exact mirrorItems_common h hbefore hafter
  · dsimp only
    rw [← (Dict.perm_joined_swap hbefore.1 hafter.1).countP_eq, List.countP_map]
    apply List.countP_congr
    intro j hj
    rw [Function.comp_apply, Dict.swapped, itemChange_swapped hbefore hafter hj]

variable {before after : List DumpValue} {ld : ModelContractListDiff}

theorem diffListWithIdentity_mirror (hkey : identityKey ≠ "__value__")
    (hkeys : ∀ v ∈ before ++ after, Json.UniqueKeys v)
    (h : diffListWithIdentity i c before after path identityKey = .ok ld) :
    ∃ ld', diffListWithIdentity i c after before path identityKey = .ok ld' ∧
      ListMirrors i ld ld' := by
  rw [List.forall_mem_append] at hkeys
  have hmap : ∀ {items : List DumpValue}, (∀ v ∈ items, Json.UniqueKeys v) →
      MapUniqueKeys (identityMapOf i identityKey items) := by
    intro items hitems
    have hspec := @identityMapOf_spec i identityKey items
    exact ⟨hspec.1, fun e he => hitems _ (hspec.2 e he)⟩
  have hbefore := hmap hkeys.1
  have hafter := hmap hkeys.2
  obtain ⟨hreportable, rfl⟩ := (diffListWithIdentity_eq_ok_iff hkey).mp h
  have hreports := hreportable.reports
  unfold listReports at hreports
  rw [if_neg hkey] at hreports
  have hsized : MapsSized c _ _ := (canReport_mapReports hkey).mp hreports
  refine ⟨_, (diffListWithIdentity_eq_ok_iff hkey).mpr ⟨⟨hreportable.path_ne,
    hreportable.identityKey_ne, fun hne => ?_, ?_⟩, rfl⟩,
    listMirrors_mapsDiff hsized hbefore hafter⟩
  · have hidentities := List.forall_mem_append.mp (hreportable.identities hne)
    exact List.forall_mem_append.mpr hidentities.symm
  · unfold listReports
    rw [if_neg hkey]
    exact (canReport_mapReports hkey).mpr (hsized.symm hbefore hafter)

/-! ## Lists of values -/

theorem uniqueKeys_toHashable (v : DumpValue) : Json.UniqueKeys (toHashable v) := by
  induction v using Json.ind with
  | null => trivial
  | prim a => trivial
  | list items ih =>
    unfold toHashable
    rw [Json.fold_list, Json.uniqueKeys_list, List.forall_mem_map]
    exact ih
  | dict entries ih =>
    unfold toHashable
    rw [Json.fold_dict, Json.uniqueKeys_list, List.forall_mem_map]
    intro e he
    rw [(perm_sortedAsc Prod.fst _).mem_iff] at he
    obtain ⟨e', he', rfl⟩ := List.mem_map.mp he
    rw [Json.uniqueKeys_list]
    simp only [List.mem_cons, List.not_mem_nil, or_false, forall_eq_or_imp, forall_eq]
    exact ⟨trivial, ih e' he'⟩

theorem setOf_spec (values : List DumpValue) :
    ((setOf values).Pairwise fun u v => u.pyEq v = false) ∧ ∀ v ∈ setOf values, v ∈ values := by
  unfold setOf
  induction values using List.reverseRecOn with
  | nil => exact ⟨List.Pairwise.nil, fun v hv => (nomatch hv)⟩
  | append_singleton values v ih =>
    rw [List.foldl_append, List.foldl_cons, List.foldl_nil]
    split_ifs with hany
    · exact ⟨ih.1, fun u hu => List.mem_append_left _ (ih.2 u hu)⟩
    · rw [List.pairwise_append, List.forall_mem_append]
      rw [List.any_eq_true, not_exists] at hany
      refine ⟨⟨ih.1, List.pairwise_singleton _ _, fun u hu v' hv' => ?_⟩, fun u hu => ?_, ?_⟩
      · rw [List.mem_singleton.mp hv']
        simpa using not_and.mp (hany u) hu
      · exact List.mem_append_left _ (ih.2 u hu)
      · simp

theorem unchanged_comm (before after : List DumpValue) :
    ((setOf (before.map toHashable)).filter fun v =>
      (setOf (after.map toHashable)).any fun u => u.pyEq v).length
      = ((setOf (after.map toHashable)).filter fun v =>
        (setOf (before.map toHashable)).any fun u => u.pyEq v).length := by
  have hkeys : ∀ values : List DumpValue, ∀ v ∈ setOf (values.map toHashable),
      Json.UniqueKeys v := by
    intro values v hv
    obtain ⟨u, -, rfl⟩ := List.mem_map.mp ((setOf_spec _).2 v hv)
    exact uniqueKeys_toHashable u
  apply length_filter_any_comm (P := fun v => Json.UniqueKeys v)
  · exact fun u v hu hv huv => (DumpValue.pyEq_comm hu hv).symm.trans huv
  · exact fun u v w huv hvw => DumpValue.pyEq_trans huv hvw
  · exact hkeys before
  · exact hkeys after
  · exact (setOf_spec _).1
  · exact (setOf_spec _).1

/-- The diff of two lists of values. -/
theorem diffPrimitiveList_mirror (h : diffPrimitiveList i before after path = .ok ld) :
    ∃ ld', diffPrimitiveList i after before path = .ok ld' ∧ ListMirrors i ld ld' := by
  obtain ⟨hpath, hadded, hremoved, rfl⟩ := diffPrimitiveList_eq_ok_iff.mp h
  refine ⟨_, diffPrimitiveList_eq_ok_iff.mpr ⟨hpath, hremoved, hadded, rfl⟩, rfl, rfl, ?_, ?_,
    MirrorItems.nil, MirrorItems.nil, unchanged_comm after before⟩
  · refine MirrorItems.of_map (fun e _ => ⟨?_, ?_⟩) (.refl _)
    · simp [addedValueDiff, removedValueDiff, ModelContractFieldDiff.toReverse,
        EnumContractDiffChangeType.getReverse]
    · simp [addedValueDiff, removedValueDiff]
  · refine MirrorItems.of_map (fun e _ => ⟨?_, ?_⟩) (.refl _)
    · simp [addedValueDiff, removedValueDiff, ModelContractFieldDiff.toReverse,
        EnumContractDiffChangeType.getReverse]
    · simp [addedValueDiff, removedValueDiff]

/-! ## The diff of two contracts -/

theorem ListMirrors.hasChanges {ld ld' : ModelContractListDiff} (h : ListMirrors i ld ld') :
    ld'.hasChanges = ld.hasChanges := by
  unfold ModelContractListDiff.hasChanges
  rw [h.addedItems.length_eq, h.removedItems.length_eq, h.modifiedItems.length_eq,
    h.movedItems.length_eq, Bool.or_comm (decide (0 < ld.removedItems.length))]

variable {d : Diffs}

theorem run_values_mirror {before after : DumpValue} (hbefore : before.UniqueKeys)
    (hafter : after.UniqueKeys) (h : (Step.values path before after).run i c = .ok d) :
    ∃ d', (Step.values path after before).run i c = .ok d' ∧ Diffs.Mirrors i d d' := by
  have hcomm := DumpValue.pyEq_comm hbefore hafter
  obtain ⟨hreportable, rfl⟩ := run_values_eq_ok_iff.mp h
  have hmirror : (Step.values path after before).Reportable i c := by
    unfold Step.Reportable at hreportable ⊢
    dsimp only at hreportable ⊢
    rw [← hcomm]
    split_ifs at hreportable ⊢
    · exact fun hinclude => ⟨(hreportable hinclude).1, (hreportable hinclude).2.symm⟩
    · exact ⟨hreportable.1, hreportable.2.2.1, hreportable.2.1, hreportable.2.2.2.symm⟩
  refine ⟨_, run_values_eq_ok_iff.mpr ⟨hmirror, rfl⟩, ?_⟩
  unfold Step.Reportable at hreportable
  unfold valuesFound
  dsimp only at hreportable
  rw [← hcomm]
  split_ifs at hreportable ⊢ with hequal hinclude
  · have hsized := (hreportable hinclude).2
    refine ⟨List.Forall₂.cons (mirrors_values hsized.1 hsized.2 (Or.inr ⟨rfl, ?_⟩))
      List.Forall₂.nil, List.Forall₂.nil⟩
    exact isNull_of_pyEq hequal
  · exact ⟨List.Forall₂.nil, List.Forall₂.nil⟩
  · obtain ⟨-, hbefore, hafter, hsized, hsized'⟩ := hreportable
    refine ⟨List.Forall₂.cons (mirrors_values hsized hsized' (Or.inl ⟨rfl, ?_, ?_⟩))
      List.Forall₂.nil, List.Forall₂.nil⟩
    · exact isNull_eq_false_iff.mpr hbefore
    · exact isNull_eq_false_iff.mpr hafter

theorem Step.run_mirror {s : Step} (hkeys : s.UniqueKeys) (h : s.run i c = .ok d) :
    ∃ d', s.mirror.run i c = .ok d' ∧ Diffs.Mirrors i d d' := by
  cases s with
  | added path value =>
    obtain ⟨hreportable, rfl⟩ := run_added_eq_ok_iff.mp h
    refine ⟨_, run_removed_eq_ok_iff.mpr ⟨hreportable, rfl⟩, ?_, List.Forall₂.nil⟩
    exact List.Forall₂.cons (mirrors_added hreportable.2.1) List.Forall₂.nil
  | removed path value =>
    obtain ⟨hreportable, rfl⟩ := run_removed_eq_ok_iff.mp h
    refine ⟨_, run_added_eq_ok_iff.mpr ⟨hreportable, rfl⟩, ?_, List.Forall₂.nil⟩
    exact List.Forall₂.cons (mirrors_removed hreportable.2.1) List.Forall₂.nil
  | values path before after =>
    exact run_values_mirror hkeys.1 hkeys.2 h
  | lists path identityKey before after =>
    obtain ⟨ld, hld, rfl⟩ := run_lists_eq_ok_iff.mp h
    have hmirror : ∃ ld', diffListWithIdentity i c after before path identityKey = .ok ld' ∧
        ListMirrors i ld ld' := by
      by_cases hkey : identityKey = "__value__"
      · unfold diffListWithIdentity at hld ⊢
        rw [if_pos hkey] at hld ⊢
        exact diffPrimitiveList_mirror hld
      · exact diffListWithIdentity_mirror hkey hkeys hld
    obtain ⟨ld', hld', hlists⟩ := hmirror
    refine ⟨_, run_lists_eq_ok_iff.mpr ⟨ld', hld', rfl⟩, List.Forall₂.nil, ?_⟩
    rw [hlists.hasChanges]
    split_ifs
    · exact List.Forall₂.cons hlists List.Forall₂.nil
    · exact List.Forall₂.nil

theorem runAll_mirror {places : List Step} (hkeys : ∀ s ∈ places, s.UniqueKeys)
    (h : runAll i c places = .ok d) :
    ∃ d', runAll i c (places.map Step.mirror) = .ok d' ∧ Diffs.Mirrors i d d' := by
  obtain ⟨parts, hparts, hd⟩ := bind_eq_ok h
  rw [← Except.ok.inj hd]
  clear h hd
  induction places generalizing parts with
  | nil =>
    rw [List.mapM_nil] at hparts
    rw [← Except.ok.inj hparts]
    exact ⟨{}, rfl, List.Forall₂.nil, List.Forall₂.nil⟩
  | cons s places ih =>
    rw [List.forall_mem_cons] at hkeys
    rw [List.mapM_cons] at hparts
    obtain ⟨part, hpart, hparts⟩ := bind_eq_ok hparts
    obtain ⟨rest, hrest, hparts⟩ := bind_eq_ok hparts
    rw [← Except.ok.inj hparts]
    obtain ⟨part', hpart', hmirror⟩ := Step.run_mirror hkeys.1 hpart
    obtain ⟨d', hd', hmirrors⟩ := ih hkeys.2 rest hrest
    obtain ⟨rest', hrest', heq⟩ := bind_eq_ok hd'
    rw [← Except.ok.inj heq] at hmirrors
    refine ⟨Diffs.concat (part' :: rest'), ?_, ?_, ?_⟩
    · unfold runAll
      rw [List.map_cons, List.mapM_cons, hpart', hrest']
      rfl
    · exact List.rel_append hmirror.fieldDiffs hmirrors.fieldDiffs
    · exact List.rel_append hmirror.listDiffs hmirrors.listDiffs

theorem computeDiff_mirror_of_ok {before after : Contract} {d : ModelContractDiff}
    (h : computeDiff i c before after = .ok d) :
    ∃ d', computeDiff i c after before = .ok d' ∧ ContractMirrors i d d' := by
  have hbefore := before.modelDump.uniqueKeys
  have hafter := after.modelDump.uniqueKeys
  obtain ⟨beforeName, afterName, hname, hne, hname', hne', hreportable, rfl⟩ :=
    computeDiff_eq_ok_iff.mp h
  have hrun : runAll i c (places c before after)
      = .ok (Diffs.concat ((places c before after).map (Step.found i c))) :=
    runAll_eq_ok_iff.mpr ⟨hreportable, rfl⟩
  obtain ⟨d', hd', hmirrors⟩ := runAll_mirror (uniqueKeys_steps hbefore hafter "") hrun
  have hplaces : places c after before = (places c before after).map Step.mirror :=
    steps_mirror hbefore hafter ""
  rw [show steps c (Json.dict before.modelDump.entries) "" (Json.dict after.modelDump.entries)
    = places c before after from rfl, ← hplaces, runAll_eq_ok_iff] at hd'
  have hreverse := computeDiff_eq_ok_iff.mpr
    ⟨afterName, beforeName, hname', hne', hname, hne, hd'.1, rfl⟩
  refine ⟨_, hreverse, rfl, rfl, ?_, ?_⟩
  · rw [← hd'.2]
    exact hmirrors.fieldDiffs
  · rw [← hd'.2]
    exact hmirrors.listDiffs

/-- The diff of two contracts the other way round has the reversed entries, for any
configuration. -/
theorem computeDiff_mirror (i : DumpInterpreter) (c : ModelDiffConfiguration)
    (before after : Contract) :
    MirrorResults i (computeDiff i c before after) (computeDiff i c after before) := by
  cases h : computeDiff i c before after with
  | ok d =>
    obtain ⟨d', hd', hmirrors⟩ := computeDiff_mirror_of_ok h
    rw [hd']
    exact hmirrors
  | error e =>
    cases h' : computeDiff i c after before with
    | ok d' =>
      obtain ⟨d, hd, -⟩ := computeDiff_mirror_of_ok h'
      rw [h] at hd
      exact nomatch hd
    | error e' => trivial

end

/-! ## Types and unchanged values -/

/-- The entry with ADDED and REMOVED exchanged, and with its sides exchanged if it is a change. -/
def ModelContractFieldDiff.exchanged (d : ModelContractFieldDiff) : ModelContractFieldDiff :=
  if d.changeType = .unchanged then d else d.toReverse

/-- An interpreter that prints numbers as they are. -/
def plainDumpInterpreter : DumpInterpreter where
  floatRepr q := toString q
  datetimeStr _ instant := toString instant
  containerStr _ := .error (.other "NotImplementedError" "")
  tupleStr _ := .error (.other "NotImplementedError" "")
  attributeText _ _ := .ok none
  setOrder l := l
  perm_setOrder _ := .refl _

/-- A contract that retries its handlers, or is told how often. -/
def retryingContract (retry : StrictJsonPrimitive) (hretry : retry ≠ .float .nan := by decide) :
    Contract where
  className := "ModelContractEffect"
  name := some (.prim (.strict (.str "fetch")))
  modelDump :=
    { entries := [("name", .prim (.strict (.str "fetch"))), ("retry", .prim (.strict retry))]
      uniqueKeys := by simp [Json.UniqueKeys, Json.foldEntries, Json.fold]
      noNan := by simpa using hretry }

/-- The entry for the field `retry`. -/
def retryDiff (changeType : EnumContractDiffChangeType) (old new : SchemaPrimitive)
    (valueType : String) : ModelContractFieldDiff where
  fieldPath := "retry"
  changeType := changeType
  oldValue := some (.prim old)
  newValue := some (.prim new)
  valueType := valueType

/-- An entry for `True` and `1`, which are equal, has the value of its own side first, and one for
`1` and `"1"` has the type of its own side. -/
theorem retryingContract_not_exchanged :
    ∃ d d' e e',
      computeDiff plainDumpInterpreter { defaultConfiguration with includeUnchanged := true }
        (retryingContract (.bool true)) (retryingContract (.int 1)) = .ok d ∧
      computeDiff plainDumpInterpreter { defaultConfiguration with includeUnchanged := true }
        (retryingContract (.int 1)) (retryingContract (.bool true)) = .ok d' ∧
      ¬ d'.fieldDiffs.Perm (d.fieldDiffs.map (·.exchanged)) ∧
      computeDiff plainDumpInterpreter defaultConfiguration (retryingContract (.int 1))
        (retryingContract (.str "1")) = .ok e ∧
      computeDiff plainDumpInterpreter defaultConfiguration (retryingContract (.str "1"))
        (retryingContract (.int 1)) = .ok e' ∧
      ¬ e'.fieldDiffs.Perm (e.fieldDiffs.map (·.exchanged)) := by
  let name : ModelContractFieldDiff :=
    { fieldPath := "name"
      changeType := .unchanged
      oldValue := some (.prim (.string "fetch"))
      newValue := some (.prim (.string "fetch"))
      valueType := "str" }
  let one : SchemaPrimitive := .number ⟨.finite 1, true⟩
  refine ⟨⟨"fetch", "fetch", [name, retryDiff .unchanged (.boolean true) one "bool"], []⟩,
    ⟨"fetch", "fetch", [name, retryDiff .unchanged one (.boolean true) "int"], []⟩,
    ⟨"fetch", "fetch", [retryDiff .modified one (.string "1") "int"], []⟩,
    ⟨"fetch", "fetch", [retryDiff .modified (.string "1") one "str"], []⟩, ?_, ?_, ?_, ?_, ?_, ?_⟩
  · decide +kernel
  · decide +kernel
  · decide +kernel
  · decide +kernel
  · decide +kernel
  · decide +kernel

end OmnibaseCore.Diff
