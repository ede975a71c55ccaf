import OmnibaseCore.Diff.Computer

/-!
# What a diff reports

* `Step.exists_run_iff`: the computer returns at a place that the comparison comes to if and only if
  it can report what is there.
* `computeDiff_eq_ok_iff`: it returns a diff if and only if it can at each of the places.
-/

namespace OmnibaseCore.Diff

/-! ## Values of entries -/

/-- No integer of the value is too large for a `float`. -/
def Sized (v : DumpValue) : Prop :=
  v.All fun a => ∀ n, a = .strict (.int n) → floatOverflows n = false

section
variable {i : DumpInterpreter}

theorem exists_fromLeaf_iff {a : JsonPrimitive} :
    (∃ s, i.fromLeaf a = .ok s) ↔ ∀ n, a = .strict (.int n) → floatOverflows n = false := by
  cases a with
  | strict p =>
    cases p with
    | int n =>
      show (∃ s, (ModelNumericValue.fromInt n).map SchemaPrimitive.number = .ok s) ↔ _
      unfold ModelNumericValue.fromInt
      cases hn : floatOverflows n with
      | false => simp [hn, Except.map]
      | true => simp [hn, Except.map]
    | _ => simp [DumpInterpreter.fromLeaf]
  | _ => simp [DumpInterpreter.fromLeaf]

theorem fromValue_list (items : List DumpValue) :
    i.fromValue (.list items) = do
      let values ← items.mapM i.fromValue
      return .list values := by
  unfold DumpInterpreter.fromValue
  rw [Json.fold_list, List.mapM_map]
  rfl

theorem fromValue_dict (entries : List (String × DumpValue)) :
    i.fromValue (.dict entries) = do
      let values ← entries.mapM fun e => do
        let value ← i.fromValue e.2
        return (e.1, value)
      return .dict values := by
  unfold DumpInterpreter.fromValue
  rw [Json.fold_dict, List.mapM_map]
  rfl

/-- A value can be wrapped if and only if its integers fit a `float`. -/
theorem exists_fromValue_iff {v : DumpValue} : (∃ s, i.fromValue v = .ok s) ↔ Sized v := by
  unfold Sized
  induction v using Json.ind with
  | null => exact ⟨fun _ => trivial, fun _ => ⟨.null, rfl⟩⟩
  | prim a =>
    rw [Json.all_prim, ← exists_fromLeaf_iff (i := i)]
    show (∃ s, (i.fromLeaf a).map Json.prim = .ok s) ↔ _
    cases i.fromLeaf a <;> simp [Except.map]
  | list items ih =>
    rw [Json.all_list, fromValue_list]
    constructor
    · intro ⟨s, hs⟩ v hv
      obtain ⟨values, hvalues, -⟩ := bind_eq_ok hs
      exact (ih v hv).mp (Json.of_mapM_ok hvalues v hv)
    · intro h
      obtain ⟨values, hvalues⟩ := Json.exists_mapM_ok fun v hv => (ih v hv).mpr (h v hv)
      exact ⟨.list values, by rw [hvalues]; rfl⟩
  | dict entries ih =>
    rw [Json.all_dict, fromValue_dict]
    constructor
    · intro ⟨s, hs⟩ e he
      obtain ⟨values, hvalues, -⟩ := bind_eq_ok hs
      obtain ⟨entry, hentry⟩ := Json.of_mapM_ok hvalues e he
      obtain ⟨value, hvalue, -⟩ := bind_eq_ok hentry
      exact (ih e he).mp ⟨value, hvalue⟩
    · intro h
      have hentries : ∀ e ∈ entries, ∃ entry, (do
          let value ← i.fromValue e.2
          return (e.1, value)) = Except.ok entry := by
        intro e he
        obtain ⟨value, hvalue⟩ := (ih e he).mpr (h e he)
        exact ⟨(e.1, value), by rw [hvalue]; rfl⟩
      obtain ⟨values, hvalues⟩ := Json.exists_mapM_ok hentries
      exact ⟨.dict values, by rw [hvalues]; rfl⟩

/-- The result of a call that returns. -/
def okD {α : Type} (d : α) : Except PyException α → α
  | .ok a => a
  | .error _ => d

theorem eq_ok_iff {α : Type} {d : α} {x : Except PyException α} {a : α} :
    x = .ok a ↔ (∃ b, x = .ok b) ∧ a = okD d x := by
  cases x with
  | error e => simp
  | ok b => simp [okD, eq_comm]

def DumpInterpreter.schemaValue (i : DumpInterpreter) (v : DumpValue) : ModelSchemaValue :=
  okD .null (i.fromValue v)

theorem fromValue_eq_ok_iff {v : DumpValue} {s : ModelSchemaValue} :
    i.fromValue v = .ok s ↔ Sized v ∧ s = i.schemaValue v := by
  rw [eq_ok_iff (d := .null), exists_fromValue_iff]
  rfl

end

/-! ## Fields -/

section
variable (i : DumpInterpreter)

def fieldDiffOf (path : String) (oldValue newValue : DumpValue)
    (changeType : EnumContractDiffChangeType) : ModelContractFieldDiff where
  fieldPath := path
  changeType := changeType
  oldValue :=
    if oldValue.isNull ∧ changeType ≠ .unchanged then none else some (i.schemaValue oldValue)
  newValue :=
    if newValue.isNull ∧ changeType ≠ .unchanged then none else some (i.schemaValue newValue)
  valueType :=
    if !oldValue.isNull then typeName oldValue
    else if !newValue.isNull then typeName newValue
    else "NoneType"

variable {i}

variable {changeType : EnumContractDiffChangeType}

theorem wrapped_eq_ok_iff {v : DumpValue} {o : Option ModelSchemaValue} :
    i.wrapped changeType v = .ok o ↔ Sized v ∧
      o = if v.isNull ∧ changeType ≠ .unchanged then none else some (i.schemaValue v) := by
  unfold DumpInterpreter.wrapped
  by_cases h : v.isNull = true ∧ changeType ≠ .unchanged
  · rw [if_pos h, if_pos h, Except.ok.injEq]
    have hsized : Sized v := by
      rw [Json.isNull_iff.mp h.1]
      trivial
    exact ⟨fun heq => ⟨hsized, heq.symm⟩, fun heq => heq.2.symm⟩
  · rw [if_neg h, if_neg h]
    constructor
    · intro hmap
      obtain ⟨s, hs, heq⟩ := map_eq_ok hmap
      obtain ⟨hsized, hvalue⟩ := fromValue_eq_ok_iff.mp hs
      exact ⟨hsized, by rw [← heq, hvalue]⟩
    · intro ⟨hsized, heq⟩
      rw [fromValue_eq_ok_iff.mpr ⟨hsized, rfl⟩, heq]
      rfl

theorem addFieldDiff_eq_ok_iff {path : String} {oldValue newValue : DumpValue} {d : Diffs} :
    addFieldDiff i path oldValue newValue changeType = .ok d ↔
      Sized oldValue ∧ Sized newValue ∧ path ≠ "" ∧
        (fieldDiffOf i path oldValue newValue changeType).Consistent ∧
        d = { fieldDiffs := [fieldDiffOf i path oldValue newValue changeType] } := by
  unfold addFieldDiff
  simp only [bind_eq_ok_iff, wrapped_eq_ok_iff, ModelContractFieldDiff.validate_eq_ok_iff]
  constructor
  · intro ⟨old, ⟨hold, heqOld⟩, new, ⟨hnew, heqNew⟩, entry, ⟨hpath, hconsistent, hentry⟩, hd⟩
    subst heqOld heqNew hentry
    exact ⟨hold, hnew, hpath, hconsistent, (Except.ok.inj hd).symm⟩
  · intro ⟨hold, hnew, hpath, hconsistent, hd⟩
    exact ⟨_, ⟨hold, rfl⟩, _, ⟨hnew, rfl⟩, _, ⟨hpath, hconsistent, rfl⟩, congrArg Except.ok hd.symm⟩

end

/-! ## Lists with identities -/

section
variable {i : DumpInterpreter} {c : ModelDiffConfiguration} {identityKey : String}

theorem exists_buildIdentityMap_iff {items : List DumpValue} :
    (∃ identityMap, buildIdentityMap i items identityKey = .ok identityMap) ↔
      ∀ item ∈ items, ∃ identity, i.identityValue identityKey item = .ok identity := by
  have hturn : ∀ (identityMap : List (String × ℕ × DumpValue)) (e : DumpValue × ℕ),
      (∃ next, (do
        let identity ← i.identityValue identityKey e.1
        return dictSet identityMap (mapKey (identityMap.map Prod.fst) e.2 identity) (e.2, e.1))
          = Except.ok next) ↔ ∃ identity, i.identityValue identityKey e.1 = .ok identity := by
    intro identityMap e
    cases i.identityValue identityKey e.1 with
    | error err => exact ⟨fun ⟨_, h⟩ => (nomatch h), fun ⟨_, h⟩ => (nomatch h)⟩
    | ok identity => exact ⟨fun _ => ⟨identity, rfl⟩, fun _ => ⟨_, rfl⟩⟩
  have hitems : items = items.zipIdx.map Prod.fst := (List.zipIdx_map_fst 0 items).symm
  unfold buildIdentityMap
  rw [exists_foldlM_iff hturn]
  conv_rhs => rw [hitems]
  rw [List.forall_mem_map]

variable (i identityKey) in
def identityMapOf (items : List DumpValue) : List (String × ℕ × DumpValue) :=
  okD [] (buildIdentityMap i items identityKey)

variable (c) in
/-- What has become of an item: the type of the change and the place and value it has now. -/
def changeOf (afterMap : List (String × ℕ × DumpValue)) (e : String × ℕ × DumpValue) :
    Option (EnumContractDiffChangeType × Option (ℕ × DumpValue)) :=
  match afterMap.lookup e.1 with
  | none => some (.removed, none)
  | some after =>
    if !itemsEqual c e.2.2 after.2 then some (.modified, some after)
    else if e.2.1 ≠ after.1 then some (.moved, some after)
    else none

variable {e : String × ℕ × DumpValue}

variable {afterMap : List (String × ℕ × DumpValue)}

variable (i) in
def changedItemDiff (path : String) (e : String × ℕ × DumpValue)
    (change : EnumContractDiffChangeType × Option (ℕ × DumpValue)) : ModelContractFieldDiff where
  fieldPath := elementPath path e.1
  changeType := change.1
  oldValue := some (i.schemaValue e.2.2)
  newValue := change.2.map fun after => i.schemaValue after.2
  valueType := typeName e.2.2
  oldIndex := if change.1 = .moved then some e.2.1 else none
  newIndex := if change.1 = .moved then change.2.map Prod.fst else none

theorem elementPath_ne_empty (path element : String) : elementPath path element ≠ "" := by
  intro h
  have hlength := congrArg String.length h
  unfold elementPath at hlength
  simp at hlength

variable {o : Option ModelContractFieldDiff}

theorem bothValues_eq_ok_iff {old new : DumpValue}
    {entry : ModelSchemaValue → ModelSchemaValue → ModelContractFieldDiff}
    (hpath : ∀ s t, (entry s t).fieldPath ≠ "") (hconsistent : ∀ s t, (entry s t).Consistent)
    :
    (do
      let s ← i.fromValue old
      let t ← i.fromValue new
      let d ← (entry s t).validate
      return some d) = Except.ok o ↔
      Sized old ∧ Sized new ∧ o = some (entry (i.schemaValue old) (i.schemaValue new)) := by
  simp only [bind_eq_ok_iff, fromValue_eq_ok_iff, ModelContractFieldDiff.validate_eq_ok_iff]
  constructor
  · intro ⟨s, ⟨hold, hs⟩, t, ⟨hnew, ht⟩, d, ⟨_, _, hd⟩, ho⟩
    subst hs ht hd
    exact ⟨hold, hnew, (Except.ok.inj ho).symm⟩
  · intro ⟨hold, hnew, ho⟩
    exact ⟨_, ⟨hold, rfl⟩, _, ⟨hnew, rfl⟩, _, ⟨hpath _ _, hconsistent _ _, rfl⟩,
      congrArg Except.ok ho.symm⟩

/-- An item is reported if and only if it has changed, with the value it has now. -/
theorem beforeItemDiff_eq_ok_iff {path : String} : beforeItemDiff i c path afterMap e = .ok o ↔
      (∀ change, changeOf c afterMap e = some change →
        Sized e.2.2 ∧ ∀ after, change.2 = some after → Sized after.2) ∧
      o = (changeOf c afterMap e).map (changedItemDiff i path e) := by
  obtain ⟨identity, idx, item⟩ := e
  have hpath := elementPath_ne_empty path identity
  unfold beforeItemDiff changeOf
  dsimp only
  cases afterMap.lookup identity with
  | none =>
    simp only [bind_eq_ok_iff, fromValue_eq_ok_iff, ModelContractFieldDiff.validate_eq_ok_iff]
    constructor
    · intro ⟨old, ⟨hsized, hold⟩, d, ⟨_, _, hd⟩, ho⟩
      subst hold hd
      refine ⟨fun change hchange => ⟨hsized, ?_⟩, (Except.ok.inj ho).symm⟩
      rw [← Option.some.inj hchange]
      exact fun after hafter => nomatch hafter
    · intro ⟨hsized, ho⟩
      exact ⟨_, ⟨(hsized _ rfl).1, rfl⟩, _, ⟨hpath, ⟨rfl, rfl⟩, rfl⟩, congrArg Except.ok ho.symm⟩
  | some after =>
    obtain ⟨afterIdx, afterItem⟩ := after
    have hsized : ∀ type : EnumContractDiffChangeType,
        (∀ change, some (type, some (afterIdx, afterItem)) = some change →
          Sized item ∧ ∀ after, change.2 = some after → Sized after.2) ↔
          Sized item ∧ Sized afterItem := by
      intro type
      simp
    dsimp only
    by_cases hequal : itemsEqual c item afterItem = true
    · rw [hequal, Bool.not_true, if_neg Bool.false_ne_true, if_neg Bool.false_ne_true]
      by_cases hidx : idx = afterIdx
      · rw [if_neg (not_not.mpr hidx), if_neg (not_not.mpr hidx)]
        simp [eq_comm]
      · rw [if_pos hidx, if_pos hidx, hsized, and_assoc]
        apply bothValues_eq_ok_iff
        · exact fun _ _ => hpath
        · exact fun _ _ => ⟨rfl, rfl⟩
    · rw [Bool.not_eq_true] at hequal
      rw [hequal, Bool.not_false, if_pos rfl, if_pos rfl, hsized, and_assoc]
      apply bothValues_eq_ok_iff
      · exact fun _ _ => hpath
      · exact fun _ _ => ⟨rfl, rfl⟩

variable (i) in
def addedDiffOf (path : String) (e : String × ℕ × DumpValue) : ModelContractFieldDiff where
  fieldPath := elementPath path e.1
  changeType := .added
  newValue := some (i.schemaValue e.2.2)
  valueType := typeName e.2.2

theorem addedItemDiff_eq_ok_iff {path : String} {d : ModelContractFieldDiff} :
    addedItemDiff i path e = .ok d ↔ Sized e.2.2 ∧ d = addedDiffOf i path e := by
  unfold addedItemDiff
  simp only [bind_eq_ok_iff, fromValue_eq_ok_iff, ModelContractFieldDiff.validate_eq_ok_iff]
  constructor
  · intro ⟨new, ⟨hsized, hnew⟩, _, _, hd⟩
    subst hnew
    exact ⟨hsized, hd⟩
  · intro ⟨hsized, hd⟩
    exact ⟨_, ⟨hsized, rfl⟩, elementPath_ne_empty path e.1, ⟨rfl, rfl⟩, hd⟩

end

/-! ### The reports of a list -/

structure Report where
  old : Option DumpValue := none
  new : Option DumpValue := none

def Report.sides (r : Report) : List DumpValue := r.old.toList ++ r.new.toList

def mapReports (c : ModelDiffConfiguration) (beforeMap afterMap : List (String × ℕ × DumpValue)) :
    List Report :=
  ((afterMap.filter fun e => e.1 ∉ beforeMap.map Prod.fst).map fun e => { new := e.2.2 }) ++
    beforeMap.filterMap fun e => (changeOf c afterMap e).map fun change =>
      { old := e.2.2, new := change.2.map Prod.snd }

def setReports (beforeSet afterSet : List DumpValue) : List Report :=
  ((setDifference afterSet beforeSet).map fun v => { new := v }) ++
    (setDifference beforeSet afterSet).map fun v => { old := v }

section
variable (i : DumpInterpreter) (c : ModelDiffConfiguration) (identityKey : String)

def listReports (before after : List DumpValue) : List Report :=
  if identityKey = "__value__" then
    setReports (setOf (before.map toHashable)) (setOf (after.map toHashable))
  else mapReports c (identityMapOf i identityKey before) (identityMapOf i identityKey after)

def DumpInterpreter.reportedValue (v : DumpValue) : Except PyException ModelSchemaValue :=
  if identityKey = "__value__" then i.fromHashable v else i.fromValue v

def CanReport (v : DumpValue) : Prop :=
  (identityKey = "__value__" → ∃ text, i.hashableStr v = .ok text) ∧
    ∃ s, i.reportedValue identityKey v = .ok s

structure ListsReportable (before after : List DumpValue) (path : String) : Prop where
  path_ne : path ≠ ""
  identityKey_ne : identityKey ≠ ""
  identities : identityKey ≠ "__value__" → ∀ item ∈ before ++ after,
    ∃ identity, i.identityValue identityKey item = .ok identity
  reports : ∀ r ∈ listReports i c identityKey before after, ∀ v ∈ r.sides, CanReport i identityKey v

end

section
variable {i : DumpInterpreter} {c : ModelDiffConfiguration} {identityKey : String}

theorem buildIdentityMap_eq_ok_iff {items : List DumpValue}
    {identityMap : List (String × ℕ × DumpValue)} :
    buildIdentityMap i items identityKey = .ok identityMap ↔
      (∀ item ∈ items, ∃ identity, i.identityValue identityKey item = .ok identity) ∧
        identityMap = identityMapOf i identityKey items := by
  rw [eq_ok_iff (d := []), exists_buildIdentityMap_iff]
  rfl

theorem canReport_iff (hkey : identityKey ≠ "__value__") {v : DumpValue} :
    CanReport i identityKey v ↔ Sized v := by
  unfold CanReport DumpInterpreter.reportedValue
  rw [if_neg hkey, exists_fromValue_iff]
  exact ⟨fun h => h.2, fun h => ⟨fun heq => absurd heq hkey, h⟩⟩

theorem canReport_mapReports (hkey : identityKey ≠ "__value__")
    {beforeMap afterMap : List (String × ℕ × DumpValue)} :
    (∀ r ∈ mapReports c beforeMap afterMap, ∀ v ∈ r.sides, CanReport i identityKey v) ↔
      (∀ e ∈ beforeMap, ∀ change, changeOf c afterMap e = some change →
        Sized e.2.2 ∧ ∀ after, change.2 = some after → Sized after.2) ∧
      ∀ e ∈ afterMap.filter fun e => e.1 ∉ beforeMap.map Prod.fst, Sized e.2.2 := by
  simp only [canReport_iff hkey]
  unfold mapReports Report.sides
  rw [List.forall_mem_append, List.forall_mem_map, and_comm]
  refine and_congr ?_ (by simp)
  constructor
  · intro h e he change hchange
    have hreport := h _ (List.mem_filterMap.mpr ⟨e, he, by rw [hchange]; rfl⟩)
    refine ⟨hreport _ (by simp), fun after hafter => hreport _ ?_⟩
    simp [hafter]
  · intro h r hr
    obtain ⟨e, he, hmap⟩ := List.mem_filterMap.mp hr
    obtain ⟨change, hchange, heq⟩ := Option.map_eq_some_iff.mp hmap
    obtain ⟨hitem, hafter⟩ := h e he change hchange
    intro v hv
    rw [← heq] at hv
    cases hnew : change.2 with
    | none =>
      obtain rfl : v = e.2.2 := by simpa [hnew] using hv
      exact hitem
    | some after =>
      have hv' : v = e.2.2 ∨ v = after.2 := by simpa [hnew] using hv
      rcases hv' with rfl | rfl
      · exact hitem
      · exact hafter after hnew

variable (i c) in
def mapsDiff (path identityKey : String) (beforeMap afterMap : List (String × ℕ × DumpValue)) :
    ModelContractListDiff :=
  let items := beforeMap.map fun e => (changeOf c afterMap e).map (changedItemDiff i path e)
  let changed := items.reduceOption
  { fieldPath := path
    identityKey := identityKey
    addedItems := (afterMap.filter fun e => e.1 ∉ beforeMap.map Prod.fst).map (addedDiffOf i path)
    removedItems := changed.filter fun d => d.changeType = .removed
    modifiedItems := changed.filter fun d => d.changeType = .modified
    movedItems := changed.filter fun d => d.changeType = .moved
    unchangedCount := items.countP Option.isNone }

variable {before after : List DumpValue} {path : String}

theorem diffListWithIdentity_eq_ok_iff (hkey : identityKey ≠ "__value__")
    {ld : ModelContractListDiff} : diffListWithIdentity i c before after path identityKey = .ok ld ↔
      ListsReportable i c identityKey before after path ∧
      ld = mapsDiff i c path identityKey (identityMapOf i identityKey before)
        (identityMapOf i identityKey after) := by
  have hreports := @canReport_mapReports i c identityKey hkey (identityMapOf i identityKey before)
    (identityMapOf i identityKey after)
  unfold diffListWithIdentity
  rw [if_neg hkey]
  simp only [bind_eq_ok_iff, buildIdentityMap_eq_ok_iff,
    mapM_eq_ok_iff fun _ _ => beforeItemDiff_eq_ok_iff,
    mapM_eq_ok_iff fun _ _ => addedItemDiff_eq_ok_iff, ModelContractListDiff.validate_eq_ok_iff]
  constructor
  · intro ⟨_, ⟨hbefore, heqBefore⟩, _, ⟨hafter, heqAfter⟩, _, ⟨hitems, heqItems⟩, _,
      ⟨hadded, heqAdded⟩, hpath, hne, hld⟩
    subst heqBefore heqAfter heqItems heqAdded
    refine ⟨⟨hpath, hne, fun _ => List.forall_mem_append.mpr ⟨hbefore, hafter⟩, ?_⟩, hld⟩
    unfold listReports
    rw [if_neg hkey]
    exact hreports.mpr ⟨hitems, hadded⟩
  · intro ⟨h, hld⟩
    have hvalues := h.reports
    unfold listReports at hvalues
    rw [if_neg hkey] at hvalues
    obtain ⟨hitems, hadded⟩ := hreports.mp hvalues
    obtain ⟨hbefore, hafter⟩ := List.forall_mem_append.mp (h.identities hkey)
    exact ⟨_, ⟨hbefore, rfl⟩, _, ⟨hafter, rfl⟩, _, ⟨hitems, rfl⟩, _, ⟨hadded, rfl⟩, h.path_ne,
      h.identityKey_ne, hld⟩

theorem reduceOption_changes (path : String) (beforeMap afterMap : List (String × ℕ × DumpValue)) :
    (beforeMap.map fun e => (changeOf c afterMap e).map (changedItemDiff i path e)).reduceOption
      = beforeMap.filterMap fun e => (changeOf c afterMap e).map (changedItemDiff i path e) := by
  unfold List.reduceOption
  rw [List.filterMap_map]
  rfl

/-! ### Lists of values -/

theorem sortedByStr_eq_ok_iff {values : List DumpValue} {l : List (String × DumpValue)} :
    i.sortedByStr values = .ok l ↔ (∀ v ∈ values, ∃ text, i.hashableStr v = .ok text) ∧
      l = sortedAsc Prod.fst (values.map fun v => (okD "" (i.hashableStr v), v)) := by
  have htext : ∀ (v : DumpValue) (e : String × DumpValue), (do
      let text ← i.hashableStr v
      return (text, v)) = Except.ok e ↔
      (∃ text, i.hashableStr v = .ok text) ∧ e = (okD "" (i.hashableStr v), v) := by
    intro v e
    cases i.hashableStr v with
    | error err => exact ⟨fun h => (nomatch h), fun ⟨⟨_, h⟩, _⟩ => (nomatch h)⟩
    | ok text =>
      exact ⟨fun h => ⟨⟨text, rfl⟩, (Except.ok.inj h).symm⟩, fun h => congrArg Except.ok h.2.symm⟩
  unfold DumpInterpreter.sortedByStr
  simp only [bind_eq_ok_iff, mapM_eq_ok_iff htext]
  constructor
  · intro ⟨_, ⟨htexts, heq⟩, hl⟩
    subst heq
    exact ⟨htexts, (Except.ok.inj hl).symm⟩
  · intro ⟨htexts, hl⟩
    exact ⟨_, ⟨htexts, rfl⟩, congrArg Except.ok hl.symm⟩

theorem sortedByStr_mapM_eq_ok_iff {values : List DumpValue}
    {entry : String × DumpValue → ModelSchemaValue → ModelContractFieldDiff}
    (hpath : ∀ e s, (entry e s).fieldPath ≠ "") (hconsistent : ∀ e s, (entry e s).Consistent)
    {items : List ModelContractFieldDiff} :
    (do
      let l ← i.sortedByStr (i.setOrder values)
      l.mapM fun e => do
        let s ← i.fromHashable e.2
        (entry e s).validate) = Except.ok items ↔
      (∀ v ∈ values, CanReport i "__value__" v) ∧
        items = (sortedAsc Prod.fst ((i.setOrder values).map fun v =>
          (okD "" (i.hashableStr v), v))).map fun e => entry e (okD .null (i.fromHashable e.2)) := by
  have hentry : ∀ (e : String × DumpValue) (d : ModelContractFieldDiff), (do
      let s ← i.fromHashable e.2
      (entry e s).validate) = Except.ok d ↔
      (∃ s, i.fromHashable e.2 = .ok s) ∧ d = entry e (okD .null (i.fromHashable e.2)) := by
    intro e d
    cases i.fromHashable e.2 with
    | error err => exact ⟨fun h => (nomatch h), fun ⟨⟨_, h⟩, _⟩ => (nomatch h)⟩
    | ok s =>
      show (entry e s).validate = .ok d ↔ _
      rw [ModelContractFieldDiff.validate_eq_ok_iff]
      exact ⟨fun h => ⟨⟨s, rfl⟩, h.2.2⟩, fun h => ⟨hpath e s, hconsistent e s, h.2⟩⟩
  have hmem : (∀ e ∈ sortedAsc Prod.fst ((i.setOrder values).map fun v =>
        (okD "" (i.hashableStr v), v)), ∃ s, i.fromHashable e.2 = .ok s) ↔
      ∀ v ∈ values, ∃ s, i.fromHashable v = .ok s := by
    simp only [(perm_sortedAsc _ _).mem_iff, List.forall_mem_map, (i.perm_setOrder values).mem_iff]
  have hstr : (∀ v ∈ i.setOrder values, ∃ text, i.hashableStr v = .ok text) ↔
      ∀ v ∈ values, ∃ text, i.hashableStr v = .ok text := by
    simp only [(i.perm_setOrder values).mem_iff]
  simp only [bind_eq_ok_iff, sortedByStr_eq_ok_iff, mapM_eq_ok_iff hentry]
  constructor
  · intro ⟨_, ⟨htexts, heq⟩, hvalues, hitems⟩
    subst heq
    exact ⟨fun v hv => ⟨fun _ => hstr.mp htexts v hv, hmem.mp hvalues v hv⟩, hitems⟩
  · intro ⟨hreport, hitems⟩
    exact ⟨_, ⟨hstr.mpr fun v hv => (hreport v hv).1 rfl, rfl⟩, hmem.mpr fun v hv => (hreport v hv).2,
      hitems⟩

def addedValueDiff (path : String) (e : String × DumpValue) (s : ModelSchemaValue) :
    ModelContractFieldDiff where
  fieldPath := elementPath path e.1
  changeType := .added
  newValue := some s
  valueType := hashableTypeName e.2

def removedValueDiff (path : String) (e : String × DumpValue) (s : ModelSchemaValue) :
    ModelContractFieldDiff where
  fieldPath := elementPath path e.1
  changeType := .removed
  oldValue := some s
  valueType := hashableTypeName e.2

def valueDiffs (i : DumpInterpreter)
    (entry : String × DumpValue → ModelSchemaValue → ModelContractFieldDiff)
    (values : List DumpValue) : List ModelContractFieldDiff :=
  (sortedAsc Prod.fst ((i.setOrder values).map fun v => (okD "" (i.hashableStr v), v))).map fun e =>
    entry e (okD .null (i.fromHashable e.2))

/-- Two lists of values are compared as sets. -/
theorem diffPrimitiveList_eq_ok_iff {ld : ModelContractListDiff} :
    diffPrimitiveList i before after path = .ok ld ↔ path ≠ "" ∧
      (∀ v ∈ setDifference (setOf (after.map toHashable)) (setOf (before.map toHashable)),
        CanReport i "__value__" v) ∧
      (∀ v ∈ setDifference (setOf (before.map toHashable)) (setOf (after.map toHashable)),
        CanReport i "__value__" v) ∧
      ld = {
        fieldPath := path
        identityKey := "__value__"
        addedItems := valueDiffs i (addedValueDiff path)
          (setDifference (setOf (after.map toHashable)) (setOf (before.map toHashable)))
        removedItems := valueDiffs i (removedValueDiff path)
          (setDifference (setOf (before.map toHashable)) (setOf (after.map toHashable)))
        unchangedCount := ((setOf (before.map toHashable)).filter fun v =>
          (setOf (after.map toHashable)).any fun u => u.pyEq v).length } := by
  have hpath : ∀ e : String × DumpValue, elementPath path e.1 ≠ "" :=
    fun e => elementPath_ne_empty path e.1
  have hadded := fun values items => @sortedByStr_mapM_eq_ok_iff i values (addedValueDiff path)
    (fun e _ => hpath e) (fun _ _ => ⟨rfl, rfl⟩) items
  have hremoved := fun values items => @sortedByStr_mapM_eq_ok_iff i values (removedValueDiff path)
    (fun e _ => hpath e) (fun _ _ => ⟨rfl, rfl⟩) items
  unfold diffPrimitiveList
  simp only [bind_eq_ok_iff, ModelContractListDiff.validate_eq_ok_iff]
  constructor
  · intro ⟨_, hsortAdded, _, haddedItems, _, hsortRemoved, _, hremovedItems, hne, _, hld⟩
    have hadds := (hadded _ _).mp (bind_eq_ok_iff.mpr ⟨_, hsortAdded, haddedItems⟩)
    have hremoves := (hremoved _ _).mp (bind_eq_ok_iff.mpr ⟨_, hsortRemoved, hremovedItems⟩)
    rw [hadds.2, hremoves.2] at hld
    exact ⟨hne, hadds.1, hremoves.1, hld⟩
  · intro ⟨hne, hadds, hremoves, hld⟩
    obtain ⟨_, hsortAdded, haddedItems⟩ := bind_eq_ok ((hadded _ _).mpr ⟨hadds, rfl⟩)
    obtain ⟨_, hsortRemoved, hremovedItems⟩ := bind_eq_ok ((hremoved _ _).mpr ⟨hremoves, rfl⟩)
    exact ⟨_, hsortAdded, _, haddedItems, _, hsortRemoved, _, hremovedItems, hne, by decide, hld⟩

variable (c) in
theorem exists_diffPrimitiveList_iff : (∃ ld, diffPrimitiveList i before after path = .ok ld) ↔
    ListsReportable i c "__value__" before after path := by
  have hreports : (∀ r ∈ listReports i c "__value__" before after,
      ∀ v ∈ r.sides, CanReport i "__value__" v) ↔
      (∀ v ∈ setDifference (setOf (after.map toHashable)) (setOf (before.map toHashable)),
        CanReport i "__value__" v) ∧
      ∀ v ∈ setDifference (setOf (before.map toHashable)) (setOf (after.map toHashable)),
        CanReport i "__value__" v := by
    unfold listReports setReports Report.sides
    rw [if_pos rfl, List.forall_mem_append, List.forall_mem_map, List.forall_mem_map]
    simp
  constructor
  · intro ⟨ld, hld⟩
    obtain ⟨hne, hadds, hremoves, -⟩ := diffPrimitiveList_eq_ok_iff.mp hld
    exact ⟨hne, by decide, fun h => absurd rfl h, hreports.mpr ⟨hadds, hremoves⟩⟩
  · intro h
    obtain ⟨hadds, hremoves⟩ := hreports.mp h.reports
    exact ⟨_, diffPrimitiveList_eq_ok_iff.mpr ⟨h.path_ne, hadds, hremoves, rfl⟩⟩

/-- Two lists of items with identities are compared if and only if what is to be reported of them
can be. -/
theorem exists_diffListWithIdentity_iff :
    (∃ ld, diffListWithIdentity i c before after path identityKey = .ok ld) ↔
      ListsReportable i c identityKey before after path := by
  by_cases hkey : identityKey = "__value__"
  · subst hkey
    unfold diffListWithIdentity
    rw [if_pos rfl]
    exact exists_diffPrimitiveList_iff c
  · exact ⟨fun ⟨ld, hld⟩ => ((diffListWithIdentity_eq_ok_iff hkey).mp hld).1, fun h =>
      ⟨_, (diffListWithIdentity_eq_ok_iff hkey).mpr ⟨h, rfl⟩⟩⟩

end

/-! ## Places -/

section
variable (i : DumpInterpreter) (c : ModelDiffConfiguration)

/-- What the computer appends at a place can be built: no value that is missing on one side is
`None`, and the path is not empty. -/
def Step.Reportable : Step → Prop
  | added path value | removed path value => path ≠ "" ∧ value ≠ .null ∧ Sized value
  | values path before after =>
    if before.pyEq after then c.includeUnchanged = true → path ≠ "" ∧ Sized before ∧ Sized after
    else path ≠ "" ∧ before ≠ .null ∧ after ≠ .null ∧ Sized before ∧ Sized after
  | lists path identityKey before after => ListsReportable i c identityKey before after path

variable {i c}

theorem isNull_eq_false_iff {v : DumpValue} : v.isNull = false ↔ v ≠ .null := by
  rw [← Bool.not_eq_true, Json.isNull_iff]

variable {path : String} {d : Diffs}

theorem run_added_eq_ok_iff {value : DumpValue} :
    (Step.added path value).run i c = .ok d ↔ (Step.added path value).Reportable i c ∧
      d = { fieldDiffs := [fieldDiffOf i path .null value .added] } := by
  have hconsistent : (fieldDiffOf i path .null value .added).Consistent ↔ value ≠ .null := by
    rw [← isNull_eq_false_iff]
    cases h : value.isNull <;> simp [ModelContractFieldDiff.Consistent, fieldDiffOf, h]
  show addFieldDiff i path .null value .added = .ok d ↔ _
  rw [addFieldDiff_eq_ok_iff, hconsistent]
  exact ⟨fun ⟨_, hsized, hpath, hnull, hd⟩ => ⟨⟨hpath, hnull, hsized⟩, hd⟩,
    fun ⟨⟨hpath, hnull, hsized⟩, hd⟩ => ⟨trivial, hsized, hpath, hnull, hd⟩⟩

theorem run_removed_eq_ok_iff {value : DumpValue} :
    (Step.removed path value).run i c = .ok d ↔ (Step.removed path value).Reportable i c ∧
      d = { fieldDiffs := [fieldDiffOf i path value .null .removed] } := by
  have hconsistent : (fieldDiffOf i path value .null .removed).Consistent ↔ value ≠ .null := by
    rw [← isNull_eq_false_iff]
    cases h : value.isNull <;> simp [ModelContractFieldDiff.Consistent, fieldDiffOf, h]
  show addFieldDiff i path value .null .removed = .ok d ↔ _
  rw [addFieldDiff_eq_ok_iff, hconsistent]
  exact ⟨fun ⟨hsized, _, hpath, hnull, hd⟩ => ⟨⟨hpath, hnull, hsized⟩, hd⟩,
    fun ⟨⟨hpath, hnull, hsized⟩, hd⟩ => ⟨hsized, trivial, hpath, hnull, hd⟩⟩

/-- What the computer appends for two values that are compared by `==`. -/
def valuesFound (i : DumpInterpreter) (c : ModelDiffConfiguration) (path : String)
    (before after : DumpValue) : Diffs :=
  if before.pyEq after then
    if c.includeUnchanged then
      { fieldDiffs := [fieldDiffOf i path before after .unchanged] }
    else {}
  else { fieldDiffs := [fieldDiffOf i path before after .modified] }

theorem run_values_eq_ok_iff {before after : DumpValue} :
    (Step.values path before after).run i c = .ok d ↔
      (Step.values path before after).Reportable i c ∧ d = valuesFound i c path before after := by
  have hmodified : (fieldDiffOf i path before after .modified).Consistent ↔
      before ≠ .null ∧ after ≠ .null := by
    rw [← isNull_eq_false_iff, ← isNull_eq_false_iff]
    cases hb : before.isNull <;> cases ha : after.isNull <;>
      simp [ModelContractFieldDiff.Consistent, fieldDiffOf, hb, ha]
  have hunchanged : (fieldDiffOf i path before after .unchanged).Consistent := by
    simp [ModelContractFieldDiff.Consistent, fieldDiffOf]
  show diffScalars i c path before after = .ok d ↔ (if _ then _ else _) ∧ _
  unfold diffScalars valuesFound
  cases heq : before.pyEq after with
  | false =>
    rw [Bool.not_false, if_pos rfl, if_neg Bool.false_ne_true, if_neg Bool.false_ne_true,
      addFieldDiff_eq_ok_iff, hmodified]
    tauto
  | true =>
    rw [Bool.not_true, if_neg Bool.false_ne_true, if_pos rfl, if_pos rfl]
    cases hinclude : c.includeUnchanged with
    | false => simp [eq_comm]
    | true =>
      rw [if_pos rfl, if_pos rfl, addFieldDiff_eq_ok_iff]
      tauto

theorem run_lists_eq_ok_iff {path identityKey : String} {before after : List DumpValue} :
    (Step.lists path identityKey before after).run i c = .ok d ↔
      ∃ ld, diffListWithIdentity i c before after path identityKey = .ok ld ∧
        d = { listDiffs := if ld.hasChanges || c.includeUnchanged then [ld] else [] } := by
  show diffIdentityList i c before after path identityKey = .ok d ↔ _
  unfold diffIdentityList
  rw [bind_eq_ok_iff]
  exact ⟨fun ⟨ld, hld, hd⟩ => ⟨ld, hld, (Except.ok.inj hd).symm⟩,
    fun ⟨ld, hld, hd⟩ => ⟨ld, hld, congrArg Except.ok hd.symm⟩⟩

variable {s : Step}

/-- The computer returns at a place if and only if it can report what is there. -/
theorem Step.exists_run_iff : (∃ d, s.run i c = .ok d) ↔ s.Reportable i c := by
  cases s with
  | added path value => simp only [run_added_eq_ok_iff, exists_and_left, exists_eq, and_true]
  | removed path value => simp only [run_removed_eq_ok_iff, exists_and_left, exists_eq, and_true]
  | values path before after =>
    simp only [run_values_eq_ok_iff, exists_and_left, exists_eq, and_true]
  | lists path identityKey before after =>
    refine Iff.trans ?_ exists_diffListWithIdentity_iff
    simp only [run_lists_eq_ok_iff]
    exact ⟨fun ⟨_, ld, hld, _⟩ => ⟨ld, hld⟩, fun ⟨ld, hld⟩ => ⟨_, ld, hld, rfl⟩⟩

/-! ## All places -/

variable (i c) in
/-- What the computer appends at a place, if it returns. -/
def Step.found (s : Step) : Diffs := okD {} (s.run i c)

theorem Step.run_eq_ok_iff : s.run i c = .ok d ↔ s.Reportable i c ∧ d = s.found i c := by
  rw [eq_ok_iff (d := {}), Step.exists_run_iff]
  rfl

variable {steps : List Step}

theorem runAll_eq_ok_iff : runAll i c steps = .ok d ↔
      (∀ s ∈ steps, s.Reportable i c) ∧ d = Diffs.concat (steps.map (Step.found i c)) := by
  unfold runAll
  simp only [bind_eq_ok_iff, mapM_eq_ok_iff fun _ _ => Step.run_eq_ok_iff]
  constructor
  · intro ⟨_, ⟨hreportable, heq⟩, hd⟩
    subst heq
    exact ⟨hreportable, (Except.ok.inj hd).symm⟩
  · intro ⟨hreportable, hd⟩
    exact ⟨_, ⟨hreportable, rfl⟩, congrArg Except.ok hd.symm⟩

end

/-! ## Contracts -/

section
variable (i : DumpInterpreter) (c : ModelDiffConfiguration) (before after : Contract)

def Contract.dump (contract : Contract) : DumpValue := .dict contract.modelDump.entries

/-- The places that the comparison of two contracts comes to. -/
def places : List Step := steps c before.dump "" after.dump

variable {i c before after}

/-- A diff is returned if and only if the contracts have names and everything that the comparison
comes to can be reported. -/
theorem computeDiff_eq_ok_iff {diff : ModelContractDiff} :
    computeDiff i c before after = .ok diff ↔
      ∃ beforeName afterName, i.getContractName before = .ok beforeName ∧ beforeName ≠ "" ∧
        i.getContractName after = .ok afterName ∧ afterName ≠ "" ∧
        (∀ s ∈ places c before after, s.Reportable i c) ∧
        diff = {
          beforeContractName := beforeName
          afterContractName := afterName
          fieldDiffs := (Diffs.concat ((places c before after).map (Step.found i c))).fieldDiffs
          listDiffs := (Diffs.concat ((places c before after).map (Step.found i c))).listDiffs } := by
  have hvalidate : ∀ d : ModelContractDiff, d.validate = .ok diff ↔
      d.beforeContractName ≠ "" ∧ d.afterContractName ≠ "" ∧ diff = d := by
    intro d
    unfold ModelContractDiff.validate
    by_cases h : d.beforeContractName = "" ∨ d.afterContractName = ""
    · rw [if_pos h]
      exact ⟨fun heq => (nomatch heq), fun ⟨hb, ha, _⟩ => (h.elim hb ha).elim⟩
    · rw [if_neg h]
      rw [not_or] at h
      exact ⟨fun heq => ⟨h.1, h.2, (Except.ok.inj heq).symm⟩, fun heq => congrArg Except.ok heq.2.2.symm⟩
  unfold computeDiff
  simp only [bind_eq_ok_iff, diffValues_eq, runAll_eq_ok_iff, hvalidate]
  constructor
  · intro ⟨beforeName, hbefore, afterName, hafter, _, ⟨hreportable, heq⟩, hb, ha, hdiff⟩
    subst heq
    exact ⟨beforeName, afterName, hbefore, hb, hafter, ha, hreportable, hdiff⟩
  · intro ⟨beforeName, afterName, hbefore, hb, hafter, ha, hreportable, hdiff⟩
    exact ⟨beforeName, hbefore, afterName, hafter, _, ⟨hreportable, rfl⟩, hb, ha, hdiff⟩

end

end OmnibaseCore.Diff
