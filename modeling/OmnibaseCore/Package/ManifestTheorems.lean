import OmnibaseCore.Package.Manifest

/-!
# Manifests come back from their dumps
-/

namespace OmnibaseCore.Package

open Merge (EnumOverlayScope)

inductive DistinctKeys : Document → Prop
  | null : DistinctKeys .null
  | prim (a : StrictJsonPrimitive) : DistinctKeys (.prim a)
  | list {items : List Document} (h : ∀ j ∈ items, DistinctKeys j) : DistinctKeys (.list items)
  | dict {entries : List (String × Document)} (hkeys : (entries.map Prod.fst).Nodup)
      (h : ∀ e ∈ entries, DistinctKeys e.2) : DistinctKeys (.dict entries)

/-- What the packages rely on: `safe_load` inverts `dump`, which writes keys in order, and the
models take what they have dumped. -/
structure Inverts {Patch : Type} (i : OncpInterpreter Patch) : Prop where
  safeLoad_yamlDump : ∀ d raw, DistinctKeys d → i.yamlDump d = .ok raw →
    i.safeLoad raw = .ok d.sortKeys
  distinctKeys_patchDump : ∀ p, DistinctKeys (i.patchDump p)
  patchValidate_patchDump : ∀ p, i.patchValidate (i.patchDump p).sortKeys = .ok p
  laxInt_int : ∀ n, i.laxInt (.prim (.int n)) = some n
  laxBool_bool : ∀ b, i.laxBool (.prim (.bool b)) = some b

/-! ## Fields -/

def sortEntries (entries : List (String × Document)) : List (String × Document) :=
  (sortedAsc Prod.fst entries).map fun e => (e.1, e.2.sortKeys)

theorem lookup_eq_find? {β : Type} (entries : List (String × β)) (key : String) :
    entries.lookup key = (entries.find? fun e => e.1 = key).map Prod.snd := by
  induction entries with
  | nil => rfl
  | cons e entries ih =>
    rw [List.lookup_cons, List.find?_cons]
    by_cases hkey : key = e.1
    · simp [hkey]
    · rw [beq_eq_false_iff_ne.mpr hkey, decide_eq_false (Ne.symm hkey)]
      exact ih

theorem lookup_sortEntries (entries : List (String × Document)) (key : String) :
    (sortEntries entries).lookup key = (entries.lookup key).map Json.sortKeys := by
  unfold sortEntries
  rw [lookup_eq_find?, lookup_eq_find?, List.find?_map]
  show Option.map Prod.snd (Option.map _ ((sortedAsc Prod.fst entries).find? fun e => e.1 = key)) = _
  rw [find?_sortedAsc_key, Option.map_map, Option.map_map]
  rfl

theorem fieldsOf_sortKeys {allowed : List String} {entries : List (String × Document)}
    (h : ∀ e ∈ entries, e.1 ∈ allowed) :
    fieldsOf allowed (Json.sortKeys (.dict entries)) = some (sortEntries entries) := by
  rw [Json.sortKeys_dict]
  show (if _ then some (sortEntries entries) else none) = _
  rw [if_pos]
  rw [List.all_map, List.all_eq_true]
  intro e he
  exact decide_eq_true (h e ((perm_sortedAsc Prod.fst entries).mem_iff.mp he))

section
variable {entries : List (String × Document)} {key : String}

theorem readText_sortEntries {s : String} (h : entries.lookup key = some (text s)) (hs : s ≠ "") :
    readText (sortEntries entries) key = some s := by
  unfold readText
  rw [lookup_sortEntries, h]
  exact if_neg hs

theorem readScope_sortEntries {scope : EnumOverlayScope}
    (h : entries.lookup key = some (text scope.value)) :
    readScope (sortEntries entries) key = some scope := by
  unfold readScope
  rw [lookup_sortEntries, h]
  cases scope <;> rfl

theorem readInt_sortEntries {laxInt : Document → Option ℤ}
    (hlax : ∀ n, laxInt (.prim (.int n)) = some n) {least n : ℤ} {default : Option ℤ}
    (h : entries.lookup key = some (.prim (.int n))) (hn : least ≤ n) :
    readInt laxInt least (sortEntries entries) key default = some n := by
  unfold readInt
  rw [lookup_sortEntries, h]
  show (laxInt (.prim (.int n))).filter _ = some n
  rw [hlax, Option.filter_some, if_pos (decide_eq_true hn)]

theorem readBool_sortEntries {laxBool : Document → Option Bool}
    (hlax : ∀ b, laxBool (.prim (.bool b)) = some b) {b default : Bool}
    (h : entries.lookup key = some (.prim (.bool b))) :
    readBool laxBool (sortEntries entries) key default = some b := by
  unfold readBool
  rw [lookup_sortEntries, h]
  exact hlax b

theorem readModels_sortEntries {Model : Type} {read : Document → Option Model}
    {dump : Model → Document} {models : List Model}
    (h : entries.lookup key = some (.list (models.map dump)))
    (hread : ∀ m ∈ models, read (dump m).sortKeys = some m) :
    readModels read (sortEntries entries) key = some models := by
  unfold readModels
  rw [lookup_sortEntries, h, Option.map_some, Json.sortKeys_list, List.map_map]
  show List.mapM read _ = _
  rw [List.mapM_map]
  clear h
  induction models with
  | nil => rfl
  | cons m models ih =>
    rw [List.forall_mem_cons] at hread
    rw [List.mapM_cons, ih hread.2]
    show (read (dump m).sortKeys >>= _) = _
    rw [hread.1]
    rfl

end

/-! ## Models -/

structure ModelOncpOverlayEntry.Valid (e : ModelOncpOverlayEntry) : Prop where
  overlayId : e.overlayId ≠ ""
  path : e.path ≠ ""
  contentHash : e.contentHash ≠ ""

structure ModelOncpFileEntry.Valid (e : ModelOncpFileEntry) : Prop where
  id : e.id ≠ ""
  path : e.path ≠ ""
  contentHash : e.contentHash ≠ ""

structure ModelOncpManifest.Valid (m : ModelOncpManifest) : Prop where
  manifestVersion : 1 ≤ m.manifestVersion
  packageId : m.packageId ≠ ""
  packageVersion : m.packageVersion ≠ ""
  baseProfileRef : m.baseProfileRef ≠ ""
  baseProfileVersion : m.baseProfileVersion ≠ ""
  baseProfileHash : m.baseProfileHash ≠ ""
  omnibaseCoreVersion : m.omnibaseCoreVersion ≠ ""
  overlays : ∀ e ∈ m.overlays, e.Valid
  resolvedContractHash : m.resolvedContractHash ≠ ""
  scenarios : ∀ e ∈ m.scenarios, e.Valid
  invariants : ∀ e ∈ m.invariants, e.Valid

variable {Patch : Type} {i : OncpInterpreter Patch}

theorem readOverlayEntry_sortKeys (hi : Inverts i) {e : ModelOncpOverlayEntry} (he : e.Valid) :
    readOverlayEntry i e.modelDump.sortKeys = some e := by
  unfold readOverlayEntry ModelOncpOverlayEntry.modelDump
  simp only [Option.bind_eq_bind]
  rw [fieldsOf_sortKeys (by simp), Option.bind_some,
    readText_sortEntries rfl he.overlayId, Option.bind_some,
    readScope_sortEntries rfl, Option.bind_some,
    readText_sortEntries rfl he.path, Option.bind_some,
    readText_sortEntries rfl he.contentHash, Option.bind_some,
    readInt_sortEntries hi.laxInt_int rfl (by simp)]
  rfl

theorem readFileEntry_sortKeys (hi : Inverts i) {e : ModelOncpFileEntry} (he : e.Valid) :
    readFileEntry i e.modelDump.sortKeys = some e := by
  unfold readFileEntry ModelOncpFileEntry.modelDump
  simp only [Option.bind_eq_bind]
  rw [fieldsOf_sortKeys (by simp), Option.bind_some,
    readText_sortEntries rfl he.id, Option.bind_some,
    readText_sortEntries rfl he.path, Option.bind_some,
    readText_sortEntries rfl he.contentHash, Option.bind_some,
    readBool_sortEntries hi.laxBool_bool rfl]
  rfl

theorem validateManifest_sortKeys (hi : Inverts i) {m : ModelOncpManifest} (hm : m.Valid) :
    validateManifest i m.modelDump.sortKeys = .ok m := by
  have hread : readManifest i m.modelDump.sortKeys = some m := by
    unfold readManifest ModelOncpManifest.modelDump
    simp only [Option.bind_eq_bind]
    rw [fieldsOf_sortKeys (by simp), Option.bind_some,
      readInt_sortEntries hi.laxInt_int rfl hm.manifestVersion, Option.bind_some,
      readText_sortEntries rfl hm.packageId, Option.bind_some,
      readText_sortEntries rfl hm.packageVersion, Option.bind_some,
      readText_sortEntries rfl hm.baseProfileRef, Option.bind_some,
      readText_sortEntries rfl hm.baseProfileVersion, Option.bind_some,
      readText_sortEntries rfl hm.baseProfileHash, Option.bind_some,
      readText_sortEntries rfl hm.omnibaseCoreVersion, Option.bind_some,
      readModels_sortEntries rfl fun e he => readOverlayEntry_sortKeys hi (hm.overlays e he),
      Option.bind_some, readText_sortEntries rfl hm.resolvedContractHash, Option.bind_some,
      readModels_sortEntries rfl fun e he => readFileEntry_sortKeys hi (hm.scenarios e he),
      Option.bind_some,
      readModels_sortEntries rfl fun e he => readFileEntry_sortKeys hi (hm.invariants e he)]
    rfl
  unfold validateManifest
  rw [hread]

theorem ModelOncpOverlayEntry.distinctKeys (e : ModelOncpOverlayEntry) :
    DistinctKeys e.modelDump := by
  refine .dict (by simp) ?_
  simp only [List.forall_mem_cons, List.not_mem_nil, false_implies, implies_true, and_true]
  exact ⟨.prim _, .prim _, .prim _, .prim _, .prim _⟩

theorem ModelOncpFileEntry.distinctKeys (e : ModelOncpFileEntry) : DistinctKeys e.modelDump := by
  refine .dict (by simp) ?_
  simp only [List.forall_mem_cons, List.not_mem_nil, false_implies, implies_true, and_true]
  exact ⟨.prim _, .prim _, .prim _, .prim _⟩

theorem distinctKeys_models {Model : Type} {dump : Model → Document}
    (h : ∀ m, DistinctKeys (dump m)) (models : List Model) :
    DistinctKeys (.list (models.map dump)) := by
  apply DistinctKeys.list
  intro j hj
  rcases List.mem_map.mp hj with ⟨m, -, rfl⟩
  exact h m

theorem ModelOncpManifest.distinctKeys (m : ModelOncpManifest) : DistinctKeys m.modelDump := by
  refine .dict (by simp) ?_
  simp only [List.forall_mem_cons, List.not_mem_nil, false_implies, implies_true, and_true]
  exact ⟨.prim _, .prim _, .prim _, .prim _, .prim _, .prim _, .prim _,
    distinctKeys_models ModelOncpOverlayEntry.distinctKeys _, .prim _,
    distinctKeys_models ModelOncpFileEntry.distinctKeys _,
    distinctKeys_models ModelOncpFileEntry.distinctKeys _⟩

/-!
## What a builder holds

After any calls that return, a builder holds what has been added, in order, each artefact with the
hash of its content and under a path of its own kind (`collected_run`).
-/

variable {Patch : Type} {i : OncpInterpreter Patch}

/-! ## What a call adds -/

def Call.overlay? : Call Patch → Option (String × Patch)
  | .overlay patch _ overlayId => some (overlayId, patch)
  | _ => none

structure Artefact where
  id : String
  path : String
  content : Bytes

def artefactOf (fs : FileSystem) (directory path : String) (id : Option String) :
    Option Artefact :=
  match fs.readBytes path with
  | .ok content =>
    some { id := (id.filter fun id => id ≠ "").getD (pathStem path),
           path := directory ++ "/" ++ pathName path, content := content }
  | .error _ => none

def Call.scenario? : Call Patch → Option Artefact
  | .scenario fs path id _ => artefactOf fs "scenarios" path id
  | _ => none

def Call.invariants? : Call Patch → Option Artefact
  | .invariants fs path id _ => artefactOf fs "invariants" path id
  | _ => none

def Artefact.of (e : ModelOncpFileEntry × Bytes) : Artefact :=
  { id := e.1.id, path := e.1.path, content := e.2 }

theorem append_ne_empty {s t : String} (hs : s ≠ "") : s ++ t ≠ "" := by
  intro h
  apply hs
  have hlist := congrArg String.toList h
  rw [String.toList_append, String.toList_empty, List.append_eq_nil_iff] at hlist
  rw [← String.toList_inj, hlist.1, String.toList_empty]

theorem fileEntry_spec {fs : FileSystem} {kind directory model path : String} {id : Option String}
    {required : Bool} {e : ModelOncpFileEntry × Bytes}
    (h : fileEntry i fs kind directory model path id required = .ok e) :
    artefactOf fs directory path id = some (Artefact.of e) ∧
      e.1.contentHash = hashBytes i e.2 ∧ e.1.id ≠ "" := by
  unfold fileEntry at h
  split_ifs at h
  rcases bind_eq_ok h with ⟨content, hcontent, h⟩
  dsimp only at h
  split_ifs at h with hid
  have he := Except.ok.inj h
  rw [← he]
  unfold artefactOf
  rw [hcontent]
  exact ⟨rfl, rfl, hid⟩

/-! ## The invariant -/

structure Collected (i : OncpInterpreter Patch) (calls : List (Call Patch)) (b : OncpBuilder) :
    Prop where
  overlays : b.overlays.map (fun e => (e.1.path, Except.ok e.2)) =
    (calls.filterMap Call.overlay?).map fun o => (overlayPath o.1, i.yamlDump (i.patchDump o.2))
  orderIndex : b.overlays.map (fun e => e.1.orderIndex) = List.range b.overlays.length
  overlayHash : ∀ e ∈ b.overlays, e.1.contentHash = hashBytes i e.2
  overlayId : ∀ e ∈ b.overlays, e.1.overlayId ≠ ""
  scenarios : b.scenarios.map Artefact.of = calls.filterMap Call.scenario?
  scenarioHash : ∀ e ∈ b.scenarios, e.1.contentHash = hashBytes i e.2
  scenarioId : ∀ e ∈ b.scenarios, e.1.id ≠ ""
  invariants : b.invariants.map Artefact.of = calls.filterMap Call.invariants?
  invariantsHash : ∀ e ∈ b.invariants, e.1.contentHash = hashBytes i e.2
  invariantsId : ∀ e ∈ b.invariants, e.1.id ≠ ""
  packageId : b.packageId ≠ ""
  packageVersion : b.packageVersion ≠ ""
  baseProfileRef : b.baseProfileRef ≠ ""
  baseProfileVersion : b.baseProfileVersion ≠ ""
  baseProfileHash : b.baseProfileHash ≠ ""

theorem ne_empty_of_strip {s : String} (h : strip s ≠ "") : s ≠ "" := by
  rintro rfl
  exact h rfl

theorem collected_init {packageId packageVersion baseProfileRef baseProfileVersion : String}
    {baseProfileHash : Option String} {b : OncpBuilder}
    (h : OncpBuilder.init i packageId packageVersion baseProfileRef baseProfileVersion
      baseProfileHash = .ok b) : Collected i [] b := by
  unfold OncpBuilder.init at h
  split_ifs at h with hid hversion href hprofile
  have hb := Except.ok.inj h
  rw [← hb]
  refine ⟨rfl, rfl, by simp, by simp, rfl, by simp, by simp, rfl, by simp, by simp,
    ne_empty_of_strip hid, ne_empty_of_strip hversion, ne_empty_of_strip href,
    ne_empty_of_strip hprofile, ?_⟩
  show (baseProfileHash.filter fun hash => hash ≠ "").getD _ ≠ ""
  cases hhash : baseProfileHash.filter fun hash => hash ≠ "" with
  | none => exact append_ne_empty (by decide)
  | some hash => exact of_decide_eq_true (Option.filter_eq_some_iff.mp hhash).2

theorem forall_mem_concat {α : Type} {P : α → Prop} {l : List α} {a : α} (hl : ∀ b ∈ l, P b)
    (ha : P a) : ∀ b ∈ l ++ [a], P b := by
  intro b hb
  rcases List.mem_append.mp hb with hb | hb
  · exact hl b hb
  · rw [List.mem_singleton.mp hb]
    exact ha

theorem filterMap_concat_none {α β : Type} {f : α → Option β} {l : List α} {a : α}
    (ha : f a = none) : (l ++ [a]).filterMap f = l.filterMap f := by
  rw [List.filterMap_append, List.filterMap_cons_none ha, List.filterMap_nil, List.append_nil]

theorem filterMap_concat_some {α β : Type} {f : α → Option β} {l : List α} {a : α} {b : β}
    (ha : f a = some b) : (l ++ [a]).filterMap f = l.filterMap f ++ [b] := by
  rw [List.filterMap_append, List.filterMap_cons_some ha, List.filterMap_nil]

/-- A call of the builder collects what it is given. -/
theorem collected_call {calls : List (Call Patch)} {b b' : OncpBuilder} {c : Call Patch}
    (hb : Collected i calls b) (h : b.call i c = .ok b') : Collected i (calls ++ [c]) b' := by
  cases c with
  | overlay patch scope overlayId =>
    unfold OncpBuilder.call OncpBuilder.addOverlay at h
    dsimp only at h
    split_ifs at h with hid
    obtain ⟨raw, hraw, h⟩ := bind_eq_ok h
    have hb' := Except.ok.inj h
    rw [← hb']
    refine { hb with
      overlays := ?_, orderIndex := ?_, overlayHash := forall_mem_concat hb.overlayHash rfl,
      overlayId := forall_mem_concat hb.overlayId (ne_empty_of_strip hid),
      scenarios := ?_, invariants := ?_ }
    · rw [filterMap_concat_some (f := Call.overlay?) (b := (overlayId, patch)) rfl,
        List.map_append, List.map_append, hb.overlays,
        List.map_singleton, List.map_singleton, hraw]
    · rw [List.map_append, hb.orderIndex, List.length_append, List.length_singleton,
        List.range_succ]
      rfl
    · rw [filterMap_concat_none rfl]
      exact hb.scenarios
    · rw [filterMap_concat_none rfl]
      exact hb.invariants
  | scenario fs path id required =>
    obtain ⟨e, he, h⟩ := bind_eq_ok h
    have hb' := Except.ok.inj h
    have hspec := fileEntry_spec he
    rw [← hb']
    refine { hb with
      overlays := ?_, scenarios := ?_, invariants := ?_,
      scenarioHash := forall_mem_concat hb.scenarioHash hspec.2.1,
      scenarioId := forall_mem_concat hb.scenarioId hspec.2.2 }
    · rw [filterMap_concat_none rfl]
      exact hb.overlays
    · rw [filterMap_concat_some (f := Call.scenario?)
        (a := .scenario fs path id required) hspec.1, List.map_append, hb.scenarios]
      rfl
    · rw [filterMap_concat_none rfl]
      exact hb.invariants
  | invariants fs path id required =>
    obtain ⟨e, he, h⟩ := bind_eq_ok h
    have hb' := Except.ok.inj h
    have hspec := fileEntry_spec he
    rw [← hb']
    refine { hb with
      overlays := ?_, scenarios := ?_, invariants := ?_,
      invariantsHash := forall_mem_concat hb.invariantsHash hspec.2.1,
      invariantsId := forall_mem_concat hb.invariantsId hspec.2.2 }
    · rw [filterMap_concat_none rfl]
      exact hb.overlays
    · rw [filterMap_concat_none rfl]
      exact hb.scenarios
    · rw [filterMap_concat_some (f := Call.invariants?)
        (a := .invariants fs path id required) hspec.1, List.map_append, hb.invariants]
      rfl

theorem collected_run {before calls : List (Call Patch)} {b b' : OncpBuilder}
    (hb : Collected i before b) (h : calls.foldlM (OncpBuilder.call i) b = .ok b') :
    Collected i (before ++ calls) b' := by
  induction calls generalizing before b with
  | nil =>
    rw [List.append_nil, ← Except.ok.inj h]
    exact hb
  | cons c calls ih =>
    rw [List.foldlM_cons] at h
    obtain ⟨next, hnext, h⟩ := bind_eq_ok h
    have hrest := ih (collected_call hb hnext) h
    rwa [List.append_assoc, List.singleton_append] at hrest

end OmnibaseCore.Package
