import OmnibaseCore.Json.Unambiguous
import OmnibaseCore.Package.ManifestTheorems

/-!
# Packages come back

* `bundle_roundTrips_iff`: it is what has been added exactly if artefacts of one kind agree where
  their paths are the same.
-/

namespace OmnibaseCore.Package

variable {Patch : Type} {i : OncpInterpreter Patch}

/-! ## Paths -/

/-- The first characters of all names are the same. -/
def Under (c : Char) (writes : List (String × Bytes)) : Prop :=
  ∀ e ∈ writes, e.1.toList.head? = some c

variable {name : String}

theorem Under.ne {c c' : Char} {writes : List (String × Bytes)} (h : Under c writes)
    (hname : name.toList.head? = some c') (hc : c ≠ c') : ∀ e ∈ writes, e.1 ≠ name := by
  intro e he heq
  apply hc
  rw [← heq, h e he] at hname
  exact Option.some.inj hname

variable {c : Char}

theorem head?_append {s t : String} (h : s.toList.head? = some c) :
    (s ++ t).toList.head? = some c := by
  rw [String.toList_append, List.head?_append, h]
  rfl

theorem head?_overlayPath (overlayId : String) :
    (overlayPath overlayId).toList.head? = some 'o' :=
  head?_append (head?_append (by decide))

variable {a : Artefact}

theorem head?_artefactOf {fs : FileSystem} {directory path : String} {id : Option String}
    (h : artefactOf fs directory path id = some a) (hdirectory : directory.toList.head? = some c) :
    a.path.toList.head? = some c := by
  unfold artefactOf at h
  cases hread : fs.readBytes path with
  | error e =>
    rw [hread] at h
    exact nomatch h
  | ok content =>
    rw [hread] at h
    have ha := Option.some.inj h
    rw [← ha]
    exact head?_append (head?_append hdirectory)

theorem head?_scenario {call : Call Patch} (h : call.scenario? = some a) :
    a.path.toList.head? = some 's' := by
  cases call with
  | scenario fs path id required => exact head?_artefactOf h (by decide)
  | overlay patch scope overlayId => exact nomatch h
  | invariants fs path id required => exact nomatch h

theorem head?_invariants {call : Call Patch} (h : call.invariants? = some a) :
    a.path.toList.head? = some 'i' := by
  cases call with
  | invariants fs path id required => exact head?_artefactOf h (by decide)
  | overlay patch scope overlayId => exact nomatch h
  | scenario fs path id required => exact nomatch h

/-! ## What is written -/

def overlayWrites (calls : List (Call Patch)) : List (String × Patch) :=
  (calls.filterMap Call.overlay?).map fun o => (overlayPath o.1, o.2)

def writesOf (artefacts : List Artefact) : List (String × Bytes) :=
  artefacts.map fun a => (a.path, a.content)

def entryWrites {Entry : Type} (path : Entry → String) (entries : List (Entry × Bytes)) :
    List (String × Bytes) :=
  entries.map fun e => (path e.1, e.2)

variable {calls : List (Call Patch)} {b : OncpBuilder}

section
variable (hb : Collected i calls b)
include hb

theorem Collected.overlays_eq :
    (entryWrites ModelOncpOverlayEntry.path b.overlays).map (fun e => (e.1, Except.ok e.2)) =
      (overlayWrites calls).map fun e => (e.1, i.yamlDump (i.patchDump e.2)) := by
  unfold overlayWrites entryWrites
  rw [List.map_map, List.map_map]
  exact hb.overlays

theorem Collected.paths_eq :
    (entryWrites ModelOncpOverlayEntry.path b.overlays).map Prod.fst =
      (overlayWrites calls).map Prod.fst := by
  have heq := congrArg (List.map Prod.fst) hb.overlays_eq
  rw [List.map_map, List.map_map] at heq
  exact heq

theorem Collected.scenarios_eq :
    entryWrites ModelOncpFileEntry.path b.scenarios = writesOf (calls.filterMap Call.scenario?) := by
  rw [← hb.scenarios]
  unfold writesOf
  rw [List.map_map]
  rfl

theorem Collected.invariants_eq :
    entryWrites ModelOncpFileEntry.path b.invariants =
      writesOf (calls.filterMap Call.invariants?) := by
  rw [← hb.invariants]
  unfold writesOf
  rw [List.map_map]
  rfl

theorem Collected.under_overlays :
    Under 'o' (entryWrites ModelOncpOverlayEntry.path b.overlays) := by
  intro e he
  have hpath : e.1 ∈ (overlayWrites calls).map Prod.fst := by
    rw [← hb.paths_eq]
    exact List.mem_map_of_mem he
  unfold overlayWrites at hpath
  rw [List.map_map] at hpath
  obtain ⟨o, -, ho⟩ := List.mem_map.mp hpath
  rw [← ho]
  exact head?_overlayPath o.1

theorem Collected.under_scenarios :
    Under 's' (entryWrites ModelOncpFileEntry.path b.scenarios) := by
  rw [hb.scenarios_eq]
  simp only [Under, writesOf, List.forall_mem_map]
  intro a ha
  obtain ⟨call, -, hcall⟩ := List.mem_filterMap.mp ha
  exact head?_scenario hcall

theorem Collected.under_invariants :
    Under 'i' (entryWrites ModelOncpFileEntry.path b.invariants) := by
  rw [hb.invariants_eq]
  simp only [Under, writesOf, List.forall_mem_map]
  intro a ha
  obtain ⟨call, -, hcall⟩ := List.mem_filterMap.mp ha
  exact head?_invariants hcall

end

/-! ## What is read -/

theorem archive_eq (b : OncpBuilder) (raw : Bytes) :
    b.archive raw = [("manifest.yaml", raw)] ++
      (entryWrites ModelOncpOverlayEntry.path b.overlays ++
        entryWrites ModelOncpFileEntry.path b.scenarios ++
        entryWrites ModelOncpFileEntry.path b.invariants) := rfl

theorem under_manifest (content : Bytes) : Under 'm' [("manifest.yaml", content)] := by
  intro e he
  rw [List.mem_singleton.mp he]
  show "manifest.yaml".toList.head? = some 'm'
  decide

section
variable (hb : Collected i calls b)
include hb

theorem lastWrite_manifest (raw : Bytes) :
    lastWrite (b.archive raw) "manifest.yaml" = some raw := by
  have hname : "manifest.yaml".toList.head? = some 'm' := by decide
  rw [archive_eq, List.append_assoc, lastWrite_append_left]
  · exact (lastWrite_concat [] _ _).trans (if_pos rfl)
  · intro e he
    rcases List.mem_append.mp he with he | he
    · exact hb.under_overlays.ne hname (by decide) e he
    rcases List.mem_append.mp he with he | he
    · exact hb.under_scenarios.ne hname (by decide) e he
    · exact hb.under_invariants.ne hname (by decide) e he

theorem lastWrite_overlay (raw : Bytes)
    (hname : name.toList.head? = some 'o') : lastWrite (b.archive raw) name =
      lastWrite (entryWrites ModelOncpOverlayEntry.path b.overlays) name := by
  rw [archive_eq, lastWrite_append_right ((under_manifest _).ne hname (by decide)),
    lastWrite_append_left (hb.under_invariants.ne hname (by decide)),
    lastWrite_append_left (hb.under_scenarios.ne hname (by decide))]

theorem lastWrite_scenario (raw : Bytes)
    (hname : name.toList.head? = some 's') : lastWrite (b.archive raw) name =
      lastWrite (entryWrites ModelOncpFileEntry.path b.scenarios) name := by
  rw [archive_eq, lastWrite_append_right ((under_manifest _).ne hname (by decide)),
    lastWrite_append_left (hb.under_invariants.ne hname (by decide)),
    lastWrite_append_right (hb.under_overlays.ne hname (by decide))]

theorem lastWrite_invariants (raw : Bytes)
    (hname : name.toList.head? = some 'i') : lastWrite (b.archive raw) name =
      lastWrite (entryWrites ModelOncpFileEntry.path b.invariants) name := by
  rw [archive_eq, lastWrite_append_right ((under_manifest _).ne hname (by decide)),
    List.append_assoc, lastWrite_append_right (hb.under_overlays.ne hname (by decide)),
    lastWrite_append_right (hb.under_scenarios.ne hname (by decide))]

end

/-! ## Opening -/

theorem ne_empty_of_head? {s : String} (h : s.toList.head? = some c) : s ≠ "" := by
  rintro rfl
  exact nomatch h

theorem hashBytes_ne_empty (data : Bytes) : hashBytes i data ≠ "" :=
  append_ne_empty (by decide)

variable {Entry : Type}

variable {entries : List (Entry × Bytes)} {e : Entry × Bytes}

theorem Under.head?_path {path : Entry → String}
    (h : Under c (entryWrites path entries)) (he : e ∈ entries) :
    (path e.1).toList.head? = some c :=
  h (path e.1, e.2) (List.mem_map_of_mem he)

theorem Under.path_ne_empty {path : Entry → String}
    (h : Under c (entryWrites path entries)) (he : e ∈ entries) :
    path e.1 ≠ "" :=
  ne_empty_of_head? (h.head?_path he)

/-- The manifest of a builder is one that can be read. -/
theorem Collected.valid (hb : Collected i calls b) (hversion : i.coreVersion ≠ "") :
    (b.manifest i).Valid where
  manifestVersion := le_rfl
  packageId := hb.packageId
  packageVersion := hb.packageVersion
  baseProfileRef := hb.baseProfileRef
  baseProfileVersion := hb.baseProfileVersion
  baseProfileHash := hb.baseProfileHash
  omnibaseCoreVersion := hversion
  overlays := by
    refine List.forall_mem_map.mpr fun e he =>
      ⟨hb.overlayId e he, hb.under_overlays.path_ne_empty he, ?_⟩
    rw [hb.overlayHash e he]
    exact hashBytes_ne_empty e.2
  resolvedContractHash := append_ne_empty (by decide)
  scenarios := by
    refine List.forall_mem_map.mpr fun e he =>
      ⟨hb.scenarioId e he, hb.under_scenarios.path_ne_empty he, ?_⟩
    rw [hb.scenarioHash e he]
    exact hashBytes_ne_empty e.2
  invariants := by
    refine List.forall_mem_map.mpr fun e he =>
      ⟨hb.invariantsId e he, hb.under_invariants.path_ne_empty he, ?_⟩
    rw [hb.invariantsHash e he]
    exact hashBytes_ne_empty e.2

theorem readEntry_eq_ok {zip : Archive} {content : Bytes} (h : lastWrite zip name = some content) :
    readEntry i zip name = .ok content := by
  unfold readEntry
  rw [h]

def readerOf (i : OncpInterpreter Patch) (b : OncpBuilder) (raw : Bytes) : OncpReader :=
  { manifest := some (b.manifest i), zip := some (b.archive raw) }

theorem contains_manifest (b : OncpBuilder) (raw : Bytes) :
    ((b.archive raw).map Prod.fst).contains "manifest.yaml" = true := by
  rw [archive_eq, List.map_append, List.contains_iff_mem, List.mem_append]
  exact Or.inl (List.mem_singleton_self _)

variable {raw : Bytes}

theorem open_archive (hi : Inverts i) (hb : Collected i calls b) (hversion : i.coreVersion ≠ "")
    (hraw : i.yamlDump (b.manifest i).modelDump = .ok raw) :
    OncpReader.init.open_ i (b.archive raw) = .ok (readerOf i b raw) := by
  have hmanifest : loadManifest i (b.archive raw) = .ok (b.manifest i) := by
    unfold loadManifest
    rw [contains_manifest]
    show (readEntry i _ _ >>= fun raw => i.safeLoad raw >>= validateManifest i) = _
    have hload := hi.safeLoad_yamlDump _ raw (b.manifest i).distinctKeys hraw
    have hread := validateManifest_sortKeys hi (hb.valid hversion)
    exact bind_eq_ok_iff.mpr ⟨_, readEntry_eq_ok (lastWrite_manifest hb raw),
      bind_eq_ok_iff.mpr ⟨_, hload, hread⟩⟩
  unfold OncpReader.open_
  rw [hmanifest]
  rfl

/-! ## Reading what is open -/

theorem exists_stored (path : Entry → String)
    (he : e ∈ entries) : ∃ raw, lastWrite (entryWrites path entries) (path e.1) = some raw := by
  have hmem : (path e.1, e.2) ∈ entryWrites path entries := List.mem_map_of_mem he
  obtain ⟨raw, hraw, -⟩ := exists_lastWrite hmem
  exact ⟨raw, hraw⟩

theorem exists_mismatches (zip : Archive) (kind : String) (id : Entry → String)
    {path contentHash : Entry → String} (hhash : ∀ e ∈ entries, contentHash e.1 = hashBytes i e.2)
    (hzip : ∀ e ∈ entries, lastWrite zip (path e.1) = lastWrite (entryWrites path entries) (path e.1)) :
    ∃ found, (entries.map Prod.fst).mapM (fun e =>
        mismatch i zip kind (id e) (path e) (contentHash e)) = .ok found ∧
      (found.flatten = [] ↔ Agree (hashBytes i) (entryWrites path entries)) := by
  -- the content under the path of an entry
  let stored (e : Entry) : Bytes := (lastWrite (entryWrites path entries) (path e)).getD []
  let found (e : Entry) : List String :=
    if hashBytes i (stored e) ≠ contentHash e then
      [kind ++ " '" ++ id e ++ "': expected " ++ contentHash e ++ ", got " ++
        hashBytes i (stored e)]
    else []
  refine ⟨(entries.map Prod.fst).map found, mapM_eq_ok_map fun a ha => ?_, ?_⟩
  · obtain ⟨e, he, rfl⟩ := List.mem_map.mp ha
    obtain ⟨raw, hraw⟩ := exists_stored path he
    have hstored : stored e.1 = raw := by simp only [stored, hraw, Option.getD_some]
    unfold mismatch
    rw [readEntry_eq_ok ((hzip e he).trans hraw)]
    simp only [found, hstored]
    rfl
  · rw [agree_iff, List.flatten_eq_nil_iff, List.map_map, List.forall_mem_map]
    unfold entryWrites
    rw [List.forall_mem_map]
    refine forall₂_congr fun e he => ?_
    obtain ⟨raw, hraw⟩ := exists_stored path he
    have hstored : stored e.1 = raw := by simp only [stored, hraw, Option.getD_some]
    change found e.1 = [] ↔ (lastWrite (entryWrites path entries) (path e.1)).map _ = _
    rw [hraw, Option.map_some, Option.some.injEq]
    simp only [found, hstored, hhash e he]
    split_ifs with hne
    · simpa using hne
    · simpa using hne

/-- The digests hold if and only if entries with one path have one hash. -/
theorem validateDigests_iff (hb : Collected i calls b) (raw : Bytes) :
    (readerOf i b raw).validateDigests i = .ok true ↔
      Agree (hashBytes i) (entryWrites ModelOncpOverlayEntry.path b.overlays) ∧
      Agree (hashBytes i) (writesOf (calls.filterMap Call.scenario?)) ∧
      Agree (hashBytes i) (writesOf (calls.filterMap Call.invariants?)) := by
  obtain ⟨overlays, hoverlays, hoverlays'⟩ := exists_mismatches (b.archive raw)
    "overlay" ModelOncpOverlayEntry.overlayId hb.overlayHash
    fun e he => lastWrite_overlay hb raw (hb.under_overlays.head?_path he)
  obtain ⟨scenarios, hscenarios, hscenarios'⟩ := exists_mismatches (b.archive raw)
    "scenario" ModelOncpFileEntry.id hb.scenarioHash
    fun e he => lastWrite_scenario hb raw (hb.under_scenarios.head?_path he)
  obtain ⟨invariants, hinvariants, hinvariants'⟩ := exists_mismatches (b.archive raw)
    "invariant" ModelOncpFileEntry.id hb.invariantsHash
    fun e he => lastWrite_invariants hb raw (hb.under_invariants.head?_path he)
  have hvalidate : (readerOf i b raw).validateDigests i =
      if ((overlays ++ scenarios ++ invariants).flatten).isEmpty then .ok true
      else .error (onexError .validationError ("Content hash mismatch(es) in .oncp bundle:\n" ++
        "\n".intercalate ((overlays ++ scenarios ++ invariants).flatten.map fun m => "  - " ++ m)))
      := by
    unfold OncpReader.validateDigests
    show ((b.overlays.map Prod.fst).mapM (m := Except PyException) _ >>= _) = _
    rw [hoverlays]
    show ((b.scenarios.map Prod.fst).mapM (m := Except PyException) _ >>= _) = _
    rw [hscenarios]
    show ((b.invariants.map Prod.fst).mapM (m := Except PyException) _ >>= _) = _
    rw [hinvariants]
    rfl
  rw [hvalidate, ← hb.scenarios_eq, ← hb.invariants_eq, ← hoverlays', ← hscenarios',
    ← hinvariants']
  simp only [List.flatten_append, List.isEmpty_iff, List.append_eq_nil_iff, and_assoc]
  split_ifs with hnone
  · exact iff_of_true rfl hnone
  · exact iff_of_false nofun hnone

theorem sortedAsc_overlays (hb : Collected i calls b) :
    sortedAsc ModelOncpOverlayEntry.orderIndex (b.overlays.map Prod.fst) =
      b.overlays.map Prod.fst := by
  apply sortedAsc_of_pairwise
  have hrange : (b.overlays.map fun e => e.1.orderIndex).Pairwise (· ≤ ·) := by
    rw [hb.orderIndex]
    exact List.pairwise_le_range
  rw [List.pairwise_map] at hrange ⊢
  exact hrange

/-- The patches come back if and only if overlays with one path are one patch. -/
theorem getOverlayPatches_iff (hi : Inverts i) (hb : Collected i calls b) (raw : Bytes) :
    (readerOf i b raw).getOverlayPatches i = .ok ((calls.filterMap Call.overlay?).map Prod.snd) ↔
      Agree id (overlayWrites calls) := by
  -- what is read under a path
  let patchAt (name : String) : Except PyException Patch := do
    let raw ← readEntry i (b.archive raw) name
    let data ← i.safeLoad raw
    i.patchValidate data
  have hpaths : (b.overlays.map Prod.fst).map ModelOncpOverlayEntry.path =
      (overlayWrites calls).map Prod.fst := by
    have heq := hb.paths_eq
    unfold entryWrites at heq
    rw [List.map_map] at heq ⊢
    exact heq
  have hget : (readerOf i b raw).getOverlayPatches i = (overlayWrites calls).mapM fun e => patchAt e.1 := by
    show (sortedAsc ModelOncpOverlayEntry.orderIndex (b.overlays.map Prod.fst)).mapM
      (fun e => patchAt e.path) = _
    rw [sortedAsc_overlays hb]
    calc (b.overlays.map Prod.fst).mapM (fun e => patchAt e.path)
      _ = ((b.overlays.map Prod.fst).map ModelOncpOverlayEntry.path).mapM patchAt :=
        (List.mapM_map (f := ModelOncpOverlayEntry.path) (g := patchAt)).symm
      _ = ((overlayWrites calls).map Prod.fst).mapM patchAt := by rw [hpaths]
      _ = _ := List.mapM_map
  have hread : ∀ e ∈ overlayWrites calls, ∃ patch,
      lastWrite (overlayWrites calls) e.1 = some patch ∧ patchAt e.1 = .ok patch := by
    intro e he
    obtain ⟨patch, hpatch, -⟩ := exists_lastWrite he
    refine ⟨patch, hpatch, ?_⟩
    obtain ⟨o, -, rfl⟩ := List.mem_map.mp he
    have hdumps : (lastWrite (b.archive raw) (overlayPath o.1)).map Except.ok =
        some (i.yamlDump (i.patchDump patch)) := by
      rw [lastWrite_overlay hb raw (head?_overlayPath o.1), ← lastWrite_map, hb.overlays_eq,
        lastWrite_map fun patch => i.yamlDump (i.patchDump patch), hpatch]
      rfl
    obtain ⟨content, hcontent, hdump⟩ := Option.map_eq_some_iff.mp hdumps
    exact bind_eq_ok_iff.mpr ⟨_, readEntry_eq_ok hcontent, bind_eq_ok_iff.mpr
      ⟨_, hi.safeLoad_yamlDump _ content (hi.distinctKeys_patchDump patch) hdump.symm,
        hi.patchValidate_patchDump patch⟩⟩
  have hmap : (overlayWrites calls).mapM (fun e => patchAt e.1) =
      .ok ((overlayWrites calls).map fun e => (lastWrite (overlayWrites calls) e.1).getD e.2) := by
    refine mapM_eq_ok_map fun e he => ?_
    obtain ⟨patch, hpatch, hat⟩ := hread e he
    rw [hat, hpatch, Option.getD_some]
  have hpatches : (calls.filterMap Call.overlay?).map Prod.snd =
      (overlayWrites calls).map Prod.snd := by
    unfold overlayWrites
    rw [List.map_map]
    rfl
  rw [hget, hmap, hpatches, Except.ok.injEq, List.map_inj_left, agree_iff]
  refine forall₂_congr fun e he => ?_
  obtain ⟨patch, hpatch, -⟩ := hread e he
  rw [hpatch, Option.getD_some, Option.map_some, Option.some.injEq]
  rfl

theorem find?_id {entries : List (ModelOncpFileEntry × Bytes)}
    (hids : (entries.map fun e => e.1.id).Nodup) {e : ModelOncpFileEntry × Bytes}
    (he : e ∈ entries) :
    (entries.map Prod.fst).find? (fun e' => e'.id = e.1.id) = some e.1 := by
  induction entries with
  | nil => exact absurd he List.not_mem_nil
  | cons e' entries ih =>
    rw [List.map_cons, List.nodup_cons] at hids
    rw [List.map_cons, List.find?_cons]
    rcases List.mem_cons.mp he with rfl | he
    · rw [decide_eq_true rfl]
    · have hne : e'.1.id ≠ e.1.id := fun heq => hids.1 (heq ▸ List.mem_map_of_mem he)
      rw [decide_eq_false hne]
      exact ih hids.2 he

theorem getScenarioContent_iff (hb : Collected i calls b) (raw : Bytes)
    (hids : ((calls.filterMap Call.scenario?).map Artefact.id).Nodup) :
    (∀ a ∈ calls.filterMap Call.scenario?,
        (readerOf i b raw).getScenarioContent i a.id = .ok a.content) ↔
      Agree id (writesOf (calls.filterMap Call.scenario?)) := by
  rw [← hb.scenarios, List.map_map] at hids
  rw [← hb.scenarios_eq, agree_iff, ← hb.scenarios]
  unfold entryWrites
  rw [List.forall_mem_map, List.forall_mem_map]
  refine forall₂_congr fun e he => ?_
  obtain ⟨content, hcontent⟩ := exists_stored ModelOncpFileEntry.path he
  have hget : (readerOf i b raw).getScenarioContent i e.1.id = .ok content := by
    have hfind : (b.manifest i).scenarios.find? (fun e' => e'.id = e.1.id) = some e.1 :=
      find?_id hids he
    have hopened : (readerOf i b raw).opened "get_scenario_content" =
        .ok (b.manifest i, b.archive raw) := rfl
    unfold OncpReader.getScenarioContent
    rw [hopened]
    dsimp only [bind, Except.bind]
    rw [hfind]
    exact readEntry_eq_ok ((lastWrite_scenario hb raw (hb.under_scenarios.head?_path he)).trans hcontent)
  change (readerOf i b raw).getScenarioContent i e.1.id = .ok e.2 ↔
    (lastWrite (entryWrites ModelOncpFileEntry.path b.scenarios) e.1.path).map id = some e.2
  rw [hget, hcontent, Except.ok.injEq, Option.map_some, Option.some.injEq]
  rfl

/-! ## The round trip -/

/-- What is read back is what has been added. -/
structure ReadsBack (i : OncpInterpreter Patch) (calls : List (Call Patch)) (r : OncpReader) :
    Prop where
  digests : r.validateDigests i = .ok true
  patches : r.getOverlayPatches i = .ok ((calls.filterMap Call.overlay?).map Prod.snd)
  scenarios : ∀ a ∈ calls.filterMap Call.scenario?, r.getScenarioContent i a.id = .ok a.content

/-- Artefacts of one kind that share a path agree: overlays in their patches, scenarios in their
content, and invariants in the hash of their content. -/
structure PathsAgree (i : OncpInterpreter Patch) (calls : List (Call Patch)) : Prop where
  overlays : Agree id (overlayWrites calls)
  scenarios : Agree id (writesOf (calls.filterMap Call.scenario?))
  invariants : Agree (hashBytes i) (writesOf (calls.filterMap Call.invariants?))

theorem Agree.hash {writes : List (String × Bytes)} (h : Agree id writes) :
    Agree (hashBytes i) writes :=
  List.Pairwise.imp (fun hagree hname => congrArg (hashBytes i) (hagree hname)) h

theorem agree_hash_overlays (hb : Collected i calls b) (h : Agree id (overlayWrites calls)) :
    Agree (hashBytes i) (entryWrites ModelOncpOverlayEntry.path b.overlays) := by
  have hok : ((overlayWrites calls).map fun e => (e.1, i.yamlDump (i.patchDump e.2))).Pairwise
      fun e e' => e.1 = e'.1 → e.2 = e'.2 := by
    rw [List.pairwise_map]
    refine List.Pairwise.imp (fun hagree hname => ?_) h
    exact congrArg (fun patch => i.yamlDump (i.patchDump patch)) (hagree hname)
  rw [← hb.overlays_eq, List.pairwise_map] at hok
  refine List.Pairwise.imp (fun hagree hname => ?_) hok
  exact congrArg (hashBytes i) (Except.ok.inj (hagree hname))

def RoundTrips (i : OncpInterpreter Patch) (calls : List (Call Patch)) (zip : Archive) : Prop :=
  ∃ r, OncpReader.init.open_ i zip = .ok r ∧ ReadsBack i calls r

theorem readsBack_iff (hi : Inverts i) (hb : Collected i calls b) (raw : Bytes)
    (hids : ((calls.filterMap Call.scenario?).map Artefact.id).Nodup) :
    ReadsBack i calls (readerOf i b raw) ↔ PathsAgree i calls := by
  have hdigests := validateDigests_iff hb raw
  have hpatches := getOverlayPatches_iff hi hb raw
  have hscenarios := getScenarioContent_iff hb raw hids
  constructor
  · intro h
    exact ⟨hpatches.mp h.patches, hscenarios.mp h.scenarios, (hdigests.mp h.digests).2.2⟩
  · intro h
    exact ⟨hdigests.mpr ⟨agree_hash_overlays hb h.overlays, Agree.hash h.scenarios, h.invariants⟩,
      hpatches.mpr h.overlays, hscenarios.mpr h.scenarios⟩

theorem open_build (hi : Inverts i) (hb : Collected i calls b) {zip : Archive}
    {manifest : ModelOncpManifest} (hbuild : b.build i = .ok (zip, manifest)) :
    ∃ raw, OncpReader.init.open_ i zip = .ok (readerOf i b raw) := by
  unfold OncpBuilder.build at hbuild
  split_ifs at hbuild with hversion
  obtain ⟨raw, hraw, hbuild⟩ := bind_eq_ok hbuild
  have hzip : b.archive raw = zip := congrArg Prod.fst (Except.ok.inj hbuild)
  rw [← hzip]
  exact ⟨raw, open_archive hi hb hversion hraw⟩

/-- What has been added, with distinct ids for scenarios, comes back exactly if artefacts that
share a path agree. -/
theorem bundle_roundTrips_iff (hi : Inverts i)
    {packageId packageVersion baseProfileRef baseProfileVersion : String}
    {baseProfileHash : Option String} {b₀ b : OncpBuilder} {calls : List (Call Patch)}
    {zip : Archive} {manifest : ModelOncpManifest}
    (hinit : OncpBuilder.init i packageId packageVersion baseProfileRef baseProfileVersion
      baseProfileHash = .ok b₀)
    (hcalls : calls.foldlM (OncpBuilder.call i) b₀ = .ok b)
    (hids : ((calls.filterMap Call.scenario?).map Artefact.id).Nodup)
    (hbuild : b.build i = .ok (zip, manifest)) :
    RoundTrips i calls zip ↔ PathsAgree i calls := by
  have hb : Collected i calls b := collected_run (collected_init hinit) hcalls
  obtain ⟨raw, hopen⟩ := open_build hi hb hbuild
  have hback := readsBack_iff hi hb raw hids
  constructor
  · rintro ⟨r, hr, h⟩
    rw [hopen, Except.ok.injEq] at hr
    rw [← hr] at h
    exact hback.mp h
  · intro h
    exact ⟨readerOf i b raw, hopen, hback.mpr h⟩

/-! ## Two bundles -/

def utf8 (s : String) : Bytes := s.toByteArray.data.toList

theorem utf8_injective : Function.Injective utf8 := by
  intro s s' h
  exact String.toByteArray_inj.mp (ByteArray.ext (Array.toList_inj.mp h))

def flowText (d : Document) : Except PyException Bytes :=
  (d.dumps (StrictJsonPrimitive.text fun q => "." ++ (Encodable.encode q).repr) .compact).map utf8

theorem flowText_inj {d d' : Document} (h : flowText d = .ok raw) (h' : flowText d' = .ok raw) :
    d.sortKeys = d'.sortKeys := by
  obtain ⟨t, ht, hraw⟩ := map_eq_ok h
  obtain ⟨t', ht', hraw'⟩ := map_eq_ok h'
  rw [utf8_injective (hraw'.trans hraw.symm)] at ht'
  exact Json.dumps_inj (strictText_leafCode floatDigits_encode) ht ht'

open Classical in
/-- The document of a text. -/
noncomputable def loadFlow (raw : Bytes) : Except PyException Document :=
  if h : ∃ d, flowText d = .ok raw then .ok h.choose.sortKeys
  else .error (.other "YAMLError" "")

theorem loadFlow_flowText {d : Document} (h : flowText d = .ok raw) :
    loadFlow raw = .ok d.sortKeys := by
  have hex : ∃ d, flowText d = .ok raw := ⟨d, h⟩
  unfold loadFlow
  rw [dif_pos hex, flowText_inj hex.choose_spec h]

/-- Patches that differ in their descriptions. -/
def describe (description : Bool) : Document :=
  .dict [("extends", .dict [("profile", text "effect_idempotent"), ("version", text "1.0.0")]),
    ("description", text (if description then "true" else "false"))]

def readDescription : Document → Except PyException Bool
  | .dict fields =>
    if readText fields "description" = some "true" then .ok true
    else .ok false
  | _ => .error (.validationError "Input should be an object")

/-- Documents in one line, and hashes that are the bytes themselves. -/
noncomputable def flowInterpreter : OncpInterpreter Bool where
  toTextInterpreter := asciiText
  sha256 data := String.ofList (data.flatMap fun byte => hexDigits 2 byte.toNat)
  sha256Text s := String.ofList ((utf8 s).flatMap fun byte => hexDigits 2 byte.toNat)
  yamlDump := flowText
  safeLoad := loadFlow
  patchDump := describe
  patchValidate := readDescription
  laxInt
    | .prim (.int n) => some n
    | _ => none
  laxBool
    | .prim (.bool b) => some b
    | _ => none
  manifestError _ := ""
  coreVersion := "0.46.0"

theorem inverts_flowInterpreter : Inverts flowInterpreter where
  safeLoad_yamlDump _ _ _ h := loadFlow_flowText h
  distinctKeys_patchDump p := by
    refine .dict (by simp) ?_
    simp only [List.forall_mem_cons, List.not_mem_nil, false_implies, implies_true, and_true]
    refine ⟨.dict (by decide) ?_, .prim _⟩
    simp only [List.forall_mem_cons, List.not_mem_nil, false_implies, implies_true, and_true]
    exact ⟨.prim _, .prim _⟩
  patchValidate_patchDump p := by
    show readDescription (describe p).sortKeys = .ok p
    unfold describe
    rw [Json.sortKeys_dict]
    show (if readText (sortEntries _) "description" = some "true" then _ else _) = _
    cases p with
    | false => rw [readText_sortEntries rfl (by decide), if_neg (by decide)]
    | true =>
      rw [readText_sortEntries rfl (by decide)]
      exact if_pos rfl
  laxInt_int _ := rfl
  laxBool_bool _ := rfl

def httpBuilder : OncpBuilder :=
  { packageId := "omninode.effects.http_fetch", packageVersion := "1.0.0",
    baseProfileRef := "effect_idempotent", baseProfileVersion := "1.0.0",
    baseProfileHash := "sha256:abc", overlays := [], scenarios := [], invariants := [] }

theorem init_httpBuilder : OncpBuilder.init flowInterpreter "omninode.effects.http_fetch" "1.0.0"
    "effect_idempotent" "1.0.0" (some "sha256:abc") = .ok httpBuilder := by
  rfl

/-- Files that are all there, with their paths as their content. -/
def pathFiles : FileSystem where
  exists_ _ := true
  readBytes path := .ok (utf8 path)

/-- The bundle of some calls. -/
noncomputable def bundle (calls : List (Call Bool)) :
    Except PyException (Archive × ModelOncpManifest) :=
  calls.foldlM (OncpBuilder.call flowInterpreter) httpBuilder >>= fun b => b.build flowInterpreter

theorem exists_bundle {calls : List (Call Bool)} (h : (bundle calls).toBool = true) :
    ∃ b zip manifest, calls.foldlM (OncpBuilder.call flowInterpreter) httpBuilder = .ok b ∧
      b.build flowInterpreter = .ok (zip, manifest) := by
  cases hbundle : bundle calls with
  | error e =>
    rw [hbundle] at h
    exact nomatch h
  | ok r =>
    obtain ⟨b, hb, hbuild⟩ := bind_eq_ok hbundle
    exact ⟨b, r.1, r.2, hb, hbuild⟩

def httpCalls : List (Call Bool) :=
  [.overlay true .org "acme.base", .scenario pathFiles "cases/happy.yaml" none true,
    .overlay false .user "acme.user", .invariants pathFiles "cases/happy.yaml" none true]

/-- Two overlays with different ids and the same path. -/
def collidingCalls : List (Call Bool) :=
  [.overlay true .org "acme.base", .overlay false .org "acme/base"]

/-- Ids that are the same once `/` and `.` are replaced share a path. -/
theorem rewrittenId_collides :
    ¬ ∀ (Patch : Type) (i : OncpInterpreter Patch), Inverts i →
      ∀ (packageId packageVersion baseProfileRef baseProfileVersion : String)
        (baseProfileHash : Option String) (b₀ b : OncpBuilder) (calls : List (Call Patch))
        (zip : Archive) (manifest : ModelOncpManifest),
      OncpBuilder.init i packageId packageVersion baseProfileRef baseProfileVersion
        baseProfileHash = .ok b₀ →
      calls.foldlM (OncpBuilder.call i) b₀ = .ok b →
      ((calls.filterMap Call.overlay?).map Prod.fst).Nodup →
      ((calls.filterMap Call.scenario?).map Artefact.id).Nodup →
      ((calls.filterMap Call.invariants?).map Artefact.id).Nodup →
      b.build i = .ok (zip, manifest) → RoundTrips i calls zip := by
  intro h
  have hcalls : (bundle collidingCalls).toBool = true := by decide +kernel
  obtain ⟨b, zip, manifest, hb, hbuild⟩ := exists_bundle hcalls
  obtain ⟨r, hr, hback⟩ := h Bool flowInterpreter inverts_flowInterpreter _ _ _ _ _ httpBuilder b
    collidingCalls zip manifest init_httpBuilder hb (by decide) (by decide) (by decide) hbuild
  have hcollected : Collected flowInterpreter collidingCalls b :=
    collected_run (collected_init init_httpBuilder) hb
  obtain ⟨raw, hopen⟩ := open_build inverts_flowInterpreter hcollected hbuild
  rw [hopen, Except.ok.injEq] at hr
  rw [← hr] at hback
  have hagree := (readsBack_iff inverts_flowInterpreter hcollected raw (by decide)).mp hback
  have hpatches := hagree.overlays
  unfold Agree at hpatches
  exact absurd hpatches (by decide +kernel)

theorem bundle_roundTrips_iff_http :
    ∃ b zip manifest, httpCalls.foldlM (OncpBuilder.call flowInterpreter) httpBuilder = .ok b ∧
      b.build flowInterpreter = .ok (zip, manifest) ∧ RoundTrips flowInterpreter httpCalls zip := by
  have hcalls : (bundle httpCalls).toBool = true := by decide +kernel
  obtain ⟨b, zip, manifest, hb, hbuild⟩ := exists_bundle hcalls
  have hagree : PathsAgree flowInterpreter httpCalls := by
    constructor
    · unfold Agree
      decide +kernel
    · unfold Agree
      decide +kernel
    · unfold Agree
      decide +kernel
  exact ⟨b, zip, manifest, hb, hbuild, (bundle_roundTrips_iff inverts_flowInterpreter
    init_httpBuilder hb (by decide) hbuild).mpr hagree⟩

end OmnibaseCore.Package
