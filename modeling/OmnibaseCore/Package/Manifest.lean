import OmnibaseCore.Json.Text
import OmnibaseCore.Merge.Model
import OmnibaseCore.Python.Archive
import OmnibaseCore.Python.Path

/-!
# The manifest of a package

`ModelOncpManifest` and the entries in it, and how they go through `model_dump` and
`model_validate`. A manifest comes back from its own dump, in whatever order the keys are
(`validateManifest_sortKeys`).
-/

namespace OmnibaseCore.Package

open Merge (EnumOverlayScope)

abbrev Bytes := List UInt8

/-- A dict of strings, numbers, lists and dicts. -/
abbrev Document := Json StrictJsonPrimitive

/-- What the package code takes from the interpreter, from `yaml`, and from the model of
patches. -/
structure OncpInterpreter (Patch : Type) extends TextInterpreter where
  /-- `hashlib.sha256(data).hexdigest()` -/
  sha256 : Bytes → String
  /-- The same, of a text of ASCII -/
  sha256Text : String → String
  /-- `yaml.dump(d, sort_keys=True, allow_unicode=True).encode("utf-8")` -/
  yamlDump : Document → Except PyException Bytes
  /-- `yaml.safe_load(raw.decode("utf-8"))` -/
  safeLoad : Bytes → Except PyException Document
  /-- `patch.model_dump(mode="json", exclude_none=True)` -/
  patchDump : Patch → Document
  /-- `ModelContractPatch.model_validate(data)` -/
  patchValidate : Document → Except PyException Patch
  /-- An `int` field, which also takes some values of other types -/
  laxInt : Document → Option ℤ
  /-- A `bool` field, which also takes some values of other types -/
  laxBool : Document → Option Bool
  /-- `str` of the `ValidationError` of `ModelOncpManifest` for a document -/
  manifestError : Document → String
  /-- `omnibase_core.__version__` -/
  coreVersion : String

/-! ## Entries -/

structure ModelOncpOverlayEntry where
  overlayId : String
  scope : EnumOverlayScope
  path : String
  contentHash : String
  orderIndex : ℕ

/-- `ModelOncpScenarioEntry`, and `ModelOncpInvariantEntry`, which has the same fields. -/
structure ModelOncpFileEntry where
  id : String
  path : String
  contentHash : String
  required : Bool

structure ModelOncpManifest where
  manifestVersion : ℤ
  packageId : String
  packageVersion : String
  baseProfileRef : String
  baseProfileVersion : String
  baseProfileHash : String
  omnibaseCoreVersion : String
  overlays : List ModelOncpOverlayEntry
  resolvedContractHash : String
  scenarios : List ModelOncpFileEntry
  invariants : List ModelOncpFileEntry

/-! ## Dumps -/

def text (s : String) : Document := .prim (.str s)

def ModelOncpOverlayEntry.modelDump (e : ModelOncpOverlayEntry) : Document :=
  .dict [("overlay_id", text e.overlayId), ("scope", text e.scope.value), ("path", text e.path),
    ("content_hash", text e.contentHash), ("order_index", .prim (.int e.orderIndex))]

def ModelOncpFileEntry.modelDump (e : ModelOncpFileEntry) : Document :=
  .dict [("id", text e.id), ("path", text e.path), ("content_hash", text e.contentHash),
    ("required", .prim (.bool e.required))]

/-- `manifest.model_dump(mode="json", exclude_none=True)`. -/
def ModelOncpManifest.modelDump (m : ModelOncpManifest) : Document :=
  .dict [("manifest_version", .prim (.int m.manifestVersion)), ("package_id", text m.packageId),
    ("package_version", text m.packageVersion), ("base_profile_ref", text m.baseProfileRef),
    ("base_profile_version", text m.baseProfileVersion),
    ("base_profile_hash", text m.baseProfileHash),
    ("omnibase_core_version", text m.omnibaseCoreVersion),
    ("overlays", .list (m.overlays.map ModelOncpOverlayEntry.modelDump)),
    ("resolved_contract_hash", text m.resolvedContractHash),
    ("scenarios", .list (m.scenarios.map ModelOncpFileEntry.modelDump)),
    ("invariants", .list (m.invariants.map ModelOncpFileEntry.modelDump))]

/-! ## Validation -/

def fieldsOf (allowed : List String) : Document → Option (List (String × Document))
  | .dict entries => if entries.all fun e => e.1 ∈ allowed then some entries else none
  | _ => none

/-- A `str` field with `min_length=1`. -/
def readText (fields : List (String × Document)) (key : String) : Option String :=
  match fields.lookup key with
  | some (.prim (.str s)) => if s = "" then none else some s
  | _ => none

def readScope (fields : List (String × Document)) (key : String) : Option EnumOverlayScope :=
  match fields.lookup key with
  | some (.prim (.str s)) =>
    [EnumOverlayScope.base, .org, .project, .env, .user, .session].find? fun scope =>
      scope.value = s
  | _ => none

/-- An `int` field with a lower bound. -/
def readInt (laxInt : Document → Option ℤ) (least : ℤ) (fields : List (String × Document))
    (key : String) (default : Option ℤ) : Option ℤ :=
  match fields.lookup key with
  | some value => (laxInt value).filter fun n => least ≤ n
  | none => default

/-- A `bool` field. -/
def readBool (laxBool : Document → Option Bool) (fields : List (String × Document))
    (key : String) (default : Bool) : Option Bool :=
  match fields.lookup key with
  | some value => laxBool value
  | none => some default

def readModels {Model : Type} (read : Document → Option Model) (fields : List (String × Document))
    (key : String) : Option (List Model) :=
  match fields.lookup key with
  | some (.list items) => items.mapM read
  | some _ => none
  | none => some []

variable {Patch : Type} (i : OncpInterpreter Patch)

def readOverlayEntry (j : Document) : Option ModelOncpOverlayEntry := do
  let fields ← fieldsOf ["overlay_id", "scope", "path", "content_hash", "order_index"] j
  let overlayId ← readText fields "overlay_id"
  let scope ← readScope fields "scope"
  let path ← readText fields "path"
  let contentHash ← readText fields "content_hash"
  let orderIndex ← readInt i.laxInt 0 fields "order_index" none
  return { overlayId := overlayId, scope := scope, path := path, contentHash := contentHash,
           orderIndex := orderIndex.toNat }

def readFileEntry (j : Document) : Option ModelOncpFileEntry := do
  let fields ← fieldsOf ["id", "path", "content_hash", "required"] j
  let id ← readText fields "id"
  let path ← readText fields "path"
  let contentHash ← readText fields "content_hash"
  let required ← readBool i.laxBool fields "required" true
  return { id := id, path := path, contentHash := contentHash, required := required }

def readManifest (j : Document) : Option ModelOncpManifest := do
  let fields ← fieldsOf ["manifest_version", "package_id", "package_version", "base_profile_ref",
    "base_profile_version", "base_profile_hash", "omnibase_core_version", "overlays",
    "resolved_contract_hash", "scenarios", "invariants"] j
  let manifestVersion ← readInt i.laxInt 1 fields "manifest_version" (some 1)
  let packageId ← readText fields "package_id"
  let packageVersion ← readText fields "package_version"
  let baseProfileRef ← readText fields "base_profile_ref"
  let baseProfileVersion ← readText fields "base_profile_version"
  let baseProfileHash ← readText fields "base_profile_hash"
  let omnibaseCoreVersion ← readText fields "omnibase_core_version"
  let overlays ← readModels (readOverlayEntry i) fields "overlays"
  let resolvedContractHash ← readText fields "resolved_contract_hash"
  let scenarios ← readModels (readFileEntry i) fields "scenarios"
  let invariants ← readModels (readFileEntry i) fields "invariants"
  return {
    manifestVersion := manifestVersion
    packageId := packageId
    packageVersion := packageVersion
    baseProfileRef := baseProfileRef
    baseProfileVersion := baseProfileVersion
    baseProfileHash := baseProfileHash
    omnibaseCoreVersion := omnibaseCoreVersion
    overlays := overlays
    resolvedContractHash := resolvedContractHash
    scenarios := scenarios
    invariants := invariants }

/-- `ModelOncpManifest.model_validate`. -/
def validateManifest (j : Document) : Except PyException ModelOncpManifest :=
  match readManifest i j with
  | some manifest => .ok manifest
  | none => .error (.validationError (i.manifestError j))

/-!
## Building packages

`OncpBuilder`: overlays, scenarios and invariants are collected with the paths they will have in
the archive, and `build` writes the manifest and all of them.
-/

variable {Patch : Type} (i : OncpInterpreter Patch)

def hashBytes (data : Bytes) : String := "sha256:" ++ i.sha256 data

/-- A `ModelOnexError` without context. -/
def onexError (errorCode : EnumCoreErrorCode) (message : String) : PyException :=
  .modelOnexError { errorCode := errorCode, message := message, context := [] }

structure FileSystem where
  /-- `path.exists()` -/
  exists_ : String → Bool
  /-- `path.read_bytes()` -/
  readBytes : String → Except PyException Bytes

structure OncpBuilder where
  packageId : String
  packageVersion : String
  baseProfileRef : String
  baseProfileVersion : String
  baseProfileHash : String
  overlays : List (ModelOncpOverlayEntry × Bytes)
  scenarios : List (ModelOncpFileEntry × Bytes)
  invariants : List (ModelOncpFileEntry × Bytes)

/-! ## The canonical hash -/

/-- `compute_canonical_hash({"profile": ref, "version": version})`. -/
def profileHash (ref version : String) : String :=
  i.sha256Text ("\x7b\"profile\": " ++ jsonString ref ++ ", \"version\": " ++
    jsonString version ++ "\x7d")

/-- `compute_canonical_hash({"base_profile_hash": hash, "overlays": hashes})`. -/
def resolvedHash (hash : String) (hashes : List String) : String :=
  i.sha256Text ("\x7b\"base_profile_hash\": " ++ jsonString hash ++ ", \"overlays\": [" ++
    ", ".intercalate (hashes.map jsonString) ++ "]\x7d")

/-! ## Collecting -/

def OncpBuilder.init (packageId packageVersion baseProfileRef baseProfileVersion : String)
    (baseProfileHash : Option String) : Except PyException OncpBuilder :=
  if strip packageId = "" then .error (onexError .invalidInput "package_id must not be empty")
  else if strip packageVersion = "" then
    .error (onexError .invalidInput "package_version must not be empty")
  else if strip baseProfileRef = "" then
    .error (onexError .invalidInput "base_profile_ref must not be empty")
  else if strip baseProfileVersion = "" then
    .error (onexError .invalidInput "base_profile_version must not be empty")
  else
    .ok {
      packageId := packageId
      packageVersion := packageVersion
      baseProfileRef := baseProfileRef
      baseProfileVersion := baseProfileVersion
      baseProfileHash := (baseProfileHash.filter fun hash => hash ≠ "").getD
        ("sha256:" ++ profileHash i baseProfileRef baseProfileVersion)
      overlays := []
      scenarios := []
      invariants := [] }

def overlayPath (overlayId : String) : String :=
  "overlays/" ++ replaceChar '.' "_" (replaceChar '/' "_" overlayId) ++ ".overlay.yaml"

def OncpBuilder.addOverlay (b : OncpBuilder) (patch : Patch) (scope : EnumOverlayScope)
    (overlayId : String) : Except PyException OncpBuilder :=
  if strip overlayId = "" then .error (onexError .invalidInput "overlay_id must not be empty")
  else do
    let rawBytes ← i.yamlDump (i.patchDump patch)
    let entry : ModelOncpOverlayEntry :=
      { overlayId := overlayId, scope := scope, path := overlayPath overlayId,
        contentHash := hashBytes i rawBytes, orderIndex := b.overlays.length }
    return { b with overlays := b.overlays ++ [(entry, rawBytes)] }

def fileEntry (fs : FileSystem) (kind directory model path : String) (id : Option String)
    (required : Bool) : Except PyException (ModelOncpFileEntry × Bytes) := do
  if !fs.exists_ path then throw (onexError .fileNotFound (kind ++ " file not found: " ++ path))
  else do
    let rawBytes ← fs.readBytes path
    let id := (id.filter fun id => id ≠ "").getD (pathStem path)
    if id = "" then throw (.validationError (i.validationText model ["id"]))
    else
      return ({ id := id, path := directory ++ "/" ++ pathName path,
                contentHash := hashBytes i rawBytes, required := required }, rawBytes)

def OncpBuilder.addScenario (b : OncpBuilder) (fs : FileSystem) (scenarioPath : String)
    (scenarioId : Option String) (required : Bool) : Except PyException OncpBuilder := do
  let entry ← fileEntry i fs "Scenario" "scenarios" "ModelOncpScenarioEntry" scenarioPath
    scenarioId required
  return { b with scenarios := b.scenarios ++ [entry] }

def OncpBuilder.addInvariants (b : OncpBuilder) (fs : FileSystem) (invariantsPath : String)
    (invariantsId : Option String) (required : Bool) : Except PyException OncpBuilder := do
  let entry ← fileEntry i fs "Invariants" "invariants" "ModelOncpInvariantEntry" invariantsPath
    invariantsId required
  return { b with invariants := b.invariants ++ [entry] }

inductive Call (Patch : Type)
  | overlay (patch : Patch) (scope : EnumOverlayScope) (overlayId : String)
  | scenario (fs : FileSystem) (path : String) (id : Option String) (required : Bool)
  | invariants (fs : FileSystem) (path : String) (id : Option String) (required : Bool)

def OncpBuilder.call (b : OncpBuilder) : Call Patch → Except PyException OncpBuilder
  | .overlay patch scope overlayId => b.addOverlay i patch scope overlayId
  | .scenario fs path id required => b.addScenario i fs path id required
  | .invariants fs path id required => b.addInvariants i fs path id required

/-! ## Building -/

/-- A zip archive: what has been written to it, under names. -/
abbrev Archive := List (String × Bytes)

def OncpBuilder.manifest (b : OncpBuilder) : ModelOncpManifest :=
  { manifestVersion := 1
    packageId := b.packageId
    packageVersion := b.packageVersion
    baseProfileRef := b.baseProfileRef
    baseProfileVersion := b.baseProfileVersion
    baseProfileHash := b.baseProfileHash
    omnibaseCoreVersion := i.coreVersion
    overlays := b.overlays.map Prod.fst
    resolvedContractHash := "sha256:" ++
      resolvedHash i b.baseProfileHash (b.overlays.map fun e => e.1.contentHash)
    scenarios := b.scenarios.map Prod.fst
    invariants := b.invariants.map Prod.fst }

/-- What `build` and `build_bytes` write. -/
def OncpBuilder.archive (b : OncpBuilder) (manifestBytes : Bytes) : Archive :=
  ("manifest.yaml", manifestBytes) ::
    (b.overlays.map (fun e => (e.1.path, e.2)) ++ b.scenarios.map (fun e => (e.1.path, e.2)) ++
      b.invariants.map fun e => (e.1.path, e.2))

/-- `build_bytes`, and what `build` returns and leaves in the file. The version of the package
must not be empty in a manifest. -/
def OncpBuilder.build (b : OncpBuilder) : Except PyException (Archive × ModelOncpManifest) :=
  if i.coreVersion = "" then
    .error (.validationError (i.validationText "ModelOncpManifest" ["omnibase_core_version"]))
  else do
    let manifestBytes ← i.yamlDump (b.manifest i).modelDump
    return (b.archive manifestBytes, b.manifest i)

/-!
## Reading packages

`OncpReader`: `open` reads the manifest; the content is read by the paths in it.
-/

variable {Patch : Type} (i : OncpInterpreter Patch)

structure OncpReader where
  manifest : Option ModelOncpManifest
  zip : Option Archive

def OncpReader.init : OncpReader := { manifest := none, zip := none }

/-- `zf.read(name)`. -/
def readEntry (zip : Archive) (name : String) : Except PyException Bytes :=
  match lastWrite zip name with
  | some data => .ok data
  | none => .error (.other "KeyError"
      ("There is no item named " ++ i.repr name ++ " in the archive"))

def loadManifest (zip : Archive) : Except PyException ModelOncpManifest := do
  if !(zip.map Prod.fst).contains "manifest.yaml" then
    throw (onexError .validationError ".oncp bundle is missing 'manifest.yaml'")
  else do
    let raw ← readEntry i zip "manifest.yaml"
    let data ← i.safeLoad raw
    validateManifest i data

/-- `open_bytes`, and `open` of a file with this content. -/
def OncpReader.open_ (_ : OncpReader) (zip : Archive) : Except PyException OncpReader := do
  let manifest ← loadManifest i zip
  return { manifest := some manifest, zip := some zip }

def OncpReader.opened (r : OncpReader) (method : String) :
    Except PyException (ModelOncpManifest × Archive) :=
  match r.manifest, r.zip with
  | some manifest, some zip => .ok (manifest, zip)
  | _, _ => .error (onexError .invalidOperation
      ("OncpReader.open() must be called before " ++ method ++ "()"))

def mismatch (zip : Archive) (kind id path contentHash : String) :
    Except PyException (List String) := do
  let raw ← readEntry i zip path
  let actual := hashBytes i raw
  return if actual ≠ contentHash then
      [kind ++ " '" ++ id ++ "': expected " ++ contentHash ++ ", got " ++ actual]
    else []

def OncpReader.validateDigests (r : OncpReader) : Except PyException Bool := do
  let (manifest, zip) ← r.opened "validate_digests"
  let overlays ← manifest.overlays.mapM fun e =>
    mismatch i zip "overlay" e.overlayId e.path e.contentHash
  let scenarios ← manifest.scenarios.mapM fun e =>
    mismatch i zip "scenario" e.id e.path e.contentHash
  let invariants ← manifest.invariants.mapM fun e =>
    mismatch i zip "invariant" e.id e.path e.contentHash
  let mismatches := (overlays ++ scenarios ++ invariants).flatten
  if mismatches.isEmpty then return true
  else
    throw (onexError .validationError ("Content hash mismatch(es) in .oncp bundle:\n" ++
      "\n".intercalate (mismatches.map fun m => "  - " ++ m)))

def OncpReader.getOverlayPatches (r : OncpReader) : Except PyException (List Patch) := do
  let (manifest, zip) ← r.opened "get_overlay_patches"
  (sortedAsc ModelOncpOverlayEntry.orderIndex manifest.overlays).mapM fun e => do
    let raw ← readEntry i zip e.path
    let data ← i.safeLoad raw
    i.patchValidate data

def OncpReader.getScenarioContent (r : OncpReader) (scenarioId : String) :
    Except PyException Bytes := do
  let (manifest, zip) ← r.opened "get_scenario_content"
  match manifest.scenarios.find? fun e => e.id = scenarioId with
  | some e => readEntry i zip e.path
  | none =>
    throw (onexError .invalidInput ("No scenario with id '" ++ scenarioId ++ "' in bundle"))

end OmnibaseCore.Package
