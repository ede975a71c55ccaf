import OmnibaseCore.TestSelection.Closure

/-!
# The two test selectors

`DetectTestPaths.computeSelection` is the selector of the CI, which walks the working tree.
`SelectorCore.computeSelection` is its pure port, which is given the closure and the numbers of
test files. The two are translated from their own sources, which repeat one another.

Of the adjacency map only the fields are kept that the selectors read.
-/

namespace OmnibaseCore.TestSelection

/-! ## Models -/

inductive EnumFullSuiteReason
  | sharedModule
  | thresholdModules
  | testInfrastructure
  | mainBranch
  | mergeGroup
  | scheduled
  | featureFlagOff
deriving DecidableEq

structure ModelThresholds where
  modulesChangedForFullSuite : ℕ
  one_le : 1 ≤ modulesChangedForFullSuite

structure ModelAdjacencyMap where
  sharedModules : List String
  thresholds : ModelThresholds
  testInfrastructurePaths : List String

/-- A letter or a digit of ASCII, or one of `_`, `.`, `/` and the hyphen. -/
def isPathChar (c : Char) : Bool :=
  ('A' ≤ c && c ≤ 'Z') || ('a' ≤ c && c ≤ 'z') || ('0' ≤ c && c ≤ '9') || c = '_' || c = '.' ||
    c = '/' || c = '-'

/-- The pattern of `TestPath`: `tests/`, another directory below it, or a file `.py` below it. -/
def isTestPath (path : String) : Bool :=
  path = "tests/" ||
    startsWith "tests/" path &&
      let rest := path.toList.drop "tests/".length
      rest.all isPathChar &&
        (endsWith "/" path && 2 ≤ rest.length || endsWith ".py" path && 4 ≤ rest.length)

structure ModelTestSelection where
  selectedPaths : List String
  splitCount : ℤ
  isFullSuite : Bool
  fullSuiteReason : Option EnumFullSuiteReason
  matrix : List ℤ
deriving DecidableEq

/-- The validation of a `ModelTestSelection`. -/
def ModelTestSelection.validate (m : ModelTestSelection) : Except PyException ModelTestSelection :=
  if ¬ m.selectedPaths.all isTestPath then
    .error (.validationError "selected_paths: String should match pattern")
  else if m.splitCount < 1 then
    .error (.validationError "split_count: Input should be greater than or equal to 1")
  else if 40 < m.splitCount then
    .error (.validationError "split_count: Input should be less than or equal to 40")
  else if m.isFullSuite ∧ m.fullSuiteReason = none then
    .error (.validationError "full_suite_reason required when is_full_suite=True")
  else if ¬ m.isFullSuite ∧ m.fullSuiteReason ≠ none then
    .error (.validationError "full_suite_reason forbidden when is_full_suite=False")
  else if m.matrix.length ≠ m.splitCount then
    .error (.validationError ("matrix length " ++ toString m.matrix.length ++
      " must equal split_count " ++ toString m.splitCount))
  else
    .ok m

/-- `list(range(1, n + 1))`. -/
def upTo (n : ℤ) : List ℤ := (List.range n.toNat).map fun i : ℕ => (i : ℤ) + 1

def srcPrefix : String := "src/omnibase_core/"

/-- The first directory, or the file, below the package. -/
def topModule (path : String) : String :=
  String.ofList ((dropStart srcPrefix.length path).toList.takeWhile (· ≠ '/'))

/-! ## The port -/

namespace SelectorCore

def fullSuiteBranches : List String := ["main"]

def isDocsOnlyPath (path : String) : Bool := endsWith ".md" path || startsWith "docs/" path

def fullSuite (reason : EnumFullSuiteReason) : Except PyException ModelTestSelection :=
  ModelTestSelection.validate
    { selectedPaths := ["tests/"]
      splitCount := 40
      isFullSuite := true
      fullSuiteReason := some reason
      matrix := upTo 40 }

def pathCountFloor (n : ℕ) : ℤ :=
  if n ≤ 2 then 1 else if n ≤ 5 then 2 else if n ≤ 10 then 3 else if n ≤ 16 then 4 else 5

/-- `volume_split_from_total`: 40 files to a split, from 80 files on. -/
def volumeSplitFromTotal (totalTestFiles : ℤ) : ℤ :=
  if totalTestFiles < 80 then 0 else -(-totalTestFiles / 40)

def splitCountFromTotal (selectedPaths : List String) (totalTestFiles : ℤ) : ℤ :=
  min (max (pathCountFloor selectedPaths.length) (volumeSplitFromTotal totalTestFiles)) 40

def changesTestInfrastructure (adjacency : ModelAdjacencyMap)
    (pyprojectDependencyRelevant : Option Bool) : List String → Bool
  | [] => false
  | changed :: rest =>
    if changed = pyprojectPath then
      if pyprojectDependencyRelevant = none ∨ pyprojectDependencyRelevant = some true then true
      else changesTestInfrastructure adjacency pyprojectDependencyRelevant rest
    else if adjacency.testInfrastructurePaths.any fun infra =>
        changed = infra || startsWith (rstripChar '/' infra ++ "/") changed then
      true
    else
      changesTestInfrastructure adjacency pyprojectDependencyRelevant rest

def changedModules (changedFiles : List String) : Finset String :=
  ((changedFiles.filter (startsWith srcPrefix)).map topModule).toFinset

def computeSelection (changedFiles : List String) (adjacency : ModelAdjacencyMap)
    (refName eventName : String) (featureFlagEnabled : Bool)
    (pyprojectDependencyRelevant : Option Bool) (testFileCounts : Option (String → Option ℤ))
    (closureSelectedFiles : Option (List String)) : Except PyException ModelTestSelection :=
  let counts := testFileCounts.getD fun _ => none
  if ¬ featureFlagEnabled then fullSuite .featureFlagOff
  else if refName ∈ fullSuiteBranches then fullSuite .mainBranch
  else if eventName = "merge_group" then fullSuite .mergeGroup
  else if eventName = "schedule" then fullSuite .scheduled
  else if changesTestInfrastructure adjacency pyprojectDependencyRelevant changedFiles then
    fullSuite .testInfrastructure
  else if changedModules changedFiles ∩ adjacency.sharedModules.toFinset ≠ ∅ then
    fullSuite .sharedModule
  else if adjacency.thresholds.modulesChangedForFullSuite ≤ (changedModules changedFiles).card then
    fullSuite .thresholdModules
  else if changedFiles ≠ [] ∧ changedFiles.all isDocsOnlyPath then
    ModelTestSelection.validate
      { selectedPaths := [], splitCount := 1, isFullSuite := false, fullSuiteReason := none
        matrix := [1] }
  else
    -- no closure and an empty one are treated alike
    let selected :=
      match closureSelectedFiles with
      | none | some [] => ["tests/unit/"]
      | some selected => selected
    let total := (selected.map fun path => (counts path).getD 0).sum
    let splitCount := splitCountFromTotal selected total
    ModelTestSelection.validate
      { selectedPaths := selected, splitCount, isFullSuite := false, fullSuiteReason := none
        matrix := upTo splitCount }

end SelectorCore

/-! ## The selector of the CI -/

namespace DetectTestPaths

def fullSuiteBranches : List String := ["main"]

def isDocsOnlyPath (path : String) : Bool := endsWith ".md" path || startsWith "docs/" path

def fullSuite (reason : EnumFullSuiteReason) : Except PyException ModelTestSelection :=
  ModelTestSelection.validate
    { selectedPaths := ["tests/"]
      splitCount := 40
      isFullSuite := true
      fullSuiteReason := some reason
      matrix := upTo 40 }

def pathCountFloor (n : ℕ) : ℤ :=
  if n ≤ 2 then 1 else if n ≤ 5 then 2 else if n ≤ 10 then 3 else if n ≤ 16 then 4 else 5

/-- The loop of `_count_test_files`. -/
def countLoop (c : Checkout) : ℤ → List String → ℤ
  | total, [] => total
  | total, rel :: rest =>
    if c.isDir rel then countLoop c (total + (c.rglobTests rel).length) rest
    else if c.isFile rel then countLoop c (total + 1) rest
    else countLoop c total rest

def countTestFiles (selectedPaths : List String) (c : Checkout) : ℤ := countLoop c 0 selectedPaths

def volumeSplitCount (selectedPaths : List String) (repoRoot : Option Checkout) : ℤ :=
  match repoRoot with
  | none => 0
  | some c =>
    let total := countTestFiles selectedPaths c
    if total < 80 then 0 else -(-total / 40)

def splitCountFor (selectedPaths : List String) (repoRoot : Option Checkout) : ℤ :=
  min (max (pathCountFloor selectedPaths.length) (volumeSplitCount selectedPaths repoRoot)) 40

def changesTestInfrastructure (config : ModelAdjacencyMap)
    (pyprojectDependencyRelevant : Option Bool) : List String → Bool
  | [] => false
  | changed :: rest =>
    if changed = pyprojectPath then
      if pyprojectDependencyRelevant = none ∨ pyprojectDependencyRelevant = some true then true
      else changesTestInfrastructure config pyprojectDependencyRelevant rest
    else if config.testInfrastructurePaths.any fun infra =>
        changed = infra || startsWith (rstripChar '/' infra ++ "/") changed then
      true
    else
      changesTestInfrastructure config pyprojectDependencyRelevant rest

def changedModules (changedFiles : List String) : Finset String :=
  ((changedFiles.filter (startsWith srcPrefix)).map topModule).toFinset

def computeSelection (changedFiles : List String) (config : ModelAdjacencyMap)
    (refName eventName : String) (featureFlagEnabled : Bool)
    (pyprojectDependencyRelevant : Option Bool) (closureRoot : Checkout) :
    Except PyException ModelTestSelection :=
  if ¬ featureFlagEnabled then fullSuite .featureFlagOff
  else if refName ∈ fullSuiteBranches then fullSuite .mainBranch
  else if eventName = "merge_group" then fullSuite .mergeGroup
  else if eventName = "schedule" then fullSuite .scheduled
  else if changesTestInfrastructure config pyprojectDependencyRelevant changedFiles then
    fullSuite .testInfrastructure
  else if changedModules changedFiles ∩ config.sharedModules.toFinset ≠ ∅ then
    fullSuite .sharedModule
  else if config.thresholds.modulesChangedForFullSuite ≤ (changedModules changedFiles).card then
    fullSuite .thresholdModules
  else if changedFiles ≠ [] ∧ changedFiles.all isDocsOnlyPath then
    ModelTestSelection.validate
      { selectedPaths := [], splitCount := 1, isFullSuite := false, fullSuiteReason := none
        matrix := [1] }
  else do
    let closure ← computeClosureSelection closureRoot changedFiles packageName
    let selected := closure.selectedFiles
    let splitCount := splitCountFor selected (some closureRoot)
    ModelTestSelection.validate
      { selectedPaths := selected, splitCount, isFullSuite := false, fullSuiteReason := none
        matrix := upTo splitCount }

end DetectTestPaths

/-!
## Agreement of the two test selectors

Both climb the same ladder of escalations. At its end, the selector of the CI takes an empty
closure at its word and selects nothing, and its port takes it for a missing one and selects
`tests/unit/`.

* `countTestFiles_eq_sum`: test files are counted path by path.
* `computeSelection_agree_iff`: given the closure and the counts of the other, the port
  agrees with it exactly if a step of the ladder decides, or the closure is not empty.
-/

/-! ## The ladder -/

/-- A step before the closure decides. -/
def DecidedEarly (changedFiles : List String) (config : ModelAdjacencyMap)
    (refName eventName : String) (featureFlagEnabled : Bool)
    (pyprojectDependencyRelevant : Option Bool) : Prop :=
  featureFlagEnabled = false ∨ refName ∈ DetectTestPaths.fullSuiteBranches ∨
    eventName = "merge_group" ∨ eventName = "schedule" ∨
    DetectTestPaths.changesTestInfrastructure config pyprojectDependencyRelevant changedFiles ∨
    DetectTestPaths.changedModules changedFiles ∩ config.sharedModules.toFinset ≠ ∅ ∨
    config.thresholds.modulesChangedForFullSuite ≤
      (DetectTestPaths.changedModules changedFiles).card ∨
    changedFiles ≠ [] ∧ changedFiles.all DetectTestPaths.isDocsOnlyPath = true

/-- The steps before the closure, and what comes after them. -/
def ladder (changedFiles : List String) (config : ModelAdjacencyMap) (refName eventName : String)
    (featureFlagEnabled : Bool) (pyprojectDependencyRelevant : Option Bool)
    (smart : Except PyException ModelTestSelection) : Except PyException ModelTestSelection :=
  if ¬ featureFlagEnabled then DetectTestPaths.fullSuite .featureFlagOff
  else if refName ∈ DetectTestPaths.fullSuiteBranches then DetectTestPaths.fullSuite .mainBranch
  else if eventName = "merge_group" then DetectTestPaths.fullSuite .mergeGroup
  else if eventName = "schedule" then DetectTestPaths.fullSuite .scheduled
  else if DetectTestPaths.changesTestInfrastructure config pyprojectDependencyRelevant
      changedFiles then
    DetectTestPaths.fullSuite .testInfrastructure
  else if DetectTestPaths.changedModules changedFiles ∩ config.sharedModules.toFinset ≠ ∅ then
    DetectTestPaths.fullSuite .sharedModule
  else if config.thresholds.modulesChangedForFullSuite ≤
      (DetectTestPaths.changedModules changedFiles).card then
    DetectTestPaths.fullSuite .thresholdModules
  else if changedFiles ≠ [] ∧ changedFiles.all DetectTestPaths.isDocsOnlyPath then
    ModelTestSelection.validate
      { selectedPaths := [], splitCount := 1, isFullSuite := false, fullSuiteReason := none
        matrix := [1] }
  else smart

section
variable {changedFiles : List String} {config : ModelAdjacencyMap} {refName eventName : String}
  {featureFlagEnabled : Bool} {pyprojectDependencyRelevant : Option Bool}

theorem ladder_eq_iff {smart smart' : Except PyException ModelTestSelection} :
    ladder changedFiles config refName eventName featureFlagEnabled pyprojectDependencyRelevant
        smart
      = ladder changedFiles config refName eventName featureFlagEnabled
        pyprojectDependencyRelevant smart' ↔
    DecidedEarly changedFiles config refName eventName featureFlagEnabled
      pyprojectDependencyRelevant ∨ smart = smart' := by
  unfold ladder DecidedEarly
  split_ifs <;> simp_all

theorem changesTestInfrastructure_eq :
    SelectorCore.changesTestInfrastructure config pyprojectDependencyRelevant changedFiles
      = DetectTestPaths.changesTestInfrastructure config pyprojectDependencyRelevant
        changedFiles := by
  induction changedFiles with
  | nil => rfl
  | cons changed rest ih =>
    unfold SelectorCore.changesTestInfrastructure DetectTestPaths.changesTestInfrastructure
    rw [ih]

end

/-! ## Counts -/

theorem countLoop_eq (c : Checkout) (total : ℤ) (paths : List String) :
    DetectTestPaths.countLoop c total paths
      = total + (paths.map fun path => DetectTestPaths.countTestFiles [path] c).sum := by
  induction paths generalizing total with
  | nil => exact (add_zero total).symm
  | cons rel rest ih =>
    rw [List.map_cons, List.sum_cons, DetectTestPaths.countTestFiles]
    unfold DetectTestPaths.countLoop
    split_ifs <;> rw [ih] <;> simp [DetectTestPaths.countLoop] <;> ring

theorem countTestFiles_eq_sum (c : Checkout) (paths : List String) :
    DetectTestPaths.countTestFiles paths c
      = (paths.map fun path => DetectTestPaths.countTestFiles [path] c).sum := by
  unfold DetectTestPaths.countTestFiles
  rw [countLoop_eq, zero_add]
  rfl

theorem splitCountFromTotal_eq {c : Checkout} {paths : List String} {counts : String → Option ℤ}
    (hcounts : ∀ path ∈ paths, (counts path).getD 0 = DetectTestPaths.countTestFiles [path] c) :
    SelectorCore.splitCountFromTotal paths (paths.map fun path => (counts path).getD 0).sum
      = DetectTestPaths.splitCountFor paths (some c) := by
  have htotal : (paths.map fun path => (counts path).getD 0).sum
      = DetectTestPaths.countTestFiles paths c := by
    rw [countTestFiles_eq_sum, List.map_congr_left hcounts]
  rw [htotal]
  rfl

/-! ## Agreement -/

theorem eq_of_validate_eq_ok {m m' : ModelTestSelection} (h : m.validate = .ok m') : m' = m := by
  unfold ModelTestSelection.validate at h
  split_ifs at h
  exact (Except.ok.inj h).symm

def portSelection (counts : Option (String → Option ℤ)) (selected : List String) :
    Except PyException ModelTestSelection :=
  let splitCount := SelectorCore.splitCountFromTotal selected
    (selected.map fun path => ((counts.getD fun _ => none) path).getD 0).sum
  ModelTestSelection.validate
    { selectedPaths := selected, splitCount, isFullSuite := false, fullSuiteReason := none
      matrix := upTo splitCount }

def closureSelection (c : Checkout) (selected : List String) :
    Except PyException ModelTestSelection :=
  let splitCount := DetectTestPaths.splitCountFor selected (some c)
  ModelTestSelection.validate
    { selectedPaths := selected, splitCount, isFullSuite := false, fullSuiteReason := none
      matrix := upTo splitCount }

section
variable {changedFiles : List String} {config : ModelAdjacencyMap} {refName eventName : String}
  {featureFlagEnabled : Bool} {pyprojectDependencyRelevant : Option Bool} {c : Checkout}
  {counts : Option (String → Option ℤ)}

theorem selectorCore_eq_ladder {selected : List String} :
    SelectorCore.computeSelection changedFiles config refName eventName featureFlagEnabled
        pyprojectDependencyRelevant counts (some selected)
      = ladder changedFiles config refName eventName featureFlagEnabled
        pyprojectDependencyRelevant
        (portSelection counts (if selected = [] then ["tests/unit/"] else selected)) := by
  unfold SelectorCore.computeSelection
  rw [changesTestInfrastructure_eq]
  cases selected with
  | nil => rfl
  | cons first rest => rfl

theorem detectTestPaths_eq_ladder {closure : ModelClosureSelection}
    (hclosure : computeClosureSelection c changedFiles packageName = .ok closure) :
    DetectTestPaths.computeSelection changedFiles config refName eventName featureFlagEnabled
        pyprojectDependencyRelevant c
      = ladder changedFiles config refName eventName featureFlagEnabled
        pyprojectDependencyRelevant (closureSelection c closure.selectedFiles) := by
  unfold DetectTestPaths.computeSelection
  rw [hclosure]
  rfl

theorem portSelection_ne {selected : List String} (h : selected ≠ []) :
    portSelection counts selected ≠ closureSelection c [] := by
  intro hsame
  have hnothing : closureSelection c [] = .ok
      { selectedPaths := [], splitCount := 1, isFullSuite := false, fullSuiteReason := none
        matrix := [1] } := rfl
  rw [hnothing] at hsame
  exact h (congrArg ModelTestSelection.selectedPaths (eq_of_validate_eq_ok hsame)).symm

/-- The selectors agree exactly if a step before the closure decides, or the closure selects at
least one file. -/
theorem computeSelection_agree_iff {closure : ModelClosureSelection}
    (hclosure : computeClosureSelection c changedFiles packageName = .ok closure)
    (hcounts : ∀ path ∈ closure.selectedFiles,
      ((counts.getD fun _ => none) path).getD 0 = DetectTestPaths.countTestFiles [path] c) :
    SelectorCore.computeSelection changedFiles config refName eventName featureFlagEnabled
        pyprojectDependencyRelevant counts (some closure.selectedFiles)
      = DetectTestPaths.computeSelection changedFiles config refName eventName featureFlagEnabled
        pyprojectDependencyRelevant c ↔
    DecidedEarly changedFiles config refName eventName featureFlagEnabled
      pyprojectDependencyRelevant ∨ closure.selectedFiles ≠ [] := by
  rw [selectorCore_eq_ladder, detectTestPaths_eq_ladder hclosure, ladder_eq_iff]
  refine or_congr_right ?_
  by_cases hempty : closure.selectedFiles = []
  · rw [if_pos hempty, hempty]
    exact iff_of_false (portSelection_ne (List.cons_ne_nil _ _)) (fun h => h rfl)
  · rw [if_neg hempty]
    refine iff_of_true ?_ hempty
    unfold portSelection closureSelection
    rw [splitCountFromTotal_eq hcounts]

end

/-- A checkout with a test file at the top of `tests/unit/`. -/
def topLevelTest : Checkout where
  isFile path := path = "tests/unit/test_top.py"
  isDir path := path = "tests/unit/"
  readText _ := .text ""
  rglobTests root := if root = "tests/unit/" then ["tests/unit/test_top.py"] else []
  parse _ := some []
  findSpec _ := .ok none
  packageInit _ := "/repo/src/omnibase_core/__init__.py"
  buildGraph _ := .error "ModuleNotFoundError(\"No module named 'grimp'\")"

def sharedModels : ModelAdjacencyMap where
  sharedModules := ["models", "contracts", "enums", "validation", "runtime", "event_bus"]
  thresholds := { modulesChangedForFullSuite := 8, one_le := by decide }
  testInfrastructurePaths := ["tests/conftest.py", "tests/fixtures/"]

/-- A checkout with two test files in a directory of `tests/unit/`. -/
def mergeTests : Checkout :=
  { topLevelTest with
    isFile := fun path => path ∈ ["tests/unit/merge/test_deep.py", "tests/unit/merge/test_flat.py"]
    isDir := fun path => path ∈ ["tests/unit/", "tests/unit/merge/"]
    rglobTests := fun root =>
      if root ∈ ["tests/unit/", "tests/unit/merge/"] then
        ["tests/unit/merge/test_deep.py", "tests/unit/merge/test_flat.py"]
      else [] }

/-- The closure selects both files of the directory for either selector. -/
theorem computeSelection_agree_iff_mergeTests :
    ∃ closure, computeClosureSelection mergeTests ["tests/unit/merge/test_deep.py"] packageName
        = .ok closure ∧ closure.selectedFiles.length = 2 ∧
      SelectorCore.computeSelection ["tests/unit/merge/test_deep.py"] sharedModels "pr"
          "pull_request" true none (some fun _ => some 1) (some closure.selectedFiles)
        = DetectTestPaths.computeSelection ["tests/unit/merge/test_deep.py"] sharedModels "pr"
          "pull_request" true none mergeTests := by
  have hclosure : computeClosureSelection mergeTests ["tests/unit/merge/test_deep.py"] packageName
      = .ok {
        selectedFiles := ["tests/unit/merge/test_deep.py", "tests/unit/merge/test_flat.py"]
        candidateFileCount := 2 } := by
    decide +kernel
  refine ⟨_, hclosure, rfl, (computeSelection_agree_iff hclosure ?_).mpr (Or.inr (by simp))⟩
  decide +kernel

/-- The changed test file is not in a directory of its own, so the closure is empty. -/
theorem topLevelTest_disagree :
    computeClosureSelection topLevelTest ["tests/unit/test_top.py"] packageName = .ok {} ∧
    SelectorCore.computeSelection ["tests/unit/test_top.py"] sharedModels "pr" "pull_request" true
        none none (some [])
      ≠ DetectTestPaths.computeSelection ["tests/unit/test_top.py"] sharedModels "pr"
        "pull_request" true none topLevelTest := by
  decide +kernel

end OmnibaseCore.TestSelection
