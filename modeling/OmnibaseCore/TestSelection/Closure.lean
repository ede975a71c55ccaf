import OmnibaseCore.Python.Affix
import OmnibaseCore.Python.Basic
import OmnibaseCore.Python.Sorted
import OmnibaseCore.Python.Text

/-!
# Selection of unit tests by the import graph

`test_selection_closure.py`. What comes from outside is a `Checkout`: the working tree, what
`ast.parse` makes of a text, where the interpreter finds the package, and the graph that `grimp`
builds. Of a graph the code uses the methods of `ImportGraph`.

A set that the code sorts is a list without repetitions. Times are left out, and the report of the
shadow mode, which selects nothing.
-/

namespace OmnibaseCore.TestSelection

/-! ## What comes from outside -/

/-- An import statement, as `ast.Import` and `ast.ImportFrom` describe it. -/
inductive ImportNode
  | direct (names : List String)
  | «from» (level : ℕ) (module : Option String) (names : List String)
deriving DecidableEq

/-- `ImportGraph` of `grimp`, with the direct imports it holds: importer and imported module. -/
structure ImportGraph where
  modules : List String
  imports : List (String × String)
  findDownstreamModules : String → (asPackage : Bool) → List String
  findDescendants : String → List String

/-- What `read_text` gives. -/
inductive ReadText
  | text (s : String)
  | osError (message : String)
  | unicodeDecodeError (message : String)

structure Checkout where
  isFile : String → Bool
  isDir : String → Bool
  readText : String → ReadText
  /-- `rglob("test_*.py")` below a directory -/
  rglobTests : String → List String
  /-- the import statements that `ast.walk` meets in `ast.parse`, if that succeeds -/
  parse : String → Option (List ImportNode)
  /-- the resolved origin that `find_spec` gives for the package, if any, or its error -/
  findSpec : String → Except String (Option String)
  /-- the resolved path of the package's `__init__.py` in the working tree -/
  packageInit : String → String
  /-- `grimp.build_graph`, or the `repr` of what it raises -/
  buildGraph : String → Except String ImportGraph

def packageName : String := "omnibase_core"

def testUnitPrefix : String := "tests/unit/"

def testIntegrationPrefix : String := "tests/integration/"

def pyprojectPath : String := "pyproject.toml"

def dynamicImportMarkers : List String := ["importlib", "__import__"]

def isDocsOnlyPath (path : String) : Bool := endsWith ".md" path || startsWith "docs/" path

/-! ## Changed modules -/

/-- The module of a source file. -/
def dottedName (path : String) : String :=
  let dotted := replaceChar '/' "." (dropEnd ".py".length (dropStart "src/".length path))
  if endsWith ".__init__" dotted then dropEnd ".__init__".length dotted else dotted

/-- What a changed file contributes: a module, a reason not to narrow, or nothing. -/
inductive Resolved
  | module (name : String)
  | reason (text : String)
  | nothing

/-- One turn of the loop of `resolve_changed_src_modules`. -/
def resolveChangedFile (c : Checkout) (package path : String) : Except PyException Resolved :=
  if startsWith ("src/" ++ package ++ "/") path then
    if ¬ endsWith ".py" path then
      .ok (.reason ("non-Python source change is invisible to the import graph: " ++ path))
    else if ¬ c.isFile path then
      .ok (.reason
        ("changed source file missing from working tree (deleted/renamed): " ++ path))
    else
      match c.readText path with
      | .osError exc => .ok (.reason ("cannot read changed source file " ++ path ++ ": " ++ exc))
      | .unicodeDecodeError exc => .error (.valueError exc)
      | .text source =>
        match dynamicImportMarkers.find? fun m => occursIn m source with
        | some marker =>
          .ok (.reason ("dynamic-import marker '" ++ marker ++ "' in changed file " ++ path ++
            ": runtime dependencies may bypass the static import graph"))
        | none => .ok (.module (dottedName path))
  else if startsWith testUnitPrefix path then .ok .nothing
  else if startsWith testIntegrationPrefix path then .ok .nothing
  else if path = pyprojectPath || isDocsOnlyPath path then .ok .nothing
  else
    .ok (.reason
      ("changed file outside src/tests cannot be resolved by the import graph: " ++ path))

def resolveChangedSrcModules (c : Checkout) (package : String) :
    List String → Except PyException (List String × List String)
  | [] => .ok ([], [])
  | path :: rest => do
    let resolved ← resolveChangedFile c package path
    let (modules, reasons) ← resolveChangedSrcModules c package rest
    match resolved with
    | .module name => .ok (modules.insert name, reasons)
    | .reason text => .ok (modules, text :: reasons)
    | .nothing => .ok (modules, reasons)

def graphStalenessReason (c : Checkout) (package : String) : Option String :=
  match c.findSpec package with
  | .error exc => some ("cannot locate package '" ++ package ++ "' for graph build: " ++ exc)
  | .ok none => some ("package '" ++ package ++ "' is not importable — cannot build import graph")
  | .ok (some origin) =>
    if origin ≠ c.packageInit package then
      some ("import graph would be STALE: '" ++ package ++ "' resolves to " ++ origin ++
        ", not this working tree (" ++ c.packageInit package ++
        ") — ambient PYTHONPATH or stale install")
    else
      none

/-! ## Impact -/

def ImportGraph.impactOf (graph : ImportGraph) (module : String) : Finset String :=
  let impacted := insert module (graph.findDownstreamModules module false).toFinset
  let descendants := graph.findDescendants module
  if descendants ≠ [] then
    impacted ∪ descendants.toFinset ∪ (graph.findDownstreamModules module true).toFinset
  else
    impacted

/-- The loop of `compute_impacted_modules`. -/
def impactLoop (graph : ImportGraph) :
    Finset String × List String → List String → Finset String × List String
  | acc, [] => acc
  | (impacted, reasons), module :: rest =>
    if module ∉ graph.modules then
      impactLoop graph
        (impacted, reasons ++ ["changed module not present in import graph: " ++ module]) rest
    else
      impactLoop graph (impacted ∪ graph.impactOf module, reasons) rest

def computeImpactedModules (graph : ImportGraph) (changedModules : List String) :
    Finset String × List String :=
  impactLoop graph (∅, []) (sortedAsc id changedModules)

/-! ## Imports of test files -/

def inPackage (package name : String) : Bool :=
  name = package || startsWith (package ++ ".") name

def ImportNode.found (package : String) : ImportNode → Option (List String)
  | .direct names => some (names.filter (inPackage package))
  | .from level module names =>
    if level ≠ 0 then none
    else
      match module with
      | none => some []
      | some module =>
        if inPackage package module then
          some (module :: names.map fun name => module ++ "." ++ name)
        else
          some []

def collectDirectImports (c : Checkout) (package pyFile : String) : Option (Finset String) :=
  match c.readText pyFile with
  | .osError _ | .unicodeDecodeError _ => none
  | .text source =>
    match c.parse source with
    | none => none
    | some tree =>
      if dynamicImportMarkers.any fun marker => occursIn marker source then none
      else (tree.mapM (ImportNode.found package)).map fun found => found.flatten.toFinset

def parentParts (path : String) : List String :=
  ((splitAt '/' path).filter fun part => part ≠ "" && part ≠ ".").dropLast

/-- `conftest.py` of a directory, where the directory of the root is the empty text. -/
def conftestPath (relDir : String) : String :=
  if relDir = "" then "conftest.py" else relDir ++ "/conftest.py"

/-- The places of `conftest.py` above a test file. -/
def conftestPaths (testRelPath : String) : List String :=
  let parts := parentParts testRelPath
  (List.range (parts.length + 1)).map fun depth =>
    conftestPath (String.intercalate "/" (parts.take depth))

/-- `_conftest_chain_imports`. Its cache only saves work. -/
def conftestChainImports (c : Checkout) (package testRelPath : String) :
    Option (Finset String) :=
  (conftestPaths testRelPath).foldlM (fun merged conftest =>
    let chain := if c.isFile conftest then collectDirectImports c package conftest else some ∅
    chain.map (merged ∪ ·)) ∅

/-- What a test file imports, itself and by its `conftest.py` files. -/
def candidateImports (c : Checkout) (package candidate : String) : Option (Finset String) :=
  match collectDirectImports c package candidate with
  | none => none
  | some own =>
    match conftestChainImports c package candidate with
    | none => none
    | some chain => some (own ∪ chain)

/-! ## Selection -/

/-- A turn of the loop of `refine_candidates`. -/
def refineCandidate (impactedModules forcedKeep : Finset String) :
    List String × List String → String × Option (Finset String) → List String × List String
  | (selected, kept), (candidate, none) => (selected ++ [candidate], kept ++ [candidate])
  | (selected, kept), (candidate, some imports) =>
    if candidate ∈ forcedKeep ∨ imports = ∅ then (selected ++ [candidate], kept ++ [candidate])
    else if imports ∩ impactedModules ≠ ∅ then (selected ++ [candidate], kept)
    else (selected, kept)

def refineCandidates (candidateImports : List (String × Option (Finset String)))
    (impactedModules forcedKeep : Finset String) : List String × List String :=
  (sortedAsc Prod.fst candidateImports).foldl (refineCandidate impactedModules forcedKeep) ([], [])

def collectCandidateFiles (c : Checkout) (roots : List String) : List String :=
  sortedAsc id (roots.flatMap fun root => if c.isDir root then c.rglobTests root else []).dedup

/-- The directory below `tests/unit/` that a changed test file keeps. -/
def forcedDir (path : String) : Option String :=
  if startsWith testUnitPrefix path then
    (splitAt '/' path)[2]?.map fun part => testUnitPrefix ++ part ++ "/"
  else
    none

structure ModelClosureSelection where
  selectedFiles : List String := []
  failClosed : Bool := false
  failClosedReasons : List String := []
  candidateFileCount : ℕ := 0
  impactedModuleCount : ℕ := 0
deriving DecidableEq

def failClosed (reasons : List String) : ModelClosureSelection :=
  { selectedFiles := [testUnitPrefix], failClosed := true, failClosedReasons := reasons }

def selectOverGraph (c : Checkout) (package : String) (graph : ImportGraph)
    (changedModules forcedDirs : List String) : ModelClosureSelection :=
  let (impacted, closureReasons) := computeImpactedModules graph changedModules
  if closureReasons ≠ [] then failClosed closureReasons
  else
    let candidates := collectCandidateFiles c [testUnitPrefix]
    let forcedKeep :=
      candidates.toFinset.filter fun candidate => ∃ dir ∈ forcedDirs, startsWith dir candidate
    let selected := (refineCandidates
      (candidates.map fun candidate => (candidate, candidateImports c package candidate))
      impacted forcedKeep).1
    { selectedFiles := selected
      candidateFileCount := candidates.length
      impactedModuleCount := impacted.card }

def computeClosureSelection (c : Checkout) (changedFiles : List String)
    (package : String) : Except PyException ModelClosureSelection := do
  let (changedModules, reasons) ← resolveChangedSrcModules c package changedFiles
  let forcedDirs := (changedFiles.filterMap forcedDir).dedup
  if reasons ≠ [] then .ok (failClosed reasons)
  else if changedModules = [] then
    if forcedDirs = [] then .ok { selectedFiles := [testUnitPrefix] }
    else
      let candidates := collectCandidateFiles c (sortedAsc id forcedDirs)
      .ok { selectedFiles := candidates, candidateFileCount := candidates.length }
  else
    match graphStalenessReason c package with
    | some stale => .ok (failClosed [stale])
    | none =>
      match c.buildGraph package with
      | .error exc => .ok (failClosed ["import graph build failed: " ++ exc])
      | .ok graph => .ok (selectOverGraph c package graph changedModules forcedDirs)

end OmnibaseCore.TestSelection
