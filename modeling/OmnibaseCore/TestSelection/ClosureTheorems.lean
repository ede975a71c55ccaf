import OmnibaseCore.TestSelection.Closure

/-!
# What the selection over the import graph misses

Executing a module executes what it imports and the packages above it. The code follows imports
backwards from the changed modules and from all below them. It does not go down again from an
impacted package to the modules below it, which execute it as well.

* `selectionSound_iff`: a test file that executes a changed module is selected exactly if it is
  kept without evidence, or reaches by imports alone a changed module or a module below one.
* `selectionSound_of_closed`: nothing is missed if all modules below an impacted package
  are impacted.
-/

namespace OmnibaseCore.TestSelection

open Relation

/-! ## Execution -/

/-- `x` imports `y` directly. -/
def ImportGraph.Imports (graph : ImportGraph) (x y : String) : Prop := (x, y) ∈ graph.imports

/-- Executing `x` executes `y`: a module that it imports, or a package above it. -/
def ImportGraph.Runs (graph : ImportGraph) (x y : String) : Prop := graph.Imports x y ∨ Above y x

/-- What `grimp` documents, for a graph of the modules of the package. -/
structure ImportGraph.Documented (graph : ImportGraph) (package : String) : Prop where
  /-- graphs are built of packages at the top level -/
  topLevel : '.' ∉ package.toList
  modules_inPackage : ∀ m ∈ graph.modules, inPackage package m = true
  imports_modules : ∀ x y, graph.Imports x y → x ∈ graph.modules ∧ y ∈ graph.modules
  mem_findDescendants : ∀ m ∈ graph.modules, ∀ d,
    d ∈ graph.findDescendants m ↔ d ∈ graph.modules ∧ Above m d
  /-- the modules that import the given one, directly or not -/
  transGen_of_downstream : ∀ m ∈ graph.modules, ∀ x ∈ graph.findDownstreamModules m false,
    TransGen graph.Imports x m
  downstream_of_transGen : ∀ m ∈ graph.modules, ∀ x, TransGen graph.Imports x m →
    x = m ∨ x ∈ graph.findDownstreamModules m false
  /-- the modules outside the package that import one of its modules -/
  transGen_of_downstream_package : ∀ m ∈ graph.modules,
    ∀ x ∈ graph.findDownstreamModules m true,
      ∃ d ∈ graph.modules, (d = m ∨ Above m d) ∧ TransGen graph.Imports x d
  downstream_package_of_transGen : ∀ m ∈ graph.modules, ∀ d ∈ graph.modules,
    d = m ∨ Above m d → ∀ x, TransGen graph.Imports x d →
      x = m ∨ Above m x ∨ x ∈ graph.findDownstreamModules m true

/-- The modules that an absolute import names. Of `from m import n`, `n` may be a module. -/
def ImportNode.names : ImportNode → List String
  | .direct names => names
  | .from level module names =>
    match level, module with
    | 0, some module => module :: names.map fun name => module ++ "." ++ name
    | _, _ => []

/-- An import statement of a file names `name`. -/
def Checkout.FileImports (c : Checkout) (file name : String) : Prop :=
  ∃ source tree node, c.readText file = .text source ∧ c.parse source = some tree ∧
    node ∈ tree ∧ name ∈ node.names

/-- The test file imports `name`, or a `conftest.py` above it does. -/
def Checkout.TestImports (c : Checkout) (test name : String) : Prop :=
  c.FileImports test name ∨
    ∃ conftest ∈ conftestPaths test, c.isFile conftest = true ∧ c.FileImports conftest name

/-- A file `test_*.py` below `tests/unit/`. -/
def Checkout.IsUnitTest (c : Checkout) (test : String) : Prop :=
  c.isDir testUnitPrefix = true ∧ test ∈ c.rglobTests testUnitPrefix

def IsSource (package path : String) : Prop :=
  startsWith ("src/" ++ package ++ "/") path = true ∧ endsWith ".py" path = true

def Changed (package : String) (changedFiles : List String) (m : String) : Prop :=
  ∃ path ∈ changedFiles, IsSource package path ∧ dottedName path = m

def Affected (c : Checkout) (graph : ImportGraph) (package : String) (changedFiles : List String)
    (test : String) : Prop :=
  ∃ name m, c.TestImports test name ∧ Changed package changedFiles m ∧
    ReflTransGen graph.Runs name m

/-- A unit test that executes a changed module is selected, or the whole tree is. -/
def SelectionSound (c : Checkout) (graph : ImportGraph) (package : String)
    (changedFiles : List String) : Prop :=
  ∀ test, c.IsUnitTest test → Affected c graph package changedFiles test →
    ∃ selection, computeClosureSelection c changedFiles package = .ok selection ∧
      (selection.failClosed = true ∧ selection.selectedFiles = [testUnitPrefix] ∨
        test ∈ selection.selectedFiles)

/-! ## Conditions -/

def Undecodable (c : Checkout) (package path : String) : Prop :=
  IsSource package path ∧ c.isFile path = true ∧
    ∃ message, c.readText path = .unicodeDecodeError message

def Unresolvable (c : Checkout) (package path : String) : Prop :=
  if startsWith ("src/" ++ package ++ "/") path then
    endsWith ".py" path = false ∨ c.isFile path = false ∨
      (∃ message, c.readText path = .osError message) ∨
      ∃ source, c.readText path = .text source ∧
        ∃ marker ∈ dynamicImportMarkers, occursIn marker source = true
  else
    startsWith testUnitPrefix path = false ∧ startsWith testIntegrationPrefix path = false ∧
      path ≠ pyprojectPath ∧ isDocsOnlyPath path = false

/-- The selection must not narrow. -/
def FailsClosed (c : Checkout) (graph : ImportGraph) (package : String)
    (changedFiles : List String) : Prop :=
  (∃ path ∈ changedFiles, Unresolvable c package path) ∨
    (graphStalenessReason c package).isSome = true ∨
    ∃ m, Changed package changedFiles m ∧ m ∉ graph.modules

/-- A test file is kept without evidence: it is in a changed test directory, its imports are not
known, or it has none. -/
def KeptWithoutEvidence (c : Checkout) (package : String) (changedFiles : List String)
    (test : String) : Prop :=
  (∃ path ∈ changedFiles, ∃ dir, forcedDir path = some dir ∧ startsWith dir test = true) ∨
    candidateImports c package test = none ∨ candidateImports c package test = some ∅

/-- From `x` a changed module, or a module below one, is reached by imports alone. -/
def Impacted (graph : ImportGraph) (package : String) (changedFiles : List String)
    (x : String) : Prop :=
  x ∈ graph.modules ∧ ∃ y m, ReflTransGen graph.Imports x y ∧ Changed package changedFiles m ∧
    (y = m ∨ Above m y)

/-! ## Impact -/

section
variable {graph : ImportGraph} {package : String}

theorem ImportGraph.Documented.mem_modules_of_transGen (hgraph : graph.Documented package)
    {x y : String} (h : TransGen graph.Imports x y) : x ∈ graph.modules ∧ y ∈ graph.modules := by
  induction h with
  | single h => exact hgraph.imports_modules _ _ h
  | tail _ h ih => exact ⟨ih.1, (hgraph.imports_modules _ _ h).2⟩

/-- The impact of a module of the graph. -/
theorem mem_impactOf_iff (hgraph : graph.Documented package) {m x : String}
    (hm : m ∈ graph.modules) :
    x ∈ graph.impactOf m ↔
      x ∈ graph.modules ∧ ∃ y, ReflTransGen graph.Imports x y ∧ (y = m ∨ Above m y) := by
  have hmem : x ∈ graph.impactOf m ↔ x = m ∨ x ∈ graph.findDownstreamModules m false ∨
      graph.findDescendants m ≠ [] ∧
        (x ∈ graph.findDescendants m ∨ x ∈ graph.findDownstreamModules m true) := by
    unfold ImportGraph.impactOf
    dsimp only
    split_ifs with hnil <;> simp [hnil]
  rw [hmem]
  constructor
  · rintro (rfl | hdown | ⟨-, hbelow | hdown⟩)
    · exact ⟨hm, x, .refl, Or.inl rfl⟩
    · have htrans := hgraph.transGen_of_downstream m hm x hdown
      exact ⟨(hgraph.mem_modules_of_transGen htrans).1, m, htrans.to_reflTransGen, Or.inl rfl⟩
    · obtain ⟨hx, habove⟩ := (hgraph.mem_findDescendants m hm x).mp hbelow
      exact ⟨hx, x, .refl, Or.inr habove⟩
    · obtain ⟨d, -, hd, htrans⟩ := hgraph.transGen_of_downstream_package m hm x hdown
      exact ⟨(hgraph.mem_modules_of_transGen htrans).1, d, htrans.to_reflTransGen, hd⟩
  · rintro ⟨hx, y, hreach, hy⟩
    have hbelow : ∀ d ∈ graph.modules, Above m d → d ∈ graph.findDescendants m :=
      fun d hd habove => (hgraph.mem_findDescendants m hm d).mpr ⟨hd, habove⟩
    rcases reflTransGen_iff_eq_or_transGen.mp hreach with rfl | htrans
    · rcases hy with rfl | habove
      · exact Or.inl rfl
      · have hdescendant := hbelow y hx habove
        exact Or.inr (Or.inr ⟨List.ne_nil_of_mem hdescendant, Or.inl hdescendant⟩)
    · have hymem := (hgraph.mem_modules_of_transGen htrans).2
      rcases hy with rfl | habove
      · exact (hgraph.downstream_of_transGen y hm x htrans).imp_right Or.inl
      · have hne := List.ne_nil_of_mem (hbelow y hymem habove)
        rcases hgraph.downstream_package_of_transGen m hm y hymem (Or.inr habove) x htrans with
          hsame | hover | hdown
        · exact Or.inl hsame
        · exact Or.inr (Or.inr ⟨hne, Or.inl (hbelow x hx hover)⟩)
        · exact Or.inr (Or.inr ⟨hne, Or.inr hdown⟩)

theorem impactLoop_spec (acc : Finset String × List String) (changed : List String) :
    (∀ x, x ∈ (impactLoop graph acc changed).1 ↔
      x ∈ acc.1 ∨ ∃ m ∈ changed, m ∈ graph.modules ∧ x ∈ graph.impactOf m) ∧
    ((impactLoop graph acc changed).2 = [] ↔ acc.2 = [] ∧ ∀ m ∈ changed, m ∈ graph.modules) := by
  induction changed generalizing acc with
  | nil => simp [impactLoop]
  | cons m rest ih =>
    unfold impactLoop
    by_cases hm : m ∈ graph.modules
    · rw [if_neg (not_not_intro hm)]
      obtain ⟨himpacted, hreasons⟩ := ih (acc.1 ∪ graph.impactOf m, acc.2)
      refine ⟨fun x => ?_, ?_⟩
      · rw [himpacted, Finset.mem_union]
        simp [hm, or_assoc]
      · rw [hreasons]
        simp [hm]
    · rw [if_pos hm]
      obtain ⟨himpacted, hreasons⟩ :=
        ih (acc.1, acc.2 ++ ["changed module not present in import graph: " ++ m])
      refine ⟨fun x => ?_, ?_⟩
      · rw [himpacted]
        simp [hm]
      · rw [hreasons]
        simp [hm]

theorem computeImpactedModules_reasons {changed : List String} :
    (computeImpactedModules graph changed).2 = [] ↔ ∀ m ∈ changed, m ∈ graph.modules := by
  unfold computeImpactedModules
  rw [(impactLoop_spec _ _).2]
  simp [(perm_sortedAsc id changed).mem_iff]

theorem mem_computeImpactedModules (hgraph : graph.Documented package)
    {changedFiles changed : List String}
    (hchanged : ∀ m, m ∈ changed ↔ Changed package changedFiles m)
    (hknown : ∀ m ∈ changed, m ∈ graph.modules) {x : String} :
    x ∈ (computeImpactedModules graph changed).1 ↔ Impacted graph package changedFiles x := by
  unfold computeImpactedModules Impacted
  rw [(impactLoop_spec _ _).1]
  simp only [(perm_sortedAsc id changed).mem_iff]
  constructor
  · rintro (hempty | ⟨m, hm, hmodule, hx⟩)
    · exact absurd hempty (Finset.notMem_empty x)
    · obtain ⟨hx, y, hreach, hy⟩ := (mem_impactOf_iff hgraph hmodule).mp hx
      exact ⟨hx, y, m, hreach, (hchanged m).mp hm, hy⟩
  · rintro ⟨hx, y, m, hreach, hm, hy⟩
    have hmem := (hchanged m).mpr hm
    have hmodule := hknown m hmem
    exact Or.inr ⟨m, hmem, hmodule, (mem_impactOf_iff hgraph hmodule).mpr ⟨hx, y, hreach, hy⟩⟩

end

/-! ## Changed modules -/

/-- A changed file is undecodable, unresolvable, a module, or none of these. -/
theorem resolveChangedFile_spec (c : Checkout) (package path : String) :
    match resolveChangedFile c package path with
    | .error _ => Undecodable c package path
    | .ok (.reason _) => ¬ Undecodable c package path ∧ Unresolvable c package path
    | .ok (.module m) => ¬ Undecodable c package path ∧ ¬ Unresolvable c package path ∧
        IsSource package path ∧ dottedName path = m
    | .ok .nothing => ¬ Undecodable c package path ∧ ¬ Unresolvable c package path ∧
        ¬ IsSource package path := by
  unfold resolveChangedFile Undecodable Unresolvable IsSource
  by_cases hsource : startsWith ("src/" ++ package ++ "/") path = true
  · rw [if_pos hsource]
    by_cases hpy : endsWith ".py" path = true
    · rw [if_neg (not_not_intro hpy)]
      by_cases hfile : c.isFile path = true
      · rw [if_neg (not_not_intro hfile)]
        cases hread : c.readText path with
        | osError exc => simp [hsource]
        | unicodeDecodeError exc => simp [hsource, hpy, hfile]
        | text source =>
          dsimp only
          cases hmarker : dynamicImportMarkers.find? fun m => occursIn m source with
          | some marker =>
            have hoccurs := List.find?_some hmarker
            have hmem := List.mem_of_find?_eq_some hmarker
            simp only [hsource, if_true]
            exact ⟨by simp, Or.inr (Or.inr (Or.inr ⟨source, rfl, marker, hmem, hoccurs⟩))⟩
          | none =>
            have hnone := List.find?_eq_none.mp hmarker
            simp only [hsource, hpy, hfile, if_true]
            refine ⟨by simp, ?_, ⟨trivial, trivial⟩, trivial⟩
            simpa using hnone
      · rw [if_pos hfile]
        simp [hsource, hfile]
    · rw [if_pos hpy]
      simp [hsource, hpy]
  · rw [if_neg hsource]
    split_ifs with hunit hintegration hinert
    · simp [hsource, hunit]
    · simp [hsource, hintegration]
    · have hinert' : path = pyprojectPath ∨ isDocsOnlyPath path = true := by simpa using hinert
      simp only [hsource]
      refine ⟨by simp, fun h => ?_, by simp⟩
      exact hinert'.elim h.2.2.1 (fun hdocs => Bool.false_ne_true (h.2.2.2.symm.trans hdocs))
    · simpa [hsource, hunit, hintegration] using hinert

/-- The same for all changed files. -/
theorem resolveChangedSrcModules_spec (c : Checkout) (package : String)
    (changedFiles : List String) :
    match resolveChangedSrcModules c package changedFiles with
    | .error _ => ∃ path ∈ changedFiles, Undecodable c package path
    | .ok (modules, reasons) => (∀ path ∈ changedFiles, ¬ Undecodable c package path) ∧
        (reasons = [] ↔ ∀ path ∈ changedFiles, ¬ Unresolvable c package path) ∧
        (reasons = [] → ∀ m, m ∈ modules ↔ Changed package changedFiles m) := by
  induction changedFiles with
  | nil => simp [resolveChangedSrcModules, Changed]
  | cons path rest ih =>
    have hfile := resolveChangedFile_spec c package path
    unfold resolveChangedSrcModules
    cases hresolved : resolveChangedFile c package path with
    | error e =>
      rw [hresolved] at hfile
      exact ⟨path, List.mem_cons_self, hfile⟩
    | ok resolved =>
      rw [hresolved] at hfile
      cases hrest : resolveChangedSrcModules c package rest with
      | error e =>
        rw [hrest] at ih
        obtain ⟨path', hmem, hundecodable⟩ := ih
        exact ⟨path', List.mem_cons_of_mem _ hmem, hundecodable⟩
      | ok result =>
        rw [hrest] at ih
        obtain ⟨hdecodable, hreasons, hmodules⟩ := ih
        have hchanged : ∀ m, Changed package (path :: rest) m ↔
            IsSource package path ∧ dottedName path = m ∨ Changed package rest m := by
          intro m
          simp [Changed]
        cases resolved with
        | module name =>
          obtain ⟨hdec, hres, hsource, hname⟩ := hfile
          refine ⟨?_, ?_, fun hnil m => ?_⟩
          · simpa [hdec] using hdecodable
          · simpa [hres] using hreasons
          · show m ∈ result.1.insert name ↔ _
            rw [List.mem_insert_iff, hchanged, hmodules hnil, hname]
            simp [hsource, eq_comm]
        | reason text =>
          obtain ⟨hdec, hres⟩ := hfile
          refine ⟨?_, ?_, fun hnil => nomatch hnil⟩
          · simpa [hdec] using hdecodable
          · exact iff_of_false (List.cons_ne_nil _ _) (fun h => h path List.mem_cons_self hres)
        | nothing =>
          obtain ⟨hdec, hres, hsource⟩ := hfile
          refine ⟨?_, ?_, fun hnil m => ?_⟩
          · simpa [hdec] using hdecodable
          · simpa [hres] using hreasons
          · rw [hchanged, ← hmodules hnil]
            simp [hsource]

/-! ## Imports of test files -/

theorem inPackage_iff {package name : String} :
    inPackage package name = true ↔ name = package ∨ Above package name := by
  unfold inPackage Above
  simp

theorem inPackage_child {package module name : String} (hdot : '.' ∉ package.toList) :
    inPackage package (module ++ "." ++ name) = inPackage package module := by
  have hchild : (module ++ "." ++ name).toList = module.toList ++ '.' :: name.toList := by
    rw [String.toList_append, String.toList_append, List.append_assoc]
    rfl
  rw [Bool.eq_iff_iff, inPackage_iff, inPackage_iff, above_iff, above_iff, hchild]
  constructor
  · rintro (hname | ⟨rest, hrest⟩)
    · rw [← hname, hchild] at hdot
      exact absurd (List.mem_append_right _ List.mem_cons_self) hdot
    · -- the first dot of the name ends the package, and the module's text reaches to one
      rcases List.append_eq_append_iff.mp hrest with ⟨l, hpackage, hl⟩ | ⟨l, hmodule, hl⟩
      · cases l with
        | nil => exact Or.inl (String.toList_inj.mp (by rw [hpackage, List.append_nil]))
        | cons d l =>
          obtain ⟨rfl, -⟩ := List.cons_eq_cons.mp hl
          rw [hpackage] at hdot
          exact absurd (List.mem_append_right _ List.mem_cons_self) hdot
      · cases l with
        | nil => exact Or.inl (String.toList_inj.mp (by rw [hmodule, List.append_nil]))
        | cons d l =>
          obtain ⟨rfl, -⟩ := List.cons_eq_cons.mp hl
          exact Or.inr ⟨l, hmodule⟩
  · rintro (rfl | ⟨rest, hrest⟩)
    · exact Or.inr ⟨name.toList, rfl⟩
    · exact Or.inr ⟨rest ++ '.' :: name.toList, by rw [hrest, List.append_assoc]; rfl⟩

variable {name : String}

variable {package : String}

theorem mem_found_iff (hdot : '.' ∉ package.toList) {node : ImportNode}
    {found : List String} (h : node.found package = some found) :
    name ∈ found ↔ name ∈ node.names ∧ inPackage package name = true := by
  cases node with
  | direct names =>
    obtain rfl := Option.some.inj h
    exact List.mem_filter
  | «from» level module names =>
    unfold ImportNode.found at h
    dsimp only at h
    by_cases hlevel : level = 0
    · rw [if_neg (not_not_intro hlevel)] at h
      subst hlevel
      cases module with
      | none =>
        obtain rfl := Option.some.inj h
        exact iff_of_false List.not_mem_nil (fun h => List.not_mem_nil h.1)
      | some module =>
        dsimp only at h
        have hall : ∀ n ∈ (ImportNode.from 0 (some module) names).names,
            inPackage package n = inPackage package module := by
          intro n hn
          rcases List.mem_cons.mp hn with rfl | hn
          · rfl
          · obtain ⟨child, -, rfl⟩ := List.mem_map.mp hn
            exact inPackage_child hdot
        by_cases hmodule : inPackage package module = true
        · rw [if_pos hmodule] at h
          obtain rfl := Option.some.inj h
          exact ⟨fun hn => ⟨hn, (hall name hn).trans hmodule⟩, fun hn => hn.1⟩
        · rw [if_neg hmodule] at h
          obtain rfl := Option.some.inj h
          refine iff_of_false List.not_mem_nil (fun hn => hmodule ?_)
          rw [← hall name hn.1]
          exact hn.2
    · rw [if_pos hlevel] at h
      cases h

theorem mem_mapM_found (hdot : '.' ∉ package.toList) {tree : List ImportNode}
    {found : List (List String)} (h : tree.mapM (ImportNode.found package) = some found) :
    (∃ l ∈ found, name ∈ l) ↔
      (∃ node ∈ tree, name ∈ node.names) ∧ inPackage package name = true := by
  induction tree generalizing found with
  | nil =>
    obtain rfl := Option.some.inj h
    simp
  | cons node rest ih =>
    rw [List.mapM_cons, Option.bind_eq_bind, Option.bind_eq_some_iff] at h
    obtain ⟨first, hfirst, h⟩ := h
    rw [Option.bind_eq_bind, Option.bind_eq_some_iff] at h
    obtain ⟨others, hothers, h⟩ := h
    obtain rfl := Option.some.inj h
    rw [List.exists_mem_cons_iff, List.exists_mem_cons_iff, ih hothers,
      mem_found_iff hdot hfirst, or_and_right]

variable {c : Checkout}

theorem mem_collectDirectImports {package file : String}
    (hdot : '.' ∉ package.toList) {imports : Finset String}
    (h : collectDirectImports c package file = some imports) :
    name ∈ imports ↔ c.FileImports file name ∧ inPackage package name = true := by
  unfold collectDirectImports at h
  unfold Checkout.FileImports
  cases hread : c.readText file with
  | osError exc => rw [hread] at h; cases h
  | unicodeDecodeError exc => rw [hread] at h; cases h
  | text source =>
    rw [hread] at h
    dsimp only at h
    cases hparse : c.parse source with
    | none => rw [hparse] at h; cases h
    | some tree =>
      rw [hparse] at h
      dsimp only at h
      split_ifs at h
      rw [Option.map_eq_some_iff] at h
      obtain ⟨found, hfound, rfl⟩ := h
      rw [List.mem_toFinset, List.mem_flatten, mem_mapM_found hdot hfound]
      refine and_congr_left' ⟨fun ⟨node, hnode, hname⟩ => ?_, ?_⟩
      · exact ⟨source, tree, node, rfl, hparse, hnode, hname⟩
      · rintro ⟨source', tree', node, hsource', htree', hnode, hname⟩
        obtain rfl := ReadText.text.inj hsource'
        obtain rfl := Option.some.inj (hparse.symm.trans htree')
        exact ⟨node, hnode, hname⟩

theorem mem_conftestChain (hdot : '.' ∉ package.toList)
    {conftests : List String} {merged imports : Finset String}
    (h : conftests.foldlM (fun merged conftest =>
      (if c.isFile conftest then collectDirectImports c package conftest else some ∅).map
        (merged ∪ ·)) merged = some imports) : name ∈ imports ↔ name ∈ merged ∨
      (∃ conftest ∈ conftests, c.isFile conftest = true ∧ c.FileImports conftest name) ∧
        inPackage package name = true := by
  induction conftests generalizing merged with
  | nil =>
    obtain rfl := Option.some.inj h
    simp
  | cons conftest rest ih =>
    rw [List.foldlM_cons, Option.bind_eq_bind, Option.bind_eq_some_iff] at h
    obtain ⟨next, hnext, h⟩ := h
    obtain ⟨chain, hchain, rfl⟩ := Option.map_eq_some_iff.mp hnext
    rw [ih h, Finset.mem_union, List.exists_mem_cons_iff, or_and_right, or_assoc]
    refine or_congr_right (or_congr_left ?_)
    by_cases hfile : c.isFile conftest = true
    · rw [if_pos hfile] at hchain
      rw [mem_collectDirectImports hdot hchain]
      simp [hfile]
    · rw [if_neg hfile] at hchain
      obtain rfl := Option.some.inj hchain
      simp [hfile]

theorem mem_candidateImports {package test : String} (hdot : '.' ∉ package.toList)
    {imports : Finset String} (h : candidateImports c package test = some imports) :
    name ∈ imports ↔ c.TestImports test name ∧ inPackage package name = true := by
  unfold candidateImports at h
  cases hown : collectDirectImports c package test with
  | none => rw [hown] at h; cases h
  | some own =>
    rw [hown] at h
    dsimp only at h
    cases hchain : conftestChainImports c package test with
    | none => rw [hchain] at h; cases h
    | some chain =>
      rw [hchain] at h
      obtain rfl := Option.some.inj h
      unfold conftestChainImports at hchain
      rw [Finset.mem_union, mem_collectDirectImports hdot hown, mem_conftestChain hdot hchain]
      unfold Checkout.TestImports
      simp [or_and_right]

/-! ## Selection -/

variable {test : String}

theorem mem_collectCandidateFiles :
    test ∈ collectCandidateFiles c [testUnitPrefix] ↔ c.IsUnitTest test := by
  unfold collectCandidateFiles Checkout.IsUnitTest
  rw [(perm_sortedAsc id _).mem_iff, List.mem_dedup, List.flatMap_singleton]
  by_cases hdir : c.isDir testUnitPrefix = true
  · rw [if_pos hdir]
    simp [hdir]
  · rw [if_neg hdir]
    simp [hdir]

/-- A candidate stays if it is forced, imports nothing known, or imports something impacted. -/
theorem mem_refineCandidates {candidates : List (String × Option (Finset String))}
    {impacted forced : Finset String} :
    test ∈ (refineCandidates candidates impacted forced).1 ↔
      ∃ candidate ∈ candidates, candidate.1 = test ∧ (test ∈ forced ∨ candidate.2 = none ∨
        candidate.2 = some ∅ ∨ ∃ s, candidate.2 = some s ∧ (s ∩ impacted).Nonempty) := by
  have hturn : ∀ (acc : List String × List String) (candidate : String × Option (Finset String)),
      test ∈ (refineCandidate impacted forced acc candidate).1 ↔ test ∈ acc.1 ∨
        candidate.1 = test ∧ (test ∈ forced ∨ candidate.2 = none ∨ candidate.2 = some ∅ ∨
          ∃ s, candidate.2 = some s ∧ (s ∩ impacted).Nonempty) := by
    rintro ⟨selected, kept⟩ ⟨candidate, imports⟩
    cases imports with
    | none => simp [refineCandidate, eq_comm]
    | some s =>
      unfold refineCandidate
      dsimp only
      split_ifs with hkept himpacted
      · rw [List.mem_append, List.mem_singleton]
        refine or_congr_right ⟨fun h => ⟨h.symm, ?_⟩, fun h => h.1.symm⟩
        exact hkept.imp (fun hmem => h ▸ hmem) (fun hempty => Or.inr (Or.inl (congrArg some hempty)))
      · rw [List.mem_append, List.mem_singleton]
        refine or_congr_right ⟨fun h => ⟨h.symm, Or.inr (Or.inr (Or.inr ⟨s, rfl, ?_⟩))⟩,
          fun h => h.1.symm⟩
        exact Finset.nonempty_iff_ne_empty.mpr himpacted
      · refine (or_iff_left ?_).symm
        rintro ⟨rfl, hforced | hnone | hempty | ⟨s', hs', hne⟩⟩
        · exact hkept (Or.inl hforced)
        · cases hnone
        · exact hkept (Or.inr (Option.some.inj hempty))
        · obtain rfl := Option.some.inj hs'
          exact himpacted hne.ne_empty
  have hloop := foldl_or_iff (P := fun acc => test ∈ acc.1) hturn (sortedAsc Prod.fst candidates)
    ([], [])
  simp only [(perm_sortedAsc Prod.fst candidates).mem_iff] at hloop
  exact hloop.trans (or_iff_right List.not_mem_nil)

section
variable {c : Checkout} {graph : ImportGraph} {package : String} {changedFiles : List String}

/-- The selection over a graph that has all changed modules. -/
theorem mem_selectOverGraph (hgraph : graph.Documented package) {changed : List String}
    (hchanged : ∀ m, m ∈ changed ↔ Changed package changedFiles m)
    (hknown : ∀ m ∈ changed, m ∈ graph.modules) (htest : c.IsUnitTest test) :
    test ∈ (selectOverGraph c package graph changed
        (changedFiles.filterMap forcedDir).dedup).selectedFiles ↔
      KeptWithoutEvidence c package changedFiles test ∨
        ∃ name, c.TestImports test name ∧ Impacted graph package changedFiles name := by
  have hreasons := computeImpactedModules_reasons.mpr hknown
  have hcandidate := mem_collectCandidateFiles.mpr htest
  unfold selectOverGraph
  dsimp only
  rw [if_neg (not_not_intro hreasons), mem_refineCandidates]
  have hown : ∀ P : String × Option (Finset String) → Prop,
      (∃ candidate ∈ (collectCandidateFiles c [testUnitPrefix]).map fun t =>
        (t, candidateImports c package t), candidate.1 = test ∧ P candidate) ↔
      P (test, candidateImports c package test) := by
    intro P
    constructor
    · rintro ⟨candidate, hmem, rfl, hP⟩
      obtain ⟨t, -, rfl⟩ := List.mem_map.mp hmem
      exact hP
    · exact fun hP => ⟨_, List.mem_map_of_mem hcandidate, rfl, hP⟩
  have hforced : test ∈ ((collectCandidateFiles c [testUnitPrefix]).toFinset.filter fun candidate =>
        ∃ dir ∈ (changedFiles.filterMap forcedDir).dedup, startsWith dir candidate) ↔
      ∃ path ∈ changedFiles, ∃ dir, forcedDir path = some dir ∧ startsWith dir test = true := by
    rw [Finset.mem_filter, List.mem_toFinset, and_iff_right hcandidate]
    simp only [List.mem_dedup, List.mem_filterMap]
    exact ⟨fun ⟨dir, ⟨path, hpath, hdir⟩, hstart⟩ => ⟨path, hpath, dir, hdir, hstart⟩,
      fun ⟨path, hpath, dir, hdir, hstart⟩ => ⟨dir, ⟨path, hpath, hdir⟩, hstart⟩⟩
  have himpacted : (∃ s, candidateImports c package test = some s ∧
        (s ∩ (computeImpactedModules graph changed).1).Nonempty) ↔
      (∃ s, candidateImports c package test = some s) ∧
        ∃ name, c.TestImports test name ∧ Impacted graph package changedFiles name := by
    constructor
    · rintro ⟨s, hs, name, hname⟩
      rw [Finset.mem_inter, mem_candidateImports hgraph.topLevel hs,
        mem_computeImpactedModules hgraph hchanged hknown] at hname
      exact ⟨⟨s, hs⟩, name, hname.1.1, hname.2⟩
    · rintro ⟨⟨s, hs⟩, name, hname, himpacted⟩
      refine ⟨s, hs, name, Finset.mem_inter.mpr ⟨?_, ?_⟩⟩
      · exact (mem_candidateImports hgraph.topLevel hs).mpr
          ⟨hname, hgraph.modules_inPackage name himpacted.1⟩
      · exact (mem_computeImpactedModules hgraph hchanged hknown).mpr himpacted
  rw [hown fun candidate => test ∈ _ ∨ candidate.2 = none ∨ candidate.2 = some ∅ ∨
    ∃ s, candidate.2 = some s ∧ (s ∩ _).Nonempty, hforced, himpacted]
  unfold KeptWithoutEvidence
  cases candidateImports c package test with
  | none => simp
  | some s => simp [or_assoc]

theorem computeClosureSelection_of_undecodable
    (h : ∃ path ∈ changedFiles, Undecodable c package path) :
    ∃ e, computeClosureSelection c changedFiles package = .error e := by
  have hspec := resolveChangedSrcModules_spec c package changedFiles
  unfold computeClosureSelection
  cases hresolved : resolveChangedSrcModules c package changedFiles with
  | error e => exact ⟨e, rfl⟩
  | ok result =>
    rw [hresolved] at hspec
    obtain ⟨path, hpath, hundecodable⟩ := h
    exact absurd hundecodable (hspec.1 path hpath)

/-- The closure fails closed, or selects over the graph. -/
theorem computeClosureSelection_cases (hbuild : c.buildGraph package = .ok graph)
    (hdecodable : ∀ path ∈ changedFiles, ¬ Undecodable c package path)
    (hsource : ∃ m, Changed package changedFiles m) :
    (FailsClosed c graph package changedFiles ∧
      ∃ reasons, computeClosureSelection c changedFiles package = .ok (failClosed reasons)) ∨
    (¬ FailsClosed c graph package changedFiles ∧
      ∃ changed, (∀ m, m ∈ changed ↔ Changed package changedFiles m) ∧
        (∀ m ∈ changed, m ∈ graph.modules) ∧
        computeClosureSelection c changedFiles package
          = .ok (selectOverGraph c package graph changed
            (changedFiles.filterMap forcedDir).dedup)) := by
  have hspec := resolveChangedSrcModules_spec c package changedFiles
  unfold computeClosureSelection
  cases hresolved : resolveChangedSrcModules c package changedFiles with
  | error e =>
    rw [hresolved] at hspec
    obtain ⟨path, hpath, hundecodable⟩ := hspec
    exact absurd hundecodable (hdecodable path hpath)
  | ok result =>
    obtain ⟨changed, reasons⟩ := result
    rw [hresolved] at hspec
    obtain ⟨-, hreasons, hchanged⟩ := hspec
    dsimp only [bind, Except.bind]
    by_cases hnil : reasons = []
    · rw [if_neg (not_not_intro hnil)]
      have hresolvable := hreasons.mp hnil
      have hmem := hchanged hnil
      have hne : changed ≠ [] := by
        obtain ⟨m, hm⟩ := hsource
        exact List.ne_nil_of_mem ((hmem m).mpr hm)
      rw [if_neg hne]
      cases hstale : graphStalenessReason c package with
      | some stale => exact Or.inl ⟨Or.inr (Or.inl (by rw [hstale]; rfl)), _, rfl⟩
      | none =>
        rw [hbuild]
        dsimp only
        by_cases hknown : ∀ m ∈ changed, m ∈ graph.modules
        · refine Or.inr ⟨?_, changed, hmem, hknown, rfl⟩
          rintro (⟨path, hpath, hunresolvable⟩ | hsome | ⟨m, hm, hmissing⟩)
          · exact hresolvable path hpath hunresolvable
          · rw [hstale] at hsome
            cases hsome
          · exact hmissing (hknown m ((hmem m).mpr hm))
        · have hmissing : ∃ m ∈ changed, m ∉ graph.modules := by
            push Not at hknown
            exact hknown
          obtain ⟨m, hm, hmissing⟩ := hmissing
          refine Or.inl ⟨Or.inr (Or.inr ⟨m, (hmem m).mp hm, hmissing⟩),
            (computeImpactedModules graph changed).2, ?_⟩
          unfold selectOverGraph
          dsimp only
          rw [if_pos (fun h => hknown (computeImpactedModules_reasons.mp h))]
    · rw [if_pos hnil]
      have hunresolvable : ∃ path ∈ changedFiles, Unresolvable c package path := by
        by_contra hnone
        push Not at hnone
        exact hnil (hreasons.mpr hnone)
      exact Or.inl ⟨Or.inl hunresolvable, _, rfl⟩

/-- A test that executes a changed module is selected, or the whole tree is, exactly if the changed
sources can be decoded, and the selection fails closed, or the test is kept without evidence, or
it reaches a changed module, or one below it, by imports alone. -/
theorem exists_selection_iff (hbuild : c.buildGraph package = .ok graph)
    (hgraph : graph.Documented package) (htest : c.IsUnitTest test)
    (haffected : Affected c graph package changedFiles test) :
    (∃ selection, computeClosureSelection c changedFiles package = .ok selection ∧
      (selection.failClosed = true ∧ selection.selectedFiles = [testUnitPrefix] ∨
        test ∈ selection.selectedFiles)) ↔
      (∀ path ∈ changedFiles, ¬ Undecodable c package path) ∧
        (FailsClosed c graph package changedFiles ∨
          KeptWithoutEvidence c package changedFiles test ∨
          ∃ name, c.TestImports test name ∧ Impacted graph package changedFiles name) := by
  by_cases hdecodable : ∀ path ∈ changedFiles, ¬ Undecodable c package path
  · rw [and_iff_right hdecodable]
    obtain ⟨name, m, -, hm, -⟩ := haffected
    rcases computeClosureSelection_cases hbuild hdecodable ⟨m, hm⟩ with
      ⟨hfails, reasons, hresult⟩ | ⟨hfails, changed, hchanged, hknown, hresult⟩
    · exact iff_of_true ⟨_, hresult, Or.inl ⟨rfl, rfl⟩⟩ (Or.inl hfails)
    · rw [or_iff_right hfails, ← mem_selectOverGraph hgraph hchanged hknown htest, hresult]
      have hopen : (selectOverGraph c package graph changed
          (changedFiles.filterMap forcedDir).dedup).failClosed = false := by
        unfold selectOverGraph
        dsimp only
        rw [if_neg (not_not_intro (computeImpactedModules_reasons.mpr hknown))]
      constructor
      · rintro ⟨selection, hselection, ⟨hclosed, -⟩ | hmem⟩
        · obtain rfl := Except.ok.inj hselection
          rw [hopen] at hclosed
          cases hclosed
        · obtain rfl := Except.ok.inj hselection
          exact hmem
      · exact fun hmem => ⟨_, rfl, Or.inr hmem⟩
  · refine iff_of_false (fun ⟨selection, hselection, _⟩ => ?_) (fun h => hdecodable h.1)
    push Not at hdecodable
    obtain ⟨e, he⟩ := computeClosureSelection_of_undecodable hdecodable
    cases he.symm.trans hselection

/-- The selection is sound exactly if every test that executes a changed module is selected for
one of these reasons. -/
theorem selectionSound_iff (hbuild : c.buildGraph package = .ok graph)
    (hgraph : graph.Documented package) :
    SelectionSound c graph package changedFiles ↔
      ∀ test, c.IsUnitTest test → Affected c graph package changedFiles test →
        (∀ path ∈ changedFiles, ¬ Undecodable c package path) ∧
          (FailsClosed c graph package changedFiles ∨
            KeptWithoutEvidence c package changedFiles test ∨
            ∃ name, c.TestImports test name ∧ Impacted graph package changedFiles name) :=
  forall_congr' fun _ => imp_congr_right fun htest => imp_congr_right fun haffected =>
    exists_selection_iff hbuild hgraph htest haffected

/-! ## Packages below which all is impacted -/

/-- All modules below an impacted package are impacted. -/
def ImpactClosed (graph : ImportGraph) (package : String) (changedFiles : List String) : Prop :=
  ∀ p d, Impacted graph package changedFiles p → Above p d → d ∈ graph.modules →
    Impacted graph package changedFiles d

/-- Of the package, the test file imports modules, and names directly below imported modules. -/
def ImportsResolve (c : Checkout) (graph : ImportGraph) (package test : String) : Prop :=
  ∀ name, c.TestImports test name → inPackage package name = true →
    name ∈ graph.modules ∨ ∃ module ∈ graph.modules, c.TestImports test module ∧
      ∀ p, Above p name → p = module ∨ Above p module

/-- What a module outside the package executes is outside of it. -/
theorem inPackage_of_runs (hgraph : graph.Documented package) {x m : String}
    (hruns : ReflTransGen graph.Runs x m) (hm : inPackage package m = true) :
    inPackage package x = true := by
  induction hruns using ReflTransGen.head_induction_on with
  | refl => exact hm
  | head hstep _ ih =>
    rcases hstep with himports | habove
    · exact hgraph.modules_inPackage _ (hgraph.imports_modules _ _ himports).1
    · rw [inPackage_iff] at ih ⊢
      rcases ih with rfl | ih
      · exact Or.inr habove
      · exact Or.inr (ih.trans habove)

/-- Whatever executes a changed module has only impacted modules below it. -/
theorem ImpactClosed.impacted_of_runs (hclosed : ImpactClosed graph package changedFiles)
    (hgraph : graph.Documented package) {x m : String} (hm : Changed package changedFiles m)
    (hruns : ReflTransGen graph.Runs x m) :
    ∀ d ∈ graph.modules, d = x ∨ Above x d → Impacted graph package changedFiles d := by
  induction hruns using ReflTransGen.head_induction_on with
  | refl => exact fun d hd hbelow => ⟨hd, d, m, .refl, hm, hbelow⟩
  | @head x y hstep _ ih =>
    intro d hd hbelow
    rcases hstep with himports | habove
    · obtain ⟨hx, hy⟩ := hgraph.imports_modules _ _ himports
      obtain ⟨-, z, m', hreach, hm', hz⟩ := ih y hy (Or.inl rfl)
      have himpacted : Impacted graph package changedFiles x :=
        ⟨hx, z, m', hreach.head himports, hm', hz⟩
      rcases hbelow with rfl | hbelow
      · exact himpacted
      · exact hclosed x d himpacted hbelow hd
    · refine ih d hd (Or.inr ?_)
      rcases hbelow with rfl | hbelow
      · exact habove
      · exact habove.trans hbelow

/-- Nothing is missed where all modules below an impacted package are impacted. -/
theorem selectionSound_of_closed (hbuild : c.buildGraph package = .ok graph)
    (hgraph : graph.Documented package)
    (hdecodable : ∀ path ∈ changedFiles, ¬ Undecodable c package path)
    (hclosed : ImpactClosed graph package changedFiles)
    (hresolve : ∀ test, c.IsUnitTest test → ImportsResolve c graph package test) :
    SelectionSound c graph package changedFiles := by
  intro test htest haffected
  obtain ⟨name, m, hname, hm, hruns⟩ := haffected
  refine (exists_selection_iff hbuild hgraph htest ⟨name, m, hname, hm, hruns⟩).mpr
    ⟨hdecodable, or_iff_not_imp_left.mpr fun hfails => Or.inr ?_⟩
  have hmodule : m ∈ graph.modules := by
    by_contra hmissing
    exact hfails (Or.inr (Or.inr ⟨m, hm, hmissing⟩))
  have himpacted := fun {x : String} => @ImpactClosed.impacted_of_runs graph package changedFiles
    hclosed hgraph x m hm
  have hpackage := inPackage_of_runs hgraph hruns (hgraph.modules_inPackage m hmodule)
  by_cases hknown : name ∈ graph.modules
  · exact ⟨name, hname, himpacted hruns name hknown (Or.inl rfl)⟩
  · rcases hresolve test htest name hname hpackage with hsame | ⟨module, hknown', himport, habove⟩
    · exact absurd hsame hknown
    · -- the name is none of a module, so it executes only what is above it
      rcases ReflTransGen.cases_head hruns with rfl | ⟨y, hstep, hrest⟩
      · exact absurd hmodule hknown
      · rcases hstep with himports | hover
        · exact absurd (hgraph.imports_modules _ _ himports).1 hknown
        · have hy := (habove y hover).imp Eq.symm id
          exact ⟨module, himport, himpacted hrest module hknown' hy⟩

end

/-! ## A package between the test and the change -/

/-- The package `omnibase_core.a` imports `omnibase_core.c`. -/
def packageGraph : ImportGraph where
  modules := ["omnibase_core", "omnibase_core.a", "omnibase_core.a.x", "omnibase_core.c"]
  imports := [("omnibase_core.a", "omnibase_core.c")]
  findDownstreamModules m _ := if m = "omnibase_core.c" then ["omnibase_core.a"] else []
  findDescendants m :=
    if m = "omnibase_core" then ["omnibase_core.a", "omnibase_core.a.x", "omnibase_core.c"]
    else if m = "omnibase_core.a" then ["omnibase_core.a.x"]
    else []

/-- A test file that imports the module `omnibase_core.a.x`. -/
def packageCheckout : Checkout where
  isFile path := path = "src/omnibase_core/c.py" || path = "tests/unit/a/test_x.py"
  isDir path := path = "tests/unit/"
  readText path := .text (if path = "tests/unit/a/test_x.py" then "import omnibase_core.a.x" else "")
  rglobTests root := if root = "tests/unit/" then ["tests/unit/a/test_x.py"] else []
  parse source :=
    some (if source = "import omnibase_core.a.x" then [.direct ["omnibase_core.a.x"]] else [])
  findSpec _ := .ok (some "/repo/src/omnibase_core/__init__.py")
  packageInit _ := "/repo/src/omnibase_core/__init__.py"
  buildGraph _ := .ok packageGraph

theorem packageGraph_documented : packageGraph.Documented packageName := by
  have himports : ∀ x y, packageGraph.Imports x y ↔ x = "omnibase_core.a" ∧ y = "omnibase_core.c" := by
    intro x y
    simp [ImportGraph.Imports, packageGraph]
  have htrans : ∀ x y, TransGen packageGraph.Imports x y →
      x = "omnibase_core.a" ∧ y = "omnibase_core.c" := by
    intro x y h
    induction h with
    | single h => exact (himports _ _).mp h
    | tail _ h ih => exact ⟨ih.1, ((himports _ _).mp h).2⟩
  have hdown : ∀ m ∈ packageGraph.modules, ∀ asPackage,
      ∀ x ∈ packageGraph.findDownstreamModules m asPackage,
        (x, m) ∈ packageGraph.imports := by decide +kernel
  have hdescendants : ∀ m ∈ packageGraph.modules, ∀ d ∈ packageGraph.findDescendants m,
      d ∈ packageGraph.modules ∧ Above m d := by decide +kernel
  have hbelow : ∀ m ∈ packageGraph.modules, ∀ d ∈ packageGraph.modules,
      Above m d → d ∈ packageGraph.findDescendants m := by decide +kernel
  constructor
  · decide
  · decide +kernel
  · intro x y h
    obtain ⟨rfl, rfl⟩ := (himports x y).mp h
    decide +kernel
  · exact fun m hm d => ⟨hdescendants m hm d, fun h => hbelow m hm d h.1 h.2⟩
  · exact fun m hm x hx => .single (hdown m hm false x hx)
  · intro m _ x h
    obtain ⟨rfl, rfl⟩ := htrans x m h
    decide +kernel
  · exact fun m hm x hx => ⟨m, hm, Or.inl rfl, .single (hdown m hm true x hx)⟩
  · intro m hm d _ hd x h
    obtain ⟨rfl, rfl⟩ := htrans x d h
    have hpackages : ∀ m ∈ packageGraph.modules,
        "omnibase_core.c" = m ∨ Above m "omnibase_core.c" →
        "omnibase_core.a" = m ∨ Above m "omnibase_core.a" ∨
          "omnibase_core.a" ∈ packageGraph.findDownstreamModules m true := by decide +kernel
    exact hpackages m hm hd

theorem selectionSound_iff_package :
    SelectionSound packageCheckout packageGraph packageName ["src/omnibase_core/c.py"] ↔
      ∀ test, packageCheckout.IsUnitTest test →
        Affected packageCheckout packageGraph packageName ["src/omnibase_core/c.py"] test →
        (∀ path ∈ ["src/omnibase_core/c.py"], ¬ Undecodable packageCheckout packageName path) ∧
          (FailsClosed packageCheckout packageGraph packageName ["src/omnibase_core/c.py"] ∨
            KeptWithoutEvidence packageCheckout packageName ["src/omnibase_core/c.py"] test ∨
            ∃ name, packageCheckout.TestImports test name ∧
              Impacted packageGraph packageName ["src/omnibase_core/c.py"] name) :=
  selectionSound_iff rfl packageGraph_documented

/-- The test file executes `omnibase_core.a` and so `omnibase_core.c`, but is not selected. -/
theorem package_not_selectionSound :
    packageGraph.Documented packageName ∧
    ¬ SelectionSound packageCheckout packageGraph packageName ["src/omnibase_core/c.py"] := by
  refine ⟨packageGraph_documented, fun h => ?_⟩
  have hresult : computeClosureSelection packageCheckout ["src/omnibase_core/c.py"] packageName
      = .ok { candidateFileCount := 1, impactedModuleCount := 2 } := by decide +kernel
  have htest : packageCheckout.IsUnitTest "tests/unit/a/test_x.py" := ⟨by decide, by decide⟩
  have hchanged : Changed packageName ["src/omnibase_core/c.py"] "omnibase_core.c" :=
    ⟨_, List.mem_singleton.mpr rfl, ⟨by decide, by decide⟩, by decide⟩
  have himports : packageCheckout.TestImports "tests/unit/a/test_x.py" "omnibase_core.a.x" :=
    Or.inl ⟨_, _, .direct ["omnibase_core.a.x"], rfl, rfl, by decide, by decide⟩
  have hup : packageGraph.Runs "omnibase_core.a.x" "omnibase_core.a" := Or.inr (by decide)
  have hacross : packageGraph.Runs "omnibase_core.a" "omnibase_core.c" :=
    Or.inl (List.mem_singleton.mpr rfl)
  obtain ⟨selection, hselection, hselected⟩ :=
    h _ htest ⟨_, _, himports, hchanged, (ReflTransGen.single hup).tail hacross⟩
  obtain rfl := Except.ok.inj (hresult.symm.trans hselection)
  exact hselected.elim (fun hclosed => Bool.false_ne_true hclosed.1) List.not_mem_nil

end OmnibaseCore.TestSelection
