import OmnibaseCore.Resolution.Resolver

/-!
# What the execution resolver computes

`MustPrecede` is the order that the constraints ask for. The dependency graph has exactly this
order as its edges (`mem_edges_iff`); `resolve_spec` puts together the cycle search and the sort:
a plan is valid if the order has no cycle and, in strict mode, every reference is resolved, and
then the plan lists every handler once, in an order that keeps all constraints.
-/

namespace OmnibaseCore.Resolution

open FiniteGraph Relation

/-! ## Constraints -/

def Matches (ref : String) (handler : ModelHandlerContract) : Prop :=
  match splitRef ref with
  | some (prefix_, value) =>
    (prefix_ = "handler" ∧ handler.handlerId = value) ∨
      (prefix_ = "capability" ∧ value ∈ handler.capabilityOutputs) ∨
      (prefix_ = "tag" ∧ value ∈ handler.tags)
  | none => False

/-- The references of a handler in `requires_before`. -/
def ModelHandlerContract.requiresBefore (c : ModelHandlerContract) : List String :=
  match c.executionConstraints with
  | some constraints => constraints.requiresBefore
  | none => []

/-- The references of a handler in `requires_after`. -/
def ModelHandlerContract.requiresAfter (c : ModelHandlerContract) : List String :=
  match c.executionConstraints with
  | some constraints => constraints.requiresAfter
  | none => []

/-- Some constraint says that `d` has to come before `h`, and they are different handlers. -/
def MustPrecede (contracts : List ModelHandlerContract) (d h : String) : Prop :=
  d ≠ h ∧ ∃ a ∈ contracts, ∃ b ∈ contracts, a.handlerId = d ∧ b.handlerId = h ∧
    ((∃ ref ∈ b.requiresBefore, Matches ref a) ∨ ∃ ref ∈ a.requiresAfter, Matches ref b)

def HasUnresolved (contracts : List ModelHandlerContract) : Prop :=
  ∃ c ∈ contracts, ∃ ref ∈ c.requiresBefore ++ c.requiresAfter,
    ∀ other ∈ contracts, ¬ Matches ref other

/-! ## Indices -/

theorem setHandlerInfo_of_notMem {result : List HandlerInfo} {info : HandlerInfo}
    (h : info.handlerId ∉ result.map HandlerInfo.handlerId) :
    setHandlerInfo result info = result ++ [info] := by
  unfold setHandlerInfo
  rw [if_neg h]

theorem buildHandlerInfoMap_eq {contracts : List ModelHandlerContract}
    (hids : (contracts.map ModelHandlerContract.handlerId).Nodup) :
    buildHandlerInfoMap contracts = contracts.map handlerInfo := by
  unfold buildHandlerInfoMap
  induction contracts using List.reverseRecOn with
  | nil => rfl
  | append_singleton contracts contract ih =>
    rw [List.map_append, List.map_singleton] at hids
    rw [List.foldl_append, ih (List.nodup_append.mp hids).1, List.foldl_cons, List.foldl_nil,
      setHandlerInfo_of_notMem, List.map_append, List.map_singleton]
    intro hmem
    rw [List.map_map] at hmem
    exact (List.nodup_append.mp hids).2.2 contract.handlerId hmem contract.handlerId
      (List.mem_singleton.mpr rfl) rfl

theorem mem_buildIndex {names : HandlerInfo → List String} {infos : List HandlerInfo}
    {name h : String} :
    h ∈ buildIndex names infos name ↔ ∃ info ∈ infos, info.handlerId = h ∧ name ∈ names info := by
  have hname : ∀ (id : String) (index : String → List String) (n : String),
      (h ∈ Function.update index n (index n ++ [id]) name ↔
        h ∈ index name ∨ (id = h ∧ n = name)) := by
    intro id index n
    by_cases hn : n = name
    · subst hn
      rw [Function.update_self, List.mem_append, List.mem_singleton]
      simp [eq_comm]
    · rw [Function.update_of_ne (Ne.symm hn)]
      simp [hn]
  have hinfo : ∀ (index : String → List String) (info : HandlerInfo),
      (h ∈ (names info).foldl (fun result name =>
        Function.update result name (result name ++ [info.handlerId])) index name ↔
          h ∈ index name ∨ (info.handlerId = h ∧ name ∈ names info)) := by
    intro index info
    rw [foldl_or_iff (P := fun index : String → List String => h ∈ index name)
      (hname info.handlerId)]
    simp [and_comm]
  unfold buildIndex
  rw [foldl_or_iff (P := fun index : String → List String => h ∈ index name) hinfo]
  simp

section
variable {contracts : List ModelHandlerContract} {strictMode : Bool} {source ref : String}

theorem splitRef_of_valid (h : validDependencyRef ref = true) :
    ∃ prefix_ value, splitRef ref = some (prefix_, value) ∧
      (prefix_ = "capability" ∨ prefix_ = "handler" ∨ prefix_ = "tag") := by
  have hprefix : ∀ p : List Char, (∀ c ∈ p, c ≠ ':') → p ++ [':'] <+: ref.toList →
      ∃ value, splitRef ref = some (String.ofList p, value) := by
    intro p hp hpre
    rcases hpre with ⟨rest, hrest⟩
    have htake : ref.toList.takeWhile (· ≠ ':') = p := by
      rw [← hrest, List.append_assoc, List.takeWhile_append_of_pos (by simpa using hp)]
      simp
    have hdrop : ref.toList.dropWhile (· ≠ ':') = ':' :: rest := by
      rw [← hrest, List.append_assoc, List.dropWhile_append_of_pos (by simpa using hp)]
      simp
    refine ⟨String.ofList rest, ?_⟩
    unfold splitRef
    rw [hdrop, htake]
  unfold validDependencyRef at h
  rw [Bool.and_eq_true, Bool.and_eq_true, List.any_eq_true] at h
  rcases h.1.2 with ⟨p, hp, hpre⟩
  rw [List.isPrefixOf_iff_prefix] at hpre
  simp only [List.mem_cons, List.not_mem_nil, or_false] at hp
  rcases hp with rfl | rfl | rfl
  · rcases hprefix "capability".toList (by simp) hpre with ⟨value, hvalue⟩
    exact ⟨_, value, hvalue, Or.inl rfl⟩
  · rcases hprefix "handler".toList (by simp) hpre with ⟨value, hvalue⟩
    exact ⟨_, value, hvalue, Or.inr (Or.inl rfl)⟩
  · rcases hprefix "tag".toList (by simp) hpre with ⟨value, hvalue⟩
    exact ⟨_, value, hvalue, Or.inr (Or.inr rfl)⟩

theorem mem_buildCapabilityIndex {value h : String} :
    h ∈ buildCapabilityIndex (contracts.map handlerInfo) value ↔
      ∃ c ∈ contracts, c.handlerId = h ∧ value ∈ c.capabilityOutputs := by
  unfold buildCapabilityIndex
  rw [mem_buildIndex]
  simp [handlerInfo]

theorem mem_buildTagIndex {value h : String} :
    h ∈ buildTagIndex (contracts.map handlerInfo) value ↔
      ∃ c ∈ contracts, c.handlerId = h ∧ value ∈ c.tags := by
  unfold buildTagIndex
  rw [mem_buildIndex]
  simp [handlerInfo]

theorem mem_handlerIds {value : String} :
    value ∈ (contracts.map handlerInfo).map HandlerInfo.handlerId ↔
      ∃ c ∈ contracts, c.handlerId = value := by
  simp [handlerInfo]

/-- What a reference resolves to: its matches, and a conflict if there are none. -/
structure RefSpec (contracts : List ModelHandlerContract) (strictMode : Bool) (ref : String)
    (result : List String × Option ModelExecutionConflict) : Prop where
  mem_iff : ∀ h, h ∈ result.1 ↔ ∃ c ∈ contracts, c.handlerId = h ∧ Matches ref c
  conflict : ∀ conflict ∈ result.2, conflict.isBlocking = strictMode ∧
    ∀ c ∈ contracts, ¬ Matches ref c
  resolved : validDependencyRef ref = true → result.2 = none → ∃ c ∈ contracts, Matches ref c

theorem isBlocking_missingDependency {message suggestion : String} :
    (missingDependency strictMode source ref message suggestion).isBlocking = strictMode := by
  cases strictMode <;> rfl

theorem refSpec_of_matches {handlers : List String} {conflict : ModelExecutionConflict}
    (hblocking : conflict.isBlocking = strictMode)
    (hmem : ∀ h, h ∈ handlers ↔ ∃ c ∈ contracts, c.handlerId = h ∧ Matches ref c) :
    RefSpec contracts strictMode ref
      (if handlers ≠ [] then (handlers, none) else ([], some conflict)) := by
  by_cases hne : handlers ≠ []
  · rw [if_pos hne]
    refine ⟨hmem, fun _ h => (nomatch h), fun _ _ => ?_⟩
    rcases List.exists_mem_of_ne_nil _ hne with ⟨h, hh⟩
    rcases (hmem h).mp hh with ⟨c, hc, -, hmatches⟩
    exact ⟨c, hc, hmatches⟩
  · rw [if_neg hne]
    rw [not_not] at hne
    have hnone : ∀ c ∈ contracts, ¬ Matches ref c := by
      intro c hc hmatches
      have hmem' := (hmem c.handlerId).mpr ⟨c, hc, rfl, hmatches⟩
      rw [hne] at hmem'
      exact nomatch hmem'
    refine ⟨fun h => ?_, fun conflict' h => ?_, fun _ h => nomatch h⟩
    · refine ⟨fun h => (nomatch h), fun ⟨c, hc, _, hmatches⟩ => absurd hmatches (hnone c hc)⟩
    · rw [← Option.mem_some_iff.mp h]
      exact ⟨hblocking, hnone⟩

/-- What becomes of a reference: it resolves to the handlers that match, or is a conflict. -/
theorem refSpec (contracts : List ModelHandlerContract) (strictMode : Bool)
    (source ref : String) :
    RefSpec contracts strictMode ref
      (resolveConstraintRef (contracts.map handlerInfo) strictMode source ref) := by
  unfold resolveConstraintRef
  cases hsplit : splitRef ref with
  | none =>
    have hnone : ∀ c ∈ contracts, ¬ Matches ref c := by
      intro c _ hmatches
      unfold Matches at hmatches
      rwa [hsplit] at hmatches
    refine ⟨fun h => ?_, fun _ h => (nomatch h), fun hvalid _ => ?_⟩
    · exact ⟨fun h => (nomatch h), fun ⟨c, hc, _, hmatches⟩ => absurd hmatches (hnone c hc)⟩
    · rcases splitRef_of_valid hvalid with ⟨prefix_, value, heq, -⟩
      exact nomatch hsplit.symm.trans heq
  | some parts =>
    rcases parts with ⟨prefix_, value⟩
    have hmatches : ∀ c, Matches ref c ↔ (prefix_ = "handler" ∧ c.handlerId = value) ∨
        (prefix_ = "capability" ∧ value ∈ c.capabilityOutputs) ∨
        (prefix_ = "tag" ∧ value ∈ c.tags) := by
      intro c
      unfold Matches
      rw [hsplit]
    dsimp only
    by_cases hhandler : prefix_ = "handler"
    · rw [if_pos hhandler]
      have hif : ∀ conflict : ModelExecutionConflict,
          (if value ∈ (contracts.map handlerInfo).map HandlerInfo.handlerId then
            ([value], none) else ([], some conflict))
          = if (if value ∈ (contracts.map handlerInfo).map HandlerInfo.handlerId then [value]
              else []) ≠ [] then
            ((if value ∈ (contracts.map handlerInfo).map HandlerInfo.handlerId then [value]
              else []), none) else ([], some conflict) := by
        intro conflict
        split_ifs <;> simp_all
      rw [hif]
      apply refSpec_of_matches isBlocking_missingDependency
      intro h
      simp only [hmatches, hhandler, mem_handlerIds]
      split_ifs with hvalue
      · rcases hvalue with ⟨c, hc, hid⟩
        simp only [List.mem_singleton]
        constructor
        · intro heq
          exact ⟨c, hc, hid.trans heq.symm, Or.inl ⟨trivial, hid⟩⟩
        · rintro ⟨c', hc', hid', hcase⟩
          rcases hcase with ⟨-, heq⟩ | ⟨heq, -⟩ | ⟨heq, -⟩
          · rw [← hid', heq]
          · exact absurd heq (by decide)
          · exact absurd heq (by decide)
      · simp only [List.not_mem_nil, false_iff]
        rintro ⟨c', hc', hid', hcase⟩
        rcases hcase with ⟨-, heq⟩ | ⟨heq, -⟩ | ⟨heq, -⟩
        · exact hvalue ⟨c', hc', heq⟩
        · exact absurd heq (by decide)
        · exact absurd heq (by decide)
    · rw [if_neg hhandler]
      by_cases hcapability : prefix_ = "capability"
      · rw [if_pos hcapability]
        apply refSpec_of_matches isBlocking_missingDependency
        intro h
        rw [mem_buildCapabilityIndex]
        simp [hmatches, hcapability]
      · rw [if_neg hcapability]
        by_cases htag : prefix_ = "tag"
        · rw [if_pos htag]
          apply refSpec_of_matches isBlocking_missingDependency
          intro h
          rw [mem_buildTagIndex]
          simp [hmatches, htag]
        · rw [if_neg htag]
          have hnone : ∀ c ∈ contracts, ¬ Matches ref c := by
            intro c _
            rw [hmatches]
            simp [hhandler, hcapability, htag]
          refine ⟨fun h => ?_, fun _ h => (nomatch h), fun hvalid _ => ?_⟩
          · exact ⟨fun h => (nomatch h),
              fun ⟨c, hc, _, hmatch⟩ => absurd hmatch (hnone c hc)⟩
          · rcases splitRef_of_valid hvalid with ⟨p, v, heq, hcases⟩
            rw [hsplit, Option.some.injEq, Prod.mk.injEq] at heq
            rw [← heq.1] at hcases
            rcases hcases with h | h | h
            · exact absurd h hcapability
            · exact absurd h hhandler
            · exact absurd h htag

end

/-! ## The dependency graph -/

section
variable {contracts : List ModelHandlerContract} {strictMode : Bool}

def BuildState.init (infos : List HandlerInfo) : BuildState :=
  { graph := {
      edges := fun _ => ∅
      reverseEdges := fun _ => ∅
      nodes := (infos.map HandlerInfo.handlerId).toFinset }
    conflicts := [] }

theorem buildDependencyGraph_iff {P : BuildState → Prop}
    (before after : ModelHandlerContract → String → Prop)
    (hbefore : ∀ c st ref, P (processRef (contracts.map handlerInfo) strictMode c.handlerId
      (fun graph dep => graph.addEdge c.handlerId dep) st ref) ↔ P st ∨ before c ref)
    (hafter : ∀ c st ref, P (processRef (contracts.map handlerInfo) strictMode c.handlerId
      (fun graph dep => graph.addEdge dep c.handlerId) st ref) ↔ P st ∨ after c ref) :
    P (buildDependencyGraph (contracts.map handlerInfo) strictMode) ↔
      P (BuildState.init (contracts.map handlerInfo)) ∨
        ∃ c ∈ contracts, (∃ ref ∈ c.requiresBefore, before c ref) ∨
          ∃ ref ∈ c.requiresAfter, after c ref := by
  have hhandler : ∀ (st : BuildState) (c : ModelHandlerContract),
      P (processHandler (contracts.map handlerInfo) strictMode st (handlerInfo c)) ↔
        P st ∨ ((∃ ref ∈ c.requiresBefore, before c ref) ∨
          ∃ ref ∈ c.requiresAfter, after c ref) := by
    intro st c
    unfold processHandler ModelHandlerContract.requiresBefore ModelHandlerContract.requiresAfter
    have hconstraints : (handlerInfo c).constraints = c.executionConstraints := rfl
    rw [hconstraints]
    cases c.executionConstraints with
    | none => simp
    | some constraints =>
      refine (foldl_or_iff (hafter c) constraints.requiresAfter _).trans ?_
      refine (or_congr_left (foldl_or_iff (hbefore c) constraints.requiresBefore st)).trans ?_
      rw [or_assoc]
  unfold buildDependencyGraph
  rw [List.foldl_map, foldl_or_iff hhandler]
  rfl

variable {add : DependencyGraph → String → DependencyGraph}

theorem processRef_graph_iff {P : DependencyGraph → Prop} {id ref : String} {st : BuildState}
    {R : String → Prop} (hadd : ∀ graph dep, P (add graph dep) ↔ P graph ∨ R dep) :
    P (processRef (contracts.map handlerInfo) strictMode id add st ref).graph ↔
      P st.graph ∨ ∃ c ∈ contracts, Matches ref c ∧ c.handlerId ≠ id ∧ R c.handlerId := by
  have hspec := refSpec contracts strictMode id ref
  have hstep : ∀ graph dep, P (if dep ≠ id then add graph dep else graph) ↔
      P graph ∨ (dep ≠ id ∧ R dep) := by
    intro graph dep
    by_cases hdep : dep ≠ id
    · rw [if_pos hdep, hadd]
      simp [hdep]
    · rw [if_neg hdep]
      simp [hdep]
  unfold processRef
  cases hresolve : resolveConstraintRef (contracts.map handlerInfo) strictMode id ref with
  | mk deps conflict =>
    rw [hresolve] at hspec
    have hdeps : (∃ dep ∈ deps, dep ≠ id ∧ R dep) ↔
        ∃ c ∈ contracts, Matches ref c ∧ c.handlerId ≠ id ∧ R c.handlerId := by
      constructor
      · rintro ⟨dep, hdep, hne, hR⟩
        rcases (hspec.mem_iff dep).mp hdep with ⟨c, hc, rfl, hmatches⟩
        exact ⟨c, hc, hmatches, hne, hR⟩
      · rintro ⟨c, hc, hmatches, hne, hR⟩
        exact ⟨c.handlerId, (hspec.mem_iff _).mpr ⟨c, hc, rfl, hmatches⟩, hne, hR⟩
    cases conflict with
    | none =>
      show P (deps.foldl _ st.graph) ↔ _
      rw [foldl_or_iff hstep, hdeps]
    | some conflict =>
      -- a conflict means that nothing matches
      have hnone := (hspec.conflict conflict rfl).2
      show P st.graph ↔ _
      constructor
      · exact Or.inl
      · rintro (h | ⟨c, hc, hmatches, -⟩)
        · exact h
        · exact absurd hmatches (hnone c hc)

variable {d h : String}

theorem graph_iff {P : DependencyGraph → Prop}
    (hadd : ∀ graph handler dep, P (graph.addEdge handler dep) ↔
      P graph ∨ (handler = h ∧ dep = d))
    (hinit : ¬ P (BuildState.init (contracts.map handlerInfo)).graph) :
    P (buildDependencyGraph (contracts.map handlerInfo) strictMode).graph ↔
      MustPrecede contracts d h := by
  rw [buildDependencyGraph_iff (P := fun st => P st.graph)
    (fun c ref => ∃ other ∈ contracts, Matches ref other ∧
      other.handlerId ≠ c.handlerId ∧ (c.handlerId = h ∧ other.handlerId = d))
    (fun c ref => ∃ other ∈ contracts, Matches ref other ∧
      other.handlerId ≠ c.handlerId ∧ (other.handlerId = h ∧ c.handlerId = d))
    (fun c st ref => processRef_graph_iff fun graph dep => hadd graph c.handlerId dep)
    (fun c st ref => processRef_graph_iff fun graph dep => hadd graph dep c.handlerId)]
  rw [or_iff_right hinit]
  unfold MustPrecede
  constructor
  · rintro ⟨c, hc, ⟨ref, href, other, hother, hmatches, hne, rfl, rfl⟩ |
      ⟨ref, href, other, hother, hmatches, hne, rfl, rfl⟩⟩
    · exact ⟨hne, other, hother, c, hc, rfl, rfl, Or.inl ⟨ref, href, hmatches⟩⟩
    · exact ⟨hne.symm, c, hc, other, hother, rfl, rfl, Or.inr ⟨ref, href, hmatches⟩⟩
  · rintro ⟨hne, a, ha, b, hb, rfl, rfl, ⟨ref, href, hmatches⟩ | ⟨ref, href, hmatches⟩⟩
    · exact ⟨b, hb, Or.inl ⟨ref, href, a, ha, hmatches, hne, rfl, rfl⟩⟩
    · exact ⟨a, ha, Or.inr ⟨ref, href, b, hb, hmatches, hne.symm, rfl, rfl⟩⟩

theorem mem_edges_iff :
    d ∈ (buildDependencyGraph (contracts.map handlerInfo) strictMode).graph.edges h ↔
      MustPrecede contracts d h := by
  refine graph_iff (P := fun graph => d ∈ graph.edges h) (fun graph handler dep => ?_)
    (Finset.notMem_empty d)
  show d ∈ Function.update graph.edges handler _ h ↔ _
  by_cases hh : handler = h
  · subst hh
    rw [Function.update_self, Finset.mem_insert]
    simp [or_comm, eq_comm]
  · rw [Function.update_of_ne (Ne.symm hh)]
    simp [hh]

theorem mem_reverseEdges_iff :
    h ∈ (buildDependencyGraph (contracts.map handlerInfo) strictMode).graph.reverseEdges d ↔
      MustPrecede contracts d h := by
  refine graph_iff (P := fun graph => h ∈ graph.reverseEdges d) (fun graph handler dep => ?_)
    (Finset.notMem_empty h)
  show h ∈ Function.update graph.reverseEdges dep _ d ↔ _
  by_cases hd : dep = d
  · subst hd
    rw [Function.update_self, Finset.mem_insert]
    simp [or_comm, eq_comm]
  · rw [Function.update_of_ne (Ne.symm hd)]
    simp [hd]

theorem valid_of_mem_requires {c : ModelHandlerContract} {ref : String}
    (h : ref ∈ c.requiresBefore ++ c.requiresAfter) : validDependencyRef ref = true := by
  unfold ModelHandlerContract.requiresBefore ModelHandlerContract.requiresAfter at h
  cases hconstraints : c.executionConstraints with
  | none =>
    rw [hconstraints] at h
    exact nomatch h
  | some constraints =>
    rw [hconstraints] at h
    exact List.all_eq_true.mp constraints.valid ref h

theorem exists_blocking_iff (source : String) {ref : String}
    (hvalid : validDependencyRef ref = true) :
    (∃ conflict ∈ (resolveConstraintRef (contracts.map handlerInfo) strictMode source ref).2,
      conflict.isBlocking = true) ↔
      strictMode = true ∧ ∀ other ∈ contracts, ¬ Matches ref other := by
  have hspec := refSpec contracts strictMode source ref
  constructor
  · intro h
    rcases h with ⟨conflict, hmem, hblocking⟩
    rw [(hspec.conflict conflict hmem).1] at hblocking
    exact ⟨hblocking, (hspec.conflict conflict hmem).2⟩
  · intro h
    cases hresult : (resolveConstraintRef (contracts.map handlerInfo) strictMode source ref).2 with
    | none =>
      rcases hspec.resolved hvalid hresult with ⟨other, hother, hmatches⟩
      exact absurd hmatches (h.2 other hother)
    | some conflict =>
      refine ⟨conflict, rfl, ?_⟩
      rw [(hspec.conflict conflict hresult).1]
      exact h.1

theorem processRef_conflicts_iff {P : ModelExecutionConflict → Prop} {id ref : String}
    {st : BuildState} :
    (∃ conflict ∈ (processRef (contracts.map handlerInfo) strictMode id add st ref).conflicts,
      P conflict) ↔ (∃ conflict ∈ st.conflicts, P conflict) ∨
        ∃ conflict ∈ (resolveConstraintRef (contracts.map handlerInfo) strictMode id ref).2,
          P conflict := by
  unfold processRef
  cases resolveConstraintRef (contracts.map handlerInfo) strictMode id ref with
  | mk deps conflict =>
    cases conflict with
    | none => simp
    | some conflict => simp [or_and_right, exists_or]

/-- A conflict blocks only in strict mode, for a reference that does not resolve. -/
theorem buildDependencyGraph_blocking_iff :
    (∃ conflict ∈ (buildDependencyGraph (contracts.map handlerInfo) strictMode).conflicts,
      conflict.isBlocking = true) ↔ strictMode = true ∧ HasUnresolved contracts := by
  rw [buildDependencyGraph_iff
    (P := fun st => ∃ conflict ∈ st.conflicts, conflict.isBlocking = true)
    (fun c ref => ∃ conflict ∈ (resolveConstraintRef (contracts.map handlerInfo) strictMode
      c.handlerId ref).2, conflict.isBlocking = true)
    (fun c ref => ∃ conflict ∈ (resolveConstraintRef (contracts.map handlerInfo) strictMode
      c.handlerId ref).2, conflict.isBlocking = true)
    (fun c st ref => processRef_conflicts_iff) (fun c st ref => processRef_conflicts_iff)]
  have hinit : ¬ ∃ conflict ∈ (BuildState.init (contracts.map handlerInfo)).conflicts,
      conflict.isBlocking = true := by
    intro h
    rcases h with ⟨conflict, hmem, -⟩
    exact nomatch hmem
  rw [or_iff_right hinit]
  unfold HasUnresolved
  constructor
  · intro h
    rcases h with ⟨c, hc, ⟨ref, href, hconflict⟩ | ⟨ref, href, hconflict⟩⟩
    · have hmem := List.mem_append_left c.requiresAfter href
      rw [exists_blocking_iff c.handlerId (valid_of_mem_requires hmem)] at hconflict
      exact ⟨hconflict.1, c, hc, ref, hmem, hconflict.2⟩
    · have hmem := List.mem_append_right c.requiresBefore href
      rw [exists_blocking_iff c.handlerId (valid_of_mem_requires hmem)] at hconflict
      exact ⟨hconflict.1, c, hc, ref, hmem, hconflict.2⟩
  · intro h
    rcases h with ⟨hstrict, c, hc, ref, hmem, hnone⟩
    have hconflict := (exists_blocking_iff c.handlerId (valid_of_mem_requires hmem)).mpr
      ⟨hstrict, hnone⟩
    refine ⟨c, hc, ?_⟩
    rcases List.mem_append.mp hmem with href | href
    · exact Or.inl ⟨ref, href, hconflict⟩
    · exact Or.inr ⟨ref, href, hconflict⟩

theorem mem_nodes_iff {a : String} :
    a ∈ (buildDependencyGraph (contracts.map handlerInfo) strictMode).graph.nodes ↔
      ∃ c ∈ contracts, c.handlerId = a := by
  have href : ∀ (add : DependencyGraph → String → DependencyGraph)
      (_ : ∀ graph dep, (add graph dep).nodes = graph.nodes) (c : ModelHandlerContract)
      (st : BuildState) (ref : String),
      a ∈ (processRef (contracts.map handlerInfo) strictMode c.handlerId add st
        ref).graph.nodes ↔ a ∈ st.graph.nodes ∨ False := by
    intro add hadd c st ref
    rw [processRef_graph_iff (P := fun graph => a ∈ graph.nodes) (R := fun _ => False)
      (fun graph dep => by simp [hadd])]
    simp
  rw [buildDependencyGraph_iff (P := fun st => a ∈ st.graph.nodes) (fun _ _ => False)
    (fun _ _ => False) (fun c => href (fun graph dep => graph.addEdge c.handlerId dep)
      (fun _ _ => rfl) c)
    (fun c => href (fun graph dep => graph.addEdge dep c.handlerId) (fun _ _ => rfl) c)]
  simp [BuildState.init, handlerInfo]

/-- A graph of the handlers with `MustPrecede` as its edges, in both directions. -/
structure GraphSpec (contracts : List ModelHandlerContract) (graph : DependencyGraph) : Prop where
  mem_nodes : ∀ a, a ∈ graph.nodes ↔ ∃ c ∈ contracts, c.handlerId = a
  mem_edges : ∀ d h, d ∈ graph.edges h ↔ MustPrecede contracts d h
  mem_reverseEdges : ∀ d h, h ∈ graph.reverseEdges d ↔ MustPrecede contracts d h

theorem buildDependencyGraph_spec (contracts : List ModelHandlerContract) (strictMode : Bool) :
    GraphSpec contracts (buildDependencyGraph (contracts.map handlerInfo) strictMode).graph where
  mem_nodes _ := mem_nodes_iff
  mem_edges _ _ := mem_edges_iff
  mem_reverseEdges _ _ := mem_reverseEdges_iff

theorem MustPrecede.mem_left (hprecede : MustPrecede contracts d h) :
    ∃ c ∈ contracts, c.handlerId = d := by
  rcases hprecede with ⟨-, a, ha, b, hb, hd, hh, -⟩
  exact ⟨a, ha, hd⟩

theorem MustPrecede.mem_right (hprecede : MustPrecede contracts d h) :
    ∃ c ∈ contracts, c.handlerId = h := by
  rcases hprecede with ⟨-, a, ha, b, hb, hd, hh, -⟩
  exact ⟨b, hb, hh⟩

end

/-! ## Cycles and sorting -/

/-- The order that the constraints ask for has no cycle. -/
def ConstraintsAcyclic (contracts : List ModelHandlerContract) : Prop :=
  ∀ a, ¬ TransGen (MustPrecede contracts) a a

theorem mem_sortedSet {s : Finset String} {a : String} : a ∈ sortedSet s ↔ a ∈ s :=
  (SetOrder.ascending String).mem_iter s a

theorem follows_cycleBookkeeping :
    Follows cycleBookkeeping (fun path (c : CycleSearch) => c.path = path) where
  root _ := rfl
  enter path node c h := by
    show c.path ++ [node] = path ++ [node]
    rw [h]
  leave path node c h := by
    show c.path.dropLast = path
    rw [h, List.dropLast_concat]

section
variable {contracts : List ModelHandlerContract} {graph : DependencyGraph}

section
variable (hgraph : GraphSpec contracts graph)
include hgraph

theorem GraphSpec.edge_edges {a b : String} :
    Edge (fun node => sortedSet (graph.edges node)) a b ↔ MustPrecede contracts b a := by
  unfold Edge
  rw [mem_sortedSet, hgraph.mem_edges]

theorem GraphSpec.acyclic_edges_iff :
    Acyclic (fun node => sortedSet (graph.edges node)) ↔ ConstraintsAcyclic contracts := by
  have hrel : Edge (fun node => sortedSet (graph.edges node))
      = Function.swap (MustPrecede contracts) := by
    funext a b
    exact propext hgraph.edge_edges
  unfold Acyclic ConstraintsAcyclic
  rw [hrel]
  exact forall_congr' fun a => not_congr transGen_swap

theorem GraphSpec.detectCycles_blocking_iff :
    (∃ conflict ∈ detectCycles graph, conflict.isBlocking = true) ↔
      ¬ ConstraintsAcyclic contracts := by
  have hsource : ∀ a b, Edge (fun node => sortedSet (graph.edges node)) a b →
      a ∈ graph.nodes := by
    intro a b hab
    exact (hgraph.mem_nodes a).mpr (hgraph.edge_edges.mp hab).mem_right
  have htarget : ∀ a b, Edge (fun node => sortedSet (graph.edges node)) a b →
      b ∈ graph.nodes := by
    intro a b hab
    exact (hgraph.mem_nodes b).mpr (hgraph.edge_edges.mp hab).mem_left
  have hsearch := roots_init_spec follows_cycleBookkeeping graph.nodes.card
    (fun node => sortedSet (graph.edges node)) hsource htarget
    (fun r => mem_sortedSet (s := graph.nodes) (a := r)) { path := [], cycle := [] }
  rw [← hgraph.acyclic_edges_iff]
  unfold detectCycles
  revert hsearch
  cases roots cycleBookkeeping graph.nodes.card (fun node => sortedSet (graph.edges node))
    (sortedSet graph.nodes) (DfsState.init { path := [], cycle := [] }) with
  | error last =>
    -- the bound on the calls is the number of nodes
    intro hlimit
    exact absurd hlimit (lt_irrefl _)
  | ok result =>
    rcases result with ⟨_ | _, st⟩
    · intro hacyclic
      simp [hacyclic]
    · intro hfound
      simp [hfound.not_acyclic, ModelExecutionConflict.isBlocking]

theorem GraphSpec.edge_dependents {a b : String} :
    Edge (fun node => (sortedSet (graph.reverseEdges node)).filter (· ∈ graph.nodes)) a b ↔
      MustPrecede contracts a b := by
  unfold Edge
  rw [List.mem_filter, mem_sortedSet, hgraph.mem_reverseEdges, decide_eq_true_eq,
    hgraph.mem_nodes]
  constructor
  · intro h
    exact h.1
  · intro h
    exact ⟨h, h.mem_right⟩

theorem GraphSpec.acyclic_dependents_iff :
    Acyclic (fun node => (sortedSet (graph.reverseEdges node)).filter (· ∈ graph.nodes)) ↔
      ConstraintsAcyclic contracts := by
  have hrel : Edge (fun node => (sortedSet (graph.reverseEdges node)).filter (· ∈ graph.nodes))
      = MustPrecede contracts := by
    funext a b
    exact propext hgraph.edge_dependents
  unfold Acyclic ConstraintsAcyclic
  rw [hrel]

theorem GraphSpec.kahnInput (σ : SetOrder String) :
    KahnInput (σ.iter graph.nodes)
      (fun node => (sortedSet (graph.reverseEdges node)).filter (· ∈ graph.nodes))
      (fun node => ((graph.edges node).filter (· ∈ graph.nodes)).card) where
  nodup := σ.nodup_iter _
  source a b hab := by
    rw [σ.mem_iter, hgraph.mem_nodes]
    exact (hgraph.edge_dependents.mp hab).mem_left
  target a b hab := by
    rw [σ.mem_iter, hgraph.mem_nodes]
    exact (hgraph.edge_dependents.mp hab).mem_right
  degree b hb := by
    have hset : (σ.iter graph.nodes).toFinset = graph.nodes := by
      ext a
      rw [List.mem_toFinset, σ.mem_iter]
    have hcount : ∀ a, (((sortedSet (graph.reverseEdges a)).filter (· ∈ graph.nodes)).count b : ℤ)
        = if a ∈ graph.edges b then 1 else 0 := by
      intro a
      have hnodup : ((sortedSet (graph.reverseEdges a)).filter (· ∈ graph.nodes)).Nodup :=
        ((SetOrder.ascending String).nodup_iter _).filter _
      have hmem : b ∈ (sortedSet (graph.reverseEdges a)).filter (· ∈ graph.nodes) ↔
          a ∈ graph.edges b := hgraph.edge_dependents.trans (hgraph.mem_edges a b).symm
      by_cases hab : a ∈ graph.edges b
      · rw [List.count_eq_one_of_mem hnodup (hmem.mpr hab), if_pos hab, Nat.cast_one]
      · rw [List.count_eq_zero.mpr fun h => hab (hmem.mp h), if_neg hab, Nat.cast_zero]
    rw [hset, Finset.sum_congr rfl fun a _ => hcount a, Finset.sum_boole, Finset.filter_mem_eq_inter,
      Finset.filter_mem_eq_inter, Finset.inter_comm]

theorem GraphSpec.topologicalSort_spec (σ : SetOrder String) (handlerInfoMap : List HandlerInfo)
    (policy : ModelExecutionOrderingPolicy) :
    KahnResult (readyList handlerInfoMap policy) (σ.iter graph.nodes)
      (fun node => (sortedSet (graph.reverseEdges node)).filter (· ∈ graph.nodes))
      (topologicalSort σ graph handlerInfoMap policy).1 :=
  kahn_spec (hgraph.kahnInput σ)

end

end

/-! ## The plan -/

theorem phaseNameToEnum_eq_execute_iff {name : String} :
    phaseNameToEnum name = some .execute ↔ name = "execute" := by
  unfold phaseNameToEnum
  split_ifs <;> simp_all

theorem handlerIds_phaseStep (sortedHandlers : List String) (name : String) :
    (phaseStep sortedHandlers name).elim [] (·.handlerIds)
      = if name = "execute" then sortedHandlers else [] := by
  unfold phaseStep
  by_cases hname : name = "execute"
  · rw [if_pos hname, phaseNameToEnum_eq_execute_iff.mpr hname]
    rfl
  · rw [if_neg hname]
    have hphase : phaseNameToEnum name ≠ some .execute :=
      fun h => hname (phaseNameToEnum_eq_execute_iff.mp h)
    revert hphase
    cases phaseNameToEnum name with
    | none => exact fun _ => rfl
    | some phase =>
      cases phase with
      | execute => exact fun h => absurd rfl h
      | _ => exact fun _ => rfl

theorem flatMap_filterMap_handlerIds (f : String → Option ModelPhaseStep) (names : List String) :
    (names.filterMap f).flatMap (·.handlerIds)
      = names.flatMap fun name => (f name).elim [] (·.handlerIds) := by
  induction names with
  | nil => rfl
  | cons name names ih =>
    rw [List.flatMap_cons, ← ih]
    cases hf : f name with
    | none => rw [List.filterMap_cons_none hf]; rfl
    | some step => rw [List.filterMap_cons_some hf]; rfl

theorem handlerIds_assignToPhases (sortedHandlers : List String) {profilePhases : List String}
    (hnodup : profilePhases.Nodup) :
    (assignToPhases sortedHandlers profilePhases).flatMap (·.handlerIds)
      = if "execute" ∈ profilePhases then sortedHandlers else [] := by
  unfold assignToPhases
  rw [flatMap_filterMap_handlerIds]
  simp only [handlerIds_phaseStep]
  induction profilePhases with
  | nil => rfl
  | cons name names ih =>
    rw [List.nodup_cons] at hnodup
    rw [List.flatMap_cons, ih hnodup.2]
    by_cases hname : name = "execute"
    · subst hname
      rw [if_pos rfl, if_neg hnodup.1, if_pos List.mem_cons_self, List.append_nil]
    · rw [if_neg hname, List.nil_append]
      simp [Ne.symm hname]

section
variable (σ : SetOrder String) (profile : ModelExecutionProfile)
  {contracts : List ModelHandlerContract} (strictMode : Option Bool)

def Blocked (profile : ModelExecutionProfile) (contracts : List ModelHandlerContract)
    (strictMode : Option Bool) : Prop :=
  ¬ ConstraintsAcyclic contracts ∨
    (strictMode.getD profile.orderingPolicy.strictMode = true ∧ HasUnresolved contracts)

theorem not_blocked_nil : ¬ Blocked profile [] strictMode := by
  unfold Blocked
  rw [not_or, not_not]
  refine ⟨fun a hcycle => ?_, fun h => ?_⟩
  · rcases TransGen.head'_iff.mp hcycle with ⟨b, hab, -⟩
    rcases hab.mem_left with ⟨c, hc, -⟩
    exact nomatch hc
  · rcases h.2 with ⟨c, hc, -⟩
    exact nomatch hc

/-- The conflicts that `resolve` finds. -/
def conflictsOf (contracts : List ModelHandlerContract) (strictMode : Bool) :
    List ModelExecutionConflict :=
  (buildDependencyGraph (contracts.map handlerInfo) strictMode).conflicts ++
    detectCycles (buildDependencyGraph (contracts.map handlerInfo) strictMode).graph

theorem conflictsOf_blocking_iff :
    (conflictsOf contracts (strictMode.getD profile.orderingPolicy.strictMode)).any
      ModelExecutionConflict.isBlocking = true ↔ Blocked profile contracts strictMode := by
  have hgraph := buildDependencyGraph_spec contracts
    (strictMode.getD profile.orderingPolicy.strictMode)
  unfold conflictsOf Blocked
  rw [List.any_append, Bool.or_eq_true, List.any_eq_true, List.any_eq_true,
    buildDependencyGraph_blocking_iff, hgraph.detectCycles_blocking_iff, or_comm]

theorem resolve_of_blocked (hids : (contracts.map ModelHandlerContract.handlerId).Nodup)
    (hblocked : Blocked profile contracts strictMode) :
    resolve σ profile contracts strictMode
      = createInvalidPlan profile (countConstraints (contracts.map handlerInfo))
          (conflictsOf contracts (strictMode.getD profile.orderingPolicy.strictMode)) := by
  have hne : contracts ≠ [] := by
    intro hnil
    rw [hnil] at hblocked
    exact not_blocked_nil profile strictMode hblocked
  unfold resolve
  rw [if_neg hne, buildHandlerInfoMap_eq hids]
  exact if_pos ((conflictsOf_blocking_iff profile strictMode).mpr hblocked)

theorem resolve_of_not_blocked (hne : contracts ≠ [])
    (hids : (contracts.map ModelHandlerContract.handlerId).Nodup)
    (hblocked : ¬ Blocked profile contracts strictMode) :
    resolve σ profile contracts strictMode
      = createValidPlan profile
          (assignToPhases (topologicalSort σ
            (buildDependencyGraph (contracts.map handlerInfo)
              (strictMode.getD profile.orderingPolicy.strictMode)).graph
            (contracts.map handlerInfo) profile.orderingPolicy).1 profile.phases)
          (countConstraints (contracts.map handlerInfo))
          (topologicalSort σ
            (buildDependencyGraph (contracts.map handlerInfo)
              (strictMode.getD profile.orderingPolicy.strictMode)).graph
            (contracts.map handlerInfo) profile.orderingPolicy).2
          (conflictsOf contracts (strictMode.getD profile.orderingPolicy.strictMode)) := by
  unfold resolve
  rw [if_neg hne, buildHandlerInfoMap_eq hids]
  exact if_neg fun h => hblocked ((conflictsOf_blocking_iff profile strictMode).mp h)

theorem resolve_isValid_iff (hids : (contracts.map ModelHandlerContract.handlerId).Nodup) :
    (resolve σ profile contracts strictMode).isValid = true ↔
      ¬ Blocked profile contracts strictMode := by
  by_cases hblocked : Blocked profile contracts strictMode
  · rw [resolve_of_blocked σ profile strictMode hids hblocked]
    exact iff_of_false nofun (not_not.mpr hblocked)
  · refine iff_of_true ?_ hblocked
    by_cases hne : contracts = []
    · unfold resolve
      rw [if_pos hne]
      rfl
    · rw [resolve_of_not_blocked σ profile strictMode hne hids hblocked]
      show (!(conflictsOf contracts _).any ModelExecutionConflict.isBlocking) = true
      rw [Bool.not_eq_true', ← Bool.not_eq_true, conflictsOf_blocking_iff]
      exact hblocked

/-- `d` is before `h` in the plan. -/
def ModelExecutionPlan.Precedes (plan : ModelExecutionPlan) (d h : String) : Prop :=
  plan.getAllHandlerIds.idxOf d < plan.getAllHandlerIds.idxOf h

structure KeepsConstraints (contracts : List ModelHandlerContract) (plan : ModelExecutionPlan) :
    Prop where
  perm : plan.getAllHandlerIds.Perm (contracts.map ModelHandlerContract.handlerId)
  requiresBefore : ∀ h ∈ contracts, ∀ d ∈ contracts, d.handlerId ≠ h.handlerId →
    (∃ ref ∈ h.requiresBefore, Matches ref d) → plan.Precedes d.handlerId h.handlerId
  requiresAfter : ∀ h ∈ contracts, ∀ d ∈ contracts, d.handlerId ≠ h.handlerId →
    (∃ ref ∈ h.requiresAfter, Matches ref d) → plan.Precedes h.handlerId d.handlerId

theorem keepsConstraints_of_kahnResult {wl : Worklist String} {nodes : List String}
    {succ : String → List String} {plan : ModelExecutionPlan}
    (hids : (contracts.map ModelHandlerContract.handlerId).Nodup)
    (hnodes : ∀ a, a ∈ nodes ↔ ∃ c ∈ contracts, c.handlerId = a)
    (hedge : ∀ a b, Edge succ a b ↔ MustPrecede contracts a b)
    (hresult : KahnResult wl nodes succ plan.getAllHandlerIds)
    (hacyclic : Acyclic succ) : KeepsConstraints contracts plan := by
  have hsource : SourcesIn nodes succ := by
    intro a b hab
    exact (hnodes a).mpr ((hedge a b).mp hab).mem_left
  have htarget : ∀ a b, Edge succ a b → b ∈ nodes := by
    intro a b hab
    exact (hnodes b).mpr ((hedge a b).mp hab).mem_right
  have hall := hresult.mem_of_acyclic hsource htarget hacyclic
  have hprecedes : ∀ a b, MustPrecede contracts a b → plan.Precedes a b := by
    intro a b hab
    exact hresult.idxOf_lt ((hedge a b).mpr hab) (hall b ((hnodes b).mpr hab.mem_right))
  refine ⟨?_, fun h hh d hd hne href => ?_, fun h hh d hd hne href => ?_⟩
  · rw [List.perm_ext_iff_of_nodup hresult.nodup hids]
    intro a
    rw [List.mem_map]
    constructor
    · intro ha
      exact (hnodes a).mp (hresult.subset a ha)
    · intro ha
      exact hall a ((hnodes a).mpr ha)
  · exact hprecedes _ _ ⟨hne, d, hd, h, hh, rfl, rfl, Or.inl href⟩
  · exact hprecedes _ _ ⟨hne.symm, h, hh, d, hd, rfl, rfl, Or.inr href⟩

/-- A plan is valid if the constraints have no cycle and, in strict mode, every reference is
resolved, and then the plan keeps the constraints. -/
theorem resolve_spec (hphase : "execute" ∈ profile.phases)
    (hids : (contracts.map ModelHandlerContract.handlerId).Nodup) :
    ((resolve σ profile contracts strictMode).isValid = true ↔
      ConstraintsAcyclic contracts ∧
        (strictMode.getD profile.orderingPolicy.strictMode = true → ¬ HasUnresolved contracts)) ∧
    ((resolve σ profile contracts strictMode).isValid = true →
      KeepsConstraints contracts (resolve σ profile contracts strictMode)) := by
  rw [resolve_isValid_iff σ profile strictMode hids]
  constructor
  · unfold Blocked
    rw [not_or, not_not, not_and]
  · intro hblocked
    by_cases hne : contracts = []
    · subst hne
      exact ⟨List.Perm.refl _, fun _ h => (nomatch h), fun _ h => nomatch h⟩
    · have hgraph := buildDependencyGraph_spec contracts
        (strictMode.getD profile.orderingPolicy.strictMode)
      have hacyclic : ConstraintsAcyclic contracts :=
        not_not.mp fun h => hblocked (Or.inl h)
      have hsort := hgraph.topologicalSort_spec σ (contracts.map handlerInfo)
        profile.orderingPolicy
      have hall := handlerIds_assignToPhases (topologicalSort σ
        (buildDependencyGraph (contracts.map handlerInfo)
          (strictMode.getD profile.orderingPolicy.strictMode)).graph
        (contracts.map handlerInfo) profile.orderingPolicy).1 profile.phases_nodup
      rw [if_pos hphase] at hall
      rw [← hall] at hsort
      rw [resolve_of_not_blocked σ profile strictMode hne hids hblocked]
      exact keepsConstraints_of_kahnResult hids
        (fun a => (σ.mem_iter _ a).trans (hgraph.mem_nodes a))
        (fun a b => hgraph.edge_dependents) hsort (hgraph.acyclic_dependents_iff.mpr hacyclic)

end

def sessionContracts : List ModelHandlerContract :=
  [{ handlerId := "node.session",
     executionConstraints := some { requiresBefore := ["capability:auth"] } },
   { handlerId := "node.login", capabilityOutputs := ["auth"] }]

theorem resolve_spec_sessionContracts :
    ((resolve (SetOrder.ascending String) {} sessionContracts (some true)).isValid = true ↔
      ConstraintsAcyclic sessionContracts ∧ (true = true → ¬ HasUnresolved sessionContracts)) ∧
    ((resolve (SetOrder.ascending String) {} sessionContracts (some true)).isValid = true →
      KeepsConstraints sessionContracts
        (resolve (SetOrder.ascending String) {} sessionContracts (some true))) :=
  resolve_spec (SetOrder.ascending String) {} (some true) (by decide) (by decide)

end OmnibaseCore.Resolution
