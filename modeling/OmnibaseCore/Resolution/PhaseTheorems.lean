import OmnibaseCore.Resolution.ResolverTheorems

/-!
# Handlers and the phases of a profile

A profile may name its phases as it likes, and the resolver puts every handler into the phase
"execute". A valid plan has each handler in one step exactly when there is such a phase
(`losesNoHandler_iff`).
-/

namespace OmnibaseCore.Resolution

open FiniteGraph

/-! ## Steps -/

/-- A handler is in exactly one step if there is a phase `execute`, else in none. -/
theorem countP_assignToPhases {sortedHandlers : List String} {id : String}
    (hid : id ∈ sortedHandlers) {profilePhases : List String} (hnodup : profilePhases.Nodup) :
    (assignToPhases sortedHandlers profilePhases).countP (fun step => id ∈ step.handlerIds)
      = if "execute" ∈ profilePhases then 1 else 0 := by
  have hstep : ∀ name step, phaseStep sortedHandlers name = some step →
      (id ∈ step.handlerIds ↔ name = "execute") := by
    intro name step hphase
    have hids := handlerIds_phaseStep sortedHandlers name
    rw [hphase] at hids
    replace hids : step.handlerIds = if name = "execute" then sortedHandlers else [] := hids
    rw [hids]
    split_ifs with hname
    · exact iff_of_true hid hname
    · exact iff_of_false List.not_mem_nil hname
  unfold assignToPhases
  induction profilePhases with
  | nil => rfl
  | cons name names ih =>
    rw [List.nodup_cons] at hnodup
    have hrest := ih hnodup.2
    by_cases hname : name = "execute"
    · -- the other names are not "execute"
      subst hname
      rw [if_neg hnodup.1] at hrest
      have hsome : phaseStep sortedHandlers "execute" = some {
          phase := .execute
          handlerIds := sortedHandlers
          orderingRationale := some "Topological sort based on dependency constraints" } := rfl
      rw [List.filterMap_cons_some hsome, List.countP_cons_of_pos (by simpa using hid), hrest,
        if_pos List.mem_cons_self]
    · have hmem : "execute" ∈ name :: names ↔ "execute" ∈ names := by
        rw [List.mem_cons]
        exact or_iff_right (Ne.symm hname)
      rw [if_congr hmem rfl rfl, ← hrest]
      cases hphase : phaseStep sortedHandlers name with
      | none => rw [List.filterMap_cons_none hphase]
      | some step =>
        have hnot : ¬ id ∈ step.handlerIds := fun h => hname ((hstep name step hphase).mp h)
        rw [List.filterMap_cons_some hphase, List.countP_cons_of_neg (by simpa using hnot)]

/-! ## Plans -/

section
variable (σ : SetOrder String) (profile : ModelExecutionProfile)
  {contracts : List ModelHandlerContract} (strictMode : Option Bool)

theorem mem_topologicalSort (hblocked : ¬ Blocked profile contracts strictMode)
    {c : ModelHandlerContract} (hc : c ∈ contracts) :
    c.handlerId ∈ (topologicalSort σ
      (buildDependencyGraph (contracts.map handlerInfo)
        (strictMode.getD profile.orderingPolicy.strictMode)).graph
      (contracts.map handlerInfo) profile.orderingPolicy).1 := by
  have hgraph := buildDependencyGraph_spec contracts
    (strictMode.getD profile.orderingPolicy.strictMode)
  have hacyclic : ConstraintsAcyclic contracts := not_not.mp fun h => hblocked (Or.inl h)
  have hsort := hgraph.topologicalSort_spec σ (contracts.map handlerInfo) profile.orderingPolicy
  have hinput := hgraph.kahnInput σ
  apply hsort.mem_of_acyclic hinput.source hinput.target
    (hgraph.acyclic_dependents_iff.mpr hacyclic)
  rw [σ.mem_iter, hgraph.mem_nodes]
  exact ⟨c, hc, rfl⟩

def LosesNoHandler (σ : SetOrder String) (profile : ModelExecutionProfile)
    (contracts : List ModelHandlerContract) (strictMode : Option Bool) : Prop :=
  (resolve σ profile contracts strictMode).isValid = true →
    ∀ c ∈ contracts, (resolve σ profile contracts strictMode).phases.countP
      (fun step => c.handlerId ∈ step.handlerIds) = 1

/-- No handler is lost exactly when the profile has the phase "execute" or the plan is blocked. -/
theorem losesNoHandler_iff (hne : contracts ≠ [])
    (hids : (contracts.map ModelHandlerContract.handlerId).Nodup) :
    LosesNoHandler σ profile contracts strictMode ↔
      "execute" ∈ profile.phases ∨ Blocked profile contracts strictMode := by
  unfold LosesNoHandler
  rw [resolve_isValid_iff σ profile strictMode hids]
  by_cases hblocked : Blocked profile contracts strictMode
  · exact iff_of_true (fun h => absurd hblocked h) (Or.inr hblocked)
  · have hcount : ∀ c ∈ contracts, (resolve σ profile contracts strictMode).phases.countP
        (fun step => c.handlerId ∈ step.handlerIds)
          = if "execute" ∈ profile.phases then 1 else 0 := by
      intro c hc
      rw [resolve_of_not_blocked σ profile strictMode hne hids hblocked]
      exact countP_assignToPhases (mem_topologicalSort σ profile strictMode hblocked hc)
        profile.phases_nodup
    rw [or_iff_left hblocked]
    constructor
    · intro h
      rcases List.exists_mem_of_ne_nil contracts hne with ⟨c, hc⟩
      have hone := h hblocked c hc
      rw [hcount c hc] at hone
      by_contra hphase
      rw [if_neg hphase] at hone
      exact absurd hone (by decide)
    · intro hphase _ c hc
      rw [hcount c hc, if_pos hphase]

end

theorem losesNoHandler_iff_sessionContracts :
    LosesNoHandler (SetOrder.ascending String) {} sessionContracts (some true) ↔
      "execute" ∈ ({} : ModelExecutionProfile).phases ∨
        Blocked {} sessionContracts (some true) :=
  losesNoHandler_iff (SetOrder.ascending String) {} (some true) (by decide) (by decide)

def processProfile : ModelExecutionProfile := { phases := ["init", "process", "cleanup"] }

/-- The plan is valid and empty, though the handler must run. -/
theorem processProfile_losesHandler :
    ¬ LosesNoHandler (SetOrder.ascending String) processProfile
      [{ handlerId := "node.audit", executionConstraints := some { mustRun := true } }] none := by
  intro h
  have hcount := h (by decide +kernel) _ List.mem_cons_self
  exact absurd hcount (by decide +kernel)

end OmnibaseCore.Resolution
