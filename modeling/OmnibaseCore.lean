import OmnibaseCore.Caching.CoherenceTheorems
import OmnibaseCore.Caching.EvictionTheorems
import OmnibaseCore.Contracts.HashRegistry
import OmnibaseCore.Database.AccessSoundness
import OmnibaseCore.Database.SqlSafety
import OmnibaseCore.Diff.MirrorTheorems
import OmnibaseCore.Dispatch.DrainTheorems
import OmnibaseCore.Dispatch.GlobTheorems
import OmnibaseCore.Dispatch.HandlerRouting
import OmnibaseCore.Dispatch.NodeDispatchTheorems
import OmnibaseCore.Dispatch.ParityTheorems
import OmnibaseCore.Dispatch.TopicTheorems
import OmnibaseCore.Effect.RetryTrace
import OmnibaseCore.Effect.TemplateTheorems
import OmnibaseCore.Effect.Transaction
import OmnibaseCore.Effect.WindowTheorems
import OmnibaseCore.Fsm.ConditionTheorems
import OmnibaseCore.Fsm.CycleTheorems
import OmnibaseCore.Geometric.LookAlike
import OmnibaseCore.Geometric.OrderTheorems
import OmnibaseCore.GraphIr.RoundTripTheorems
import OmnibaseCore.Merge.Resolve
import OmnibaseCore.Merge.Rules
import OmnibaseCore.Normalization.IdempotenceTheorems
import OmnibaseCore.Omnimemory.CostLedger
import OmnibaseCore.Package.RoundTripTheorems
import OmnibaseCore.Pipeline.BuilderTheorems
import OmnibaseCore.Receipts.DiffConsistency
import OmnibaseCore.Receipts.EvidenceSourceTheorems
import OmnibaseCore.Receipts.SupersessionTheorems
import OmnibaseCore.Reducer.ContextTheorems
import OmnibaseCore.Reducer.SnapshotTheorems
import OmnibaseCore.Registry.Registration
import OmnibaseCore.Registry.SingletonTheorems
import OmnibaseCore.Replay.AuditTrailTheorems
import OmnibaseCore.Resolution.Determinism
import OmnibaseCore.Resolution.PhaseTheorems
import OmnibaseCore.SemVer.AcceptTheorems
import OmnibaseCore.SemVer.Precedence
import OmnibaseCore.TestSelection.ClosureTheorems
import OmnibaseCore.TestSelection.Selection
import OmnibaseCore.Tiered.Determinism
import OmnibaseCore.Tiered.Escalation
import OmnibaseCore.Validation.ContractGraphTheorems
import OmnibaseCore.Validation.InvariantChecker
import OmnibaseCore.Workflow.Deadline
import OmnibaseCore.Workflow.DeclarationOrder
import OmnibaseCore.Workflow.DisabledSteps
import OmnibaseCore.Workflow.Rounds
import OmnibaseCore.Diff.History
