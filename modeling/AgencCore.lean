import AgencCore.Connection.Failover
import AgencCore.Eval.LegalHistories
import AgencCore.Eval.Redelivery
import AgencCore.Gateway.Approvals
import AgencCore.Gateway.DispatchBeacon
import AgencCore.Gateway.DispatchClaims
import AgencCore.Gateway.LeaseFencing
import AgencCore.Gateway.MailboxOrder
import AgencCore.Gateway.SavedHistory
import AgencCore.Gateway.SessionCompaction
import AgencCore.Gateway.SessionIds
import AgencCore.Gateway.SubAgentOrchestrator
import AgencCore.Gateway.WakeBus
import AgencCore.Memory.InMemory
import AgencCore.Policy.Globs
import AgencCore.Policy.GovernanceAgreement
import AgencCore.Policy.OverlayBudgets
import AgencCore.Policy.Purity
import AgencCore.Policy.Restriction
import AgencCore.Policy.SessionIsolation
import AgencCore.Policy.WriteScope
import AgencCore.Replay.Store
import AgencCore.Replay.Batching
import AgencCore.Replay.Resume
import AgencCore.Task.Discovery
import AgencCore.Task.Leases
import AgencCore.Task.PersistentValues
import AgencCore.Task.ToolCap
import AgencCore.Team.Atomicity
import AgencCore.Team.Finality
import AgencCore.Team.RosterConsistency
import AgencCore.Tools.TaskTracker
import AgencCore.Utils.KeyedAsyncQueue
import AgencCore.Workflow.EffectInterleaving
import AgencCore.Workflow.EffectKeys
import AgencCore.Workflow.KernelResults
import AgencCore.Workflow.PipelineCalls
import AgencCore.Workflow.Waiters
