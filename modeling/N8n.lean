import N8n.AugmentObject.Runs
import N8n.ChatHub.StreamedMessages
import N8n.CodeNode.ChunkedExecution
import N8n.Codegen.GraphRoots
import N8n.Codegen.KeptConnections
import N8n.Codegen.WorkingNames
import N8n.Collaboration.Exclusion
import N8n.Concurrency.ConcurrencyLimit
import N8n.Crdt.Protocol
import N8n.DataProxy.TracedItems
import N8n.DataTable.ColumnOrder
import N8n.DataTable.SelectedRows
import N8n.Deduplication.LatestValues
import N8n.Deduplication.RememberedEntries
import N8n.Engine.EntryOrder
import N8n.Engine.HandleNodeErrorOutput
import N8n.Engine.RequestsResponse
import N8n.Engine.ResumeOrder
import N8n.Engine.StuckNodes
import N8n.Expressions.FromAIChunks
import N8n.Expressions.RebuiltExpression
import N8n.Filter.NegatedOperators
import N8n.Graph.ExtractableSubgraph
import N8n.Insights.BlockedBatch
import N8n.Insights.PreservedTotals
import N8n.MergeNode.FindMatches
import N8n.NodeParameters.DependencyOrder
import N8n.NodeParameters.FilledAgain
import N8n.NodeParameters.RuleOrder
import N8n.PartialExecution.CleanRunData
import N8n.PartialExecution.FindStartNodes
import N8n.PartialExecution.FindSubgraph
import N8n.PartialExecution.ResumedWaiting
import N8n.PartialExecution.SourceDataGroups
import N8n.PartialExecution.StronglyConnectedComponents
import N8n.PartialExecution.WorkflowExport
import N8n.PythonRunner.CachedVerdicts
import N8n.PythonRunner.CancelledTasks
import N8n.PythonRunner.PipeFraming
import N8n.PythonRunner.RunnerCapacity
import N8n.Runner.Capacity
import N8n.Runner.SettledOnce
import N8n.Sandbox.GlobalUses
import N8n.Sandbox.SanitizedTree
import N8n.Scaling.LeaderElection
import N8n.ScheduleTrigger.KeptIntervals
import N8n.SplitInBatches.VisitedItems
import N8n.Ssrf.OneVerdict
import N8n.TaskRunners.ChunkedInput
import N8n.TaskRunners.Handshakes
import N8n.TaskRunners.PendingRequests
import N8n.TaskRunners.TaskEndings
import N8n.Utils.CountedFailures
import N8n.Utils.RemovedCycles
import N8n.Utils.RequiredRecovery
import N8n.Validation.FieldTypes
import N8n.Webhooks.FindDynamicWebhook
import N8n.Workflow.ConnectedOrder
import N8n.Workflow.NodesByDepth
import N8n.Workflow.PositionalChanges
import N8n.Workflow.RenamedParameters
import N8n.Workflow.StaticData
import N8n.Workflow.SupersetValues
import N8n.Workflow.WorkflowChecksum
import N8n.WorkflowSdk.Succession
