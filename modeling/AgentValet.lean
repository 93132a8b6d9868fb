import AgentValet.Broker.ArgumentGraph
import AgentValet.Broker.AuditLog
import AgentValet.Broker.CliApproval
import AgentValet.Broker.FilePolicy
import AgentValet.Broker.HostedApproval
import AgentValet.Broker.PolicyComments
import AgentValet.Broker.RemotePolicy
import AgentValet.Broker.Strictness
import AgentValet.Broker.Trace
import AgentValet.Broker.TwoRuns
import AgentValet.Broker.Wrap
import AgentValet.Approvals.EventStreams
import AgentValet.Approvals.McpParity
import AgentValet.Cli.EnvLocal
import AgentValet.Cli.Registered
import AgentValet.Mcp.Dispatch
import AgentValet.Mcp.GateCalls
import AgentValet.Mcp.HostTimeout
import AgentValet.Mcp.Observe
import AgentValet.Sdk.HeldAction
import AgentValet.Sdk.ApprovalParity
import AgentValet.Sdk.Parity
import AgentValet.Sdk.SameIdentity
import AgentValet.Sdk.TypedErrors
import AgentValet.Identity.CodexBlock
import AgentValet.Identity.ConfigWrites
import AgentValet.Identity.KeepsKey
import AgentValet.Identity.OtherAgents
import AgentValet.Identity.Paired
import AgentValet.Identity.Priority
import AgentValet.Identity.Saving
import AgentValet.Paperclip.Preflight
import AgentValet.Permissions.Exact
import AgentValet.Scripts.NoSecrets
import AgentValet.Vscode.OneWriter
