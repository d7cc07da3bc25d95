import McpShield.Lib.Effect
import McpShield.Lib.TwoRuns
import McpShield.Lib.Machine
import McpShield.Lib.Bucket
import McpShield.Lib.Memo
import McpShield.Lib.Str
import McpShield.Lib.Regex
import McpShield.Lib.RegexSyntax
import McpShield.Lib.RegexSearch
import McpShield.Lib.KeyedStore
import McpShield.Lib.Unwinding
import McpShield.Lib.Literal
import McpShield.Lib.Path
import McpShield.Protocol.Json
import McpShield.Error
import McpShield.Protocol.Jsonrpc
import McpShield.Protocol.Parse
import McpShield.Protocol.Grammar
import McpShield.Protocol.Message
import McpShield.Auth.Jwt
import McpShield.Auth.Scope
import McpShield.Gateway.Registry
import McpShield.Gateway.RegistryLists
import McpShield.Protocol.Schema
import McpShield.Policy.Cedar
import McpShield.Policy.Entities
import McpShield.Session.State
import McpShield.Session.Lock
import McpShield.Guardrail.Basic
import McpShield.Guardrail.Engine
import McpShield.Guardrail.Ecpa
import McpShield.Guardrail.Confinement
import McpShield.Guardrail.FieldChecks
import McpShield.Guardrail.Egress
import McpShield.Telemetry.Producer
import McpShield.Telemetry.RateLimiter
import McpShield.Telemetry.KeyIndependence
import McpShield.Telemetry.RuleChanges
import McpShield.Gateway.Proxy
import McpShield.Gateway.UpstreamReply
import McpShield.Gateway.ProxyErrors
import McpShield.Gateway.Router
import McpShield.Gateway.Stages
import McpShield.Gateway.Refusal
import McpShield.Gateway.Mediation
import McpShield.Gateway.Audit
import McpShield.Gateway.PolicyOrder
import McpShield.Gateway.ToolCalls
import McpShield.Gateway.DefaultDeny
import McpShield.Gateway.SessionLock
import McpShield.Gateway.Sanitization
import McpShield.ControlPlane.Db
import McpShield.ControlPlane.Versions
import McpShield.Transport.Stdio
import McpShield.Transport.StreamableHttp
import McpShield.Transport.Sse
import McpShield.Transport.Replies
import McpShield.Transport.Batch
import McpShield.Transport.Sessions
import McpShield.Transport.Agreement
import McpShield.Config
import McpShield.Main
import McpShield.Gateway.Wiring
import McpShield.EnabledControls
import McpShield.Guardrail.Registration
import McpShield.Gateway.ContentFrame
import McpShield.Telemetry.Instants
import McpShield.Telemetry.Exactness
import McpShield.Gateway.Blocking
import McpShield.Guardrail.Builder
import McpShield.Guardrail.Interpretation
import McpShield.Lib.RegexParse
import McpShield.Guardrail.TextChecks
import McpShield.Guardrail.RootConfinement
import McpShield.Guardrail.Allowlists
import McpShield.Lib.Redaction
import McpShield.Lib.Rewriting
import McpShield.Lib.RegexLanguage
import McpShield.Guardrail.FixedPoint
import McpShield.Lib.Ranking
import McpShield.Telemetry.RuleSelection
import McpShield.Gateway.AuditDecisions
import McpShield.Telemetry.Divisors
import McpShield.Gateway.AdvertisedNames
import McpShield.Protocol.SchemaKey
import McpShield.Transport.Handshake
import McpShield.Transport.StdioLoop
import McpShield.Gateway.ServerOrder
import McpShield.Transport.Reconnect
import McpShield.ControlPlane.Postgres
import McpShield.Gateway.EchoServers
import McpShield.Gateway.ToolNames
import McpShield.Protocol.Params
import McpShield.Gateway.Interleaving
import McpShield.Policy.Authorizer
import McpShield.Lib.Concurrent
import McpShield.Policy.DefaultPolicy
import McpShield.Gateway.ShippedPolicy
import McpShield.Transport.Streams
import McpShield.Lib.Printing
import McpShield.Protocol.JsonText
import McpShield.Transport.StdioFrames
import McpShield.Gateway.ProxySlots
import McpShield.Telemetry.Fanout
import McpShield.AssembledCalls
import McpShield.Gateway.ScopeGrowth
import McpShield.Telemetry.ConcurrentLimiter
import McpShield.Gateway.ListedTools
import McpShield.Guardrail.Loader
