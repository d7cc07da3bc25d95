import Mathlib.Data.List.AList

/-!
# Configuration

What `main` reads of the configuration to assemble the gateway, with the defaults.
-/

namespace McpShield

/-- Server info returned during initialization. -/
structure ServerInfo where
  name : String := "mcp-shield"
  version : String := "0.1.0"

/-- The transports and the server info. -/
structure ServerConfig where
  enableStdio : Bool := false
  enableHttp : Bool := true
  enableSse : Bool := true
  serverInfo : ServerInfo := {}

/-- Whether authentication is required. -/
structure AuthConfig where
  enabled : Bool := false

/-- Configuration for a single upstream server. -/
structure UpstreamConfig where
  transport : String := "streamable_http"
  url : Option String := none
  echoServer : Bool := false

/-- The named upstream servers.  The order of the entries is the iteration order of the map. -/
structure ProxyConfig where
  upstreams : AList fun _ : String => UpstreamConfig := ∅

/-- Tool registry configuration. -/
structure RegistryConfig where
  allowedPrefixes : List String := []
  enforcePrefixFormat : Bool := true

/-- Policy configuration. -/
structure PolicyConfig where
  enabled : Bool := false
  policyFile : String := "policies/default.cedar"

/-- Guardrails configuration. -/
structure GuardrailsConfig where
  ecpaEnabled : Bool := false
  egressEnabled : Bool := false
  sessionLocking : Bool := false

/-- Top-level configuration. -/
structure Config where
  server : ServerConfig := {}
  auth : AuthConfig := {}
  proxy : ProxyConfig := {}
  registry : RegistryConfig := {}
  policy : PolicyConfig := {}
  guardrails : GuardrailsConfig := {}

end McpShield
