import Mathlib.Data.List.AList
import McpShield.Lib.Machine
import McpShield.Protocol.Json
import McpShield.Protocol.Message

/-!
# Sessions

A session may be locked to a context.  The in-memory manager keeps the sessions by id; an access to
a context is denied when the session is locked to a context that differs from it, also in its
visibility.
-/

namespace McpShield

/-- The visibility of a resource. -/
inductive Visibility where
  | «public»
  | «private»
  | internal
deriving DecidableEq, Repr

def Visibility.asStr : Visibility → String
  | «public» => "public"
  | «private» => "private"
  | internal => "internal"

/-- A context that a session can be locked to. -/
structure ContextScope where
  contextType : String
  identifier : String
  visibility : Visibility
deriving DecidableEq, Repr

/-- An access to a context. -/
structure ContextAccess where
  scope : ContextScope
  timestamp : DateTime
  method : String

/-- A record of a tool call. -/
structure ToolCallRecord where
  toolName : String
  arguments : Value
  timestamp : DateTime

/-- A session. -/
structure Session where
  sessionId : String
  principal : Option String
  lockedContext : Option ContextScope
  accessedContexts : List ContextAccess
  toolCalls : List ToolCallRecord
  createdAt : DateTime
  lastActivity : DateTime

/-- The answer to an access check. -/
inductive AccessCheckResult where
  | allow
  | deny (reason : String) (lockedTo : ContextScope)
deriving DecidableEq, Repr

/-- The errors of a session manager. -/
inductive SessionError where
  | notFound (sessionId : String)
  | locked (msg : String)
  | storeError (msg : String)
deriving DecidableEq, Repr

/-- The in-memory session manager. -/
structure InMemorySessionManager where
  sessions : AList fun _ : String => Session

namespace InMemorySessionManager

/-! ## Operations -/

def new : InMemorySessionManager := { sessions := ∅ }

/-- Create a session under a fresh id; `created` and `active` are the two readings of the clock. -/
def createSession (M : InMemorySessionManager) (principal : Option String) (uuid : String)
    (created active : DateTime) : Session × InMemorySessionManager :=
  let session : Session :=
    { sessionId := uuid, principal, lockedContext := none, accessedContexts := [], toolCalls := [],
      createdAt := created, lastActivity := active }
  (session, { sessions := M.sessions.insert uuid session })

/-- The session under an id. -/
def getSession (M : InMemorySessionManager) (sessionId : String) : Option Session :=
  M.sessions.lookup sessionId

/-- Lock a session to a context. -/
def lockContext (M : InMemorySessionManager) (sessionId : String) (scope : ContextScope)
    (now : DateTime) : Except SessionError Unit × InMemorySessionManager :=
  match M.sessions.lookup sessionId with
  | none => (.error (.notFound sessionId), M)
  | some session =>
      let locked := { session with lockedContext := some scope, lastActivity := now }
      (.ok (), { sessions := M.sessions.insert sessionId locked })

/-- Whether the session may access a context. -/
def checkContextAccess (M : InMemorySessionManager) (sessionId : String) (scope : ContextScope) :
    Except SessionError AccessCheckResult :=
  match M.sessions.lookup sessionId with
  | none => .error (.notFound sessionId)
  | some session =>
      match session.lockedContext with
      | none => .ok .allow
      | some locked =>
          if locked ≠ scope ∧ locked.visibility ≠ scope.visibility then
            let lockedAs := locked.visibility.asStr
            let askedAs := scope.visibility.asStr
            .ok (.deny
              s!"Session is locked to {lockedAs} context '{locked.identifier}'. Access to {askedAs} context '{scope.identifier}' is denied to prevent prompt injection."
              locked)
          else .ok .allow

/-- Record a tool call. -/
def logToolCall (M : InMemorySessionManager) (sessionId : String) (record : ToolCallRecord)
    (now : DateTime) : Except SessionError Unit × InMemorySessionManager :=
  match M.sessions.lookup sessionId with
  | none => (.error (.notFound sessionId), M)
  | some session =>
      let logged := { session with toolCalls := session.toolCalls ++ [record], lastActivity := now }
      (.ok (), { sessions := M.sessions.insert sessionId logged })

/-- Remove a session. -/
def terminateSession (M : InMemorySessionManager) (sessionId : String) :
    InMemorySessionManager := { sessions := M.sessions.erase sessionId }

end InMemorySessionManager

/-- The calls on a session manager. -/
inductive SessionOp where
  | createSession (principal : Option String) (uuid : String) (created active : DateTime)
  | getSession (sessionId : String)
  | lockContext (sessionId : String) (scope : ContextScope) (now : DateTime)
  | checkContextAccess (sessionId : String) (scope : ContextScope)
  | logToolCall (sessionId : String) (record : ToolCallRecord) (now : DateTime)
  | terminateSession (sessionId : String)

/-- The answers of a session manager. -/
inductive SessionOut where
  | session (session : Option Session)
  | check (result : Except SessionError AccessCheckResult)
  | done (result : Except SessionError Unit)

/-- The session manager as a machine. -/
def sessionMachine : Machine InMemorySessionManager SessionOp SessionOut where
  step M
    | .createSession principal uuid created active =>
        let (session, M') := M.createSession principal uuid created active
        (.session (some session), M')
    | .getSession sessionId => (.session (M.getSession sessionId), M)
    | .lockContext sessionId scope now =>
        let (result, M') := M.lockContext sessionId scope now
        (.done result, M')
    | .checkContextAccess sessionId scope => (.check (M.checkContextAccess sessionId scope), M)
    | .logToolCall sessionId record now =>
        let (result, M') := M.logToolCall sessionId record now
        (.done result, M')
    | .terminateSession sessionId => (.done (.ok ()), M.terminateSession sessionId)

namespace InMemorySessionManager

/-! ## When an access is denied -/

/-- The lock of a session. -/
def lockOf (M : InMemorySessionManager) (sessionId : String) : Option ContextScope :=
  (M.getSession sessionId).bind Session.lockedContext

/-- An access is denied exactly when the session is locked to a context of another visibility. -/
theorem checkContextAccess_deny_iff {M : InMemorySessionManager} {sessionId : String}
    {scope : ContextScope} :
    (∃ reason lockedTo, M.checkContextAccess sessionId scope = .ok (.deny reason lockedTo)) ↔
      ∃ locked, M.lockOf sessionId = some locked ∧ locked.visibility ≠ scope.visibility := by
  unfold checkContextAccess lockOf getSession
  cases M.sessions.lookup sessionId with
  | none => simp
  | some session =>
    cases hl : session.lockedContext with
    | none => simp [hl]
    | some locked =>
      by_cases hv : locked.visibility = scope.visibility
      · simp [hl, hv]
      · have hne : locked ≠ scope := fun h => hv (h ▸ rfl)
        simp [hl, hv, hne]

end InMemorySessionManager

end McpShield
