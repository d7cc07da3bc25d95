import McpShield.Lib.Unwinding
import McpShield.Session.State

/-!
# Locked sessions over whole runs

The lock of a session is the context of the last `lockContext` on it since it was created, whatever
happens to other sessions in between.  An access is checked against the visibility of the lock only,
so a locked session may still access every other context of that visibility.
-/

namespace McpShield

/-- The session that a call is about. -/
def SessionOp.sessionId : SessionOp → String
  | createSession _ uuid _ _ => uuid
  | getSession sessionId | lockContext sessionId _ _ | checkContextAccess sessionId _
  | logToolCall sessionId _ _ | terminateSession sessionId => sessionId

/-- The id of the session that a call creates. -/
def SessionOp.created? : SessionOp → Option String
  | createSession _ uuid _ _ => some uuid
  | _ => none

/-- The call may change the lock of a session that exists. -/
def SessionOp.Relocks (sid : String) : SessionOp → Prop
  | lockContext sessionId _ _ | terminateSession sessionId => sessionId = sid
  | _ => False

namespace InMemorySessionManager

variable {M M' : InMemorySessionManager} {sid : String} {L scope : ContextScope}

/-! ## What a call does to a session -/

theorem getSession_insert (sessionId : String) (session : Session) :
    getSession { sessions := M.sessions.insert sessionId session } sid =
      if sid = sessionId then some session else M.getSession sid := by
  unfold getSession
  split_ifs with h
  · rw [h]
    exact AList.lookup_insert _
  · exact AList.lookup_insert_ne h

theorem getSession_createSession (principal : Option String) (uuid : String)
    (created active : DateTime) :
    (M.createSession principal uuid created active).2.getSession sid =
      if sid = uuid then some (M.createSession principal uuid created active).1
      else M.getSession sid :=
  getSession_insert ..

/-- The answer of a call that needs a session. -/
def require (M : InMemorySessionManager) (sessionId : String) : Except SessionError Unit :=
  match M.getSession sessionId with
  | none => .error (.notFound sessionId)
  | some _ => .ok ()

/-- The manager with a change to a session, if there is one. -/
def update (M : InMemorySessionManager) (sessionId : String) (f : Session → Session) :
    InMemorySessionManager :=
  match M.getSession sessionId with
  | none => M
  | some session => { sessions := M.sessions.insert sessionId (f session) }

theorem lockContext_eq (sessionId : String) (now : DateTime) :
    M.lockContext sessionId L now = (M.require sessionId, M.update sessionId fun session =>
      { session with lockedContext := some L, lastActivity := now }) := by
  unfold lockContext require update getSession
  cases M.sessions.lookup sessionId <;> rfl

theorem logToolCall_eq (sessionId : String) (record : ToolCallRecord) (now : DateTime) :
    M.logToolCall sessionId record now = (M.require sessionId, M.update sessionId fun session =>
      { session with toolCalls := session.toolCalls ++ [record], lastActivity := now }) := by
  unfold logToolCall require update getSession
  cases M.sessions.lookup sessionId <;> rfl

theorem getSession_update (sessionId : String) (f : Session → Session) :
    (M.update sessionId f).getSession sid =
      if sid = sessionId then (M.getSession sid).map f else M.getSession sid := by
  unfold update
  cases hsession : M.getSession sessionId with
  | none =>
    split_ifs with h
    · rw [h, hsession, Option.map_none]
    · rfl
  | some session =>
    simp only [getSession_insert]
    split_ifs with h
    · rw [h, hsession, Option.map_some]
    · rfl

theorem getSession_lockContext (sessionId : String) (now : DateTime) :
    (M.lockContext sessionId L now).2.getSession sid =
      if sid = sessionId then (M.getSession sid).map fun session =>
        { session with lockedContext := some L, lastActivity := now }
      else M.getSession sid := by
  rw [lockContext_eq, getSession_update]

theorem getSession_logToolCall (sessionId : String) (record : ToolCallRecord) (now : DateTime) :
    (M.logToolCall sessionId record now).2.getSession sid =
      if sid = sessionId then (M.getSession sid).map fun session =>
        { session with toolCalls := session.toolCalls ++ [record], lastActivity := now }
      else M.getSession sid := by
  rw [logToolCall_eq, getSession_update]

theorem getSession_terminateSession (sessionId : String) :
    (M.terminateSession sessionId).getSession sid =
      if sid = sessionId then none else M.getSession sid := by
  unfold terminateSession getSession
  split_ifs with h
  · rw [h]
    exact AList.lookup_erase _ _
  · exact AList.lookup_erase_ne h

theorem lockContext_ok_iff {now : DateTime} :
    (M.lockContext sid L now).1 = .ok () ↔ (M.getSession sid).isSome := by
  rw [lockContext_eq, require]
  cases M.getSession sid <;> simp

theorem require_congr (h : M.getSession sid = M'.getSession sid) :
    M.require sid = M'.require sid := by
  rw [require, require, h]

theorem checkContextAccess_congr (h : M.getSession sid = M'.getSession sid) :
    M.checkContextAccess sid scope = M'.checkContextAccess sid scope := by
  rw [checkContextAccess, checkContextAccess, ← getSession, ← getSession, h]

/-! ## Sessions do not interfere -/

/-- Whoever sees one session sees the calls on it. -/
theorem unwinding (sid : String) :
    sessionMachine.Unwinding (fun M => M.getSession sid) fun op => op.sessionId == sid where
  unseen M op hop := by
    have hne : sid ≠ op.sessionId := fun h => by simp [h] at hop
    cases op with
    | createSession => exact (getSession_createSession ..).trans (if_neg hne)
    | lockContext => exact (getSession_lockContext ..).trans (if_neg hne)
    | logToolCall => exact (getSession_logToolCall ..).trans (if_neg hne)
    | terminateSession => exact (getSession_terminateSession _).trans (if_neg hne)
    | getSession | checkContextAccess => rfl
  state M M' op hop hview := by
    obtain rfl : op.sessionId = sid := eq_of_beq hop
    cases op with
    | createSession principal uuid created active =>
      show (M.createSession ..).2.getSession uuid = (M'.createSession ..).2.getSession uuid
      rw [getSession_createSession, getSession_createSession, if_pos rfl, if_pos rfl]
      rfl
    | lockContext sessionId scope now =>
      have hview : M.getSession sessionId = M'.getSession sessionId := hview
      show (M.lockContext ..).2.getSession sessionId = (M'.lockContext ..).2.getSession sessionId
      rw [getSession_lockContext, getSession_lockContext, hview]
    | logToolCall sessionId record now =>
      have hview : M.getSession sessionId = M'.getSession sessionId := hview
      show (M.logToolCall ..).2.getSession sessionId = (M'.logToolCall ..).2.getSession sessionId
      rw [getSession_logToolCall, getSession_logToolCall, hview]
    | terminateSession sessionId =>
      show (M.terminateSession _).getSession sessionId = (M'.terminateSession _).getSession sessionId
      rw [getSession_terminateSession, getSession_terminateSession, if_pos rfl, if_pos rfl]
    | getSession | checkContextAccess => exact hview
  answer M M' op hop hview := by
    obtain rfl : op.sessionId = sid := eq_of_beq hop
    cases op with
    | createSession | terminateSession => rfl
    | getSession => exact congrArg SessionOut.session hview
    | lockContext sessionId scope now =>
      show SessionOut.done (M.lockContext ..).1 = .done (M'.lockContext ..).1
      rw [lockContext_eq, lockContext_eq]
      exact congrArg SessionOut.done (require_congr hview)
    | checkContextAccess => exact congrArg SessionOut.check (checkContextAccess_congr hview)
    | logToolCall sessionId record now =>
      show SessionOut.done (M.logToolCall ..).1 = .done (M'.logToolCall ..).1
      rw [logToolCall_eq, logToolCall_eq]
      exact congrArg SessionOut.done (require_congr hview)

/-! ## The lock of a session -/

/-- The call neither changes the lock of the session nor creates it anew. -/
def KeepsLock (sid : String) (op : SessionOp) : Prop :=
  ¬ op.Relocks sid ∧ op.created? ≠ some sid

/-- After a call a session is locked to `L` if it was and the call keeps its lock, or if the call
has locked it to `L`. -/
theorem lockOf_step_iff {op : SessionOp} :
    (sessionMachine.step M op).2.lockOf sid = some L ↔
      (M.lockOf sid = some L ∧ KeepsLock sid op) ∨
        ∃ now, op = .lockContext sid L now ∧ (M.getSession sid).isSome := by
  cases op with
  | createSession principal uuid created active =>
    show (M.createSession ..).2.lockOf sid = some L ↔ _
    rw [lockOf, getSession_createSession]
    by_cases h : sid = uuid
    · simp [h, createSession, KeepsLock, SessionOp.created?]
    · simp [h, Ne.symm h, lockOf, KeepsLock, SessionOp.created?, SessionOp.Relocks]
  | lockContext sessionId scope now =>
    show (M.lockContext ..).2.lockOf sid = some L ↔ _
    rw [lockOf, getSession_lockContext]
    by_cases h : sid = sessionId
    · subst h
      cases hsession : M.getSession sid <;>
        simp [hsession, lockOf, KeepsLock, SessionOp.Relocks, eq_comm]
    · simp [h, Ne.symm h, lockOf, KeepsLock, SessionOp.created?, SessionOp.Relocks]
  | logToolCall sessionId record now =>
    show (M.logToolCall ..).2.lockOf sid = some L ↔ _
    rw [lockOf, getSession_logToolCall]
    by_cases h : sid = sessionId
    · subst h
      cases hsession : M.getSession sid <;>
        simp [hsession, lockOf, KeepsLock, SessionOp.created?, SessionOp.Relocks]
    · simp [h, lockOf, KeepsLock, SessionOp.created?, SessionOp.Relocks]
  | terminateSession sessionId =>
    show (M.terminateSession sessionId).lockOf sid = some L ↔ _
    rw [lockOf, getSession_terminateSession]
    by_cases h : sid = sessionId
    · simp [h, KeepsLock, SessionOp.Relocks]
    · simp [h, Ne.symm h, lockOf, KeepsLock, SessionOp.created?, SessionOp.Relocks]
  | getSession | checkContextAccess =>
    simp [sessionMachine, KeepsLock, SessionOp.created?, SessionOp.Relocks]

/-- The lock of a session is the last one, if nothing has changed it since. -/
theorem lockOf_run_iff {ops : List SessionOp} :
    (sessionMachine.run .new ops).lockOf sid = some L ↔
      ∃ pre now mid, ops = pre ++ .lockContext sid L now :: mid ∧
        ((sessionMachine.run .new pre).getSession sid).isSome ∧ ∀ op ∈ mid, KeepsLock sid op := by
  constructor
  · intro h
    induction ops using List.reverseRecOn with
    | nil => cases h
    | append_singleton ops op ih =>
      rw [Machine.run_append, Machine.run_cons, Machine.run_nil, lockOf_step_iff] at h
      rcases h with ⟨hlock, hkeeps⟩ | ⟨now, rfl, hknown⟩
      · obtain ⟨pre, now, mid, rfl, hknown, hmid⟩ := ih hlock
        refine ⟨pre, now, mid ++ [op], by simp, hknown, fun op' hop' => ?_⟩
        rcases List.mem_append.mp hop' with hop' | hop'
        · exact hmid op' hop'
        · exact List.mem_singleton.mp hop' ▸ hkeeps
      · exact ⟨ops, now, [], rfl, hknown, by simp⟩
  · rintro ⟨pre, now, mid, rfl, hknown, hmid⟩
    rw [Machine.run_append, Machine.run_cons]
    have hlocked : (sessionMachine.step (sessionMachine.run .new pre)
        (.lockContext sid L now)).2.lockOf sid = some L :=
      lockOf_step_iff.mpr (.inr ⟨now, rfl, hknown⟩)
    exact sessionMachine.run_induction (I := fun M => M.lockOf sid = some L) (P := KeepsLock sid)
      (fun M op hop hM => lockOf_step_iff.mpr (.inl ⟨hM, hop⟩)) hlocked hmid

/-- Only a session that has been created is known. -/
theorem created_of_known {ops : List SessionOp}
    (h : ((sessionMachine.run .new ops).getSession sid).isSome) :
    sid ∈ ops.filterMap SessionOp.created? := by
  by_contra hnot
  have hops : ∀ op ∈ ops, op.created? ≠ some sid :=
    fun op hop hcreated => hnot (List.mem_filterMap.mpr ⟨op, hop, hcreated⟩)
  have hnone : (sessionMachine.run .new ops).getSession sid = none := by
    refine sessionMachine.run_induction (I := fun M => M.getSession sid = none)
      (P := fun op => op.created? ≠ some sid) (fun M op hop hM => ?_) rfl hops
    cases op with
    | createSession principal uuid created active =>
      have hne : sid ≠ uuid := fun h => hop (congrArg some h.symm)
      exact (getSession_createSession ..).trans ((if_neg hne).trans hM)
    | lockContext => exact (getSession_lockContext ..).trans (by simp [hM])
    | logToolCall => exact (getSession_logToolCall ..).trans (by simp [hM])
    | terminateSession => exact (getSession_terminateSession _).trans (by simp [hM])
    | getSession | checkContextAccess => exact hM
  simp [hnone] at h

/-! ## What a locked session may access -/

/-- An access is allowed exactly when the session is known and not locked to a context of another
visibility. -/
theorem checkContextAccess_allow_iff :
    M.checkContextAccess sid scope = .ok .allow ↔
      (M.getSession sid).isSome ∧ ∀ L, M.lockOf sid = some L → L.visibility = scope.visibility := by
  unfold checkContextAccess lockOf getSession
  cases M.sessions.lookup sid with
  | none => simp
  | some session =>
    cases hl : session.lockedContext with
    | none => simp [hl]
    | some locked =>
      by_cases hv : locked.visibility = scope.visibility
      · simp [hl, hv]
      · have hne : locked ≠ scope := fun h => hv (h ▸ rfl)
        simp [hl, hv, hne]

theorem checkContextAccess_allow_iff_of_lock (h : M.lockOf sid = some L) :
    M.checkContextAccess sid scope = .ok .allow ↔ L.visibility = scope.visibility := by
  have hknown : (M.getSession sid).isSome := by
    cases hsession : M.getSession sid with
    | none => simp [lockOf, hsession] at h
    | some session => rfl
  simp [checkContextAccess_allow_iff, hknown, h]

/-- The answer to an access check after some calls on a new manager. -/
def accessAfter (ops : List SessionOp) (sid : String) (scope : ContextScope) :
    Except SessionError AccessCheckResult :=
  (sessionMachine.run .new ops).checkContextAccess sid scope

/-- Locking the session after some calls succeeds. -/
def LockSucceeds (ops : List SessionOp) (sid : String) (L : ContextScope) (now : DateTime) : Prop :=
  ((sessionMachine.run .new ops).lockContext sid L now).1 = .ok ()

/-- The calls have locked the session to `L`, and then neither locked it again nor terminated it. -/
def LockedSince (ops : List SessionOp) (sid : String) (L : ContextScope) : Prop :=
  ∃ pre now mid, ops = pre ++ .lockContext sid L now :: mid ∧ LockSucceeds pre sid L now ∧
    ∀ op ∈ mid, ¬ op.Relocks sid

/-- No call has locked the session. -/
def NeverLocked (ops : List SessionOp) (sid : String) : Prop :=
  ∀ pre L now post, ops = pre ++ .lockContext sid L now :: post → ¬ LockSucceeds pre sid L now

/-- Locks confine a session to one context: for the access to `scope` after the calls `ops`. -/
structure LockConfines (ops : List SessionOp) (sid : String) (scope : ContextScope) : Prop where
  locked : ∀ L, LockedSince ops sid L → (accessAfter ops sid scope = .ok .allow ↔ scope = L)
  others : ∀ ops', Inserted (fun op => op.sessionId ≠ sid) ops ops' →
    accessAfter ops' sid scope = accessAfter ops sid scope
  unlocked : ((sessionMachine.run .new ops).getSession sid).isSome → NeverLocked ops sid →
    accessAfter ops sid scope = .ok .allow

variable {ops : List SessionOp}

/-- If no id is given to two sessions, a lock lasts until the session is locked again or
terminated. -/
theorem LockedSince.lockOf (hfresh : (ops.filterMap SessionOp.created?).Nodup)
    (h : LockedSince ops sid L) : (sessionMachine.run .new ops).lockOf sid = some L := by
  obtain ⟨pre, now, mid, rfl, hlock, hmid⟩ := h
  have hknown := lockContext_ok_iff.mp hlock
  refine lockOf_run_iff.mpr ⟨pre, now, mid, rfl, hknown, fun op hop => ⟨hmid op hop, ?_⟩⟩
  intro hcreated
  rw [List.filterMap_append, List.nodup_append] at hfresh
  refine hfresh.2.2 sid (created_of_known hknown) sid ?_ rfl
  exact List.mem_filterMap.mpr ⟨op, List.mem_cons_of_mem _ hop, hcreated⟩

theorem NeverLocked.lockOf (h : NeverLocked ops sid) :
    (sessionMachine.run .new ops).lockOf sid = none := by
  rw [Option.eq_none_iff_forall_ne_some]
  intro L hL
  obtain ⟨pre, now, mid, hsplit, hknown, -⟩ := lockOf_run_iff.mp hL
  exact h pre L now mid hsplit (lockContext_ok_iff.mpr hknown)

/-- Calls on other sessions do not change the answer. -/
theorem accessAfter_inserted {ops' : List SessionOp}
    (h : Inserted (fun op => op.sessionId ≠ sid) ops ops') :
    accessAfter ops' sid scope = accessAfter ops sid scope :=
  checkContextAccess_congr ((unwinding sid).view_inserted h (fun op hop => by simpa using hop) .new)

/-- Locks confine a session exactly when the access is to the locked context itself or to one of
another visibility. -/
theorem lockConfines_iff (hfresh : (ops.filterMap SessionOp.created?).Nodup) :
    LockConfines ops sid scope ↔
      ∀ L, LockedSince ops sid L → scope = L ∨ scope.visibility ≠ L.visibility := by
  constructor
  · intro h L hL
    by_cases hvis : scope.visibility = L.visibility
    · have hallow : accessAfter ops sid scope = .ok .allow :=
        (checkContextAccess_allow_iff_of_lock (hL.lockOf hfresh)).mpr hvis.symm
      exact .inl ((h.locked L hL).mp hallow)
    · exact .inr hvis
  · intro h
    refine { locked := fun L hL => ?_, others := fun _ => accessAfter_inserted,
             unlocked := fun hknown hnever => ?_ }
    · have hallow : accessAfter ops sid scope = .ok .allow ↔ L.visibility = scope.visibility :=
        checkContextAccess_allow_iff_of_lock (hL.lockOf hfresh)
      refine hallow.trans ⟨fun hvis => ?_, fun heq => heq ▸ rfl⟩
      exact (h L hL).resolve_right fun hne => hne hvis.symm
    · refine checkContextAccess_allow_iff.mpr ⟨hknown, fun L hL => ?_⟩
      rw [hnever.lockOf] at hL
      cases hL

/-! ### Two private repositories -/

/-- A private repository. -/
def privateRepo (name : String) : ContextScope :=
  { contextType := "github_repo", identifier := name, visibility := .private }

/-- A session is created and locked to a private repository. -/
def lockedRun : List SessionOp :=
  [.createSession none "s" 0 0, .lockContext "s" (privateRepo "owner/first") 0]

theorem lockedSince_lockedRun : LockedSince lockedRun "s" (privateRepo "owner/first") :=
  ⟨[.createSession none "s" 0 0], 0, [], rfl, rfl, by simp⟩

theorem lockConfines_iff_lockedRun : LockConfines lockedRun "s" (privateRepo "owner/first") ↔
    ∀ L, LockedSince lockedRun "s" L →
      privateRepo "owner/first" = L ∨ (privateRepo "owner/first").visibility ≠ L.visibility :=
  lockConfines_iff (by decide)

/-- Another private repository may be accessed. -/
theorem not_lockConfines_lockedRun : ¬ LockConfines lockedRun "s" (privateRepo "owner/second") := by
  intro h
  have heq := (h.locked _ lockedSince_lockedRun).mp rfl
  exact absurd heq (by decide)

end InMemorySessionManager

end McpShield
