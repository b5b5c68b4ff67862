import DevPilot.CatchUp.Planner

/-!
Applying the plan of a page: the tasks, what they leave, and how far the cursor
may go.
-/

namespace DevPilot.CatchUp

structure TodoSocketUpdate where
  key : String
  value : Option String
  version : ℕ
deriving DecidableEq, Repr

/-- What the callbacks of one call answer. A missing optional callback is `none`;
otherwise `true` is a promise that resolves and `false` one that rejects. -/
structure Host where
  /-- `isSessionMessagesLoaded` when the tasks are put together. -/
  loadedBefore : String → Bool
  /-- `isSessionMessagesLoaded` when the tasks are done. -/
  loadedAfter : String → Bool
  getSessionMaterializedMaxSeq : Option (String → ℕ) := none
  invalidate : RefreshDomain → Option Bool := fun _ => none
  /-- `invalidate.todos` when it is called a second time. -/
  invalidateTodosAgain : Bool := true
  refreshSessionFolderAssignments : Option Bool := none
  invalidateMessagesForSession : String → Bool := fun _ => true
  convergePendingForSession : Option (String → Bool) := none
  kvBulkGet : Option (List TodoSocketUpdate) := none
  applyTodoSocketUpdates : Bool := true

/-- `params.invalidate.domain?.() ?? Promise.resolve()` resolves. -/
def Host.refreshes (host : Host) (domain : RefreshDomain) : Bool := host.invalidate domain ≠ some false

inductive Task
  | refresh (domain : RefreshDomain)
  | sessions
  | folderAssignments
  | messages (sessionId : String)
  | pending (sessionId : String)
  | kv (keys : List String)
deriving DecidableEq, Repr

structure TaskLog where
  sessionsInvalidationFailed : Bool := false
  sessionFolderAssignmentsRefreshFailed : Bool := false
  completedMessageCatchUpSessionIds : List String := []
  failedMessageCatchUpSessionIds : List String := []
  completedPendingSessionIds : List String := []
  failedPendingSessionIds : List String := []
deriving DecidableEq, Repr

/-- The task for the keys of a page, which falls back to the refresh of all todos. -/
def kvResolves (host : Host) (keys : List String) : Bool :=
  let todoKeys := keys.filter (·.startsWith "todo.")
  if todoKeys = [] then true
  else match host.kvBulkGet with
    | none => host.refreshes .todos
    | some values =>
      if values.length ≠ todoKeys.length then
        -- the refresh stands inside the `try`, so where it rejects it is made again
        host.refreshes .todos || host.invalidateTodosAgain
      else host.applyTodoSocketUpdates || host.refreshes .todos

/-- One task, to its end; `none` where its promise rejects. -/
def runTask (host : Host) (log : TaskLog) : Task → Option TaskLog
  | .refresh domain => if host.refreshes domain then some log else none
  | .sessions =>
    if host.refreshes .sessions then some log else some { log with sessionsInvalidationFailed := true }
  | .folderAssignments =>
    if host.refreshSessionFolderAssignments = some true then some log
    else some { log with sessionFolderAssignmentsRefreshFailed := true }
  | .messages sessionId =>
    if !log.sessionsInvalidationFailed && host.invalidateMessagesForSession sessionId then
      some { log with completedMessageCatchUpSessionIds := log.completedMessageCatchUpSessionIds ++ [sessionId] }
    else some { log with failedMessageCatchUpSessionIds := log.failedMessageCatchUpSessionIds ++ [sessionId] }
  | .pending sessionId =>
    if host.convergePendingForSession.any (· sessionId) then
      some { log with completedPendingSessionIds := log.completedPendingSessionIds ++ [sessionId] }
    else some { log with failedPendingSessionIds := log.failedPendingSessionIds ++ [sessionId] }
  | .kv keys => if kvResolves host keys then some log else none

/-- `runTasksWithLimit`. A task writes its own flag or its own session, and reads only
the flag of the session list, which it waits for and which stands before it: the
limit changes nothing in the log. -/
def runTasks (host : Host) (tasks : List Task) (log : TaskLog) : Option TaskLog :=
  tasks.foldlM (runTask host) log

def pendingSessionIds (host : Host) (changes : List ChangeEntry) : List String :=
  ((changes.map (classifyChangeForCheckpoint · host.loadedBefore)).filter
    (·.materializationProof = some .pendingQueueConvergence)).map (·.entityId) |>.dedup

def domainTasks (planned : PlannedChangeActions) : List Task :=
  [.settings, .profile, .machines, .artifacts, .friends, .feed, .automations, .pets].flatMap fun domain =>
    if planned.invalidate domain then
      if domain = .friends then [.refresh .friends, .refresh .friendRequests] else [.refresh domain]
    else []

def kvTasks : PlannedKvAction → List Task
  | .none => []
  | .refreshFeature => [.refresh .todos]
  | .bulkKeys keys => [.kv keys]

def invalidationTasks (planned : PlannedChangeActions) : List Task :=
  domainTasks planned ++
  (if planned.invalidate .sessions then [.sessions] else []) ++
  (if planned.sessionFolderAssignments ≠ .none then [.folderAssignments] else [])

def catchUpTasks (host : Host) (planned : PlannedChangeActions) : List Task :=
  (planned.sessionIdsToCatchUp.filter host.loadedBefore).map .messages ++
  (pendingSessionIds host planned.changes).map .pending ++
  kvTasks planned.kv

def plannedTasks (host : Host) (planned : PlannedChangeActions) : List Task :=
  invalidationTasks planned ++ catchUpTasks host planned

inductive PlannedChangesApplyResult
  | complete (safeAdvanceCursor : Option ℕ) (processedChanges : ℕ)
  | partially (safeAdvanceCursor : Option ℕ) (blockedCursor : ℕ)
      (blockedReason : ChangeCheckpointBlockedReason) (processedChanges blockedChanges : ℕ)
deriving DecidableEq, Repr

namespace PlannedChangesApplyResult

def safeAdvanceCursor : PlannedChangesApplyResult → Option ℕ
  | complete cursor _ => cursor
  | partially cursor _ _ _ _ => cursor

def processedChanges : PlannedChangesApplyResult → ℕ
  | complete _ processed => processed
  | partially _ _ _ processed _ => processed

end PlannedChangesApplyResult

/-- What stops the cursor in front of a change, if anything does. -/
def blockedBy (host : Host) (log : TaskLog) (change : ChangeEntry) : Option ChangeCheckpointBlockedReason :=
  let classification := classifyChangeForCheckpoint change host.loadedAfter
  let ofSession := change.kind = "session" ∨ change.kind = "share"
  if classification.decision = .unsupported then some (classification.blockedReason.getD .unsupportedKind)
  else if classification.decision = .intentionallySkippedByExplicitPolicy then none
  else if log.sessionsInvalidationFailed ∧ ofSession then some .partialMaterialization
  else if classification.materializationProof = some .pendingQueueConvergence then
    if change.entityId ∉ log.completedPendingSessionIds ∨ change.entityId ∈ log.failedPendingSessionIds then
      some .pendingNotConverged
    else none
  else if classification.materializationProof = some (.domain .sessionFolderAssignments) then
    if log.sessionFolderAssignmentsRefreshFailed then some .partialMaterialization else none
  else if ofSession ∧ host.loadedAfter change.entityId ∧
      (change.entityId ∉ log.completedMessageCatchUpSessionIds ∨
        change.entityId ∈ log.failedMessageCatchUpSessionIds) then
    some .partialMaterialization
  else if ofSession ∧ host.loadedAfter change.entityId then
    match getChangeTargetMessageSeq change with
    | none => none
    | some targetSeq =>
      match host.getSessionMaterializedMaxSeq with
      | none => some .partialMaterialization
      | some materialized =>
        if materialized change.entityId < targetSeq then some .partialMaterialization else none
  else none

def advance (host : Host) (log : TaskLog) (total : ℕ) :
    List ChangeEntry → Option ℕ → ℕ → PlannedChangesApplyResult
  | [], safeAdvanceCursor, processed => .complete safeAdvanceCursor processed
  | change :: rest, safeAdvanceCursor, processed =>
    match blockedBy host log change with
    | some reason => .partially safeAdvanceCursor change.cursor reason processed (total - processed)
    | none => advance host log total rest (some change.cursor) (processed + 1)

/-- `none` where the promise rejects, and no cursor is reported. -/
def applyPlannedChangeActions (host : Host) (planned : PlannedChangeActions) :
    Option PlannedChangesApplyResult :=
  (runTasks host (plannedTasks host planned) {}).map fun log =>
    advance host log planned.changes.length planned.changes none 0

end DevPilot.CatchUp
