import DevPilot.Transcript.ReducerState

/-!
Phase 0 of the reducer: the permission requests of the agent state.
-/

namespace DevPilot.Transcript

open PyJson Tables

variable {F : Type}

def Nullish.text? (n : Nullish String) : Option String := n.join.bind nonEmpty?

def Value.isTruthy : Value F → Bool
  | none | some .null | some (.bool false) | some (.int 0) | some (.str "") => false
  | _ => true

section Requests

variable [DecidableEq F]

/-- `merged[key] = existing[key]` where only the existing arguments have it. -/
def preserveField (key : String) (existing merged : Members F) : Members F :=
  match field merged key, field existing key with
  | none, some v => Members.insert key v merged
  | _, _ => merged

def mergePermissionRequestArgumentsPreservingExecpolicy (existing incoming : Value F) : Value F :=
  match asRecord existing, asRecord incoming with
  | some existing, some incoming =>
      some (.obj (preserveField "proposedExecpolicyAmendment" existing
        (preserveField "proposed_execpolicy_amendment" existing incoming)))
  | _, _ => incoming

def requestedInput (input arguments : Value F) : Value F :=
  if equalArguments input arguments then input
  else
    let merged := mergePermissionRequestArgumentsPreservingExecpolicy input arguments
    if equalArguments input merged then input else merged

def hasRequestInterruptedPlaceholderText (tool : ToolCall F) : Bool :=
  tool.reason = some requestInterruptedReason || resultError tool.result = some requestInterruptedReason

def shouldRestorePendingPermissionFromAgentState (requestCreatedAt : Option Int) (tool : ToolCall F) :
    Bool :=
  match tool.permission with
  | none => false
  | some permission =>
      if permission.status = .pending then false
      else if permission.status = .canceled ∧ hasRequestInterruptedPlaceholderText tool then true
      else if permission.decision ≠ some .abort ∨ !hasRequestInterruptedPlaceholderText tool then false
      else
        match requestCreatedAt, tool.completedAt with
        | some requestCreatedAt, some completedAt => completedAt < requestCreatedAt
        | _, _ => false

def ToolCall.restorePending (tool : ToolCall F) : ToolCall F :=
  { tool with
    state := .running
    completedAt := none
    result := none
    permission := tool.permission.map fun p =>
      { p with
        status := .pending
        reason := none
        decision := none
        mode := none
        allowedTools := none
        date := none } }

def PermissionRequest.permission (permId : String) (request : PermissionRequest F) : ToolPermission F where
  id := permId
  status := .pending
  kind := request.kind
  reason := none
  mode := none
  allowedTools := none
  decision := none
  date := none
  suggestions := request.permissionSuggestions

def ToolCall.request (permId : String) (request : PermissionRequest F) (tool : ToolCall F) : ToolCall F :=
  let tool :=
    { tool with
      id := permId
      input := requestedInput tool.input request.arguments
      permission := some (tool.permission.getD (request.permission permId)) }
  let tool :=
    if shouldRestorePendingPermissionFromAgentState request.createdAt tool then tool.restorePending else tool
  { tool with
    permission := tool.permission.map fun p =>
      { p with
        kind := request.kind.or p.kind
        suggestions := request.permissionSuggestions.or p.suggestions } }

def PermissionRequest.placeholder (permId : String) (now : Int) (request : PermissionRequest F) : ToolCall F where
  id := permId
  name := request.tool
  state := .running
  input := request.arguments
  createdAt := timeOr request.createdAt now
  startedAt := none
  completedAt := none
  description := none
  result := none
  permission := some (request.permission permId)

def PermissionRequest.stored (now : Int) (request : PermissionRequest F) : StoredPermission F where
  tool := request.tool
  arguments := request.arguments
  createdAt := timeOr request.createdAt now
  completedAt := none
  status := .pending
  reason := none
  mode := none
  allowedTools := none
  suggestions := request.permissionSuggestions
  decision := none

end Requests

def permissionMessage (createdAt : Int) (tool : ToolCall F) : ReducerMessage F where
  realID := none
  seq := none
  transcriptBlockIndex := none
  localId := none
  createdAt := createdAt
  role := .agent
  text := none
  isThinking := false
  event := none
  tool := some tool
  metadata := none

/-- The tools that `addRules` updates allow. -/
def allowedByRule (rule : Json F) : Option String := do
  let ms ← asRecord (some rule)
  let toolName ← (field ms "toolName").string?.bind nonEmpty?
  match (field ms "ruleContent").string?.bind nonEmpty? with
  | some ruleContent => some (toolName ++ "(" ++ ruleContent ++ ")")
  | none => some toolName

def allowedByUpdate (update : Json F) : List String :=
  match asRecord (some update) with
  | none => []
  | some ms =>
      if (field ms "type").string? = some "addRules" ∧ (field ms "behavior").string? = some "allow" then
        ((field ms "rules").array?.getD []).filterMap allowedByRule
      else []

namespace CompletedRequest

def allowed (completed : CompletedRequest F) : Option (List String) :=
  completed.allowedTools.or
    (let derived := ((completed.updatedPermissions.array?.getD []).flatMap allowedByUpdate).foldl
        (fun tools tool => if tool ∈ tools then tools else tools ++ [tool]) []
      if derived = [] then none else some derived)

def permission (permId : String) (completed : CompletedRequest F) : ToolPermission F where
  id := permId
  status := completed.status
  kind := completed.kind
  reason := completed.reason.text?
  mode := completed.mode.text?
  allowedTools := completed.allowed
  decision := completed.decision.join
  date := none
  suggestions := none

/-- The permission of a message takes over what the request says. -/
def update (completed : CompletedRequest F) (p : ToolPermission F) : ToolPermission F :=
  { p with
    status := completed.status
    kind := completed.kind.or p.kind
    mode := completed.mode.text?
    allowedTools := completed.allowed
    decision := completed.decision.join
    reason := completed.reason.text?.or p.reason }

def stored (now : Int) (completed : CompletedRequest F) : StoredPermission F where
  tool := completed.tool
  arguments := completed.arguments
  createdAt := timeOr completed.createdAt now
  completedAt := if isTime completed.completedAt then completed.completedAt else none
  status := completed.status
  reason := completed.reason.text?
  mode := completed.mode.text?
  allowedTools := completed.allowed
  suggestions := none
  decision := completed.decision.join

def result (completed : CompletedRequest F) : Value F :=
  if completed.status = .approved then approvedPlaceholder else completed.reason.text?.bind errorResult

def placeholder (permId : String) (now : Int) (completed : CompletedRequest F) : ToolCall F where
  id := permId
  name := completed.tool
  state := if completed.status = .approved then .completed else .error
  input := completed.arguments
  createdAt := timeOr completed.createdAt now
  startedAt := none
  completedAt := some (timeOr completed.completedAt now)
  description := none
  result := completed.result
  permission := some { completed.permission permId with kind := none }

end CompletedRequest

/-- `equalOptionalStringArrays`: no array is as good as an empty one. -/
def equalOptionalStringArrays (a b : Option (List String)) : Bool := a.getD [] = b.getD []

/-- Whether the permission of a tool says anything else than the request. -/
def needsUpdate (completed : CompletedRequest F) (p : Option (ToolPermission F)) : Bool :=
  p.map ToolPermission.status ≠ some completed.status ||
    completed.kind.isSome && p.bind ToolPermission.kind ≠ completed.kind ||
    (p.bind ToolPermission.reason).map some ≠ completed.reason ||
    (p.bind ToolPermission.mode).map some ≠ completed.mode ||
    !equalOptionalStringArrays (p.bind ToolPermission.allowedTools) completed.allowed ||
    (p.bind ToolPermission.decision).map some ≠ completed.decision

/-- Whether a completed request changes the tool that it is about. -/
def ToolCall.takesCompleted (completed : CompletedRequest F) (tool : ToolCall F) : Bool :=
  !(isTime tool.startedAt && tool.status = some .approved) &&
    !isTime (tool.permission.bind ToolPermission.date) && needsUpdate completed tool.permission

def ToolCall.settle (now : Int) (completed : CompletedRequest F) (tool : ToolCall F) : ToolCall F :=
  if completed.status = .approved then
    -- a terminal state is kept, and a tool that has started goes on
    if tool.state = .running ∧ !isTime tool.startedAt then
      { tool with
        state := .completed
        completedAt := some (timeOr completed.completedAt now)
        result := if tool.result.isTruthy then tool.result else approvedPlaceholder }
    else tool
  else if tool.state = .error ∨ tool.state = .completed then tool
  else
    { tool with
      state := .error
      completedAt := some (timeOr completed.completedAt now)
      result :=
        if tool.result.isTruthy then tool.result
        else
          match completed.reason.text? with
          | some reason => errorResult reason
          | none => tool.result }

def ToolCall.complete (permId : String) (now : Int) (completed : CompletedRequest F) (tool : ToolCall F) :
    ToolCall F :=
  let permission :=
    match tool.permission with
    | none => completed.permission permId
    | some p => completed.update p
  ToolCall.settle now completed { tool with permission := some permission }

/-- Whether a pending request is newer than the completed one of its id. -/
def pendingWins (request : PermissionRequest F) (completed : CompletedRequest F) : Bool :=
  (completed.completedAt.or completed.createdAt).getD 0 < request.createdAt.getD 0

variable (host : ReducerHost) (now : Int)

namespace ReducerState

def addPermissionMessage (permId : String) (tool : ToolCall F) (s : ReducerState F) : ReducerState F :=
  let mid := s.newId
  drainAndApplyOrphanToolResultsToMessage host permId mid
    { s.addMessage (permissionMessage tool.createdAt tool) with
      thinkingMergeCursor := none
      toolIdToMessageId := s.toolIdToMessageId.set permId mid }

def storePermission (permId : String) (permission : StoredPermission F) (s : ReducerState F) :
    ReducerState F :=
  { s with permissions := s.permissions.set permId permission }

variable [DecidableEq F]

def processRequest (s : ReducerState F) (entry : String × PermissionRequest F) : ReducerState F :=
  let (permId, request) := entry
  storePermission permId (request.stored now)
    (match s.toolIdToMessageId.get permId with
      | some mid => s.modifyTool mid (ToolCall.request permId request)
      | none => s.addPermissionMessage host permId (request.placeholder permId now))

omit [DecidableEq F] in
def processCompleted (requests : List (String × PermissionRequest F)) (incomingToolIds : List String)
    (s : ReducerState F) (entry : String × CompletedRequest F) : ReducerState F :=
  let (permId, completed) := entry
  match s.toolIdToMessageId.get permId with
  | some mid =>
      match s.tool? mid with
      | none => s
      | some tool =>
          if tool.takesCompleted completed then
            storePermission permId (completed.stored now)
              (s.modifyTool mid (ToolCall.complete permId now completed))
          else s
  | none =>
      if permId ∈ incomingToolIds then
        s.storePermission permId
          { completed.stored now with mode := none, allowedTools := none, decision := none }
      else if (requests.lookup permId).isSome then s
      else
        addPermissionMessage host permId (completed.placeholder permId now)
          (s.storePermission permId (completed.stored now))

def runAgentStatePermissionsPhase (agentState : Option (AgentState F)) (incomingToolIds : List String)
    (s : ReducerState F) : ReducerState F :=
  match agentState with
  | none => s
  | some agentState =>
      let pending := agentState.requests.filter fun entry =>
        (agentState.completedRequests.lookup entry.1).all (pendingWins entry.2)
      let completed := agentState.completedRequests.filter fun entry =>
        !(agentState.requests.lookup entry.1).any (pendingWins · entry.2)
      let s := pending.foldl (processRequest host now) s
      completed.foldl (processCompleted host now agentState.requests incomingToolIds) s

end ReducerState

end DevPilot.Transcript
