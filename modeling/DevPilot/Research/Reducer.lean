import DevPilot.Research.Events

/-!
The state of a research run, as the reducer of the desktop UI builds it from events.
-/

namespace DevPilot

open PyJson

variable {F : Type}

inductive RunStatus
  | idle | running | awaitingInput | completed | failed | cancelled
  deriving DecidableEq

inductive HypothesisStatus
  | pending | queued | running | done | merged | failed | pruned | awaitingInput | cancelled
  deriving DecidableEq

inductive ExecutorStatus
  | queued | running | completed | failed | cancelled
  deriving DecidableEq

structure HypothesisNode (F : Type) where
  id : String
  hypothesis : String
  parentId : Option String
  depth : JsNumber F
  status : HypothesisStatus
  score : Option (JsNumber F)
  result : Option String
  insight : Option String
  executorId : Option String
  evidenceCount : JsNumber F
  changedFiles : List String
  tests : List String
  createdAt : Option String
  updatedAt : Option String

structure ExecutorState where
  id : String
  hypothesisId : Option String
  hypothesis : Option String
  task : Option String
  status : ExecutorStatus
  branch : Option String
  worktree : Option String
  changedFiles : List String
  tests : List String
  testStatus : Option String
  startedAt : Option String
  completedAt : Option String
  latestMessage : Option String
  summary : Option String
  failure : Option String

structure EvidenceRecord (F : Type) where
  id : String
  title : String
  url : Option String
  provider : Option String
  channel : Option String
  excerpt : Option String
  contentPath : Option String
  timestamp : Option String
  hypothesisId : Option String
  sessionId : String
  relevance : Option (JsNumber F)

inductive ArtifactKind
  | report | artifact | memory | audit
  deriving DecidableEq

structure ReportArtifact where
  id : String
  name : String
  path : Option String
  kind : ArtifactKind
  timestamp : Option String
  summary : Option String

inductive ApprovalStatus
  | pending | approved | denied
  deriving DecidableEq

structure ApprovalRequest where
  id : String
  operation : String
  reason : Option String
  action : Option String
  files : List String
  repository : Option String
  risk : Option String
  executorId : Option String
  hypothesisId : Option String
  status : ApprovalStatus
  requestedAt : Option String
  resolvedAt : Option String

structure CoordinatorState where
  status : RunStatus := .idle
  activity : Option String := none
  currentHypothesisId : Option String := none
  turns : Nat := 0
  lastEvent : Option String := none
  pendingQuestion : Option String := none

structure RunUsage (F : Type) where
  inputTokens : JsNumber F := .int 0
  outputTokens : JsNumber F := .int 0
  totalTokens : JsNumber F := .int 0

structure ResearchRunState (F : Type) where
  runId : Option String := none
  sessionId : String
  projectPath : Option String := none
  task : Option String := none
  mode : Option String := none
  status : RunStatus := .idle
  provider : Option String := none
  model : Option String := none
  startedAt : Option String := none
  endedAt : Option String := none
  currentCycle : JsNumber F := .int 0
  totalCycles : Option (JsNumber F) := none
  coordinator : CoordinatorState := {}
  hypotheses : List (String × HypothesisNode F) := []
  hypothesisOrder : List String := []
  executors : List (String × ExecutorState) := []
  executorOrder : List String := []
  evidence : List (EvidenceRecord F) := []
  artifacts : List ReportArtifact := []
  approvals : List ApprovalRequest := []
  changedFiles : List String := []
  branch : Option String := none
  worktree : Option String := none
  usage : RunUsage F := {}

def createInitialResearchRunState (sessionId : String) : ResearchRunState F := { sessionId }

variable (host : ResearchHost F)

namespace DevPilotEvent

def text (e : DevPilotEvent F) (keys : List String) : Option String :=
  keys.findSome? fun key => readText host (e.data.lookup key)

def numberValue (e : DevPilotEvent F) (keys : List String) : Option (JsNumber F) :=
  keys.findSome? fun key => (finite host (e.data.lookup key)).orElse fun _ =>
    (readString (e.data.lookup key)).bind host.number

def strings (e : DevPilotEvent F) (keys : List String) : List String :=
  (keys.findSome? fun key => match e.data.lookup key with
    | some (.arr items) => some ((items.filterMap Json.str?).filter fun s => !(jsTrim s).isEmpty)
    | v => (readString v).map ([·])).getD []

def hypothesisStatus (e : DevPilotEvent F) (current : HypothesisStatus) : HypothesisStatus :=
  let raw := ((e.status.orElse fun _ => e.text host ["status"]).getD "").toLower
  if e.originalType = "idea.pruned" then .pruned
  else if e.originalType = "idea.merged" then .merged
  else if e.originalType = "idea.completed" then if raw = "failed" then .failed else .done
  else match raw with
    | "pending" => .pending
    | "queued" => .queued
    | "running" => .running
    | "done" => .done
    | "merged" => .merged
    | "failed" => .failed
    | "pruned" => .pruned
    | "awaiting-input" => .awaitingInput
    | "cancelled" => .cancelled
    | _ => current

def executorStatus (e : DevPilotEvent F) : ExecutorStatus :=
  match e.type with
  | .executorStarted => .running
  | .executorFailed => .failed
  | .executorCompleted => .completed
  | _ => match (e.status.getD "").toLower with
    | "queued" => .queued
    | "completed" => .completed
    | "failed" => .failed
    | "cancelled" => .cancelled
    | _ => .running

def exitStatus (exitReason : String) : RunStatus :=
  if exitReason = "ok" ∨ exitReason = "completed" then .completed
  else if exitReason = "cancelled" ∨ exitReason = "interrupted" then .cancelled
  else .failed

def hypothesisKey (e : DevPilotEvent F) : Option String :=
  e.hypothesisId.orElse fun _ => e.text host ["id"]

def executorKey (e : DevPilotEvent F) : Option String :=
  (e.executorId.orElse fun _ => e.hypothesisId).orElse fun _ => e.text host ["id", "node_id"]

def permissionKey (e : DevPilotEvent F) (approvals : Nat) : String :=
  (e.text host ["permission_id", "id"]).getD ("permission:" ++ toString approvals)

/-- A list of the event, unless it is empty. -/
def stringsOr (e : DevPilotEvent F) (keys : List String) (otherwise : List String) : List String :=
  if (e.strings keys).isEmpty then otherwise else e.strings keys

def toHypothesis (e : DevPilotEvent F) (id : String) (current : Option (HypothesisNode F)) :
    HypothesisNode F where
  id
  hypothesis := ((e.text host ["hypothesis", "idea", "title"]).orElse fun _ =>
    current.map (·.hypothesis)).getD ("Hypothesis " ++ id)
  parentId := (e.text host ["parent_id", "parentId"]).orElse fun _ => current.bind (·.parentId)
  depth := ((e.numberValue host ["depth"]).orElse fun _ => current.map (·.depth)).getD (.int 0)
  status := e.hypothesisStatus host ((current.map (·.status)).getD .pending)
  score := (e.numberValue host ["score"]).orElse fun _ => current.bind (·.score)
  result := (e.text host ["result"]).orElse fun _ => current.bind (·.result)
  insight := (e.text host ["insight"]).orElse fun _ => current.bind (·.insight)
  executorId := (e.executorId.orElse fun _ => e.text host ["assigned_executor", "executor"]).orElse
    fun _ => current.bind (·.executorId)
  evidenceCount := ((e.numberValue host ["evidence_count", "evidenceCount"]).orElse fun _ =>
    current.map (·.evidenceCount)).getD (.int 0)
  changedFiles := e.stringsOr ["changed_files", "changedFiles"]
    ((current.map (·.changedFiles)).getD [])
  tests := e.stringsOr ["tests"] ((current.map (·.tests)).getD [])
  createdAt := (current.bind (·.createdAt)).orElse fun _ => e.timestamp
  updatedAt := e.timestamp

def toExecutor (e : DevPilotEvent F) (id : String) (current : Option ExecutorState) :
    ExecutorState where
  id
  hypothesisId := e.hypothesisId.orElse fun _ => current.bind (·.hypothesisId)
  hypothesis := (e.text host ["hypothesis", "idea"]).orElse fun _ => current.bind (·.hypothesis)
  task := (e.text host ["task"]).orElse fun _ => current.bind (·.task)
  status := e.executorStatus
  branch := (e.text host ["branch"]).orElse fun _ => current.bind (·.branch)
  worktree := (e.text host ["worktree", "worktree_path"]).orElse fun _ => current.bind (·.worktree)
  changedFiles := e.stringsOr ["changed_files", "changedFiles"]
    ((current.map (·.changedFiles)).getD [])
  tests := e.stringsOr ["tests"] ((current.map (·.tests)).getD [])
  testStatus := (e.text host ["test_status", "testStatus"]).orElse fun _ =>
    current.bind (·.testStatus)
  startedAt := (current.bind (·.startedAt)).orElse fun _ =>
    if e.type = .executorStarted then e.timestamp else none
  completedAt := if e.type = .executorCompleted ∨ e.type = .executorFailed then e.timestamp
    else current.bind (·.completedAt)
  latestMessage := (e.summary.orElse fun _ =>
    e.text host ["latest_message", "message", "detail"]).orElse fun _ =>
      current.bind (·.latestMessage)
  summary := (e.text host ["completion_summary", "summary"]).orElse fun _ =>
    current.bind (·.summary)
  failure := if e.type = .executorFailed then
      some ((e.text host ["error", "failure", "reason"]).getD "Executor failed")
    else current.bind (·.failure)

/-- `event.type.split('.')[1]` for the events of tools. -/
def toolVerb (e : DevPilotEvent F) : String :=
  match e.type with
  | .toolCalled => "called"
  | .toolCompleted => "completed"
  | _ => "failed"

def toolActivity (e : DevPilotEvent F) : String := e.toolName.getD "Tool" ++ " " ++ e.toolVerb

def toolExecutor (e : DevPilotEvent F) : Option String :=
  (e.executorId.orElse fun _ => (e.text host ["agent"]).map fun agent =>
    if "sub:".toList.isPrefixOf agent.toList then String.ofList (agent.toList.drop 4)
    else agent).filter (· ≠ "")

def artifactKind (e : DevPilotEvent F) : ArtifactKind :=
  match e.type with
  | .reportGenerated => .report
  | .memoryCreated => .memory
  | .auditCompleted => .audit
  | _ => .artifact

end DevPilotEvent

def ArtifactKind.name : ArtifactKind → String
  | .report => "report"
  | .artifact => "artifact"
  | .memory => "memory"
  | .audit => "audit"

namespace ResearchRunState

variable (state : ResearchRunState F) (e : DevPilotEvent F)

/-- `updateCoordinator` without further updates. -/
def noted : CoordinatorState := { state.coordinator with lastEvent := some e.originalType }

def base : ResearchRunState F := { state with runId := e.runId.orElse fun _ => state.runId }

def startSession : ResearchRunState F :=
  { state.base e with
    sessionId := e.sessionId.getD state.sessionId
    projectPath := (e.text host ["cwd", "project", "project_path"]).orElse fun _ => state.projectPath
    task := (e.text host ["task", "instruction"]).orElse fun _ => state.task
    mode := (e.text host ["mode"]).orElse fun _ => state.mode
    status := .running
    provider := (e.text host ["provider"]).orElse fun _ => state.provider
    model := (e.text host ["model"]).orElse fun _ => state.model
    startedAt := e.timestamp.orElse fun _ => state.startedAt
    coordinator := { state.noted e with
      status := .running
      activity := some "Starting research run" } }

def endSession : ResearchRunState F :=
  let exitReason := (e.text host ["exit_reason", "reason"]).getD "completed"
  { state.base e with
    status := DevPilotEvent.exitStatus exitReason
    endedAt := e.timestamp
    coordinator := { state.noted e with
      status := DevPilotEvent.exitStatus exitReason
      activity := some ("Run " ++ exitReason)
      pendingQuestion := none } }

def turnCycle (verb : String) : ResearchRunState F :=
  let cycle := (e.numberValue host ["cycle_num", "cycle", "number"]).getD state.currentCycle
  { state.base e with
    currentCycle := cycle
    totalCycles := (e.numberValue host ["total_cycles", "total"]).orElse fun _ => state.totalCycles
    coordinator := { state.noted e with
      status := .running
      activity := some ("Cycle " ++ host.text cycle ++ " " ++ verb) } }

def progress : ResearchRunState F :=
  { state.base e with
    coordinator := { state.noted e with
      status := .running
      activity := e.summary.orElse fun _ => e.text host ["phase", "activity", "detail"]
      currentHypothesisId := e.hypothesisId.orElse fun _ =>
        state.coordinator.currentHypothesisId } }

def updateHypothesis : ResearchRunState F :=
  match e.hypothesisKey host with
  | none | some "" => state
  | some id =>
      let current := state.hypotheses.lookup id
      let node := e.toHypothesis host id current
      { state.base e with
        hypotheses := Members.insert id node state.hypotheses
        hypothesisOrder := if current.isSome then state.hypothesisOrder
          else state.hypothesisOrder ++ [id]
        coordinator := { state.noted e with
          currentHypothesisId := some id
          status := if node.status = .awaitingInput then .awaitingInput else .running } }

def updateExecutor : ResearchRunState F :=
  match e.executorKey host with
  | none | some "" => state
  | some id =>
      let current := state.executors.lookup id
      let executor := e.toExecutor host id current
      { state.base e with
        executors := Members.insert id executor state.executors
        executorOrder := if current.isSome then state.executorOrder
          else state.executorOrder ++ [id]
        branch := executor.branch.orElse fun _ => state.branch
        worktree := executor.worktree.orElse fun _ => state.worktree
        changedFiles := (state.changedFiles ++ executor.changedFiles).eraseDups
        coordinator := { state.noted e with
          status := .running
          currentHypothesisId := executor.hypothesisId } }

def useTool : ResearchRunState F :=
  match (e.toolExecutor host).bind fun id => (state.executors.lookup id).map fun x => (id, x) with
  | none => { state.base e with
      coordinator := { state.noted e with activity := some e.toolActivity } }
  | some (id, current) => { state.base e with
      executors := Members.insert id
        { current with latestMessage := some (e.summary.getD e.toolActivity) } state.executors
      coordinator := state.noted e }

def addEvidence : ResearchRunState F :=
  let id := (e.text host ["evidence_id", "id"]).getD
    (e.timestamp.getD "evidence" ++ ":" ++ toString state.evidence.length)
  if state.evidence.any (·.id = id) then state
  else { state.base e with
    evidence := state.evidence ++ [{
      id
      title := (e.text host ["source_title", "title"]).getD "Research evidence"
      url := e.text host ["source_url", "url"]
      provider := e.text host ["source_provider", "provider"]
      channel := e.text host ["source_channel", "channel"]
      excerpt := e.text host ["excerpt", "summary"]
      contentPath := e.text host ["content_path", "path"]
      timestamp := e.timestamp
      hypothesisId := e.hypothesisId
      sessionId := e.sessionId.getD state.sessionId
      relevance := e.numberValue host ["confidence", "relevance"] }]
    coordinator := state.noted e }

def addArtifact : ResearchRunState F :=
  let kind := e.artifactKind
  let id := (e.text host ["artifact_id", "report_id", "memory_id", "audit_id", "id", "path"]).getD
    (kind.name ++ ":" ++ toString state.artifacts.length)
  if state.artifacts.any (·.id = id) then state
  else { state.base e with
    artifacts := state.artifacts ++ [{
      id
      name := (e.text host ["name", "title"]).getD (if kind = .report then "REPORT.md" else kind.name)
      path := e.text host ["path", "report_path"]
      kind
      timestamp := e.timestamp
      summary := e.summary.orElse fun _ => e.text host ["summary"] }]
    coordinator := state.noted e }

def requestPermission : ResearchRunState F :=
  let id := e.permissionKey host state.approvals.length
  if state.approvals.any (·.id = id) then state
  else { state.base e with
    approvals := state.approvals ++ [{
      id
      operation := (e.text host ["operation", "category", "tool_name"]).getD "Sensitive action"
      reason := e.text host ["reason"]
      action := e.text host ["command", "action"]
      files := e.strings ["affected_files", "files"]
      repository := e.text host ["repository"]
      risk := e.text host ["risk", "risk_level"]
      executorId := e.executorId
      hypothesisId := e.hypothesisId
      status := .pending
      requestedAt := e.timestamp
      resolvedAt := none }]
    coordinator := { state.noted e with status := .awaitingInput } }

def resolvePermission : ResearchRunState F :=
  match e.text host ["permission_id", "id"] with
  | none | some "" => state
  | some id =>
      let decision := if e.text host ["decision", "result"] = some "approved" then
        ApprovalStatus.approved else .denied
      { state.base e with
        approvals := state.approvals.map fun item =>
          if item.id = id then { item with status := decision, resolvedAt := e.timestamp } else item
        coordinator := { state.noted e with status := .running } }

def awaitUser : ResearchRunState F :=
  { state.base e with
    status := .awaitingInput
    coordinator := { state.noted e with
      status := .awaitingInput
      pendingQuestion := e.text host ["prompt", "question"] } }

def hearUser : ResearchRunState F :=
  { state.base e with
    status := .running
    coordinator := { state.noted e with
      status := .running
      pendingQuestion := none } }

def addUsage : ResearchRunState F :=
  let input := (e.numberValue host ["input_tokens"]).getD (.int 0)
  let output := (e.numberValue host ["output_tokens"]).getD (.int 0)
  { state.base e with
    usage := {
      inputTokens := host.add state.usage.inputTokens input
      outputTokens := host.add state.usage.outputTokens output
      totalTokens := host.add (host.add state.usage.totalTokens input) output }
    coordinator := { state.noted e with turns := state.coordinator.turns + 1 } }

def endRun (status : RunStatus) : ResearchRunState F :=
  { state.base e with
    status
    endedAt := e.timestamp
    coordinator := { state.noted e with
      status
      activity := e.summary } }

def changeFiles : ResearchRunState F :=
  { state.base e with
    changedFiles :=
      (state.changedFiles ++ e.strings ["path", "files", "changed_files"]).eraseDups
    coordinator := state.noted e }

end ResearchRunState

def reduceResearchRun (state : ResearchRunState F) (e : DevPilotEvent F) : ResearchRunState F :=
  match e.type with
  | .sessionStarted => state.startSession host e
  | .sessionEnded => state.endSession host e
  | .cycleStarted => state.turnCycle host e "started"
  | .cycleCompleted => state.turnCycle host e "completed"
  | .coordinatorProgress => state.progress host e
  | .hypothesisCreated | .hypothesisUpdated => state.updateHypothesis host e
  | .executorStarted | .executorProgress | .executorCompleted | .executorFailed =>
      state.updateExecutor host e
  | .toolCalled | .toolCompleted | .toolFailed => state.useTool host e
  | .evidenceCreated => state.addEvidence host e
  | .reportGenerated | .artifactCreated | .memoryCreated | .auditCompleted =>
      state.addArtifact host e
  | .permissionRequested => state.requestPermission host e
  | .permissionResolved => state.resolvePermission host e
  | .userAwait => state.awaitUser host e
  | .userInput => state.hearUser e
  | .usageUpdated => state.addUsage host e
  | .runCancelled => state.endRun e .cancelled
  | .runFailed => state.endRun e .failed
  | .fileChanged => state.changeFiles e

def reduceResearchRunEvents (sessionId : String) (events : List (DevPilotEvent F)) :
    ResearchRunState F :=
  events.foldl (reduceResearchRun host) (createInitialResearchRunState sessionId)

end DevPilot
