import DevPilot.Desktop.Store

/-!
The research events of the desktop UI: how the events of the runtime become them.
-/

namespace DevPilot

open PyJson

variable {F : Type}

/-- What the research view asks of the numbers of its host: `String(x)`,
`Number.isFinite(x)`, `Number(s)` where it is finite, and their sum. -/
structure ResearchHost (F : Type) where
  text : JsNumber F → String
  isFinite : F → Bool
  number : String → Option (JsNumber F)
  add : JsNumber F → JsNumber F → JsNumber F

inductive DevPilotEventType
  | sessionStarted | sessionEnded | cycleStarted | cycleCompleted | coordinatorProgress
  | hypothesisCreated | hypothesisUpdated
  | executorStarted | executorProgress | executorCompleted | executorFailed
  | toolCalled | toolCompleted | toolFailed
  | evidenceCreated | reportGenerated | permissionRequested | permissionResolved
  | runCancelled | runFailed | userAwait | userInput | usageUpdated
  | artifactCreated | memoryCreated | auditCompleted | fileChanged
  deriving DecidableEq

structure DevPilotEvent (F : Type) where
  type : DevPilotEventType
  originalType : String
  timestamp : Option String
  runId : Option String
  sessionId : Option String
  cycleId : Option String
  hypothesisId : Option String
  executorId : Option String
  toolName : Option String
  status : Option String
  summary : Option String
  data : Members F

namespace DevPilotEventType

def aliases : List (String × DevPilotEventType) :=
  [("SESSION_START", .sessionStarted), ("session.start", .sessionStarted),
    ("SESSION_END", .sessionEnded), ("session.end", .sessionEnded),
    ("cycle.start", .cycleStarted), ("cycle.started", .cycleStarted),
    ("cycle.end", .cycleCompleted), ("cycle.completed", .cycleCompleted),
    ("cycle.phase", .coordinatorProgress),
    ("hypothesis.created", .hypothesisCreated), ("idea.proposed", .hypothesisCreated),
    ("hypothesis.updated", .hypothesisUpdated), ("idea.completed", .hypothesisUpdated),
    ("idea.pruned", .hypothesisUpdated), ("idea.merged", .hypothesisUpdated),
    ("tree.updated", .hypothesisUpdated),
    ("executor.start", .executorStarted), ("executor.started", .executorStarted),
    ("executor.progress", .executorProgress),
    ("executor.end", .executorCompleted), ("executor.completed", .executorCompleted),
    ("executor.failed", .executorFailed),
    ("tool.start", .toolCalled), ("tool.called", .toolCalled),
    ("tool.end", .toolCompleted), ("tool.completed", .toolCompleted), ("tool.failed", .toolFailed),
    ("evidence.created", .evidenceCreated), ("report.generated", .reportGenerated),
    ("permission.requested", .permissionRequested), ("permission.resolved", .permissionResolved),
    ("run.cancelled", .runCancelled), ("run.failed", .runFailed),
    ("user.await", .userAwait), ("AWAIT_USER", .userAwait),
    ("user.input_received", .userInput), ("USER_INPUT_RECEIVED", .userInput),
    ("llm.call", .usageUpdated), ("session.checkpoint", .artifactCreated),
    ("memory.created", .memoryCreated), ("audit.completed", .auditCompleted),
    ("file.changed", .fileChanged)]

def names : List (String × DevPilotEventType) :=
  [("session.started", .sessionStarted), ("session.ended", .sessionEnded),
    ("cycle.started", .cycleStarted), ("cycle.completed", .cycleCompleted),
    ("coordinator.progress", .coordinatorProgress),
    ("hypothesis.created", .hypothesisCreated), ("hypothesis.updated", .hypothesisUpdated),
    ("executor.started", .executorStarted), ("executor.progress", .executorProgress),
    ("executor.completed", .executorCompleted), ("executor.failed", .executorFailed),
    ("tool.called", .toolCalled), ("tool.completed", .toolCompleted), ("tool.failed", .toolFailed),
    ("evidence.created", .evidenceCreated), ("report.generated", .reportGenerated),
    ("permission.requested", .permissionRequested), ("permission.resolved", .permissionResolved),
    ("run.cancelled", .runCancelled), ("run.failed", .runFailed),
    ("user.await", .userAwait), ("user.input", .userInput), ("usage.updated", .usageUpdated),
    ("artifact.created", .artifactCreated), ("memory.created", .memoryCreated),
    ("audit.completed", .auditCompleted), ("file.changed", .fileChanged)]

def ofName (originalType : String) : Option DevPilotEventType :=
  (aliases.lookup originalType).orElse fun _ => names.lookup originalType

end DevPilotEventType

def record (v : Option (Json F)) : Option (Members F) :=
  match v with
  | some (.obj ms) => some ms
  | _ => none

variable (host : ResearchHost F)

def finite (v : Option (Json F)) : Option (JsNumber F) :=
  match v with
  | some (.int n) => some (.int n)
  | some (.float x) => if host.isFinite x then some (.float x) else none
  | _ => none

def readText (v : Option (Json F)) : Option String :=
  (readString v).orElse fun _ => (finite host v).map host.text

def stringValue (values : List (Option (Json F))) : Option String := values.findSome? (readText host)

def normalizeDevPilotEvent (input : Json F) : Option (DevPilotEvent F) := do
  let source ← record (some input)
  let nested := (record (source.lookup "devpilot")).getD source
  let data := ((record (nested.lookup "data")).orElse fun _ => record (source.lookup "data")).getD []
  let originalType ← stringValue host [nested.lookup "type", source.lookup "type"]
  let type ← DevPilotEventType.ofName originalType
  let ids (keys : List String) (dataKeys : List String) : Option String :=
    stringValue host (keys.map (nested.lookup ·) ++ dataKeys.map (data.lookup ·))
  return {
    type
    originalType
    timestamp := stringValue host [nested.lookup "timestamp", nested.lookup "ts",
      source.lookup "timestamp", source.lookup "ts"]
    runId := ids ["run_id", "runId"] ["run_id", "runId"]
    sessionId := ids ["session_id", "sessionId"] ["session_id", "sessionId"]
    cycleId := ids ["cycle_id", "cycleId"] ["cycle_id", "cycleId", "cycle_num"]
    hypothesisId := ids ["hypothesis_id", "hypothesisId"]
      ["hypothesis_id", "hypothesisId", "node_id"]
    executorId := ids ["executor_id", "executorId"] ["executor_id", "executorId"]
    toolName := ids ["tool_name", "toolName"] ["tool_name", "toolName", "name"]
    status := ids ["status"] ["status"]
    summary := ids ["summary"] ["summary", "message"]
    data }

def normalizeDevPilotEvents (inputs : List (Json F)) : List (DevPilotEvent F) :=
  inputs.filterMap (normalizeDevPilotEvent host)

def literalResearch : ResearchHost FloatText where
  text
    | .int n => toString n
    | .float x => String.ofList (floatText x)
  isFinite
    | .literal _ => true
    | _ => false
  number s := s.toInt?.map .int
  add
    | .int m, .int n => .int (m + n)
    | x, _ => x

end DevPilot
