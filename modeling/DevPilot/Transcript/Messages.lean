import DevPilot.Lib.PathText
import DevPilot.Lib.Tables

/-!
What the transcript reducer is given and what it keeps: normalised messages,
the agent state, and the messages of the transcript with their tools.
-/

namespace DevPilot.Transcript

open PyJson Tables

variable {F : Type}

/-- A JavaScript value; `none` is `undefined`. -/
abbrev Value (F : Type) := Option (Json F)

abbrev MessageMeta (F : Type) := Members F

def trimText (t : String) : String := String.ofList (PathText.trim t.toList)

def nonBlank? (t : String) : Option String := if trimText t = "" then none else some (trimText t)

def nonEmpty? (t : String) : Option String := if t = "" then none else some t

def asRecord : Value F → Option (Members F)
  | some (.obj ms) => some ms
  | _ => none

def field (ms : Members F) (key : String) : Value F := ms.lookup key

def Value.string? : Value F → Option String
  | some (.str t) => some t
  | _ => none

def Value.array? : Value F → Option (List (Json F))
  | some (.arr vs) => some vs
  | _ => none

def Value.isTrue : Value F → Bool
  | some (.bool b) => b
  | _ => false

def readStringField (value : Value F) (key : String) : Option String :=
  (asRecord value).bind fun ms => (field ms key).string?.bind nonBlank?

def spread (base next : Members F) : Members F :=
  next.foldl (fun ms p => Members.insert p.1 p.2 ms) base

/-- `time || fallback`, where no time and the time 0 count as none. -/
def timeOr (time : Option Int) (fallback : Int) : Int :=
  match time with
  | some t => if t = 0 then fallback else t
  | none => fallback

def isTime (time : Option Int) : Bool := time.any (· ≠ 0)

section DeepEqual

variable [DecidableEq F]

def indexed (vs : List (Json F)) : Members F := vs.zipIdx.map fun p => (toString p.2, p.1)

mutual

/-- `deepEqual` of two values that are there. -/
def deepEqual : Json F → Json F → Bool
  | .null, .null => true
  | .bool a, .bool b => a = b
  | .int a, .int b => a = b
  | .float a, .float b => a = b
  | .str a, .str b => a = b
  | .arr as, .arr bs => deepEqualItems as bs
  | .obj as, .obj bs => as.length = bs.length && deepEqualMembers as bs
  | .obj as, .arr bs => as.length = bs.length && deepEqualMembers as (indexed bs)
  | _, _ => false

def deepEqualItems : List (Json F) → List (Json F) → Bool
  | [], [] => true
  | a :: as, b :: bs => deepEqual a b && deepEqualItems as bs
  | _, _ => false

def deepEqualMembers : Members F → Members F → Bool
  | [], _ => true
  | (k, a) :: as, bs =>
      (match bs.lookup k with
        | some b => deepEqual a b
        | none => false) && deepEqualMembers as bs

end

/-- `compareToolCalls` of two tool calls with one name. -/
def equalArguments (a b : Value F) : Bool :=
  match a, b with
  | none, none => true
  | some a, some b => deepEqual a b
  | _, _ => false

end DeepEqual

inductive PermissionStatus
  | pending
  | approved
  | denied
  | canceled
deriving DecidableEq, Repr

inductive Decision
  | approved
  | approvedForSession
  | approvedExecpolicyAmendment
  | denied
  | abort
deriving DecidableEq, Repr

structure ToolPermission (F : Type) where
  id : String
  status : PermissionStatus
  kind : Option String
  reason : Option String
  mode : Option String
  allowedTools : Option (List String)
  decision : Option Decision
  date : Option Int
  suggestions : Value F

inductive ToolState
  | running
  | completed
  | error
  | unavailable
deriving DecidableEq, Repr

structure ToolCall (F : Type) where
  id : String
  name : String
  state : ToolState
  input : Value F
  createdAt : Int
  startedAt : Option Int
  completedAt : Option Int
  description : Option String
  result : Value F
  permission : Option (ToolPermission F)

/-- `ToolResultPermissionsUpdate`; `approved` is `result === 'approved'`. -/
structure ToolResultPermissionsUpdate where
  date : Int
  approved : Bool
  mode : Option String
  allowedTools : Option (List String)
  decision : Option Decision
deriving DecidableEq, Repr

structure ToolResultUpdate (F : Type) where
  toolUseId : String
  content : Value F
  isError : Bool
  permissions : Option ToolResultPermissionsUpdate

inductive ContentBody (F : Type)
  | text (text : String)
  | thinking (thinking : String)
  | toolCall (id name : String) (input : Value F) (description : Option String)
  | toolResult (update : ToolResultUpdate F)
  | summary (summary : String)
  | sidechain (prompt : String)

structure AgentContent (F : Type) where
  body : ContentBody F
  uuid : Option String
  parentUUID : Option String

inductive AgentEvent (F : Type)
  | ready
  | taskLifecycle (event : String)
  | limitReached (endsAt : Nat)
  | other (type : String) (fields : Members F)

inductive MessageBody (F : Type)
  | user (text : String)
  | agent (content : List (AgentContent F))
  | event (content : AgentEvent F)

structure NormalizedMessage (F : Type) where
  body : MessageBody F
  id : String
  seq : Option Int
  localId : Option String
  createdAt : Int
  isSidechain : Bool
  sidechainId : Option String
  metadata : Option (MessageMeta F)

def NormalizedMessage.content (msg : NormalizedMessage F) : List (AgentContent F) :=
  match msg.body with
  | .agent content => content
  | _ => []

/-- A message of the agent with one content, on the main timeline. -/
def NormalizedMessage.ofAgent (id : String) (createdAt : Int) (body : ContentBody F) : NormalizedMessage F :=
  ⟨.agent [⟨body, some id, none⟩], id, some createdAt, none, createdAt, false, none, none⟩

def isGenericSubAgentToolName (toolName : String) : Bool := toolName ∈ ["SubAgent", "Task", "Agent"]

def isSubAgentTranscriptToolName (toolName : String) : Bool :=
  toolName = "SubAgentRun" || isGenericSubAgentToolName toolName

def metaField (metadata : Option (MessageMeta F)) (key : String) : Value F :=
  metadata.bind fun ms => field ms key

inductive StreamSegmentKind
  | assistant
  | thinking
deriving DecidableEq, Repr

structure StreamSegmentMetaV1 where
  segmentKind : StreamSegmentKind
  segmentLocalId : Option String
  updatedAtMs : Option Int
deriving DecidableEq, Repr

def segmentKind? : Value F → Option StreamSegmentKind
  | some (.str "assistant") => some .assistant
  | some (.str "thinking") => some .thinking
  | _ => none

def milliseconds? : Value F → Option Int
  | some (.int n) => some n
  | _ => none

def readStreamSegmentMetaV1 (metadata : Option (MessageMeta F)) : Option StreamSegmentMetaV1 := do
  let segment ← asRecord (metaField metadata "happierStreamSegmentV1")
  if milliseconds? (field segment "v") ≠ some 1 then none
  let segmentKind ← segmentKind? (field segment "segmentKind")
  some {
    segmentKind
    segmentLocalId := (field segment "segmentLocalId").string?.bind nonEmpty?
    updatedAtMs := milliseconds? (field segment "updatedAtMs") }

def hasSyntheticNoResponseMeta (metadata : Option (MessageMeta F)) : Bool :=
  (metaField metadata "happierSyntheticNoResponseV1").isTrue

structure PermissionRequest (F : Type) where
  tool : String
  kind : Option String
  arguments : Value F
  createdAt : Option Int
  permissionSuggestions : Value F

/-- A `nullish` field: `none` is `undefined` and `some none` is `null`. -/
abbrev Nullish (α : Type) := Option (Option α)

structure CompletedRequest (F : Type) where
  tool : String
  kind : Option String
  arguments : Value F
  createdAt : Option Int
  completedAt : Option Int
  status : PermissionStatus
  reason : Nullish String
  mode : Nullish String
  allowedTools : Option (List String)
  decision : Nullish Decision
  updatedPermissions : Value F

/-- The requests, as `Object.entries` lists them. -/
structure AgentState (F : Type) where
  requests : List (String × PermissionRequest F)
  completedRequests : List (String × CompletedRequest F)

structure StoredPermission (F : Type) where
  tool : String
  arguments : Value F
  createdAt : Int
  completedAt : Option Int
  status : PermissionStatus
  reason : Option String
  mode : Option String
  allowedTools : Option (List String)
  suggestions : Value F
  decision : Option Decision

inductive Role
  | user
  | agent
deriving DecidableEq, Repr

/-- The id of a message is its position among the messages of the state. -/
abbrev MessageId := Nat

structure ReducerMessage (F : Type) where
  realID : Option String
  seq : Option Int
  transcriptBlockIndex : Option Nat
  localId : Option String
  createdAt : Int
  role : Role
  text : Option String
  isThinking : Bool
  event : Option (AgentEvent F)
  tool : Option (ToolCall F)
  metadata : Option (MessageMeta F)

def ReducerMessage.isAgentText (m : ReducerMessage F) (isThinking : Bool) : Bool :=
  m.role = .agent && m.isThinking = isThinking && m.text.isSome

/-- The greater of two transcript positions, where a later one has one. -/
def laterSeq (prev next : Option Int) : Option Int :=
  match prev, next with
  | prev, none => prev
  | none, some next => some next
  | some prev, some next => some (if prev < next then next else prev)

end DevPilot.Transcript

/-!
What a tool result does to the message of its tool.
-/

namespace DevPilot.Transcript

open PyJson

variable {F : Type}

structure StreamChunk where
  stdoutChunk : Option String
  stderrChunk : Option String
deriving DecidableEq, Repr

def coerceStreamingToolResultChunk (value : Value F) : Option StreamChunk :=
  (asRecord value).bind fun obj =>
    let stdoutChunk := (field obj "stdoutChunk").string?
    let stderrChunk := (field obj "stderrChunk").string?
    if (stdoutChunk.bind nonEmpty?).isNone && (stderrChunk.bind nonEmpty?).isNone then none
    else some ⟨stdoutChunk, stderrChunk⟩

def appendField (key : String) (chunk : Option String) (base : Members F) : Members F :=
  match chunk with
  | some t => Members.insert key (.str ((field base key).string?.getD "" ++ t)) base
  | none => base

def mergeStreamingChunkIntoResult (existing : Value F) (chunk : StreamChunk) : Value F :=
  let base := (asRecord existing).getD []
  some (.obj (appendField "stderr" chunk.stderrChunk (appendField "stdout" chunk.stdoutChunk base)))

def keepField (key : String) (prev out : Members F) : Members F :=
  match (field out key).string?, (field prev key).string? with
  | none, some t => Members.insert key (.str t) out
  | _, _ => out

def mergeExistingStdStreamsIntoFinalResultIfMissing (existing next : Value F) : Value F :=
  match asRecord existing, asRecord next with
  | some prev, some out => some (.obj (keepField "stderr" prev (keepField "stdout" prev out)))
  | _, _ => next

def approvedResult : String := "Approved"

def requestInterruptedReason : String := "Request interrupted"

def approvedPlaceholder : Value F := some (.str approvedResult)

def errorResult (reason : String) : Value F := some (.obj [("error", .str reason)])

/-- `result.error`, where it is a text -/
def resultError (result : Value F) : Option String :=
  (asRecord result).bind fun ms => (field ms "error").string?

namespace ToolCall

def status (tool : ToolCall F) : Option PermissionStatus := tool.permission.map ToolPermission.status

def reason (tool : ToolCall F) : Option String := tool.permission.bind ToolPermission.reason

def isApprovedPlaceholder (tool : ToolCall F) : Bool :=
  tool.state = .completed && tool.result.string? = some approvedResult && tool.status = some .approved

def isLegacyRequestInterrupted (tool : ToolCall F) : Bool :=
  tool.state = .error && (resultError tool.result = some requestInterruptedReason ||
    tool.reason = some requestInterruptedReason)

end ToolCall

/-- `delete permission.decision` where it is an abort -/
def ToolPermission.withoutAbort (p : ToolPermission F) : ToolPermission F :=
  if p.decision = some .abort then { p with decision := none } else p

def clearSyntheticInterruptionPermission (p : ToolPermission F) : ToolPermission F :=
  if p.reason = some requestInterruptedReason then
    { p with status := .approved, reason := none }.withoutAbort
  else p

def ToolCall.takesResult (tool : ToolCall F) : Bool :=
  tool.state = .running || tool.isApprovedPlaceholder || tool.state = .unavailable ||
    tool.isLegacyRequestInterrupted

def ToolCall.reopened (tool : ToolCall F) : ToolCall F :=
  if tool.state = .running then tool
  else
    { tool with
      state := .running
      completedAt := none
      result := if tool.isApprovedPlaceholder || tool.isLegacyRequestInterrupted then none else tool.result
      permission :=
        if tool.isLegacyRequestInterrupted then tool.permission.map clearSyntheticInterruptionPermission
        else tool.permission }

def ToolResultUpdate.permission (u : ToolResultUpdate F) (existing : Option (ToolPermission F)) :
    Option (ToolPermission F) :=
  match u.permissions, existing with
  | none, existing => existing
  | some p, some existing =>
      some { existing with
        id := u.toolUseId
        status := if p.approved then .approved else .denied
        date := some p.date
        mode := p.mode
        allowedTools := p.allowedTools
        decision := p.decision.or existing.decision }
  | some p, none =>
      some {
        id := u.toolUseId
        status := if p.approved then .approved else .denied
        kind := none
        reason := none
        mode := p.mode
        allowedTools := p.allowedTools
        decision := p.decision
        date := some p.date
        suggestions := none }

def ToolCall.finish (u : ToolResultUpdate F) (resultCreatedAt : Int) (tool : ToolCall F) : ToolCall F :=
  { tool with
    state := if u.isError then .error else .completed
    result := mergeExistingStdStreamsIntoFinalResultIfMissing tool.result u.content
    completedAt := some resultCreatedAt
    permission := u.permission tool.permission }

def ToolCall.applyResult (u : ToolResultUpdate F) (resultCreatedAt : Int) (tool : ToolCall F) :
    ToolCall F :=
  if tool.takesResult then
    match coerceStreamingToolResultChunk u.content with
    | some chunk =>
        { tool.reopened with result := mergeStreamingChunkIntoResult tool.reopened.result chunk }
    | none => tool.reopened.finish u resultCreatedAt
  else tool

def ReducerMessage.addMeta (metadata : Option (MessageMeta F)) (m : ReducerMessage F) : ReducerMessage F :=
  match metadata with
  | some ms => { m with metadata := some (spread (m.metadata.getD []) ms) }
  | none => m

def applyToolResultUpdateToReducerMessage (u : ToolResultUpdate F) (resultCreatedAt : Int)
    (metadata : Option (MessageMeta F)) (m : ReducerMessage F) : ReducerMessage F :=
  match m.tool with
  | none => m
  | some tool => { m.addMeta metadata with tool := some (tool.applyResult u resultCreatedAt) }

end DevPilot.Transcript
