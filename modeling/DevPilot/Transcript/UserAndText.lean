import DevPilot.Transcript.Permissions

/-!
Phase 1 of the reducer: user messages, the texts and the thinking of the agent,
and the messages of new tool calls in their place among them.
-/

namespace DevPilot.Transcript

open PyJson Tables

variable {F : Type}

def extractPermissionRequestId (input : Value F) : Option String :=
  let read (ms : Members F) : Option String :=
    (readStringField (some (.obj ms)) "permissionId").or (readStringField (some (.obj ms)) "toolCallId")
  (asRecord input).bind fun obj => (read obj).or ((asRecord (field obj "toolCall")).bind read)

def isPermissionRequestToolCall (toolId : String) (input : Value F) : Bool :=
  extractPermissionRequestId input = some toolId &&
    (asRecord input).any fun obj =>
      let toolCall := asRecord (field obj "toolCall")
      let status := (toolCall.bind fun ms => readStringField (some (.obj ms)) "status").or
        (readStringField (some (.obj obj)) "status")
      status = some "pending" || toolCall.isSome

def agentMessage (msg : NormalizedMessage F) (transcriptBlockIndex : Option Nat) : ReducerMessage F where
  realID := some msg.id
  seq := msg.seq
  transcriptBlockIndex := transcriptBlockIndex
  localId := msg.localId
  createdAt := msg.createdAt
  role := .agent
  text := none
  isThinking := false
  event := none
  tool := none
  metadata := msg.metadata

def textMessage (msg : NormalizedMessage F) (transcriptBlockIndex : Option Nat) (isThinking : Bool)
    (text : String) : ReducerMessage F :=
  { agentMessage msg transcriptBlockIndex with text := some text, isThinking }

def userMessage (msg : NormalizedMessage F) (text : String) : ReducerMessage F :=
  { agentMessage msg none with role := .user, text := some text }

def eventMessage (msg : NormalizedMessage F) (event : AgentEvent F) : ReducerMessage F :=
  { agentMessage msg none with event := some event }

def segmentSnapshot (msg : NormalizedMessage F) (localId : String) (transcriptBlockIndex : Option Nat)
    (isThinking : Bool) (text : String) : SegmentSnapshot F where
  localId := localId
  realID := msg.id
  createdAt := msg.createdAt
  seq := msg.seq
  transcriptBlockIndex := transcriptBlockIndex
  isThinking := isThinking
  text := text
  metadata := msg.metadata

/-- `streamSegmentLocalId`, where the message is a segment of this kind. -/
def streamSegment? (msg : NormalizedMessage F) (kind : StreamSegmentKind) : Option String :=
  match readStreamSegmentMetaV1 msg.metadata with
  | some segment =>
      if segment.segmentKind = kind then (segment.segmentLocalId.or msg.localId).bind nonEmpty? else none
  | none => none

def ReducerMessage.mergeChunk (merge : String → String) (seq : Option Int) (m : ReducerMessage F) :
    ReducerMessage F :=
  { m with text := m.text.map merge, seq := laterSeq m.seq seq }

/-- `{ error: permission.reason }` where the permission has a reason -/
def StoredPermission.result (p : StoredPermission F) : Value F :=
  (p.reason.bind nonEmpty?).bind errorResult

def StoredPermission.permission (permId : String) (p : StoredPermission F) : ToolPermission F where
  id := permId
  status := p.status
  kind := none
  reason := p.reason
  mode := p.mode
  allowedTools := p.allowedTools
  decision := p.decision
  date := none
  suggestions := none

def pendingPermission (permId : String) : ToolPermission F where
  id := permId
  status := .pending
  kind := none
  reason := none
  mode := none
  allowedTools := none
  decision := none
  date := none
  suggestions := none

/-- A tool call of the agent, with what a stored permission says of it. -/
def newToolCall (msg : NormalizedMessage F) (id name : String) (input : Value F)
    (description : Option String) (permission : Option (StoredPermission F)) : ToolCall F :=
  let running : ToolCall F := {
    id, name, description
    state := .running
    input := input
    createdAt := msg.createdAt
    startedAt := some msg.createdAt
    completedAt := none
    result := none
    permission := none }
  match permission with
  | some p =>
      let tool :=
        { running with
          input := p.arguments
          createdAt := p.createdAt
          permission := some (p.permission id) }
      if p.status = .approved then tool
      else
        { tool with
          state := .error
          completedAt := some (timeOr p.completedAt msg.createdAt)
          result := p.result }
  | none =>
      if isPermissionRequestToolCall id input then
        { running with startedAt := none, permission := some (pendingPermission id) }
      else running

/-- What a tool call that asks for a permission leaves behind. -/
def storedRequest (msg : NormalizedMessage F) (name : String) (input : Value F) : StoredPermission F where
  tool := name
  arguments := input
  createdAt := msg.createdAt
  completedAt := none
  status := .pending
  reason := none
  mode := none
  allowedTools := none
  suggestions := none
  decision := none

namespace ReducerState

def rememberRequest (msg : NormalizedMessage F) (id name : String) (input : Value F) (s : ReducerState F) :
    ReducerState F :=
  if (s.permissions.get id).isNone ∧ isPermissionRequestToolCall id input then
    s.storePermission id (storedRequest msg name input)
  else s

/-- The message of a tool call, with the results that waited for it. -/
def addToolMessage (host : ReducerHost) (msg : NormalizedMessage F) (transcriptBlockIndex : Option Nat)
    (tool : ToolCall F) (s : ReducerState F) : ReducerState F :=
  let mid := s.newId
  drainAndApplyOrphanToolResultsToMessage host tool.id mid
    { s.addMessage { agentMessage msg transcriptBlockIndex with tool := some tool } with
      toolIdToMessageId := s.toolIdToMessageId.set tool.id mid }

end ReducerState

/-- The state with `lastMainThinkingMessageId` and the main stream. -/
structure TextPass (F : Type) where
  state : ReducerState F
  thinking : Option MessageId
  stream : Option (MessageId × String)

/-- The runs of thinking of one message. -/
structure ThinkingRun where
  index : Nat
  isOpen : Bool

namespace TextPass

def setThinkingCursor (next : Option MessageId) (p : TextPass F) : TextPass F :=
  { p with state := p.state.setThinkingMergeCursor next, thinking := next }

def setStreamCursor (next : Option (MessageId × String)) (p : TextPass F) : TextPass F :=
  { p with state := p.state.setStreamMergeCursor next, stream := next }

def clearAllCursors (p : TextPass F) : TextPass F := (p.setThinkingCursor none).setStreamCursor none

def setThinkingCursorIf (c : Bool) (next : Option MessageId) (p : TextPass F) : TextPass F :=
  if c then p.setThinkingCursor next else p

def setStreamCursorIf (c : Bool) (next : Option (MessageId × String)) (p : TextPass F) : TextPass F :=
  if c then p.setStreamCursor next else p

def update (f : ReducerState F → ReducerState F) (p : TextPass F) : TextPass F :=
  { p with state := f p.state }

def addUser (msg : NormalizedMessage F) (text : String) (p : TextPass F) : TextPass F :=
  if (msg.localId.bind nonEmpty?).any p.state.localIds.has || p.state.seenMessage msg.id then p
  else
    let mid := p.state.newId
    let remember (s : ReducerState F) : ReducerState F :=
      match msg.localId.bind nonEmpty? with
      | some localId => { s with localIds := s.localIds.set localId mid }
      | none => s
    (p.update fun s => (remember (s.addText (userMessage msg text) msg)).markSeen msg.id).clearAllCursors

def streamKey? (msg : NormalizedMessage F) : Option String :=
  match (metaField msg.metadata "happierStreamKey").string? with
  | some "" => none
  | some key => some key
  | none => if msg.content.length = 1 ∧ msg.id ≠ "" then some ("id:" ++ msg.id) else none

def streamTarget (streamKey : Option String) (p : TextPass F) : Option MessageId :=
  match streamKey, p.stream with
  | some key, some (mid, streamKey) =>
      if streamKey = key ∧ p.state.isAgentText mid false then some mid else none
  | _, _ => none

def addSegment (kind : StreamSegmentKind) (msg : NormalizedMessage F) (snapshot : SegmentSnapshot F)
    (p : TextPass F) : TextPass F :=
  let (state, upsert) := upsertStreamSegmentSnapshotMessage msg snapshot p.state
  let p := { p with state }
  let visible := upsert.accepted && hasVisibleText snapshot.text
  match kind with
  | .assistant => p.setThinkingCursorIf visible none
  | .thinking =>
      (p.setThinkingCursorIf upsert.didCreate upsert.messageId).setStreamCursorIf visible none

def addText (msg : NormalizedMessage F) (blockIndex : Nat) (text : String) (p : TextPass F) : TextPass F :=
  if hasSyntheticNoResponseMeta msg.metadata then
    (p.update (·.markRunningToolsUnavailable msg.createdAt)).clearAllCursors
  else
    match streamSegment? msg .assistant with
    | some localId => p.addSegment .assistant msg (segmentSnapshot msg localId (some blockIndex) false text)
    | none =>
        match p.streamTarget (streamKey? msg), streamKey? msg with
        | some mid, some key =>
            let p := p.update (·.writeText mid (ReducerMessage.mergeChunk (· ++ text) msg.seq) msg)
            (p.setStreamCursor (some (mid, key))).setThinkingCursorIf (hasVisibleText text) none
        | _, streamKey =>
            let mid := p.state.newId
            let p := p.update (·.addText (textMessage msg (some blockIndex) false text) msg)
            (p.setThinkingCursorIf (hasVisibleText text) none).setStreamCursor
              (streamKey.map fun key => (mid, key))

def segmentTarget (key : Option String) (p : TextPass F) : Option MessageId :=
  (key.bind p.state.thinkingSegmentKeyToMessageId.get).filter (p.state.isAgentText · true)

def mapSegmentKey (key : Option String) (mid : MessageId) (p : TextPass F) : TextPass F :=
  match key with
  | some key =>
      p.update fun s =>
        { s with thinkingSegmentKeyToMessageId := s.thinkingSegmentKeyToMessageId.set key mid }
  | none => p

def mergeThinking (mid : MessageId) (msg : NormalizedMessage F) (chunk : String) (p : TextPass F) :
    TextPass F :=
  (p.update
    (·.writeText mid (ReducerMessage.mergeChunk (mergeThinkingText · chunk) msg.seq) msg)).setThinkingCursor
    (some mid)

def addThinkingChunk (msg : NormalizedMessage F) (blockIndex : Nat) (key : Option String)
    (chunk : String) (p : TextPass F) : TextPass F :=
  match p.segmentTarget key with
  | some mid => p.mergeThinking mid msg chunk
  | none =>
      match p.thinking.filter (p.state.isAgentText · true) with
      | some mid => (p.mergeThinking mid msg chunk).mapSegmentKey key mid
      | none =>
          let mid := p.state.newId
          let p := p.update (·.addText (textMessage msg (some blockIndex) true chunk) msg)
          (p.setThinkingCursor (some mid)).mapSegmentKey key mid

def addToolCall (host : ReducerHost) (msg : NormalizedMessage F) (blockIndex : Nat) (id name : String)
    (input : Value F) (description : Option String) (p : TextPass F) : TextPass F :=
  let p := p.clearAllCursors
  if p.state.toolIdToMessageId.has id then p
  else
    let tool := newToolCall msg id name input description (p.state.permissions.get id)
    p.update fun s =>
      (s.rememberRequest msg id name input).addToolMessage host msg (some blockIndex) tool

/-- `uuid#index` of the run that is open, where the thinking has a uuid. -/
def thinkingSegmentKey (uuid : Option String) (run : ThinkingRun) : Option String :=
  (uuid.bind nonBlank?).map fun uuid => uuid ++ "#" ++ toString run.index

def addContent (host : ReducerHost) (msg : NormalizedMessage F) (acc : TextPass F × ThinkingRun)
    (content : AgentContent F × Nat) : TextPass F × ThinkingRun :=
  let (p, run) := acc
  let (c, blockIndex) := content
  match c.body with
  | .thinking thinking =>
      let chunk := normalizeThinkingChunk thinking
      match streamSegment? msg .thinking with
      | some localId =>
          (p.addSegment .thinking msg (segmentSnapshot msg localId (some blockIndex) true chunk), run)
      | none =>
          if hasVisibleText chunk || hasParagraphBreak chunk then
            (p.addThinkingChunk msg blockIndex (thinkingSegmentKey c.uuid run) chunk, { run with isOpen := true })
          else (p, run)
  | body =>
      let run := if run.isOpen then ⟨run.index + 1, false⟩ else run
      match body with
      | .text text => (p.addText msg blockIndex text, run)
      | .toolCall id name input description => (p.addToolCall host msg blockIndex id name input description, run)
      | _ => (p, run)

def addMessage (host : ReducerHost) (p : TextPass F) (msg : NormalizedMessage F) : TextPass F :=
  match msg.body with
  | .user text => p.addUser msg text
  | .agent content => (content.zipIdx.foldl (addContent host msg) (p, ⟨0, false⟩)).1
  | .event _ => p

end TextPass

def runUserAndTextPhase (host : ReducerHost) (messages : List (NormalizedMessage F))
    (lastMainThinkingMessageId : Option MessageId) (lastMainStream : Option (MessageId × String))
    (s : ReducerState F) : ReducerState F :=
  (messages.foldl (TextPass.addMessage host) ⟨s, lastMainThinkingMessageId, lastMainStream⟩).state

end DevPilot.Transcript
