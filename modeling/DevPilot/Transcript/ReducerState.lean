import DevPilot.Transcript.ThinkingText
import DevPilot.Transcript.Messages
import DevPilot.Transcript.Tracer

/-!
The state of the reducer, and what its phases share: new messages, tool results
that wait for their call, stream segments, and tools that are closed or reopened.
-/

namespace DevPilot.Transcript

open PyJson Tables

variable {F : Type}

/-- `ORPHAN_TOOL_RESULT_TTL_MS`, `MAX_ORPHAN_TOOL_RESULTS_PER_TOOL`, `MAX_TOTAL_ORPHAN_TOOL_RESULTS` -/
def orphanToolResultLimits : BucketLimits := ⟨10 * 60000, 100, 1000⟩

structure BufferedToolResult (F : Type) where
  key : String
  createdAt : Int
  metadata : Option (MessageMeta F)
  toolResult : ToolResultUpdate F

structure FinalResult (F : Type) where
  messageId : MessageId
  state : ToolState
  result : Value F

structure ReducerState (F : Type) where
  toolIdToMessageId : Table MessageId
  sidechainToolIdToMessageId : Table MessageId
  permissions : Table (StoredPermission F)
  orphanToolResults : Table (Bucket (BufferedToolResult F))
  localIds : Table MessageId
  /-- The keys of `messageIds`; nothing reads its values. -/
  messageIds : List String
  messages : List (ReducerMessage F)
  sidechains : Table (List MessageId)
  tracerState : TracerState F
  streamMergeCursor : Option (MessageId × String)
  thinkingMergeCursor : Option MessageId
  thinkingSegmentKeyToMessageId : Table MessageId
  sidechainThinkingMergeCursors : Table MessageId
  /-- History: the final results that tools were given. Nothing reads it. -/
  finalResults : List (FinalResult F)
  /-- History: which message wrote into the text of which. Nothing reads it. -/
  textWriters : List (MessageId × NormalizedMessage F)

def createReducer : ReducerState F where
  toolIdToMessageId := .empty
  sidechainToolIdToMessageId := .empty
  permissions := .empty
  orphanToolResults := .empty
  localIds := .empty
  messageIds := []
  messages := []
  sidechains := .empty
  tracerState := createTracer
  streamMergeCursor := none
  thinkingMergeCursor := none
  thinkingSegmentKeyToMessageId := .empty
  sidechainThinkingMergeCursors := .empty
  finalResults := []
  textWriters := []

/-- `a.key.localeCompare(b.key) <= 0` of the host. -/
structure ReducerHost where
  keyLe : String → String → Bool

namespace ReducerState

def newId (s : ReducerState F) : MessageId := s.messages.length

def addMessage (m : ReducerMessage F) (s : ReducerState F) : ReducerState F :=
  { s with messages := s.messages ++ [m] }

def modifyMessage (mid : MessageId) (f : ReducerMessage F → ReducerMessage F) (s : ReducerState F) :
    ReducerState F :=
  { s with messages := s.messages.modify mid f }

def message? (s : ReducerState F) (mid : MessageId) : Option (ReducerMessage F) := s.messages[mid]?

def tool? (s : ReducerState F) (mid : MessageId) : Option (ToolCall F) :=
  (s.message? mid).bind ReducerMessage.tool

def modifyTool (mid : MessageId) (f : ToolCall F → ToolCall F) (s : ReducerState F) : ReducerState F :=
  s.modifyMessage mid fun m => { m with tool := m.tool.map f }

def noteWriter (mid : MessageId) (msg : NormalizedMessage F) (s : ReducerState F) : ReducerState F :=
  { s with textWriters := s.textWriters ++ [(mid, msg)] }

def addText (m : ReducerMessage F) (msg : NormalizedMessage F) (s : ReducerState F) : ReducerState F :=
  (s.addMessage m).noteWriter s.newId msg

def writeText (mid : MessageId) (f : ReducerMessage F → ReducerMessage F) (msg : NormalizedMessage F)
    (s : ReducerState F) : ReducerState F :=
  (s.modifyMessage mid f).noteWriter mid msg

def isAgentText (s : ReducerState F) (mid : MessageId) (isThinking : Bool) : Bool :=
  (s.message? mid).any fun m => m.isAgentText isThinking

def sidechainIds (s : ReducerState F) : List MessageId := s.sidechains.values.flatten

def chain (s : ReducerState F) (sidechainId : String) : List MessageId :=
  (s.sidechains.get sidechainId).getD []

def seenMessage (s : ReducerState F) (messageId : String) : Bool := messageId ∈ s.messageIds

def markSeen (messageId : String) (s : ReducerState F) : ReducerState F :=
  { s with messageIds := if messageId ∈ s.messageIds then s.messageIds else s.messageIds ++ [messageId] }

def setThinkingMergeCursor (next : Option MessageId) (s : ReducerState F) : ReducerState F :=
  { s with thinkingMergeCursor := next }

def setStreamMergeCursor (next : Option (MessageId × String)) (s : ReducerState F) : ReducerState F :=
  { s with streamMergeCursor := next }

def setSidechainThinkingMergeCursor (sidechainId : String) (next : Option MessageId)
    (s : ReducerState F) : ReducerState F :=
  match next with
  | some mid =>
      { s with sidechainThinkingMergeCursors := s.sidechainThinkingMergeCursors.set sidechainId mid }
  | none => { s with sidechainThinkingMergeCursors := s.sidechainThinkingMergeCursors.delete sidechainId }

/-- The final result that an update gives the tool of a message, if it gives it
one and not a placeholder. -/
def finalResult? (mid : MessageId) (u : ToolResultUpdate F) (resultCreatedAt : Int) (s : ReducerState F) :
    Option (FinalResult F) :=
  (s.tool? mid).bind fun tool =>
    let finished := tool.applyResult u resultCreatedAt
    if tool.takesResult && (coerceStreamingToolResultChunk u.content).isNone && !finished.takesResult then
      some ⟨mid, finished.state, finished.result⟩
    else none

def applyToolResult (mid : MessageId) (u : ToolResultUpdate F) (resultCreatedAt : Int)
    (metadata : Option (MessageMeta F)) (s : ReducerState F) : ReducerState F :=
  { s.modifyMessage mid (applyToolResultUpdateToReducerMessage u resultCreatedAt metadata) with
    finalResults := s.finalResults ++ (s.finalResult? mid u resultCreatedAt).toList }

def bufferOrphanToolResult (now : Int) (toolUseId : String) (result : BufferedToolResult F)
    (s : ReducerState F) : ReducerState F :=
  { s with
    orphanToolResults := updateBucket orphanToolResultLimits now toolUseId
      (fun results => if results.any (·.key = result.key) then results else results ++ [result])
      s.orphanToolResults }

variable (host : ReducerHost)

def orphanLe (a b : BufferedToolResult F) : Bool :=
  if a.createdAt = b.createdAt then host.keyLe a.key b.key else a.createdAt < b.createdAt

def orphansOf (toolUseId : String) (s : ReducerState F) : List (BufferedToolResult F) :=
  (waiting s.orphanToolResults toolUseId).insertionSort fun a b => orphanLe host a b

def applyOrphan (mid : MessageId) (s : ReducerState F) (o : BufferedToolResult F) : ReducerState F :=
  s.applyToolResult mid o.toolResult o.createdAt o.metadata

def drainAndApplyOrphanToolResultsToMessage (toolUseId : String) (mid : MessageId)
    (s : ReducerState F) : ReducerState F :=
  (s.orphansOf host toolUseId).foldl (applyOrphan mid)
    { s with orphanToolResults := s.orphanToolResults.delete toolUseId }

/-- The ids under which the thread of a sub-agent may be kept. -/
def subagentSidechainIds (tool : ToolCall F) : List String :=
  [nonBlank? tool.id, readStringField tool.input "sidechainId", readStringField tool.input "callId",
    readStringField tool.result "sidechainId", readStringField tool.result "callId"].filterMap id

/-- `hasLinkedSubagentSidechainActivity`, with further ids to look under. -/
def hasLinkedSubagentSidechainActivity (s : ReducerState F) (ids : List String) (tool : ToolCall F) :
    Bool :=
  isSubAgentTranscriptToolName tool.name &&
    (ids ++ subagentSidechainIds tool).any fun id => s.chain id ≠ []

def becomesUnavailable (s : ReducerState F) (completedAt : Int) (tool : ToolCall F) : Bool :=
  tool.state = .running && tool.startedAt.isSome && tool.createdAt ≤ completedAt &&
    !s.hasLinkedSubagentSidechainActivity [] tool

def markRunningToolsUnavailable (completedAt : Int) (s : ReducerState F) : ReducerState F :=
  { s with
    messages := s.messages.map fun m =>
      { m with
        tool := m.tool.map fun tool =>
          if s.becomesUnavailable completedAt tool then
            { tool with state := .unavailable, completedAt := some completedAt }
          else tool } }

end ReducerState

def ToolCall.isSyntheticRequestInterrupted (tool : ToolCall F) : Bool :=
  resultError tool.result = some requestInterruptedReason

def ToolCall.isRestorableSubagentClosure (tool : ToolCall F) : Bool :=
  tool.state = .unavailable || tool.state = .error && tool.isSyntheticRequestInterrupted

def restoredPermission (startedAt : Option Int) (p : ToolPermission F) : ToolPermission F :=
  if p.status = .canceled ∧ p.reason = some requestInterruptedReason then
    ToolPermission.withoutAbort
      { p with status := if startedAt.isNone then .pending else .approved, reason := none }
  else p

def ToolCall.restored (tool : ToolCall F) : ToolCall F :=
  { tool with
    state := .running
    completedAt := none
    result := if tool.isSyntheticRequestInterrupted then none else tool.result
    permission := tool.permission.map (restoredPermission tool.startedAt) }

namespace ReducerState

def restoreSubagentToolFromSyntheticInterruption (mid : MessageId) (sidechainId : String)
    (s : ReducerState F) : ReducerState F :=
  s.modifyTool mid fun tool =>
    if tool.isRestorableSubagentClosure &&
        s.hasLinkedSubagentSidechainActivity ((nonBlank? sidechainId).toList) tool then
      tool.restored
    else tool

end ReducerState

structure SegmentSnapshot (F : Type) where
  localId : String
  realID : String
  createdAt : Int
  seq : Option Int
  transcriptBlockIndex : Option Nat
  isThinking : Bool
  text : String
  metadata : Option (MessageMeta F)

def updatedAtMs? (metadata : Option (MessageMeta F)) : Option Int :=
  (readStreamSegmentMetaV1 metadata).bind StreamSegmentMetaV1.updatedAtMs

def isOlder (next prev : Option Int) : Bool :=
  match next, prev with
  | some next, some prev => next < prev
  | _, _ => false

def shouldApplyStreamSegmentSnapshotUpdate (prev : ReducerMessage F) (next : SegmentSnapshot F) : Bool :=
  !isOlder next.seq prev.seq && !isOlder (updatedAtMs? next.metadata) (updatedAtMs? prev.metadata)

def SegmentSnapshot.update (next : SegmentSnapshot F) (prev : ReducerMessage F) : ReducerMessage F :=
  { prev with
    text := some next.text
    seq := laterSeq prev.seq next.seq
    transcriptBlockIndex := prev.transcriptBlockIndex.or next.transcriptBlockIndex
    metadata := next.metadata }

def SegmentSnapshot.message (next : SegmentSnapshot F) : ReducerMessage F where
  realID := some next.realID
  seq := next.seq
  transcriptBlockIndex := next.transcriptBlockIndex
  localId := some next.localId
  createdAt := next.createdAt
  role := .agent
  text := some next.text
  isThinking := next.isThinking
  event := none
  tool := none
  metadata := next.metadata

structure UpsertResult where
  messageId : Option MessageId
  didCreate : Bool
  accepted : Bool
deriving DecidableEq, Repr

def upsertStreamSegmentSnapshotMessage (msg : NormalizedMessage F) (next : SegmentSnapshot F)
    (s : ReducerState F) : ReducerState F × UpsertResult :=
  match s.localIds.get next.localId with
  | some existingId =>
      match s.message? existingId with
      | none => (s, ⟨none, false, false⟩)
      | some prev =>
          if prev.role ≠ .agent ∨ prev.isThinking ≠ next.isThinking then (s, ⟨none, false, false⟩)
          else if shouldApplyStreamSegmentSnapshotUpdate prev next then
            (s.writeText existingId next.update msg, ⟨some existingId, false, true⟩)
          else (s, ⟨some existingId, false, false⟩)
  | none =>
      ({ s.addText next.message msg with localIds := s.localIds.set next.localId s.newId },
        ⟨some s.newId, true, true⟩)

end DevPilot.Transcript
