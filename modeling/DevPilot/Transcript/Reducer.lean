import DevPilot.Transcript.UserAndText
import DevPilot.Lib.Runs
import DevPilot.Transcript.Sidechains

/-!
Phases 2 and 3 of the reducer: tool calls meet the messages of their tools, and
tool results theirs.
-/

namespace DevPilot.Transcript

open PyJson Tables

variable {F : Type}

section Inputs

variable [DecidableEq F]

/-- The existing fields win, but `_acp` is brought up to date. -/
def mergeInputs (existing incoming : Members F) : Members F :=
  let base := spread incoming existing
  match asRecord (field incoming "_acp") with
  | some incomingAcp =>
      Members.insert "_acp" (.obj (spread ((asRecord (field existing "_acp")).getD []) incomingAcp)) base
  | none => base

def updatedInput (existing incoming : Value F) : Value F :=
  let merged :=
    match asRecord existing, asRecord incoming with
    | some existing, some incoming => some (.obj (mergeInputs existing incoming))
    | _, _ => incoming
  if incoming.isNone ∨ equalArguments existing merged then existing else merged

def ToolCall.update (createdAt : Int) (id name : String) (input : Value F) (description : Option String)
    (tool : ToolCall F) : ToolCall F :=
  let tool :=
    { tool with
      id := if tool.id = "" then id else tool.id
      name := if name = "" then tool.name else name
      description
      input := updatedInput tool.input input }
  let tool :=
    if isPermissionRequestToolCall id tool.input then
      { tool with startedAt := none, permission := some (tool.permission.getD (pendingPermission id)) }
    else { tool with startedAt := some createdAt }
  -- the permission was approved before the tool call came
  if tool.status = some .approved ∧ tool.state = .completed then
    { tool with state := .running, completedAt := none, result := none }
  else tool

/-- The row of the transcript that a tool call gives its message. -/
def ReducerMessage.reconcile (msg : NormalizedMessage F) (blockIndex : Nat) (m : ReducerMessage F) :
    ReducerMessage F :=
  { m with
    realID := some msg.id
    seq := m.seq.or msg.seq
    transcriptBlockIndex := m.transcriptBlockIndex.or (some blockIndex) }

def ReducerMessage.updateTool (msg : NormalizedMessage F) (blockIndex : Nat) (id name : String)
    (input : Value F) (description : Option String) (m : ReducerMessage F) : ReducerMessage F :=
  match m.tool with
  | none => m
  | some tool =>
      { m.reconcile msg blockIndex with
        tool := some (tool.update msg.createdAt id name input description) }

namespace ReducerState

def processToolCall (host : ReducerHost) (msg : NormalizedMessage F) (blockIndex : Nat) (id name : String)
    (input : Value F) (description : Option String) (s : ReducerState F) : ReducerState F :=
  match s.toolIdToMessageId.get id with
  | some mid =>
      if (s.tool? mid).isSome then
        (s.modifyMessage mid (ReducerMessage.updateTool msg blockIndex id name input description)).markSeen msg.id
      else s
  | none =>
      let permission := s.permissions.get id
      let tool := newToolCall msg id name input description permission
      let tool :=
        { tool with
          permission := tool.permission.map fun p =>
            { p with suggestions := permission.bind StoredPermission.suggestions } }
      (((s.rememberRequest msg id name input).addToolMessage host msg (some blockIndex) tool).markSeen
        msg.id).setThinkingMergeCursor none

def processToolCallContent (host : ReducerHost) (msg : NormalizedMessage F) (s : ReducerState F)
    (content : AgentContent F × Nat) : ReducerState F :=
  match content.1.body with
  | .toolCall id name input description => s.processToolCall host msg content.2 id name input description
  | _ => s

def runToolCallsPhase (host : ReducerHost) (messages : List (NormalizedMessage F)) (s : ReducerState F) :
    ReducerState F :=
  messages.foldl (fun s msg => msg.content.zipIdx.foldl (processToolCallContent host msg) s) s

end ReducerState

end Inputs

def toolResultKey (messageId : String) (contentIndex : Nat) : String :=
  messageId ++ ":" ++ toString contentIndex

namespace ReducerState

def processToolResult (now : Int) (msg : NormalizedMessage F) (contentIndex : Nat)
    (toolResult : ToolResultUpdate F) (s : ReducerState F) : ReducerState F :=
  match s.toolIdToMessageId.get toolResult.toolUseId with
  | none =>
      s.bufferOrphanToolResult now toolResult.toolUseId
        ⟨toolResultKey msg.id contentIndex, msg.createdAt, msg.metadata, toolResult⟩
  | some mid => s.applyToolResult mid toolResult msg.createdAt msg.metadata

def processToolResultContent (now : Int) (msg : NormalizedMessage F) (s : ReducerState F)
    (content : AgentContent F × Nat) : ReducerState F :=
  match content.1.body with
  | .toolResult toolResult => s.processToolResult now msg content.2 toolResult
  | _ => s

def runToolResultsPhase (now : Int) (messages : List (NormalizedMessage F)) (s : ReducerState F) :
    ReducerState F :=
  messages.foldl (fun s msg => msg.content.zipIdx.foldl (processToolResultContent now msg) s) s

end ReducerState

end DevPilot.Transcript

/-!
The transcript reducer: one call takes a batch of messages and the agent state
through the phases.
-/

namespace DevPilot.Transcript

open PyJson Tables

variable {F : Type}

def limitReachedPrefix : String := "Claude AI usage limit reached|"

/-- `/^Claude AI usage limit reached\|(\d+)$/` -/
def limitReachedAt (text : String) : Option Nat :=
  if limitReachedPrefix.toList.isPrefixOf text.toList then
    let digits := text.toList.drop limitReachedPrefix.toList.length
    if digits ≠ [] ∧ digits.all Char.isDigit then
      some (digits.foldl (fun n c => 10 * n + (c.toNat - '0'.toNat)) 0)
    else none
  else none

def parseContentAsEvent (c : AgentContent F) : Option (AgentEvent F) :=
  match c.body with
  | .text text => (limitReachedAt text).map AgentEvent.limitReached
  | _ => none

def parseMessageAsEvent (msg : NormalizedMessage F) : Option (AgentEvent F) :=
  if msg.isSidechain then none else msg.content.findSome? parseContentAsEvent

structure Conversion (F : Type) where
  state : ReducerState F
  messagesToProcess : List (NormalizedMessage F)
  convertedEvents : List (NormalizedMessage F × AgentEvent F)
  readyAt : Option Int

def isReady (msg : NormalizedMessage F) : Bool :=
  match msg.body with
  | .event .ready => true
  | _ => false

def isUser (msg : NormalizedMessage F) : Bool :=
  match msg.body with
  | .user _ => true
  | _ => false

def ReducerState.hasProcessed (s : ReducerState F) (msg : NormalizedMessage F) : Bool :=
  isUser msg && (msg.localId.bind nonEmpty?).any s.localIds.has || s.seenMessage msg.id

def Conversion.add (c : Conversion F) (msg : NormalizedMessage F) : Conversion F :=
  if c.state.hasProcessed msg then c
  else if isReady msg then
    { c with
      state := c.state.markSeen msg.id
      readyAt := some (c.readyAt.elim msg.createdAt (max · msg.createdAt)) }
  else
    match parseMessageAsEvent msg with
    | some event =>
        { c with
          state := c.state.markSeen msg.id
          convertedEvents := c.convertedEvents ++ [(msg, event)] }
    | none => { c with messagesToProcess := c.messagesToProcess ++ [msg] }

def ReducerState.addEvent (msg : NormalizedMessage F) (event : AgentEvent F) (s : ReducerState F) :
    ReducerState F :=
  (s.addMessage (eventMessage msg event)).setThinkingMergeCursor none

def runMessageToEventConversion (messages : List (NormalizedMessage F)) (s : ReducerState F) :
    Conversion F :=
  let c := messages.foldl Conversion.add ⟨s, [], [], none⟩
  { c with state := c.convertedEvents.foldl (fun s p => s.addEvent p.1 p.2) c.state }

def toolCallId? (c : AgentContent F) : Option String :=
  match c.body with
  | .toolCall id .. => some id
  | _ => none

def incomingToolIds (messages : List (NormalizedMessage F)) : List String :=
  messages.flatMap fun msg => msg.content.filterMap toolCallId?

def isTerminalTaskLifecycleEvent (event : String) : Bool :=
  event ∈ ["task_complete", "turn_aborted", "turn_cancelled", "turn_failed"]

def ReducerState.processEvent (s : ReducerState F) (msg : NormalizedMessage F) : ReducerState F :=
  match msg.body with
  | .event content =>
      if s.seenMessage msg.id then s
      else
        let s := s.markSeen msg.id
        match content with
        | .taskLifecycle event =>
            if isTerminalTaskLifecycleEvent event then s.markRunningToolsUnavailable msg.createdAt else s
        | event => s.addEvent msg event
  | _ => s

def runModeSwitchEventsPhase (messages : List (NormalizedMessage F)) (s : ReducerState F) : ReducerState F :=
  messages.foldl ReducerState.processEvent s

/-- `compareIncomingTranscriptRowsOldestFirst(a, b) <= 0`, where `a` comes before `b`. -/
def incomingLe (a b : NormalizedMessage F) : Bool :=
  match a.seq, b.seq with
  | some x, some y => x < y || x = y && a.createdAt ≤ b.createdAt
  | some _, none => true
  | none, some _ => false
  | none, none => a.createdAt ≤ b.createdAt

/-- The messages of a batch, oldest first; equal ones keep their order. -/
def orderedIncomingMessages (messages : List (NormalizedMessage F)) : List (NormalizedMessage F) :=
  messages.insertionSort fun a b => incomingLe a b

def supersedes (next prev : ReducerMessage F) : Bool :=
  match prev.seq, next.seq with
  | some x, some y => x < y || x = y && prev.createdAt ≤ next.createdAt
  | none, some _ => true
  | some _, none => false
  | none, none => prev.createdAt ≤ next.createdAt

namespace ReducerState

def lastMain (s : ReducerState F) : Option (MessageId × ReducerMessage F) :=
  s.messages.zipIdx.foldl (fun last p =>
    if p.2 ∈ s.sidechainIds then last
    else
      match last with
      | none => some (p.2, p.1)
      | some (mid, m) => if supersedes p.1 m then some (p.2, p.1) else some (mid, m)) none

def lastMainThinkingMessageId (s : ReducerState F) : Option MessageId :=
  (s.thinkingMergeCursor.filter (s.isAgentText · true)).or
    ((s.lastMain.filter fun p => p.2.isAgentText true).map Prod.fst)

end ReducerState

def isMain (msg : NormalizedMessage F) : Bool := (msg.sidechainId.bind nonEmpty?).isNone && !msg.isSidechain

structure ReducerCall (F : Type) where
  messages : List (NormalizedMessage F)
  agentState : Option (AgentState F)
  now : Int

variable [DecidableEq F] (host : ReducerHost)

def runPhases (call : ReducerCall F) (traced : List (NormalizedMessage F)) (s : ReducerState F) :
    ReducerState F :=
  let lastMainThinkingMessageId := s.lastMainThinkingMessageId
  let lastMainStream := s.streamMergeCursor
  let conversion := runMessageToEventConversion (traced.filter isMain) s
  let messages := conversion.messagesToProcess
  let s := conversion.state.runAgentStatePermissionsPhase host call.now call.agentState (incomingToolIds messages)
  let s := runUserAndTextPhase host messages lastMainThinkingMessageId lastMainStream s
  let s := s.runToolCallsPhase host messages
  let s := s.runToolResultsPhase call.now messages
  let s := s.runSidechainsPhase (traced.filter fun msg => (msg.sidechainId.bind nonEmpty?).isSome)
  let s := runModeSwitchEventsPhase messages s
  match conversion.readyAt with
  | some readyAt => s.markRunningToolsUnavailable readyAt
  | none => s

def reducer (s : ReducerState F) (call : ReducerCall F) : ReducerState F :=
  let trace := traceMessages call.now s.tracerState (orderedIncomingMessages call.messages)
  { runPhases host call trace.results s with tracerState := trace.state }

def afterCalls (calls : List (ReducerCall F)) : ReducerState F := Runs.run (reducer host) createReducer calls

namespace ReducerState

omit [DecidableEq F]

/-- Whether a message is one of the transcript itself, not of a sidechain. -/
def IsRoot (s : ReducerState F) (mid : MessageId) : Prop :=
  mid < s.messages.length ∧ mid ∉ s.sidechainIds

instance (s : ReducerState F) (mid : MessageId) : Decidable (s.IsRoot mid) :=
  inferInstanceAs (Decidable (_ ∧ _))

end ReducerState

end DevPilot.Transcript
