import DevPilot.Transcript.UserAndText

/-!
Phase 4 of the reducer: the threads of sub-agents.
-/

namespace DevPilot.Transcript

open PyJson Tables

variable {F : Type}

/-- The state with the sidechain that a message goes to. -/
structure ChainPass (F : Type) where
  state : ReducerState F
  chain : List MessageId

namespace ChainPass

def update (f : ReducerState F → ReducerState F) (p : ChainPass F) : ChainPass F :=
  { p with state := f p.state }

/-- A new message at the end of the sidechain, with a text that `msg` brings. -/
def pushText (m : ReducerMessage F) (msg : NormalizedMessage F) (p : ChainPass F) : ChainPass F where
  state := p.state.addText m msg
  chain := p.chain ++ [p.state.newId]

def push (m : ReducerMessage F) (p : ChainPass F) : ChainPass F where
  state := p.state.addMessage m
  chain := p.chain ++ [p.state.newId]

def last (p : ChainPass F) : Option (MessageId × ReducerMessage F) :=
  p.chain.getLast?.bind fun mid => (p.state.message? mid).map fun m => (mid, m)

def setCursorIf (c : Bool) (sidechainId : String) (next : Option MessageId) (p : ChainPass F) : ChainPass F :=
  if c then p.update (·.setSidechainThinkingMergeCursor sidechainId next) else p

def addSegment (sidechainId : String) (kind : StreamSegmentKind) (msg : NormalizedMessage F)
    (snapshot : SegmentSnapshot F) (p : ChainPass F) : ChainPass F :=
  let (state, upsert) := upsertStreamSegmentSnapshotMessage msg snapshot p.state
  let chain := if upsert.didCreate then p.chain ++ upsert.messageId.toList else p.chain
  let next := match kind with
    | .assistant => none
    | .thinking => upsert.messageId
  setCursorIf (upsert.accepted && hasVisibleText snapshot.text) sidechainId next ⟨state, chain⟩

def sidechainStreamKey (metadata : Option (MessageMeta F)) : Option String :=
  (metaField metadata "happierSidechainStreamKey").string?

/-- The last message of the chain, where a chunk of the stream may be appended to it. -/
def streamTarget (msg : NormalizedMessage F) (p : ChainPass F) : Option MessageId :=
  match (sidechainStreamKey msg.metadata).bind nonEmpty?, p.last with
  | some key, some (mid, last) =>
      if last.isAgentText false ∧ sidechainStreamKey last.metadata = some key then some mid else none
  | _, _ => none

def appendText (f : String → String) (m : ReducerMessage F) : ReducerMessage F :=
  { m with text := m.text.map f }

def addText (sidechainId : String) (msg : NormalizedMessage F) (text : String) (p : ChainPass F) :
    ChainPass F :=
  match streamSegment? msg .assistant with
  | some localId => p.addSegment sidechainId .assistant msg (segmentSnapshot msg localId none false text)
  | none =>
      let p :=
        match p.streamTarget msg with
        | some mid => p.update (·.writeText mid (appendText (· ++ text)) msg)
        | none => p.pushText (textMessage msg none false text) msg
      p.setCursorIf (hasVisibleText text) sidechainId none

def thinkingTarget (sidechainId : String) (p : ChainPass F) : Option MessageId :=
  ((p.state.sidechainThinkingMergeCursors.get sidechainId).filter (p.state.isAgentText · true)).or
    (p.chain.getLast?.filter (p.state.isAgentText · true))

def addThinking (sidechainId : String) (msg : NormalizedMessage F) (thinking : String) (p : ChainPass F) :
    ChainPass F :=
  let chunk := normalizeThinkingChunk thinking
  match streamSegment? msg .thinking with
  | some localId => p.addSegment sidechainId .thinking msg (segmentSnapshot msg localId none true chunk)
  | none =>
      if hasVisibleText chunk || hasParagraphBreak chunk then
        match p.thinkingTarget sidechainId with
        | some mid =>
            let p := p.update (·.writeText mid (appendText (unwrapThinkingText · ++ chunk)) msg)
            p.update (·.setSidechainThinkingMergeCursor sidechainId (some mid))
        | none =>
            let mid := p.state.newId
            let p := p.pushText (textMessage msg none true chunk) msg
            p.update (·.setSidechainThinkingMergeCursor sidechainId (some mid))
      else p

/-- A tool call of the sidechain starts the tool that a permission waits for. -/
def startPermitted (createdAt : Int) (description : Option String) (tool : ToolCall F) : ToolCall F :=
  if tool.permission.isSome ∧ tool.state ≠ .completed ∧ tool.state ≠ .error then
    { tool with state := .running, startedAt := some createdAt, description }
  else tool

def addToolCall (sidechainId : String) (msg : NormalizedMessage F) (id name : String) (input : Value F)
    (description : Option String) (p : ChainPass F) : ChainPass F :=
  let p := p.update (·.setSidechainThinkingMergeCursor sidechainId none)
  let permitted := p.state.toolIdToMessageId.get id
  let tool : ToolCall F := {
    id, name, input, description
    state := .running
    createdAt := msg.createdAt
    startedAt := none
    completedAt := none
    result := none
    permission := (permitted.bind p.state.tool?).bind ToolCall.permission }
  let p :=
    match permitted with
    | some mid => p.update (·.modifyTool mid (startPermitted msg.createdAt description))
    | none => p
  let mid := p.state.newId
  (p.push { agentMessage msg none with tool := some tool }).update fun s =>
    { s with sidechainToolIdToMessageId := s.sidechainToolIdToMessageId.set id mid }

def applyTo (mid : Option MessageId) (msg : NormalizedMessage F) (toolResult : ToolResultUpdate F)
    (p : ChainPass F) : ChainPass F :=
  match mid with
  | some mid => p.update (·.applyToolResult mid toolResult msg.createdAt msg.metadata)
  | none => p

/-- The result of a tool updates its message in the sidechain and the main one. -/
def addToolResult (msg : NormalizedMessage F) (toolResult : ToolResultUpdate F) (p : ChainPass F) :
    ChainPass F :=
  let p := p.applyTo (p.state.sidechainToolIdToMessageId.get toolResult.toolUseId) msg toolResult
  p.applyTo (p.state.toolIdToMessageId.get toolResult.toolUseId) msg toolResult

def addContent (sidechainId : String) (msg : NormalizedMessage F) (p : ChainPass F) (c : AgentContent F) :
    ChainPass F :=
  match c.body with
  | .text text => p.addText sidechainId msg text
  | .thinking thinking => p.addThinking sidechainId msg thinking
  | .toolCall id name input description => p.addToolCall sidechainId msg id name input description
  | .toolResult toolResult => p.addToolResult msg toolResult
  | _ => p

def addRoot (sidechainId : String) (msg : NormalizedMessage F) (prompt : String) (p : ChainPass F) :
    ChainPass F :=
  (p.pushText (userMessage msg prompt) msg).update (·.setSidechainThinkingMergeCursor sidechainId none)

def addContents (sidechainId : String) (msg : NormalizedMessage F) (p : ChainPass F) : ChainPass F :=
  match msg.content.head?.map AgentContent.body with
  | some (.sidechain prompt) => p.addRoot sidechainId msg prompt
  | _ => msg.content.foldl (addContent sidechainId msg) p

end ChainPass

def isStreamSegment (msg : NormalizedMessage F) : Bool :=
  (streamSegment? msg .assistant).isSome || (streamSegment? msg .thinking).isSome

namespace ReducerState

def storeChain (sidechainId : String) (p : ChainPass F) : ReducerState F :=
  { p.state with sidechains := p.state.sidechains.set sidechainId p.chain }

def processSidechainMessage (s : ReducerState F) (msg : NormalizedMessage F) : ReducerState F :=
  match msg.sidechainId.bind nonEmpty? with
  | none => s
  | some sidechainId =>
      -- stream segments are applied again whenever they come
      if !isStreamSegment msg && s.seenMessage msg.id then s
      else
        let parent := s.toolIdToMessageId.get sidechainId
        let s := storeChain sidechainId
          (ChainPass.addContents sidechainId msg ⟨s.markSeen msg.id, s.chain sidechainId⟩)
        match parent with
        | some mid => s.restoreSubagentToolFromSyntheticInterruption mid sidechainId
        | none => s

def runSidechainsPhase (messages : List (NormalizedMessage F)) (s : ReducerState F) : ReducerState F :=
  messages.foldl processSidechainMessage s

end ReducerState

end DevPilot.Transcript
