import DevPilot.Coordinator.ContextPrune
import DevPilot.Core.Responses

/-!
The agent loop: one turn drains notes, compacts the history, calls the model
with recovery, and answers its tool calls. Everything outside the program is
given for each turn as a `World`; a run records the message list of every call
of the provider and the histories the agent holds while it waits.
-/

namespace DevPilot

open PyJson

variable {F : Type}

structure Tool where
  name : String
  isReadOnly : Bool

structure ToolResultBlock where
  toolUseId : String
  content : String
  isError : Bool
  name : String

def ToolResultBlock.toContentBlock (r : ToolResultBlock) : Json F :=
  .obj ([("type", .str "tool_result"), ("tool_use_id", .str r.toolUseId), ("content", .str r.content)] ++
    (if r.name.isEmpty then [] else [("name", .str r.name)]) ++
    (if r.isError then [("is_error", .bool true)] else []))

def findTool (tools : List Tool) (name : String) : Option Tool := tools.find? (·.name = name)

def runsReadOnly (tools : List Tool) (tc : ToolCall F) : Bool :=
  match findTool tools tc.name with
  | some tool => tool.isReadOnly
  | none => true

/-- `_execute_single`. An outcome is the processed output of the tool or the
text of the exception it raised. -/
def executeSingle (tools : List Tool) (tc : ToolCall F) (outcome : Except String String) :
    ToolResultBlock :=
  match findTool tools tc.name with
  | none => ⟨tc.id, "Error: Unknown tool '" ++ tc.name ++ "'. Available tools: " ++
      ", ".intercalate (tools.map (·.name)), true, tc.name⟩
  | some _ => match outcome with
    | .ok output => ⟨tc.id, output, false, tc.name⟩
    | .error e => ⟨tc.id, "Tool execution error: " ++ e, true, tc.name⟩

/-- `_execute_tools`: the read-only calls come first, then the others. -/
def executeTools (tools : List Tool) (outcomes : Nat → Except String String)
    (calls : List (ToolCall F)) : List ToolResultBlock :=
  (calls.filter (runsReadOnly tools) ++ calls.filter (!runsReadOnly tools ·)).mapIdx fun i tc =>
    executeSingle tools tc (outcomes i)

inductive Attempt (F : Type)
  | response (r : LLMResponse F)
  | error (text : String)

structure World (F : Type) where
  userNotes : List String
  /-- What the tools' `drain_notifications()` deliver. -/
  notifications : List String
  /-- The summariser during compaction, by transcript; `none` when it fails. -/
  summarise : String → Option String
  attempts : Nat → Attempt F
  recoverySummarise : String → Option String
  outcomes : Nat → Except String String
  /-- Messages the IDEATE prune hook rewrites while tools run. The hook holds
  the list the agent was wired with, which after a compaction shares only some
  of its messages with the current history. -/
  rewrites : Nat → MessageRewrite

structure Agent where
  systemPrompt : String
  tools : List Tool
  maxTurns : Nat
  llmRetryAttempts : Nat

structure LoopState (F : Type) where
  messages : List (Json F)
  contextManager : ContextManager F
  maxTokensRecoveryCount : Nat
  noToolNudges : Nat

def lower (s : String) : List Char := s.toList.map Char.toLower

def mentions (phrases : List String) (text : List Char) : Bool :=
  phrases.any fun phrase => Slices.contains text phrase.toList

def isContextError (e : String) : Bool :=
  mentions ["prompt is too long", "context length", "max_tokens", "request too large",
    "context_length_exceeded"] (lower e)

def isTransientError (e : String) : Bool :=
  mentions ["429", "rate limit", "too many requests", "temporarily unavailable",
    "service unavailable", "gateway timeout", "connection reset", "connection aborted", "timeout",
    "timed out"] (lower e)

/-- How often an error that is not about the context is retried. -/
def attemptLimit (maxAttempts : Nat) (e : String) : Nat :=
  if isTransientError e then maxAttempts else min 2 maxAttempts

inductive CallOutcome (F : Type)
  | response (r : LLMResponse F)
  | gaveUp
  | raised

structure CallResult (F : Type) where
  messages : List (Json F)
  requests : List (List (Json F))
  /-- The histories at which the call can be interrupted. -/
  held : List (List (Json F))
  outcome : CallOutcome F

/-- An attempt with `messages`, the summariser's requests after it, and the
rest of the call. -/
def CallResult.after (messages : List (Json F)) (summaries : List (List (Json F)))
    (c : CallResult F) : CallResult F :=
  { c with requests := messages :: summaries ++ c.requests, held := messages :: c.held }

/-- The call ends with an attempt with `messages`. -/
def CallResult.last (messages : List (Json F)) (outcome : CallOutcome F) : CallResult F :=
  ⟨messages, [messages], [messages], outcome⟩

def shortenAll (messages : List (Json F)) : List (Json F) :=
  dropRedundantReads keepRecentN (snipOldToolResults keepRecentN
    (truncateLongToolResults maxCharsPerResult messages))

/-- The remaining attempts of `_call_llm_with_recovery`, from number `attempt`
on. -/
def callAttempts (cm : ContextManager F) (w : World F) (maxAttempts : Nat) :
    Nat → Nat → List (Json F) → CallResult F
  | 0, _, messages => ⟨messages, [], [messages], .gaveUp⟩
  | remaining + 1, attempt, messages =>
      match w.attempts attempt with
      | .response r => .last messages (.response r)
      | .error e =>
          if !isContextError e then
            if attempt ≥ attemptLimit maxAttempts e then .last messages .gaveUp
            else (callAttempts cm w maxAttempts remaining (attempt + 1) messages).after messages []
          else if attempt = 1 then
            (callAttempts cm w maxAttempts remaining (attempt + 1) (shortenAll messages)).after
              messages []
          else if attempt = 2 then
            match summarizeOldMessages cm w.recoverySummarise messages with
            | none => .last messages .raised
            | some c => (callAttempts cm w maxAttempts remaining (attempt + 1) c.messages).after
                messages c.requests
          else .last messages .gaveUp

def callLlmWithRecovery (cm : ContextManager F) (w : World F) (agent : Agent)
    (messages : List (Json F)) : CallResult F :=
  callAttempts cm w (max 1 agent.llmRetryAttempts) (max 1 agent.llmRetryAttempts) 1 messages

def continuePrompt : String :=
  "Your output was cut off due to the token limit. " ++
    "Please continue exactly where you left off. " ++ "Do not apologize or repeat — just resume."

def nudgePrompt : String :=
  "Your previous response described future work but did not call any tools. " ++
    "Continue now by calling the appropriate tool(s). Do not report completion " ++
    "until you have executed the next concrete step and have evidence from the tool output."

def futureMarkers : List String :=
  ["now let me", "let me ", "i'll ", "i will ", "i’m going to", "i'm going to", "i am going to",
    "i need to", "i should ", "next i", "next, i", "start with", "set up", "write the", "create the",
    "run the", "train ", "evaluate ", "下一步", "接下来", "我会", "我将", "我要", "我打算", "我准备",
    "让我", "我先", "稍后", "马上", "再开始", "重新跑", "重新运行", "再跑", "应该"]

/-- `" ".join(text.strip().lower().split())`. -/
def normalizeBlanks (text : String) : List Char :=
  ((lower text).splitOnP TextLines.isSpace |>.filter (· ≠ [])) |>.intersperse [' '] |>.flatten

def looksLikePrematureNoToolStop (text : String) : Bool :=
  let normalized := normalizeBlanks text
  if normalized.isEmpty then false
  else mentions futureMarkers normalized || normalized.getLast? == some ':' ||
    normalized.getLast? == some '：'

inductive Next
  | continue
  | finished (text : String)
  | failed
  | raised

structure TurnResult (F : Type) where
  state : LoopState F
  requests : List (List (Json F))
  /-- The histories at which the turn can be interrupted. -/
  held : List (List (Json F))
  next : Next

def LoopState.push (s : LoopState F) (messages : List (Json F)) : LoopState F :=
  { s with messages := s.messages ++ messages }

def noteMessages (w : World F) : List (Json F) :=
  w.userNotes.map (fun note => userText ("[user note] " ++ note)) ++ w.notifications.map userText

def answerCalls (agent : Agent) (w : World F) (s : LoopState F) (calls : List (ToolCall F)) :
    LoopState F :=
  let s := { s with messages := applyRewrites w.rewrites s.messages, noToolNudges := 0 }
  s.push [message "user" (.arr ((executeTools agent.tools w.outcomes calls).map (·.toContentBlock)))]

def afterReply (agent : Agent) (w : World F) (turn : Nat) (s : LoopState F) (r : LLMResponse F) :
    LoopState F × Next :=
  let calls := r.getToolCalls
  if calls.isEmpty then
    if s.noToolNudges < 3 ∧ turn < agent.maxTurns ∧ looksLikePrematureNoToolStop r.getText then
      ({ s with noToolNudges := s.noToolNudges + 1 }.push [userText nudgePrompt], .continue)
    else (s, .finished r.getText)
  else (answerCalls agent w s calls, .continue)

/-- The reply is appended; a reply cut off by the token limit is resumed up to
three times, whatever it contains. -/
def handleReply (agent : Agent) (w : World F) (turn : Nat) (s : LoopState F) (r : LLMResponse F) :
    LoopState F × Next :=
  let s := s.push [message "assistant" (.arr r.rawContent)]
  if r.stopReason = .maxTokens then
    let s := { s with maxTokensRecoveryCount := s.maxTokensRecoveryCount + 1 }
    if s.maxTokensRecoveryCount ≤ 3 then (s.push [userText continuePrompt], .continue)
    else afterReply agent w turn s r
  else afterReply agent w turn { s with maxTokensRecoveryCount := 0 } r

def repliedHistory (w : World F) (messages : List (Json F)) (r : LLMResponse F) : List (Json F) :=
  applyRewrites w.rewrites (messages ++ [message "assistant" (.arr r.rawContent)])

/-- One iteration of `_run_loop`. -/
def runTurn (agent : Agent) (w : World F) (turn : Nat) (s : LoopState F) : TurnResult F :=
  let s := s.push (noteMessages w)
  match maybeCompact s.contextManager w.summarise s.messages agent.systemPrompt with
  | none => ⟨s, [], [s.messages], .raised⟩
  | some (cm, compacted) =>
      let call := callLlmWithRecovery cm w agent compacted.messages
      let requests := compacted.requests ++ call.requests
      let held := s.messages :: compacted.messages :: call.held
      let s := { s with messages := call.messages, contextManager := cm }
      match call.outcome with
      | .response r =>
          let (s', next) := handleReply agent w turn s r
          ⟨s', requests, held ++ [repliedHistory w s.messages r, s'.messages], next⟩
      | .gaveUp => ⟨s, requests, held, .failed⟩
      | .raised => ⟨s, requests, held, .raised⟩

/-- The turns from number `turn` on, at most `remaining` of them. -/
def runTurns (agent : Agent) (worlds : Nat → World F) : Nat → Nat → LoopState F → TurnResult F
  | 0, _, s => ⟨s, [], [s.messages], .continue⟩
  | remaining + 1, turn, s =>
      let result := runTurn agent (worlds turn) turn s
      match result.next with
      | .continue =>
          let rest := runTurns agent worlds remaining (turn + 1) result.state
          { rest with requests := result.requests ++ rest.requests, held := result.held ++ rest.held }
      | _ => result

def LoopState.start (s : LoopState F) (userMessage : String) : LoopState F :=
  { (if userMessage.isEmpty then s else s.push [userText userMessage]) with noToolNudges := 0 }

def runLoop (agent : Agent) (worlds : Nat → World F) (userMessage : String) (s : LoopState F) :
    TurnResult F :=
  runTurns agent worlds agent.maxTurns 1 (s.start userMessage)

end DevPilot
