import DevPilot.Lib.JsonText
import DevPilot.Lib.Runs

/-!
The store of the desktop UI: its conversations and messages, what the events of
the runtime make of them, and the requests that are under way.
-/

namespace DevPilot

open PyJson

variable {F : Type}

inductive JsNumber (F : Type)
  | int (n : Int)
  | float (x : F)
  deriving DecidableEq

/-- What the store asks of the numbers of its host. -/
structure DesktopHost (F : Type) where
  isFinite : F → Bool
  inSeconds : F → Bool
  thousandfold : F → F
  atMost : JsNumber F → JsNumber F → Bool

def isJsSpace (c : Char) : Bool :=
  c.toNat ∈ [9, 10, 11, 12, 13, 32, 160, 5760, 8232, 8233, 8239, 8287, 12288, 65279] ||
    (8192 ≤ c.toNat && c.toNat ≤ 8202)

/-- `s.trim()`. -/
def jsTrim (s : String) : String :=
  String.ofList (((s.toList.dropWhile isJsSpace).reverse.dropWhile isJsSpace).reverse)

def readString (v : Option (Json F)) : Option String :=
  (v.bind Json.str?).bind fun s => if (jsTrim s).isEmpty then none else some (jsTrim s)

def readNumber (v : Option (Json F)) : Option (JsNumber F) :=
  match v with
  | some (.int n) => some (.int n)
  | some (.float x) => some (.float x)
  | _ => none

def readTrue (v : Option (Json F)) : Bool :=
  match v with
  | some (.bool b) => b
  | _ => false

/-- The value, if `typeof` finds an object that is not null. -/
def readObject (v : Option (Json F)) : Option (Json F) :=
  match v with
  | some (.obj ms) => some (.obj ms)
  | some (.arr vs) => some (.arr vs)
  | _ => none

inductive ConversationState
  | idle | starting | working | needsAttention | awaitingUser | awaitingPermission
  | cancelling | cancelled | completed | failed | interrupted | resuming
  deriving DecidableEq

def normalizeConversationState (v : Option (Json F)) : ConversationState :=
  match v.bind Json.str? with
  | some "starting" => .starting
  | some "working" => .working
  | some "needs_attention" => .needsAttention
  | some "awaiting_user" => .awaitingUser
  | some "awaiting_permission" => .awaitingPermission
  | some "cancelling" => .cancelling
  | some "cancelled" => .cancelled
  | some "completed" => .completed
  | some "failed" => .failed
  | some "interrupted" => .interrupted
  | some "resuming" => .resuming
  | _ => .idle

inductive SandboxMode
  | readOnly | workspaceWrite | fullAccess
  deriving DecidableEq

def normalizeSandboxMode (v : Option (Json F)) : SandboxMode :=
  match v.bind Json.str? with
  | some "read-only" => .readOnly
  | some "full-access" => .fullAccess
  | _ => .workspaceWrite

structure Conversation (F : Type) where
  conversationId : String
  projectId : String
  title : String
  state : ConversationState
  createdAt : JsNumber F
  updatedAt : JsNumber F
  provider : String
  model : String
  reasoningEffort : String
  sandbox : SandboxMode
  pinned : Bool
  archived : Bool
  activeRunId : Option String
  lastError : Option String
  deriving DecidableEq

inductive MessageRole
  | user | assistant | system
  deriving DecidableEq

inductive MessageKind
  | message | thinking
  deriving DecidableEq

structure ConversationMessage (F : Type) where
  messageId : String
  turnId : String
  role : MessageRole
  text : String
  kind : MessageKind
  createdAt : JsNumber F
  deriving DecidableEq

structure RuntimeEvent (F : Type) where
  event : String
  data : Json F

structure Store (F : Type) where
  conversations : List (String × Conversation F)
  messagesByConversation : List (String × List (ConversationMessage F))
  selectedProjectId : Option String
  selectedConversationId : Option String
  models : List String
  selectedModel : Option String
  reasoningEffort : String

namespace DesktopHost

def normalizeTimestamp (host : DesktopHost F) (now : Int) (value : JsNumber F) : JsNumber F :=
  match value with
  | .int n => if 0 < n ∧ n < 10000000000 then .int (n * 1000) else .int n
  | .float x =>
      if host.isFinite x then .float (if host.inSeconds x then host.thousandfold x else x)
      else .int now

def setById (byId : List (String × ConversationMessage F)) (message : ConversationMessage F) :
    List (String × ConversationMessage F) :=
  if message.messageId = "" then byId else Members.insert message.messageId message byId

def normalizeMessages (host : DesktopHost F) (now : Int) (messages : List (ConversationMessage F)) :
    List (ConversationMessage F) :=
  ((messages.foldl setById []).map Prod.snd).mergeSort fun a b =>
    host.atMost (host.normalizeTimestamp now a.createdAt) (host.normalizeTimestamp now b.createdAt)

end DesktopHost

namespace Store

def messagesOf (s : Store F) (conversationId : String) : List (ConversationMessage F) :=
  (s.messagesByConversation.lookup conversationId).getD []

def mergeConversations (s : Store F) (conversations : List (Conversation F)) :
    List (String × Conversation F) :=
  conversations.foldl (fun next conversation =>
    if conversation.conversationId = "" then next
    else Members.insert conversation.conversationId conversation next) s.conversations

def setConversationMessages (host : DesktopHost F) (now : Int) (s : Store F)
    (conversationId : String) (messages : List (ConversationMessage F)) :
    List (String × List (ConversationMessage F)) :=
  Members.insert conversationId (host.normalizeMessages now messages) s.messagesByConversation

def mergeConversationMessages (host : DesktopHost F) (now : Int) (s : Store F)
    (conversationId : String) (messages : List (ConversationMessage F)) :
    List (String × List (ConversationMessage F)) :=
  s.setConversationMessages host now conversationId (s.messagesOf conversationId ++ messages)

/-- `patchConversationState` with a patch that sets no time. -/
def patchConversationState (now : Int) (s : Store F) (conversationId : String)
    (patch : Conversation F → Conversation F) : List (String × Conversation F) :=
  match s.conversations.lookup conversationId with
  | none => s.conversations
  | some existing =>
      Members.insert conversationId { patch existing with updatedAt := .int now } s.conversations

def readConversation (now : Int) (s : Store F) (frame : RuntimeEvent F) :
    Option (Conversation F) := do
  let candidate := (readObject (frame.data.get? "conversation")).getD frame.data
  let conversationId ← readString (candidate.get? "conversationId")
  let projectId ← readString (candidate.get? "projectId")
  return {
    conversationId, projectId
    title := (readString (candidate.get? "title")).getD "New conversation"
    state := normalizeConversationState (candidate.get? "state")
    createdAt := (readNumber (candidate.get? "createdAt")).getD (.int now)
    updatedAt := (readNumber (candidate.get? "updatedAt")).getD (.int now)
    provider := "codex"
    model := (readString (candidate.get? "model")).getD (s.selectedModel.getD "codex")
    reasoningEffort := (readString (candidate.get? "reasoningEffort")).getD s.reasoningEffort
    sandbox := normalizeSandboxMode (candidate.get? "sandbox")
    pinned := readTrue (candidate.get? "pinned")
    archived := readTrue (candidate.get? "archived")
    activeRunId := readString (candidate.get? "activeRunId")
    lastError := readString (candidate.get? "lastError") }

def readMessage (now : Int) (frame : RuntimeEvent F) : Option (ConversationMessage F) := do
  let candidate ← readObject (frame.data.get? "message")
  let messageId ← readString (candidate.get? "messageId")
  let turnId ← readString (candidate.get? "turnId")
  let text ← readString (candidate.get? "text")
  return {
    messageId, turnId, text
    role := match (candidate.get? "role").bind Json.str? with
      | some "user" => .user
      | some "system" => .system
      | _ => .assistant
    kind := if (candidate.get? "kind").bind Json.str? = some "thinking" then .thinking else .message
    createdAt := (readNumber (candidate.get? "createdAt")).getD (.int now) }

def eventPatch (frame : RuntimeEvent F) : Option (Conversation F → Conversation F) :=
  let state := normalizeConversationState (frame.data.get? "state")
  let runId := readString (frame.data.get? "runId")
  match frame.event with
  | "run.started" => some fun c =>
      { c with
        state := if state = .idle then .starting else state
        activeRunId := runId
        lastError := none }
  | "coordinator.started" => some fun c => { c with state := .working, activeRunId := runId }
  | "run.status" => some fun c => { c with state := state }
  | "run.completed" => some fun c =>
      { c with state := .completed, activeRunId := none, lastError := none }
  | "run.failed" => some fun c =>
      { c with
        state := .failed
        activeRunId := none
        lastError := some ((readString (frame.data.get? "message")).getD "DevPilot run failed.") }
  | "run.cancelled" => some fun c => { c with state := .cancelled, activeRunId := none }
  | "user.input_required" => some fun c => { c with state := .needsAttention }
  | _ => none

def eventConversationId (now : Int) (s : Store F) (frame : RuntimeEvent F) : Option String :=
  ((s.readConversation now frame).map (·.conversationId)).orElse fun _ =>
    readString (frame.data.get? "conversationId")

def onRuntimeEvent (host : DesktopHost F) (now : Int) (s : Store F) (frame : RuntimeEvent F) :
    Store F :=
  { s with
    conversations := match s.readConversation now frame with
      | some conversation => s.mergeConversations [conversation]
      | none => match s.eventConversationId now frame, eventPatch frame with
        | some conversationId, some patch => s.patchConversationState now conversationId patch
        | _, _ => s.conversations
    messagesByConversation := match s.eventConversationId now frame, readMessage now frame with
      | some conversationId, some message =>
          s.mergeConversationMessages host now conversationId [message]
      | _, _ => s.messagesByConversation }

end Store

end DevPilot
