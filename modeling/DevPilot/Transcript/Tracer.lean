import DevPilot.Lib.Buckets
import DevPilot.Transcript.Messages

/-!
The tracer of the reducer: which sub-agent thread each message belongs to, and
which messages wait for their parent or were seen before.
-/

namespace DevPilot.Transcript

open PyJson Tables

variable {F : Type}

/-- `ORPHAN_TTL_MS`, `MAX_ORPHANS_PER_PARENT`, `MAX_TOTAL_ORPHANS` -/
def orphanLimits : BucketLimits := ⟨10 * 60000, 50, 500⟩

structure TracerState (F : Type) where
  promptToTaskId : Table String
  uuidToSidechainId : Table String
  orphanMessages : Table (Bucket (NormalizedMessage F))
  processedIds : List String

def createTracer : TracerState F := ⟨.empty, .empty, .empty, []⟩

namespace TracerState

def markProcessed (key : String) (s : TracerState F) : TracerState F :=
  { s with processedIds := if key ∈ s.processedIds then s.processedIds else s.processedIds ++ [key] }

def mapUuid (uuid : Option String) (sidechainId : String) (s : TracerState F) : TracerState F :=
  match uuid with
  | some uuid => { s with uuidToSidechainId := s.uuidToSidechainId.set uuid sidechainId }
  | none => s

def pruneOrphans (now : Int) (s : TracerState F) : TracerState F :=
  { s with orphanMessages := pruneBuckets orphanLimits now s.orphanMessages }

def addOrphan (now : Int) (parentUuid : String) (message : NormalizedMessage F) (s : TracerState F) :
    TracerState F :=
  { s with orphanMessages := updateBucket orphanLimits now parentUuid (· ++ [message]) s.orphanMessages }

end TracerState

/-- `value.charCodeAt(i)` for each `i`. -/
def charCodes (value : String) : List Nat :=
  value.toList.flatMap fun c =>
    if c.toNat < 0x10000 then [c.toNat]
    else [0xD800 + (c.toNat - 0x10000) / 0x400, 0xDC00 + (c.toNat - 0x10000) % 0x400]

def hashStringFNV1a32 (value : String) : String :=
  let hash := (charCodes value).foldl (fun hash code => (hash ^^^ code) * 0x01000193 % 2 ^ 32) 0x811c9dc5
  String.ofList (Nat.toDigits 16 hash)

def getMessageUuid (message : NormalizedMessage F) : Option String :=
  message.content.head?.bind fun c => c.uuid.bind nonEmpty?

def getParentUuid (message : NormalizedMessage F) : Option String :=
  message.content.head?.bind fun c => c.parentUUID.bind nonEmpty?

def ContentBody.type : ContentBody F → String
  | .text _ => "text"
  | .thinking _ => "thinking"
  | .toolCall .. => "tool-call"
  | .toolResult _ => "tool-result"
  | .summary _ => "summary"
  | .sidechain _ => "sidechain"

def streamFingerprint (metadata : Option (MessageMeta F)) (first : Option (ContentBody F)) : String :=
  match (readStreamSegmentMetaV1 metadata).bind StreamSegmentMetaV1.updatedAtMs with
  | some updatedAtMs => "seg:" ++ toString updatedAtMs
  | none =>
      match first with
      | some (.text t) => "txt:" ++ hashStringFNV1a32 t ++ ":" ++ toString (charCodes t).length
      | some (.thinking t) => "thinking:" ++ hashStringFNV1a32 t ++ ":" ++ toString (charCodes t).length
      | _ => "v0"

def getProcessedKey (message : NormalizedMessage F) : String :=
  match message.body with
  | .agent content =>
      let first := content.head?
      let type := (first.map fun c => c.body.type).getD "unknown"
      let fingerprint := streamFingerprint message.metadata (first.map AgentContent.body)
      match first.bind fun c => c.uuid.bind nonBlank? with
      | some uuid => "agent:" ++ message.id ++ ":" ++ type ++ ":" ++ uuid ++ ":" ++ fingerprint
      | none => "agent:" ++ message.id ++ ":" ++ type ++ ":" ++ fingerprint
  | _ => "id:" ++ message.id

def promptOrphanKey (promptKey : String) : String := "__prompt__:" ++ promptKey

def firstNonEmptyString (values : List (Option String)) : Option String :=
  values.findSome? fun v => v.bind nonBlank?

def firstBoolean (values : List (Value F)) : Option Bool :=
  values.findSome? fun v =>
    match v with
    | some (.bool b) => some b
    | _ => none

def explicitSidechainId (message : NormalizedMessage F) : Option String :=
  firstNonEmptyString [message.sidechainId, (metaField message.metadata "sidechainId").string?,
    (metaField message.metadata "sidechain_id").string?]

def metaIsSidechain (message : NormalizedMessage F) : Option Bool :=
  firstBoolean [metaField message.metadata "isSidechain", metaField message.metadata "is_sidechain"]

def shouldTreatAsSidechain (message : NormalizedMessage F) : Bool :=
  message.isSidechain || metaIsSidechain message = some true || (explicitSidechainId message).isSome

structure Trace (F : Type) where
  state : TracerState F
  results : List (NormalizedMessage F)

def Trace.link (sidechainId : String) (message : NormalizedMessage F) (t : Trace F) : Trace F where
  state := (t.state.markProcessed (getProcessedKey message)).mapUuid (getMessageUuid message) sidechainId
  results := t.results ++ [{ message with sidechainId := some sidechainId }]

/-- Flushes the orphans of `parentUuid` and of what they are parents of. Each
call removes a bucket, so the number of buckets is enough fuel. -/
def processOrphans (sidechainId : String) : Nat → String → Trace F → Trace F
  | 0, _, t => t
  | fuel + 1, parentUuid, t =>
      match t.state.orphanMessages.get parentUuid with
      | none => t
      | some bucket =>
          let state := { t.state with orphanMessages := t.state.orphanMessages.delete parentUuid }
          bucket.items.foldl (fun t orphan =>
            match getMessageUuid orphan with
            | some uuid => processOrphans sidechainId fuel uuid (t.link sidechainId orphan)
            | none => t.link sidechainId orphan) { t with state }

def flushOrphans (sidechainId parentUuid : String) (t : Trace F) : Trace F :=
  processOrphans sidechainId t.state.orphanMessages.entries.length parentUuid t

def taskOf (messageId : String) (content : AgentContent F) : Option (String × String) :=
  match content.body with
  | .toolCall id name input _ =>
      if isGenericSubAgentToolName name then do
        let ms ← asRecord input
        let toolCallId ← (nonEmpty? id).or (nonEmpty? messageId)
        let promptKey ← (field ms "prompt").string?.bind nonBlank?
        some (promptKey, toolCallId)
      else none
  | _ => none

/-- Indexes a Task tool call and flushes the roots that waited for its prompt. -/
def indexTask (t : Trace F) (task : String × String) : Trace F :=
  let promptToTaskId := t.state.promptToTaskId.set task.1 task.2
  flushOrphans task.2 (promptOrphanKey task.1) { t with state := { t.state with promptToTaskId } }

/-- The task whose prompt the content carries, and the prompt to wait for. -/
def linkByPrompt (promptToTaskId : Table String) :
    List (AgentContent F) → Option String → Option String × Option String
  | [], pending => (none, pending)
  | ⟨.sidechain prompt, _, _⟩ :: rest, pending =>
      match nonBlank? prompt with
      | none => linkByPrompt promptToTaskId rest pending
      | some promptKey =>
          match promptToTaskId.get promptKey with
          | some taskId => (some taskId, pending)
          | none => linkByPrompt promptToTaskId rest (some promptKey)
  | _ :: rest, pending => linkByPrompt promptToTaskId rest pending

def linkAndFlush (sidechainId : String) (message : NormalizedMessage F) (t : Trace F) : Trace F :=
  let t := t.link sidechainId message
  match getMessageUuid message with
  | some uuid => flushOrphans sidechainId uuid t
  | none => t

def traceSidechainMessage (now : Int) (message : NormalizedMessage F) (t : Trace F) : Trace F :=
  let (root, pendingPromptKey) :=
    match explicitSidechainId message with
    | some sidechainId => (some sidechainId, none)
    | none => linkByPrompt t.state.promptToTaskId message.content none
  match root with
  | some sidechainId => linkAndFlush sidechainId message t
  | none =>
      match getParentUuid message with
      | some parentUuid =>
          match t.state.uuidToSidechainId.get parentUuid with
          | some parentSidechainId => linkAndFlush parentSidechainId message t
          | none => { t with state := t.state.addOrphan now parentUuid message }
      | none =>
          match pendingPromptKey with
          | some promptKey => { t with state := t.state.addOrphan now (promptOrphanKey promptKey) message }
          | none => { t with state := t.state.markProcessed (getProcessedKey message) }

def traceMessage (now : Int) (t : Trace F) (message : NormalizedMessage F) : Trace F :=
  if getProcessedKey message ∈ t.state.processedIds then t
  else
    let t := (message.content.filterMap (taskOf message.id)).foldl indexTask t
    if shouldTreatAsSidechain message then traceSidechainMessage now message t
    else ⟨t.state.markProcessed (getProcessedKey message), t.results ++ [message]⟩

def traceMessages (now : Int) (s : TracerState F) (messages : List (NormalizedMessage F)) : Trace F :=
  messages.foldl (traceMessage now) ⟨s.pruneOrphans now, []⟩

end DevPilot.Transcript
