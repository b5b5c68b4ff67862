import DevPilot.Core.Context
import DevPilot.Lib.TextLines

/-!
Model responses, and how each provider parses the raw answer of its API into
one. The raw content goes into the history, so it has to carry the tool calls
under the ids the agent will answer.
-/

namespace DevPilot

open PyJson

variable {F : Type}

inductive ContentBlock (F : Type)
  | text (text : String)
  | toolUse (id name : String) (input : Json F)
  | thinking (text signature : String)

inductive StopReason
  | endTurn
  | toolUse
  | maxTokens
  | other (reason : String)
deriving DecidableEq

def StopReason.ofText : String → StopReason
  | "end_turn" => .endTurn
  | "tool_use" => .toolUse
  | "max_tokens" => .maxTokens
  | reason => .other reason

structure ToolCall (F : Type) where
  id : String
  name : String
  input : Json F

structure LLMResponse (F : Type) where
  content : List (ContentBlock F)
  stopReason : StopReason
  rawContent : List (Json F)

def ContentBlock.text? : ContentBlock F → Option String
  | .text t => some t
  | _ => none

def ContentBlock.toolCall? : ContentBlock F → Option (ToolCall F)
  | .toolUse id name input => some ⟨id, name, input⟩
  | _ => none

namespace LLMResponse

def getText (r : LLMResponse F) : String := "\n".intercalate (r.content.filterMap (·.text?))

def getToolCalls (r : LLMResponse F) : List (ToolCall F) := r.content.filterMap (·.toolCall?)

def Recorded (r : LLMResponse F) : Prop :=
  r.rawContent.filterMap callId? = r.getToolCalls.map fun tc => some tc.id

end LLMResponse

def stripText (s : String) : String := String.ofList (TextLines.strip s.toList)

/-- What the providers take from the host language: how floats are read, what
`str` makes of a value that is no string, and fresh tool-use ids. -/
structure Host (F : Type) where
  fmt : FloatFormat F
  pyStr : Json F → String
  makeToolUseId : Nat → String

/-- `json.loads(arguments) if arguments else {}`, with `{}` for malformed text. -/
def loadArguments (host : Host F) (arguments : String) : Json F :=
  if arguments.isEmpty then .obj [] else (loads host.fmt arguments.toList).getD (.obj [])

/-- `_parse_arguments` of the Responses and Gemini providers. -/
def parseArguments (host : Host F) (arguments : Option (Json F)) : Json F :=
  match arguments with
  | some (.obj members) => .obj members
  | some (.str text) =>
      let parsed := loadArguments host text
      if parsed.isObj then parsed else .obj []
  | _ => .obj []

inductive ClaudeBlock (F : Type)
  | text (text : String)
  | thinking (thinking signature : String)
  | redactedThinking (data : Option String)
  | toolUse (id name : String) (input : Json F)
  | other (type : String)

structure ClaudeMessage (F : Type) where
  content : List (ClaudeBlock F)
  stopReason : String

namespace ClaudeBlock

def contentBlock? : ClaudeBlock F → Option (ContentBlock F)
  | .text t => some (.text t)
  | .thinking t signature => some (.thinking t signature)
  | .toolUse id name input => some (.toolUse id name input)
  | _ => none

def rawBlock? : ClaudeBlock F → Option (Json F)
  | .text t => some (.obj [("type", .str "text"), ("text", .str t)])
  | .thinking t signature =>
      some (.obj ([("type", .str "thinking"), ("thinking", .str t)] ++
        if signature.isEmpty then [] else [("signature", .str signature)]))
  | .redactedThinking data =>
      some (.obj (("type", .str "redacted_thinking") ::
        (data.map fun d => ("data", Json.str d)).toList))
  | .toolUse id name input =>
      some (.obj [("type", .str "tool_use"), ("id", .str id), ("name", .str name), ("input", input)])
  | .other _ => none

theorem callId?_rawBlock? (b : ClaudeBlock F) :
    b.rawBlock?.bind callId? = (b.contentBlock?.bind (·.toolCall?)).map fun tc => some tc.id := by
  cases b <;> rfl

end ClaudeBlock

def claudeParseResponse (raw : ClaudeMessage F) : LLMResponse F where
  content := raw.content.filterMap (·.contentBlock?)
  stopReason := .ofText raw.stopReason
  rawContent := raw.content.filterMap (·.rawBlock?)

theorem claude_recorded (raw : ClaudeMessage F) : (claudeParseResponse raw).Recorded := by
  simp only [LLMResponse.Recorded, LLMResponse.getToolCalls, claudeParseResponse,
    List.filterMap_filterMap, List.map_filterMap, ClaudeBlock.callId?_rawBlock?]

structure ChatToolCall where
  id : String
  name : String
  arguments : String

structure ChatMessage (F : Type) where
  reasoningText : String
  reasoningOpaque : Option (Json F)
  content : String
  toolCalls : List ChatToolCall
  thinkingBlocks : List (Json F)

namespace ChatMessage

def hasReasoning (m : ChatMessage F) : Bool :=
  !m.reasoningText.isEmpty || m.reasoningOpaque.any truthy

def reasoningBlock (m : ChatMessage F) : Json F :=
  .obj ([("type", .str "thinking"), ("text", .str m.reasoningText)] ++
    ((m.reasoningOpaque.filter truthy).map fun o => ("opaque", o)).toList)

def textBlock (m : ChatMessage F) : Json F :=
  .obj [("type", .str "text"), ("text", .str m.content)]

end ChatMessage

def ChatToolCall.rawBlock (host : Host F) (tc : ChatToolCall) : Json F :=
  .obj [("type", .str "tool_use"), ("id", .str tc.id), ("name", .str tc.name),
    ("input", loadArguments host tc.arguments)]

def openaiParseResponse (host : Host F) (m : ChatMessage F) : LLMResponse F where
  content := (if m.hasReasoning then [.thinking m.reasoningText ""] else []) ++
    (if m.content.isEmpty then [] else [.text m.content]) ++
    m.toolCalls.map fun tc => .toolUse tc.id tc.name (loadArguments host tc.arguments)
  stopReason := if m.toolCalls.isEmpty then .endTurn else .toolUse
  rawContent := (if m.hasReasoning then [m.reasoningBlock] else []) ++
    (if m.content.isEmpty then [] else [m.textBlock]) ++ m.toolCalls.map (·.rawBlock host)

/-- `_to_native_thinking`: only signed or redacted thinking can be replayed. -/
def toNativeThinking (b : Json F) : Option (Json F) :=
  if b.getStr? "type" = some "thinking" ∧ (b.get? "signature").any truthy then
    some (.obj [("type", .str "thinking"), ("thinking", (b.get? "thinking").getD (.str "")),
      ("signature", (b.get? "signature").getD .null)])
  else if b.getStr? "type" = some "redacted_thinking" ∧ (b.get? "data").any truthy then
    some (.obj [("type", .str "redacted_thinking"), ("data", (b.get? "data").getD .null)])
  else none

/-- `LiteLLMProvider._parse_response`: signed thinking replaces the unsigned. -/
def litellmParseResponse (host : Host F) (m : ChatMessage F) : LLMResponse F :=
  let resp := openaiParseResponse host m
  let signed := m.thinkingBlocks.filterMap toNativeThinking
  if signed.isEmpty then resp
  else { resp with
    rawContent := signed ++ resp.rawContent.filter (·.getStr? "type" != some "thinking") }

theorem openai_recorded (host : Host F) (m : ChatMessage F) :
    (openaiParseResponse host m).Recorded := by
  have hcalls : m.toolCalls.filterMap (fun tc => callId? (tc.rawBlock host)) =
      m.toolCalls.map fun tc => some tc.id := by
    rw [← List.filterMap_eq_map]
    rfl
  simp only [LLMResponse.Recorded, LLMResponse.getToolCalls, openaiParseResponse,
    List.filterMap_append, List.filterMap_map]
  split_ifs <;>
    simpa [Function.comp_def, ContentBlock.toolCall?, ChatMessage.textBlock, ChatMessage.reasoningBlock,
      callId?, Json.getStr?] using hcalls

theorem callId?_toNativeThinking (b : Json F) : (toNativeThinking b).bind callId? = none := by
  rw [toNativeThinking]
  split_ifs <;> rfl

theorem litellm_recorded (host : Host F) (m : ChatMessage F) :
    (litellmParseResponse host m).Recorded := by
  unfold litellmParseResponse
  simp only
  split_ifs
  · exact openai_recorded host m
  · have hthinking : ∀ b : Json F, ((if b.getStr? "type" != some "thinking" then some b else none).bind
        callId?) = callId? b := by
      intro b
      by_cases h : b.getStr? "type" = some "thinking"
      · simp [h, callId?]
      · simp [h]
    have hfilter : ∀ bs : List (Json F),
        (bs.filter (·.getStr? "type" != some "thinking")).filterMap callId? = bs.filterMap callId? := by
      intro bs
      rw [← List.filterMap_eq_filter, List.filterMap_filterMap]
      exact List.filterMap_congr fun b _ => hthinking b
    have hnone : (m.thinkingBlocks.filterMap toNativeThinking).filterMap callId? = [] := by
      simp only [List.filterMap_filterMap, callId?_toNativeThinking, List.filterMap_none]
    have := openai_recorded host m
    rw [LLMResponse.Recorded] at this ⊢
    rw [List.filterMap_append, hnone, List.nil_append, hfilter, this]
    rfl

structure ResponsesMessage (F : Type) where
  output : List (Json F)
  outputText : String
  incompleteReason : Option String

def contentPartToText (host : Host F) (part : Json F) : String :=
  match part with
  | .null => ""
  | .str s => s
  | _ => match part.getStr? "text", part.getStr? "content" with
    | some s, _ => s
    | none, some s => s
    | none, none => host.pyStr part

def partsText (host : Host F) (parts : List (Json F)) : String :=
  stripText ("".intercalate (parts.map (contentPartToText host)))

def responsesMessageText (host : Host F) (item : Json F) : String :=
  match item.get? "content" with
  | some (.str s) => s
  | some (.arr parts) => partsText host parts
  | none | some .null => ""
  | some v => host.pyStr v

def responsesReasoningText (host : Host F) (item : Json F) : String :=
  let field (k : String) : Option String :=
    match item.get? k with
    | some (.arr parts) => some (partsText host parts)
    | some (.str s) => some (stripText s)
    | _ => none
  let nonempty (k : String) := (field k).filter (!·.isEmpty)
  ((nonempty "summary").orElse fun _ => nonempty "content").getD
    (stripText ((item.getStr? "text").getD ""))

def dedupeTexts (texts : List String) : List String := texts.destutter (· ≠ ·)

def hasType (type : String) (item : Json F) : Bool := item.getStr? "type" == some type

/-- The `ToolUseBlock` of the `i`-th output item, a function call. -/
def responsesToolCall (host : Host F) (i : Nat) (item : Json F) : ContentBlock F :=
  .toolUse ((orElse (orElse (item.getStr? "call_id") (item.getStr? "id"))
      (some (host.makeToolUseId i))).getD "")
    ((item.getStr? "name").getD "") (parseArguments host (item.get? "arguments"))

/-- The calls among the items, from item number `i` on. -/
def functionCalls (toolCall : Nat → Json F → ContentBlock F) : Nat → List (Json F) →
    List (ContentBlock F)
  | _, [] => []
  | i, item :: items =>
      if hasType "function_call" item then toolCall i item :: functionCalls toolCall (i + 1) items
      else functionCalls toolCall (i + 1) items

def responsesParseResponse (host : Host F) (raw : ResponsesMessage F) : LLMResponse F :=
  let items := raw.output.filter (·.isObj)
  let thinking := ((items.filter (hasType "reasoning")).map (responsesReasoningText host)).filter
    (!·.isEmpty)
  let texts := ((items.filter (hasType "message")).map (responsesMessageText host)).filter (!·.isEmpty)
  let calls := functionCalls (responsesToolCall host) 0 items
  { content := thinking.map (.thinking · "") ++
      (if texts.isEmpty then [] else [.text (stripText ("\n\n".intercalate (dedupeTexts texts)))]) ++
      calls ++
      (if texts.isEmpty && calls.isEmpty && !raw.outputText.isEmpty then [.text raw.outputText] else [])
    stopReason :=
      if raw.incompleteReason = some "max_output_tokens" then .maxTokens
      else if calls.isEmpty then .endTurn else .toolUse
    rawContent := items }

/-- A raw item is no Claude block, and a function call names itself by a
non-empty id. -/
def NamesItsCall (item : Json F) : Prop :=
  hasType "tool_use" item = false ∧ (hasType "function_call" item = true →
    ∃ id, id ≠ "" ∧ orElse (item.getStr? "call_id") (item.getStr? "id") = some id)

theorem callId?_of_namesItsCall {item : Json F} (h : NamesItsCall item) :
    callId? item = if hasType "function_call" item then
      some (orElse (item.getStr? "call_id") (item.getStr? "id")) else none := by
  have htool := h.1
  simp only [hasType, beq_eq_false_iff_ne, ne_eq] at htool
  simp [callId?, htool, hasType]

theorem functionCalls_recorded {toolCall : Nat → Json F → ContentBlock F} {items : List (Json F)}
    (hcall : ∀ i, ∀ item ∈ items, ∀ id, id ≠ "" →
      orElse (item.getStr? "call_id") (item.getStr? "id") = some id →
      (toolCall i item).toolCall?.map ToolCall.id = some id)
    (h : ∀ item ∈ items, NamesItsCall item) (i : Nat) :
    items.filterMap callId? =
      ((functionCalls toolCall i items).filterMap (·.toolCall?)).map fun tc => some tc.id := by
  induction items generalizing i with
  | nil => rfl
  | cons item items ih =>
      simp only [List.mem_cons, forall_eq_or_imp] at h
      have htail := ih (fun i item hi => hcall i item (List.mem_cons_of_mem _ hi)) h.2 (i + 1)
      rw [List.filterMap_cons, callId?_of_namesItsCall h.1, functionCalls]
      split_ifs with hc
      · obtain ⟨id, hne, hid⟩ := h.1.2 hc
        have hi := hcall i item List.mem_cons_self id hne hid
        obtain ⟨tc, htc, rfl⟩ := Option.map_eq_some_iff.mp hi
        simp only [hid, List.filterMap_cons, htc, List.map_cons, htail]
      · exact htail

theorem responsesToolCall_id (host : Host F) (i : Nat) (item : Json F) (id : String) (hne : id ≠ "")
    (h : orElse (item.getStr? "call_id") (item.getStr? "id") = some id) :
    (responsesToolCall host i item).toolCall?.map ToolCall.id = some id := by
  have hid : orElse (some id) (some (host.makeToolUseId i)) = some id := by
    simp [orElse, String.isEmpty_iff, hne]
  simp [responsesToolCall, ContentBlock.toolCall?, h, hid]

theorem responses_recorded (host : Host F) {raw : ResponsesMessage F}
    (h : ∀ item ∈ raw.output, NamesItsCall item) : (responsesParseResponse host raw).Recorded := by
  have hitems : ∀ item ∈ raw.output.filter (·.isObj), NamesItsCall item := fun item hi =>
    h item (List.mem_filter.mp hi).1
  have hcalls := functionCalls_recorded
    (fun i item _ => responsesToolCall_id host i item) hitems 0
  have hnone : ∀ (ts : List String) (f : String → ContentBlock F), (∀ t, (f t).toolCall? = none) →
      (ts.map f).filterMap (·.toolCall?) = [] := by
    intro ts f hf
    rw [List.filterMap_map]
    exact List.filterMap_eq_nil_iff.mpr fun t _ => hf t
  simp only [LLMResponse.Recorded, LLMResponse.getToolCalls, responsesParseResponse,
    List.filterMap_append]
  rw [hnone _ _ fun t => rfl, hcalls]
  split_ifs <;> simp [ContentBlock.toolCall?]

structure GeminiMessage (F : Type) where
  steps : List (Json F)
  outputText : String
  status : String

def geminiContentText (host : Host F) (content : Option (Json F)) : String :=
  let blockText (b : Json F) : String := stripText <|
    match (b.get? "text").getD (.str "") with
    | .str s => s
    | v => host.pyStr v
  match content with
  | some (.str s) => stripText s
  | some (.arr blocks) => stripText <| "\n".intercalate <|
      ((blocks.filter (hasType "text")).map blockText).filter (!·.isEmpty)
  | _ => ""

def geminiThoughtText (host : Host F) (step : Json F) : String :=
  match step.get? "summary" with
  | some (.arr blocks) => geminiContentText host (some (.arr blocks))
  | some (.str s) => stripText s
  | _ => ""

def geminiDisplayBlock? (host : Host F) (step : Json F) : Option (ContentBlock F) :=
  if hasType "thought" step then
    let text := geminiThoughtText host step
    if text.isEmpty then none else some (.thinking text ((step.getStr? "signature").getD ""))
  else if hasType "model_output" step then
    let text := geminiContentText host (step.get? "content")
    if text.isEmpty then none else some (.text text)
  else none

def geminiToolCall (host : Host F) (i : Nat) (step : Json F) : ContentBlock F :=
  .toolUse ((orElse (step.getStr? "id") (some (host.makeToolUseId i))).getD "")
    ((step.getStr? "name").getD "") (parseArguments host (step.get? "arguments"))

def modelOutput (text : String) : Json F :=
  .obj [("type", .str "model_output"),
    ("content", .arr [.obj [("type", .str "text"), ("text", .str text)]])]

def geminiParseResponse (host : Host F) (raw : GeminiMessage F) : LLMResponse F :=
  let steps := raw.steps.filter (·.isObj)
  let calls := functionCalls (geminiToolCall host) 0 steps
  let content := steps.filterMap (geminiDisplayBlock? host) ++ calls
  let useOutputText := !content.any (·.text?.isSome) && !raw.outputText.isEmpty
  { content := (if useOutputText then [.text raw.outputText] else []) ++ content
    stopReason :=
      if raw.status = "incomplete" then .maxTokens
      else if calls.isEmpty && raw.status != "requires_action" then .endTurn else .toolUse
    rawContent := steps ++
      if useOutputText && !steps.any (hasType "model_output") then [modelOutput raw.outputText]
      else [] }

theorem geminiDisplayBlock?_toolCall? (host : Host F) (step : Json F) :
    (geminiDisplayBlock? host step).bind (·.toolCall?) = none := by
  rw [geminiDisplayBlock?]
  simp only
  split_ifs <;> rfl

theorem geminiToolCall_id (host : Host F) (i : Nat) (step : Json F) (id : String) (hne : id ≠ "")
    (hcall : step.getStr? "call_id" = none)
    (h : orElse (step.getStr? "call_id") (step.getStr? "id") = some id) :
    (geminiToolCall host i step).toolCall?.map ToolCall.id = some id := by
  have hid : step.getStr? "id" = some id := by simpa [hcall, orElse] using h
  simp [geminiToolCall, ContentBlock.toolCall?, hid, orElse, String.isEmpty_iff, hne]

end DevPilot
