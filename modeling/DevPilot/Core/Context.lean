import DevPilot.Core.Messages
import DevPilot.Lib.JsonText
import DevPilot.Lib.Slices

/-!
Context compaction: the three layers that shorten tool results, the LLM
summary of old messages and the emergency truncation.
-/

namespace DevPilot

open PyJson CallPairing Slices

variable {F : Type}

/-- Rewrite the text of a `tool_result` block where `f` gives a new one. -/
def rewriteResult (f : String → Option String) (block : Json F) : Json F :=
  if block.getStr? "type" = some "tool_result" then
    match (block.getStr? "content").bind f with
    | some text => block.set "content" (.str text)
    | none => block
  else block

def truncateText (maxChars : Nat) (text : String) : String :=
  let headSize := maxChars * 2 / 3
  let tailSize := maxChars / 3
  textUpTo text headSize ++ "\n\n...[truncated " ++
    toString (text.length - headSize - tailSize) ++ " chars]...\n\n" ++ textStartingAt text (-tailSize)

def truncateLongToolResults (maxCharsPerResult : Nat) (messages : List (Json F)) : List (Json F) :=
  messages.map <| mapBlocks <| rewriteResult fun text =>
    if text.length > maxCharsPerResult then some (truncateText maxCharsPerResult text) else none

/-- The default of `max_chars_per_result`. -/
def maxCharsPerResult : Nat := 15000

/-- The default of `keep_recent_n`. -/
def keepRecentN : Int := 10

/-- Messages before this index are old: `max(0, len(messages) - keep_recent_n)`. -/
def boundary (keepRecentN : Int) (messages : List (Json F)) : Nat :=
  (messages.length - keepRecentN).toNat

def snipOldToolResults (keepRecentN : Int) (messages : List (Json F)) : List (Json F) :=
  messages.mapIdx fun i msg =>
    if i ≥ boundary keepRecentN messages then msg
    else mapBlocks (rewriteResult fun text =>
      if text.length > 500 then some (textUpTo text 200 ++ "\n...[snipped — old tool result]")
      else none) msg

/-- The file a `tool_use` block of the Read tool reads. -/
def readPath? (block : Json F) : Option String :=
  if block.getStr? "type" = some "tool_use" ∧ block.getStr? "name" = some "Read" then
    ((block.get? "input").bind (·.getStr? "file_path")).filter (!·.isEmpty)
  else none

def readPositions (keepRecentN : Int) (messages : List (Json F)) : List (String × Nat) :=
  ((messages.take (boundary keepRecentN messages)).mapIdx fun i msg =>
    ((blocks msg).filterMap readPath?).map (·, i)).flatten

/-- The ids of the Read calls of `path` in a message. -/
def readIds (path : String) (msg : Json F) : List String :=
  ((blocks msg).filter (readPath? · = some path)).map fun b => (b.getStr? "id").getD ""

def snipIds (keepRecentN : Int) (messages : List (Json F)) : List String :=
  let positions := readPositions keepRecentN messages
  (positions.map Prod.fst).dedup.flatMap fun path =>
    ((positions.filter (·.1 = path)).map Prod.snd).dropLast.flatMap fun i =>
      ((messages[i]?).map (readIds path)).getD []

def snipReread (ids : List String) (block : Json F) : Json F :=
  if block.getStr? "type" = some "tool_result" ∧ (block.getStr? "tool_use_id").any (· ∈ ids) then
    block.set "content" (.str "[snipped — file was re-read later]")
  else block

def dropRedundantReads (keepRecentN : Int) (messages : List (Json F)) : List (Json F) :=
  let ids := snipIds keepRecentN messages
  if ids.isEmpty then messages else messages.map (mapBlocks (snipReread ids))

theorem keepsCalls_rewriteResult (f : String → Option String) :
    KeepsCalls (rewriteResult f : Json F → Json F) := by
  intro b
  rw [rewriteResult]
  split_ifs
  · split
    · exact keepsCalls_set (by decide) _ _
    · exact ⟨rfl, fun _ => rfl⟩
  · exact ⟨rfl, fun _ => rfl⟩

theorem keepsCalls_snipReread (ids : List String) :
    KeepsCalls (snipReread ids : Json F → Json F) := by
  intro b
  rw [snipReread]
  split_ifs
  · exact keepsCalls_set (by decide) _ _
  · exact ⟨rfl, fun _ => rfl⟩

theorem turns_truncateLongToolResults (b : Bool) (n : Nat) (messages : List (Json F)) :
    (truncateLongToolResults n messages).map (turns b) = messages.map (turns b) := by
  rw [truncateLongToolResults, List.map_map]
  exact List.map_congr_left fun msg _ => turns_mapBlocks (keepsCalls_rewriteResult _) b msg

theorem turns_snipOldToolResults (b : Bool) (n : Int) (messages : List (Json F)) :
    (snipOldToolResults n messages).map (turns b) = messages.map (turns b) := by
  refine List.ext_getElem (by simp [snipOldToolResults]) fun i h₁ h₂ => ?_
  simp only [snipOldToolResults, List.getElem_map, List.getElem_mapIdx]
  split_ifs
  · rfl
  · exact turns_mapBlocks (keepsCalls_rewriteResult _) b _

theorem turns_dropRedundantReads (b : Bool) (n : Int) (messages : List (Json F)) :
    (dropRedundantReads n messages).map (turns b) = messages.map (turns b) := by
  unfold dropRedundantReads
  simp only
  split_ifs
  · rfl
  · rw [List.map_map]
    exact List.map_congr_left fun msg _ => turns_mapBlocks (keepsCalls_snipReread _) b msg

/-- `bool(x)` of a JSON value. No field tested this way holds a float. -/
def truthy : Json F → Bool
  | .null => false
  | .bool b => b
  | .int n => n != 0
  | .float _ => true
  | .str s => !s.isEmpty
  | .arr items => !items.isEmpty
  | .obj members => !members.isEmpty

structure ContextManager (F : Type) where
  fmt : FloatFormat F
  countTokens : String → Nat
  contextWindow : Nat
  threshold : Int
  keepRecent : Int
  scaleLength : Nat → Nat → Nat → Nat
  compactCount : Nat

/-- `json.dumps(v, ensure_ascii=False)` as a text. -/
def ContextManager.dumpsText (cm : ContextManager F) (v : Json F) : String :=
  String.ofList (dumps cm.fmt .spaced v)

def estimateBlockTokens (cm : ContextManager F) (block : Json F) : Nat :=
  match block with
  | .obj _ =>
      let text := match (block.get? "text").filter truthy with
        | some t => t
        | none => (block.get? "content").getD (.str "")
      let input := (block.get? "input").filter truthy
      (text.str?.map cm.countTokens).getD 0 + (input.map (cm.countTokens ∘ cm.dumpsText)).getD 0
  | .str s => cm.countTokens s
  | _ => 0

def estimateMessageTokens (cm : ContextManager F) (messages : List (Json F)) : Nat :=
  (messages.map fun msg => match (msg.get? "content").getD (.str "") with
    | .str s => cm.countTokens s
    | .arr blocks => (blocks.map (estimateBlockTokens cm)).sum
    | _ => 0).sum

def ContextManager.currentTokens (cm : ContextManager F) (systemPrompt : String)
    (messages : List (Json F)) : Int :=
  cm.countTokens systemPrompt + estimateMessageTokens cm messages

def clip (n : Nat) (suffix : String) (text : String) : String :=
  if text.length > n then textUpTo text n ++ suffix else text

/-- The lines a block adds to the transcript; `none` where the source raises
because a block lacks its text or its name. -/
def formatBlock (cm : ContextManager F) (block : Json F) : Option (List String) :=
  match block with
  | .obj _ =>
      if block.getStr? "type" = some "text" then (block.getStr? "text").map ([·])
      else if block.getStr? "type" = some "tool_use" then
        (block.getStr? "name").map fun name =>
          ["[Tool call: " ++ name ++ "(" ++
            clip 500 "..." (cm.dumpsText ((block.get? "input").getD (.obj []))) ++ ")]"]
      else if block.getStr? "type" = some "tool_result" then
        match (block.get? "content").getD (.str "") with
        | .str s => some ["[Tool result: " ++ clip 2000 "...[truncated]" s ++ "]"]
        | _ => some []
      else some []
  | .str s => some [s]
  | _ => some []

def formatMessage (cm : ContextManager F) (msg : Json F) : Option (List String) := do
  let role ← ((msg.get? "role").getD (.str "unknown")).str?
  let header := "[" ++ role.map Char.toUpper ++ "]\n"
  match (msg.get? "content").getD (.str "") with
  | .str s => return [header ++ s]
  | .arr blocks => return [header ++ "\n".intercalate (← blocks.mapM (formatBlock cm)).flatten]
  | _ => return []

def formatMessagesForSummary (cm : ContextManager F) (messages : List (Json F)) : Option String :=
  (messages.mapM (formatMessage cm)).map fun parts => "\n\n---\n\n".intercalate parts.flatten

def fitTranscript (cm : ContextManager F) (transcript : String) : String :=
  let maxTokens := cm.contextWindow / 2
  let tokens := cm.countTokens transcript
  if tokens > maxTokens then textUpTo transcript (cm.scaleLength transcript.length maxTokens tokens)
  else transcript

structure Compacted (F : Type) where
  messages : List (Json F)
  requests : List (List (Json F))

def summaryMessage (cm : ContextManager F) (summary : String) : Json F :=
  userText ("[Conversation Summary — compaction #" ++ toString (cm.compactCount + 1) ++ "]\n\n" ++ summary)

def summaryReply : Json F :=
  message "assistant" (.str ("Understood. I have the full context from the summary above. " ++
    "Continuing from where we left off."))

/-- `_summarize_old_messages`; the summariser's answer is `none` when the call
fails. -/
def summarizeOldMessages (cm : ContextManager F) (summarise : String → Option String)
    (messages : List (Json F)) : Option (Compacted F) :=
  if (messages.length : Int) ≤ cm.keepRecent then some ⟨messages, []⟩
  else (formatMessagesForSummary cm (upTo messages (-cm.keepRecent))).map fun transcript =>
    let request := fitTranscript cm transcript
    match summarise request with
    | none => ⟨messages.drop (messages.length / 2), [[userText request]]⟩
    | some summary =>
        ⟨summaryMessage cm summary :: summaryReply :: startingAt messages (-cm.keepRecent),
          [[userText request]]⟩

def emergencyTruncate (keepRecent : Int) (messages : List (Json F)) : List (Json F) :=
  upTo messages 2 ++ startingAt messages (-(keepRecent / 2))

/-- Layers 1 to 3, each applied only while the context is too long. -/
def shortenResults (cm : ContextManager F) (fits : List (Json F) → Bool) (messages : List (Json F)) :
    List (Json F) :=
  if fits messages then messages else
  let messages := truncateLongToolResults maxCharsPerResult messages
  if fits messages then messages else
  let messages := snipOldToolResults cm.keepRecent messages
  if fits messages then messages else
  dropRedundantReads cm.keepRecent messages

/-- `ContextManager.maybe_compact`; `none` where formatting the transcript
raises. -/
def maybeCompact (cm : ContextManager F) (summarise : String → Option String)
    (messages : List (Json F)) (systemPrompt : String) : Option (ContextManager F × Compacted F) :=
  let fits := fun messages => decide (cm.currentTokens systemPrompt messages < cm.threshold)
  let messages := shortenResults cm fits messages
  if fits messages then some (cm, ⟨messages, []⟩)
  else (summarizeOldMessages cm summarise messages).map fun c =>
    let messages :=
      if fits c.messages then c.messages else emergencyTruncate cm.keepRecent c.messages
    ({ cm with compactCount := cm.compactCount + 1 }, ⟨messages, c.requests⟩)

end DevPilot
