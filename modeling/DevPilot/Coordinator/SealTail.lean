import DevPilot.Core.AgentPairing

/-!
Sealing a replayed history: a trailing assistant message gets error results
for its `tool_use` blocks.
-/

namespace DevPilot

open PyJson CallPairing

variable {F : Type}

def interruptedResult (block : Json F) : Json F :=
  .obj [("type", .str "tool_result"), ("tool_use_id", (block.get? "id").getD .null),
    ("content", .str "[interrupted by checkpoint/resume — not executed]"), ("is_error", .bool true)]

def toolUses (msg : Json F) : List (Json F) := (blocks msg).filter (hasType "tool_use")

def sealInterruptedTail (messages : List (Json F)) : List (Json F) :=
  match messages.getLast? with
  | none => messages
  | some last =>
      if !isAssistant last || (toolUses last).isEmpty then messages
      else messages ++ [message "user" (.arr ((toolUses last).map interruptedResult))]

def toolUseIds (msg : Json F) : List (Option String) := (toolUses msg).map (·.getStr? "id")

def earlierMessages (messages : List (Json F)) : List (Json F) :=
  if messages.getLast?.any isAssistant then messages.dropLast else messages

def AllAnswered (messages : List (Json F)) : Prop := Complete (messages.flatMap (turns false))

instance (messages : List (Json F)) : Decidable (AllAnswered messages) :=
  inferInstanceAs (Decidable (Complete _))

/-- The calls of a trailing assistant message are `tool_use` blocks. -/
def SealableTail (messages : List (Json F)) : Prop :=
  ∀ last ∈ messages.getLast?, isAssistant last = true → ∀ c ∈ callIds last, c ∈ toolUseIds last

theorem turns_interruptedResults (b : Bool) (uses : List (Json F)) :
    turns b (message "user" (.arr (uses.map interruptedResult))) =
      (uses.map (·.getStr? "id")).map fun i => .answers [i] := by
  have hblock : ∀ use : Json F, blockTurns b (interruptedResult use) = [.answers [use.getStr? "id"]] := by
    intro use
    have hid : (interruptedResult use).getStr? "tool_use_id" = use.getStr? "id" := by
      show (some ((use.get? "id").getD .null)).bind Json.str? = (use.get? "id").bind Json.str?
      cases use.get? "id" <;> rfl
    have htype : (interruptedResult use).getStr? "type" = some "tool_result" := rfl
    simp only [blockTurns, resultId?, htype, if_true, hid]
  rw [turns_user, List.flatMap_map, List.map_map, List.map_eq_flatMap]
  exact List.flatMap_congr fun use _ => hblock use

theorem prefix_sealInterruptedTail (messages : List (Json F)) :
    messages <+: sealInterruptedTail messages := by
  rw [sealInterruptedTail]
  split
  · exact List.prefix_rfl
  · split_ifs
    · exact List.prefix_rfl
    · exact List.prefix_append _ _

theorem sealInterruptedTail_of_not_isAssistant {messages : List (Json F)}
    (h : messages.getLast?.any isAssistant = false) : sealInterruptedTail messages = messages := by
  rw [sealInterruptedTail]
  split
  · rfl
  · rename_i last hlast
    rw [hlast] at h
    simp only [Option.any_some] at h
    simp [h]

theorem turns_sealInterruptedTail (b : Bool) (earlier : List (Json F)) {last : Json F}
    (h : isAssistant last = true) :
    (sealInterruptedTail (earlier ++ [last])).flatMap (turns b) =
      earlier.flatMap (turns b) ++ .asks (callIds last) ::
        (toolUseIds last).map fun i => .answers [i] := by
  rw [sealInterruptedTail]
  rw [List.getLast?_concat]
  simp only [h, Bool.not_true, Bool.false_or]
  split_ifs with hempty
  · rw [toolUseIds, List.isEmpty_iff.mp hempty, List.flatMap_append, List.flatMap_singleton,
      turns_of_isAssistant h]
    rfl
  · rw [List.flatMap_append, List.flatMap_append, List.flatMap_singleton, List.flatMap_singleton,
      turns_of_isAssistant h, turns_interruptedResults, List.append_assoc]
    rfl

/-- Sealing answers every call and keeps all earlier messages exactly when
the messages before a trailing reply were answered and that reply makes its
calls in `tool_use` blocks. -/
theorem sealInterruptedTail_answersAll_iff (messages : List (Json F)) :
    (messages <+: sealInterruptedTail messages ∧ AllAnswered (sealInterruptedTail messages)) ↔
      AllAnswered (earlierMessages messages) ∧ SealableTail messages := by
  rw [and_iff_right (prefix_sealInterruptedTail messages)]
  unfold earlierMessages SealableTail
  cases hlast : messages.getLast?.any isAssistant with
  | false =>
      rw [sealInterruptedTail_of_not_isAssistant hlast, if_neg (by simp)]
      refine ⟨fun h => ⟨h, fun last hl ha => ?_⟩, And.left⟩
      rw [Option.mem_def.mp hl, Option.any_some, ha] at hlast
      exact absurd hlast (by simp)
  | true =>
      obtain ⟨last, hl, ha⟩ := (Option.any_eq_true _ _).mp hlast
      obtain ⟨earlier, rfl⟩ := List.getLast?_eq_some_iff.mp hl
      simp only [AllAnswered, turns_sealInterruptedTail false earlier ha, complete_append_asks_iff,
        answersTo_singletons, complete_singletons, and_true, if_true, List.dropLast_concat,
        List.getLast?_concat, Option.mem_def, Option.some.injEq, forall_eq', ha, true_implies]

def nativeReadReply : LLMResponse FloatText :=
  responsesParseResponse ⟨literalFormat, fun _ => "", fun _ => "toolu_0"⟩
    { output := [.obj [("type", .str "function_call"), ("call_id", .str "c1"), ("name", .str "Read"),
        ("arguments", .str "")]]
      outputText := ""
      incompleteReason := none }

theorem sealInterruptedTail_misses_nativeCall :
    ¬ ∀ (agent : Agent) (worlds : Nat → World FloatText) (userMessage : String),
      ∀ history ∈ (runLoop agent worlds userMessage freshState).held,
        history <+: sealInterruptedTail history ∧ AllAnswered (sealInterruptedTail history) := by
  intro h
  have hbad : (runLoop (reader 1) (fun _ => replies nativeReadReply) "go" freshState).held.all
      (fun history => decide (AllAnswered (sealInterruptedTail history))) = false := by
    decide
  rw [← Bool.not_eq_true, List.all_eq_true] at hbad
  exact hbad fun history hh => decide_eq_true (h _ _ _ history hh).2

theorem allAnswered_earlier_of_interruptible {history : List (Json F)}
    (h : Interruptible false history) : AllAnswered (earlierMessages history) := by
  have hwf : ∀ {messages : List (Json F)}, WellFormed false messages → AllAnswered messages :=
    fun hm => complete_of_paired hm.2
  rcases h with h | ⟨earlier, last, rfl, hd⟩
  · rw [earlierMessages]
    split_ifs with hlast
    · obtain ⟨last, hl, ha⟩ := (Option.any_eq_true _ _).mp hlast
      obtain ⟨earlier, rfl⟩ := List.getLast?_eq_some_iff.mp hl
      have hall := hwf h
      rw [AllAnswered, List.flatMap_append, List.flatMap_singleton, turns_of_isAssistant ha,
        complete_append_asks_iff] at hall
      rw [List.dropLast_concat]
      exact hall.1
    · exact hwf h
  · rw [earlierMessages]
    rw [List.getLast?_concat, Option.any_some, if_pos hd.assistant, List.dropLast_concat]
    exact hwf hd.wellFormed

def NoNativeCalls (msg : Json F) : Prop := ∀ b ∈ blocks msg, hasType "function_call" b = false

theorem callIds_of_noNativeCalls {msg : Json F} (h : NoNativeCalls msg) :
    callIds msg = toolUseIds msg := by
  rw [callIds, toolUseIds, toolUses, ← List.filterMap_eq_map, List.filterMap_filter]
  refine List.filterMap_congr fun b hb => ?_
  have hnative := h b hb
  simp only [hasType, beq_eq_false_iff_ne, ne_eq] at hnative
  by_cases huse : b.getStr? "type" = some "tool_use" <;> simp [callId?, hasType, huse, hnative]

/-- An interrupted history whose last message makes its calls in `tool_use` blocks is
sealed completely. -/
theorem allAnswered_sealed {earlier : List (Json F)} {last : Json F} (hassistant : isAssistant last = true)
    (hcalls : NoNativeCalls last) (h : Interruptible false (earlier ++ [last])) :
    AllAnswered (sealInterruptedTail (earlier ++ [last])) := by
  have hearlier := allAnswered_earlier_of_interruptible h
  rw [earlierMessages, List.getLast?_concat, Option.any_some, if_pos hassistant,
    List.dropLast_concat] at hearlier
  rw [AllAnswered, turns_sealInterruptedTail false earlier hassistant, complete_append_asks_iff,
    answersTo_singletons, callIds_of_noNativeCalls hcalls]
  exact ⟨hearlier, fun c hc => hc, complete_singletons _⟩

theorem claude_noNativeCalls (raw : ClaudeMessage F) :
    NoNativeCalls (message "assistant" (.arr (claudeParseResponse raw).rawContent)) := by
  intro b hb
  obtain ⟨block, -, hblock⟩ := List.mem_filterMap.mp (show b ∈ raw.content.filterMap (·.rawBlock?) from hb)
  cases block <;> simp only [ClaudeBlock.rawBlock?, Option.some.injEq, reduceCtorEq] at hblock <;>
    subst hblock <;> rfl

theorem openai_noNativeCalls (host : Host F) (m : ChatMessage F) :
    NoNativeCalls (message "assistant" (.arr (openaiParseResponse host m).rawContent)) := by
  intro b hb
  simp only [blocks_message_arr, openaiParseResponse, List.mem_append, List.mem_map] at hb
  rcases hb with (hb | hb) | ⟨tc, -, rfl⟩
  · split_ifs at hb
    · exact List.mem_singleton.mp hb ▸ rfl
    · simp at hb
  · split_ifs at hb
    · simp at hb
    · exact List.mem_singleton.mp hb ▸ rfl
  · rfl

theorem not_sealableTail_of_namesItsCall (earlier : List (Json F)) {bs : List (Json F)}
    (hb : ∀ b ∈ bs, NamesItsCall b) (hc : bs.filterMap callId? ≠ []) :
    ¬ SealableTail (earlier ++ [message "assistant" (.arr bs)]) := by
  intro h
  have huses : toolUseIds (message "assistant" (.arr bs)) = [] := by
    have hnone : bs.filter (hasType "tool_use") = [] := by
      rw [List.filter_eq_nil_iff]
      intro b hm
      simp [(hb b hm).1]
    rw [toolUseIds, toolUses, blocks_message_arr, hnone]
    rfl
  obtain ⟨c, hcall⟩ := List.exists_mem_of_ne_nil _ hc
  have := h _ (List.getLast?_concat ..) rfl c hcall
  rw [huses] at this
  simp at this

end DevPilot
