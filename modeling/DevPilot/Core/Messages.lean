import DevPilot.Lib.JsonValue
import DevPilot.Lib.CallPairing

/-!
The message dicts of an agent's history, and what they say about tool calls.
-/

namespace DevPilot

open PyJson CallPairing

variable {F : Type}

/-- `msg.get("content")` when it is a list of blocks. -/
def blocks? (msg : Json F) : Option (List (Json F)) :=
  match msg.get? "content" with
  | some (.arr blocks) => some blocks
  | _ => none

def blocks (msg : Json F) : List (Json F) := (blocks? msg).getD []

def isAssistant (msg : Json F) : Bool := msg.getStr? "role" == some "assistant"

/-- `x or y` on optional strings. -/
def orElse (x y : Option String) : Option String :=
  match x with
  | none => y
  | some s => if s.isEmpty then y else some s

/-- The id under which a call block is answered: Claude's `tool_use` block, or
the `function_call` item of the Responses and Gemini providers. -/
def callId? (block : Json F) : Option (Option String) :=
  if block.getStr? "type" = some "tool_use" then some (block.getStr? "id")
  else if block.getStr? "type" = some "function_call" then
    some (orElse (block.getStr? "call_id") (block.getStr? "id"))
  else none

def resultId? (block : Json F) : Option (Option String) :=
  if block.getStr? "type" = some "tool_result" then some (block.getStr? "tool_use_id") else none

def callIds (msg : Json F) : List (Option String) := (blocks msg).filterMap callId?

abbrev Turns := List (Turn (Option String))

/-- Text a user sees said: a string, or a block of type `text`. -/
def isText (block : Json F) : Bool :=
  match block with
  | .str _ => true
  | block => block.getStr? "type" == some "text"

/-- How a user's text counts: with `textCloses` the calls before it have to be
answered before it, as if the text asked for nothing itself. -/
def note (textCloses : Bool) : Turns := if textCloses then [.asks []] else []

def blockTurns (textCloses : Bool) (block : Json F) : Turns :=
  match resultId? block with
  | some id => [.answers [id]]
  | none => if isText block then note textCloses else []

/-- What a message contributes to the pairing of calls and results. -/
def turns (textCloses : Bool) (msg : Json F) : Turns :=
  if isAssistant msg then [.asks (callIds msg)]
  else match msg.get? "content" with
    | some (.str _) => note textCloses
    | some (.arr blocks) => blocks.flatMap (blockTurns textCloses)
    | _ => []

def WellFormed (textCloses : Bool) (messages : List (Json F)) : Prop :=
  PairWF (messages.flatMap (turns textCloses))

/-- Every call is answered by exactly one result before the next assistant
message, and every result answers a call of the assistant message before it. -/
abbrev PairWellFormed (messages : List (Json F)) : Prop := WellFormed false messages

/-- A well-formed history whose calls are answered before any later user text. -/
abbrev AnsweredBeforeText (messages : List (Json F)) : Prop := WellFormed true messages

instance (b : Bool) (messages : List (Json F)) : Decidable (WellFormed b messages) :=
  inferInstanceAs (Decidable (PairWF _))

def message (role : String) (content : Json F) : Json F :=
  .obj [("role", .str role), ("content", content)]

def userText (text : String) : Json F := message "user" (.str text)

theorem blocks_message_arr (role : String) (bs : List (Json F)) :
    blocks (message role (.arr bs)) = bs := rfl

theorem turns_of_isAssistant {msg : Json F} (h : isAssistant msg = true) (b : Bool) :
    turns b msg = [.asks (callIds msg)] := if_pos h

@[simp] theorem turns_userText (b : Bool) (text : String) : turns b (userText text : Json F) = note b :=
  rfl

theorem turns_user (b : Bool) (bs : List (Json F)) :
    turns b (message "user" (.arr bs)) = bs.flatMap (blockTurns b) := rfl

def KeepsCalls (f : Json F → Json F) : Prop :=
  ∀ b, callId? (f b) = callId? b ∧ ∀ textCloses, blockTurns textCloses (f b) = blockTurns textCloses b

theorem keepsCalls_set {k : String} (hk : k ∉ ["type", "id", "call_id", "tool_use_id"])
    (b v : Json F) : callId? (b.set k v) = callId? b ∧
      ∀ textCloses, blockTurns textCloses (b.set k v) = blockTurns textCloses b := by
  simp only [List.mem_cons, List.not_mem_nil, or_false, not_or] at hk
  obtain ⟨h1, h2, h3, h4⟩ := hk
  have htype := Json.getStr?_set_ne (Ne.symm h1) b v
  have htext : isText (b.set k v) = isText b := by
    unfold isText
    cases b with
    | obj members => exact congrArg (· == some "text") htype
    | _ => rfl
  refine ⟨?_, fun textCloses => ?_⟩
  · simp only [callId?, htype, Json.getStr?_set_ne (Ne.symm h2), Json.getStr?_set_ne (Ne.symm h3)]
  · simp only [blockTurns, resultId?, htype, Json.getStr?_set_ne (Ne.symm h4), htext]

theorem get?_content_of_blocks? {msg : Json F} {bs : List (Json F)} (h : blocks? msg = some bs) :
    msg.get? "content" = some (.arr bs) := by
  rw [blocks?] at h
  split at h
  · rename_i hb
    rw [hb, Option.some.inj h]
  · simp at h

theorem get?_set_content {msg : Json F} {bs : List (Json F)} (h : blocks? msg = some bs) (v : Json F) :
    (msg.set "content" v).get? "content" = some v :=
  Json.get?_set_eq (get?_content_of_blocks? h) v

theorem isAssistant_set_content (msg v : Json F) :
    isAssistant (msg.set "content" v) = isAssistant msg := by
  rw [isAssistant, isAssistant, Json.getStr?_set_ne (by decide)]

theorem callIds_set_content {msg : Json F} {bs : List (Json F)} (h : blocks? msg = some bs)
    (bs' : List (Json F)) : callIds (msg.set "content" (.arr bs')) = bs'.filterMap callId? := by
  rw [callIds, blocks, blocks?, get?_set_content h]
  rfl

/-- `{**msg, "content": [f(b) for b in content]}` on messages with blocks. -/
def mapBlocks (f : Json F → Json F) (msg : Json F) : Json F :=
  match blocks? msg with
  | some bs => msg.set "content" (.arr (bs.map f))
  | none => msg

theorem turns_mapBlocks {f : Json F → Json F} (hf : KeepsCalls f) (b : Bool) (msg : Json F) :
    turns b (mapBlocks f msg) = turns b msg := by
  rw [mapBlocks]
  split
  · rename_i bs hbs
    unfold turns
    rw [isAssistant_set_content, callIds_set_content hbs, get?_set_content hbs,
      get?_content_of_blocks? hbs, callIds, blocks, hbs]
    simp only [List.filterMap_map, List.flatMap_map, Option.getD_some, Function.comp_def,
      fun x => (hf x).1, fun x => (hf x).2 b]
  · rfl

theorem wellFormed_congr {b : Bool} {messages messages' : List (Json F)}
    (h : messages'.map (turns b) = messages.map (turns b)) :
    WellFormed b messages' ↔ WellFormed b messages := by
  rw [WellFormed, WellFormed, List.flatMap_def, List.flatMap_def, h]

theorem erases_note : Erases (note true) (note false) := .erase .nil

theorem erases_turns (msg : Json F) : Erases (turns true msg) (turns false msg) := by
  have hblock : ∀ b : Json F, Erases (blockTurns true b) (blockTurns false b) := by
    intro b
    unfold blockTurns
    split
    · exact .refl _
    · split_ifs
      · exact erases_note
      · exact .nil
  unfold turns
  split_ifs
  · exact .refl _
  · split
    · exact erases_note
    · exact Erases.flatMap hblock _
    · exact .nil

theorem pairWellFormed_of_answeredBeforeText {messages : List (Json F)}
    (h : AnsweredBeforeText messages) : PairWellFormed messages :=
  pairWF_of_erases (Erases.flatMap erases_turns messages) h

end DevPilot
