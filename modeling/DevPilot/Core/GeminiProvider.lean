import DevPilot.Core.Responses

/-!
The requests of the Gemini provider: the server keeps the conversation on an
interaction chain, and the client sends what it takes to be missing there.
-/

namespace DevPilot

open PyJson

variable {F : Type}

def textOf (host : Host F) (v : Json F) : String :=
  match v with
  | .str s => s
  | v => host.pyStr v

def userInput (text : String) : Json F :=
  .obj [("type", .str "user_input"),
    ("content", .arr [.obj [("type", .str "text"), ("text", .str text)]])]

def flushText (textParts : List String) : List (Json F) :=
  if textParts.isEmpty then [] else [userInput ("\n".intercalate textParts)]

def functionResult (block : Json F) : Json F :=
  .obj ([("type", .str "function_result"),
    ("call_id", (block.get? "tool_use_id").getD (.str "")),
    ("name", (block.get? "name").getD (.str "")),
    ("result", (block.get? "content").getD (.str ""))] ++
    if (block.get? "is_error").any truthy then [("is_error", .bool true)] else [])

/-- The steps of the remaining blocks, with the text gathered so far. -/
def blockSteps (host : Host F) : List String → List (Json F) → List (Json F)
  | textParts, [] => flushText textParts
  | textParts, block :: blocks =>
      if !block.isObj then flushText textParts ++ blockSteps host [textOf host block] blocks
      else if hasType "text" block then
        let text := stripText (textOf host ((block.get? "text").getD (.str "")))
        blockSteps host (if text.isEmpty then textParts else textParts ++ [text]) blocks
      else if hasType "tool_result" block then
        flushText textParts ++ functionResult block :: blockSteps host [] blocks
      else if hasType "function_result" block then
        flushText textParts ++ block :: blockSteps host [] blocks
      else blockSteps host textParts blocks

def userMessageToSteps (host : Host F) (content : Json F) : List (Json F) :=
  match content with
  | .str s => let text := stripText s; if text.isEmpty then [] else [userInput text]
  | .arr blocks => blockSteps host [] blocks
  | v => [userInput (host.pyStr v)]

/-- `str(step.get(key) or "")`. -/
def fieldText (host : Host F) (key : String) (step : Json F) : String :=
  (((step.get? key).filter truthy).map (textOf host)).getD ""

/-- The tool names of the calls among the steps, the last one first. -/
def callNames (host : Host F) (steps : List (Json F)) : List (String × String) :=
  ((steps.filter (hasType "function_call")).map fun step =>
    (fieldText host "id" step, fieldText host "name" step)).filter
      (fun p => !p.1.isEmpty && !p.2.isEmpty) |>.reverse

def isNamed (step : Json F) : Bool := (step.get? "name").any truthy

/-- Name a result after its call if it has no name of its own. -/
def nameResult (host : Host F) (names : List (String × String)) (step : Json F) : Json F :=
  match names.lookup (fieldText host "call_id" step) with
  | some name => if isNamed step then step else step.set "name" (.str name)
  | none => step

/-- `_finalize_replay_steps`: thoughts and results without a name are dropped. -/
def finalizeReplaySteps (host : Host F) (steps : List (Json F)) : List (Json F) :=
  steps.filterMap fun step =>
    if hasType "thought" step then none
    else if hasType "function_result" step then
      (some (nameResult host (callNames host steps) step)).filter isNamed
    else some step

inductive GeminiInput (F : Type)
  | text (text : String)
  | steps (steps : List (Json F))

structure GeminiRequest (F : Type) where
  input : GeminiInput F
  previousInteractionId : Option String
  systemInstruction : Option String

structure GeminiProvider where
  lastInteractionId : Option String
  messagesAtLastCreate : Nat

def isUser (msg : Json F) : Bool := msg.getStr? "role" == some "user"

def messageContent (msg : Json F) : Json F := (msg.get? "content").getD (.str "")

def onlyText? (host : Host F) (steps : List (Json F)) : Option String :=
  match steps with
  | [step] => if hasType "user_input" step then
      match step.get? "content" with
      | some (.arr [part]) => if hasType "text" part then
          some (textOf host ((part.get? "text").getD (.str ""))) else none
      | _ => none
    else none
  | _ => none

def resolveInput (host : Host F) (messages : List (Json F)) (useChain : Bool) :
    Except String (GeminiInput F) :=
  match messages.head?, messages.getLast? with
  | some first, some last =>
      if useChain then
        if isUser last then
          .ok (.steps (finalizeReplaySteps host (userMessageToSteps host (messageContent last))))
        else .error "chained follow-up must end with a user message"
      else if isUser first then
        let steps := userMessageToSteps host (messageContent first)
        match onlyText? host steps with
        | some text => .ok (.text text)
        | none => .ok (.steps steps)
      else .error "conversation must start with a user message"
  | _, _ => .error "messages must not be empty"

namespace GeminiProvider

def fresh : GeminiProvider := ⟨none, 0⟩

def useChain (p : GeminiProvider) : Bool := p.lastInteractionId.any (!·.isEmpty)

def keepChain (p : GeminiProvider) (count : Nat) : GeminiProvider :=
  if p.useChain && count < p.messagesAtLastCreate then fresh else p

def buildRequestParams (host : Host F) (p : GeminiProvider) (system : String)
    (messages : List (Json F)) : GeminiProvider × Except String (GeminiRequest F) :=
  let p := p.keepChain messages.length
  (p, (resolveInput host messages p.useChain).map fun input =>
    { input
      previousInteractionId := if p.useChain then p.lastInteractionId else none
      systemInstruction := if p.useChain then none else some system })

/-- What `create` notes of an answer to a request with `count` messages. -/
def noteAnswer (p : GeminiProvider) (count : Nat) (interactionId : Option String) : GeminiProvider :=
  match interactionId.filter (!·.isEmpty) with
  | some id => ⟨some id, count⟩
  | none => p

end GeminiProvider

def sentMessage {α : Type} (useChain : Bool) (messages : List α) : Option α :=
  if useChain then messages.getLast? else messages.head?

def ResultsNamed (host : Host F) (msg : Json F) : Prop :=
  ∀ step ∈ userMessageToSteps host (messageContent msg),
    hasType "function_result" step = true → isNamed step = true

instance (host : Host F) (msg : Json F) : Decidable (ResultsNamed host msg) :=
  inferInstanceAs (Decidable (∀ _ ∈ _, _))

def IsUserStep (step : Json F) : Prop :=
  hasType "user_input" step = true ∨ hasType "function_result" step = true

theorem isUserStep_flushText {textParts : List String} {step : Json F}
    (h : step ∈ flushText textParts) : IsUserStep step := by
  rw [flushText] at h
  split_ifs at h
  · simp at h
  · exact .inl (List.mem_singleton.mp h ▸ rfl)

theorem isUserStep_blockSteps (host : Host F) (textParts : List String) (blocks : List (Json F)) :
    ∀ step ∈ blockSteps host textParts blocks, IsUserStep step := by
  have hflush : ∀ {textParts : List String} {rest : List (Json F)},
      (∀ step ∈ rest, IsUserStep step) → ∀ step ∈ flushText textParts ++ rest, IsUserStep step := by
    intro textParts rest hrest step hstep
    rcases List.mem_append.mp hstep with h | h
    · exact isUserStep_flushText h
    · exact hrest step h
  induction blocks generalizing textParts with
  | nil => exact fun step hstep => isUserStep_flushText hstep
  | cons block blocks ih =>
      rw [blockSteps]
      split_ifs with hobj htext hresult hnative
      · exact hflush (ih _)
      · exact ih _
      · exact hflush (List.forall_mem_cons.mpr ⟨.inr rfl, ih _⟩)
      · exact hflush (List.forall_mem_cons.mpr ⟨.inr hnative, ih _⟩)
      · exact ih _

theorem isUserStep_userMessageToSteps (host : Host F) (content : Json F) :
    ∀ step ∈ userMessageToSteps host content, IsUserStep step := by
  intro step hstep
  cases content with
  | str s =>
      simp only [userMessageToSteps] at hstep
      split_ifs at hstep
      · simp at hstep
      · exact .inl (List.mem_singleton.mp hstep ▸ rfl)
  | arr blocks => exact isUserStep_blockSteps host [] blocks step hstep
  | _ => exact .inl (List.mem_singleton.mp hstep ▸ rfl)

theorem hasType_ne {type type' : String} (hne : type ≠ type') {step : Json F}
    (h : hasType type step = true) : hasType type' step = false := by
  simp only [hasType, beq_iff_eq] at h
  simp [hasType, h, hne]

theorem IsUserStep.hasType_eq_false {k : String} (hi : k ≠ "user_input")
    (hr : k ≠ "function_result") {step : Json F} (h : IsUserStep step) :
    hasType k step = false := by
  rcases h with h | h
  · exact hasType_ne (Ne.symm hi) h
  · exact hasType_ne (Ne.symm hr) h

theorem finalizeReplaySteps_userMessage (host : Host F) (content : Json F) :
    finalizeReplaySteps host (userMessageToSteps host content) =
      (userMessageToSteps host content).filter fun step =>
        !hasType "function_result" step || isNamed step := by
  have huser := isUserStep_userMessageToSteps host content
  have hnames : callNames host (userMessageToSteps host content) = [] := by
    have hcalls : (userMessageToSteps host content).filter (hasType "function_call") = [] := by
      apply List.filter_eq_nil_iff.mpr
      intro step hstep
      simp [(huser step hstep).hasType_eq_false (k := "function_call") (by decide) (by decide)]
    rw [callNames, hcalls]
    rfl
  rw [finalizeReplaySteps, ← List.filterMap_eq_filter]
  apply List.filterMap_congr
  intro step hstep
  have hthought := (huser step hstep).hasType_eq_false (k := "thought") (by decide) (by decide)
  by_cases hresult : hasType "function_result" step = true
  · by_cases hname : isNamed step = true
    · simp [hthought, hresult, hname, hnames, nameResult, Option.guard]
    · simp [hthought, hresult, hname, hnames, nameResult, Option.guard]
  · simp [hthought, hresult, Option.guard]

theorem sentMessage_of_resolveInput (host : Host F) {messages : List (Json F)} {useChain : Bool}
    {input : GeminiInput F} (h : resolveInput host messages useChain = .ok input) :
    ∃ msg, sentMessage useChain messages = some msg ∧ isUser msg = true := by
  rw [resolveInput] at h
  split at h
  · rename_i first last hfirst hlast
    cases useChain with
    | false =>
        refine ⟨first, hfirst, ?_⟩
        by_contra hu
        simp [hu] at h
    | true =>
        refine ⟨last, hlast, ?_⟩
        by_contra hu
        simp [hu] at h
  · simp at h

end DevPilot
