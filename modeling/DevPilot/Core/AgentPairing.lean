import DevPilot.Core.AgentLoop
import DevPilot.Core.CompactionPairing

/-!
Which runs of the agent loop send only well-formed histories to the provider.
-/

namespace DevPilot

open PyJson CallPairing

variable {F : Type}

theorem wellFormed_append_note {b : Bool} {ts : Turns} (h : PairWF ts) : PairWF (ts ++ note b) := by
  cases b with
  | false => simpa [note] using h
  | true => exact (pairWF_asks_iff h _).mpr rfl

theorem wellFormed_userText {b : Bool} {messages : List (Json F)} (h : WellFormed b messages)
    (text : String) : WellFormed b (messages ++ [userText text]) := by
  rw [WellFormed, List.flatMap_append, List.flatMap_singleton, turns_userText]
  exact wellFormed_append_note h

theorem wellFormed_userTexts {b : Bool} {messages : List (Json F)} (h : WellFormed b messages)
    (texts : List String) : WellFormed b (messages ++ texts.map userText) := by
  induction texts generalizing messages with
  | nil => simpa using h
  | cons text texts ih =>
      rw [List.map_cons, List.append_cons]
      exact ih (wellFormed_userText h text)

theorem wellFormed_notes {b : Bool} {messages : List (Json F)} (h : WellFormed b messages)
    (w : World F) : WellFormed b (messages ++ noteMessages w) := by
  have hnotes : (noteMessages w : List (Json F)) =
      (w.userNotes.map ("[user note] " ++ ·) ++ w.notifications).map userText := by
    simp [noteMessages]
  rw [hnotes]
  exact wellFormed_userTexts h _

theorem wellFormed_request (b : Bool) (text : String) : WellFormed b [(userText text : Json F)] :=
  wellFormed_userText (show WellFormed b [] from pairWF_nil) text

@[simp] theorem executeSingle_toolUseId (tools : List Tool) (tc : ToolCall F)
    (outcome : Except String String) : (executeSingle tools tc outcome).toolUseId = tc.id := by
  unfold executeSingle
  split
  · rfl
  · split <;> rfl

theorem turns_executeTools (b : Bool) (tools : List Tool) (outcomes : Nat → Except String String)
    (calls : List (ToolCall F)) :
    ∃ ids : List (Option String), turns b (message "user" (.arr ((executeTools tools outcomes calls).map
        (·.toContentBlock))) : Json F) = ids.map (fun i => .answers [i]) ∧
      ids.Perm (calls.map fun tc => some tc.id) := by
  refine ⟨(executeTools tools outcomes calls).map fun r => some r.toolUseId, ?_, ?_⟩
  · rw [turns_user, List.flatMap_map, List.map_map, List.map_eq_flatMap]
    rfl
  · have hids : (executeTools tools outcomes calls).map (fun r => some r.toolUseId) =
        (calls.filter (runsReadOnly tools) ++ calls.filter (!runsReadOnly tools ·)).map
          fun tc => some tc.id := by
      refine List.ext_getElem (by simp [executeTools]) fun i h₁ h₂ => ?_
      simp only [executeTools, List.getElem_map, List.getElem_mapIdx, executeSingle_toolUseId]
    rw [hids]
    exact (List.filter_append_perm (runsReadOnly tools) calls).map _

theorem wellFormed_shortenAll {b : Bool} {messages : List (Json F)} (h : WellFormed b messages) :
    WellFormed b (shortenAll messages) := by
  refine (wellFormed_congr ?_).mpr h
  rw [shortenAll, turns_dropRedundantReads, turns_snipOldToolResults, turns_truncateLongToolResults]

def RecoversCleanly (b : Bool) (cm : ContextManager F) (w : World F) (maxAttempts : Nat) :
    Nat → Nat → List (Json F) → Prop
  | 0, _, _ => True
  | remaining + 1, attempt, messages =>
      match w.attempts attempt with
      | .response _ => True
      | .error e =>
          if !isContextError e then
            attempt < attemptLimit maxAttempts e →
              RecoversCleanly b cm w maxAttempts remaining (attempt + 1) messages
          else if attempt = 1 then
            RecoversCleanly b cm w maxAttempts remaining (attempt + 1) (shortenAll messages)
          else attempt = 2 → CleanSummary cm.keepRecent
            (summaryFails cm w.recoverySummarise messages) (messages.map (turns b))

/-- All histories that a call of the model sends, holds and leaves are well
formed. -/
structure CallResult.Sound (b : Bool) (c : CallResult F) : Prop where
  messages : WellFormed b c.messages
  requests : ∀ request ∈ c.requests, WellFormed b request
  held : ∀ history ∈ c.held, WellFormed b history

theorem CallResult.Sound.last {b : Bool} {messages : List (Json F)} (h : WellFormed b messages)
    (outcome : CallOutcome F) : (CallResult.last messages outcome).Sound b where
  messages := h
  requests _ hr := List.mem_singleton.mp hr ▸ h
  held _ hh := List.mem_singleton.mp hh ▸ h

theorem CallResult.Sound.after {b : Bool} {c : CallResult F} (h : c.Sound b)
    {messages : List (Json F)} (hm : WellFormed b messages) {summaries : List (List (Json F))}
    (hs : ∀ request ∈ summaries, WellFormed b request) : (c.after messages summaries).Sound b where
  messages := h.messages
  requests request hr := by
    rcases List.mem_append.mp hr with hr | hr
    · rcases List.mem_cons.mp hr with rfl | hr
      · exact hm
      · exact hs request hr
    · exact h.requests request hr
  held history hh := by
    rcases List.mem_cons.mp hh with rfl | hh
    · exact hm
    · exact h.held history hh

theorem recoversCleanly_late (b : Bool) (cm : ContextManager F) (w : World F)
    (maxAttempts remaining : Nat) {attempt : Nat} (h : 2 < attempt) (messages : List (Json F)) :
    RecoversCleanly b cm w maxAttempts remaining attempt messages := by
  induction remaining generalizing attempt with
  | zero => trivial
  | succ remaining ih =>
      rw [RecoversCleanly]
      split
      · trivial
      · split_ifs with hc h1
        · exact fun _ => ih (by omega)
        · omega
        · exact fun h2 => by omega

theorem callAttempts_sound {b : Bool} {cm : ContextManager F} {w : World F} {maxAttempts : Nat}
    (remaining attempt : Nat) {messages : List (Json F)} (hm : WellFormed b messages)
    (h : RecoversCleanly b cm w maxAttempts remaining attempt messages) :
    (callAttempts cm w maxAttempts remaining attempt messages).Sound b := by
  induction remaining generalizing attempt messages with
  | zero => exact ⟨hm, by simp [callAttempts], by simpa [callAttempts] using hm⟩
  | succ remaining ih =>
      rw [RecoversCleanly] at h
      rw [callAttempts]
      cases hw : w.attempts attempt with
      | response r => exact .last hm _
      | error e =>
          simp only [hw] at h ⊢
          split_ifs at h ⊢ with hctx hlimit h1 h2
          · exact .last hm _
          · exact (ih _ hm (h (by omega))).after hm (by simp)
          · exact (ih _ (wellFormed_shortenAll hm) h).after hm (by simp)
          · cases hc : summarizeOldMessages cm w.recoverySummarise messages with
            | none => exact .last hm _
            | some c =>
                have hclean := (summarizeOldMessages_wellFormed_iff hm hc).mpr (h h2)
                refine (ih _ hclean (recoversCleanly_late _ _ _ _ _ (by omega) _)).after hm ?_
                intro request hr
                obtain ⟨text, rfl⟩ := summarizeOldMessages_requests hc request hr
                exact wellFormed_request b text
          · exact .last hm _

/-- A reply whose calls are recorded under distinct ids, and which is not cut
off while it calls tools and can still be resumed. -/
structure ReplyMeets (recoveryCount : Nat) (r : LLMResponse F) : Prop where
  recorded : r.Recorded
  distinct : (r.getToolCalls.map fun tc => some tc.id).Nodup
  notCutOff : r.stopReason = .maxTokens → recoveryCount < 3 → r.getToolCalls = []

/-- What the surroundings have to respect during a turn: cuts of the history
are clean and the reply is answerable. -/
def TurnMeets (b : Bool) (agent : Agent) (w : World F) (s : LoopState F) : Prop :=
  let noted := s.messages ++ noteMessages w
  CompactsCleanly b s.contextManager w.summarise noted agent.systemPrompt ∧
    ∀ cm c, maybeCompact s.contextManager w.summarise noted agent.systemPrompt = some (cm, c) →
      RecoversCleanly b cm w (max 1 agent.llmRetryAttempts) (max 1 agent.llmRetryAttempts) 1
        c.messages ∧
      ∀ r, (callLlmWithRecovery cm w agent c.messages).outcome = .response r →
        ReplyMeets s.maxTokensRecoveryCount r

/-- A history whose last message is a reply that still waits for its results. -/
structure Dangling (b : Bool) (history : List (Json F)) (last : Json F) : Prop where
  assistant : isAssistant last = true
  distinct : (callIds last).Nodup
  wellFormed : WellFormed b history

theorem flatMap_turns_dangling {b : Bool} {history : List (Json F)} {last : Json F}
    (h : Dangling b history last) : (history ++ [last]).flatMap (turns b) =
      history.flatMap (turns b) ++ [Turn.asks (callIds last)] := by
  rw [List.flatMap_append, List.flatMap_singleton, turns_of_isAssistant h.assistant]

theorem dangling_wellFormed_iff {b : Bool} {history : List (Json F)} {last : Json F}
    (h : Dangling b history last) : WellFormed b (history ++ [last]) ↔ callIds last = [] := by
  rw [WellFormed, flatMap_turns_dangling h]
  exact pairWF_asks_iff h.wellFormed _

theorem callIds_reply {n : Nat} {r : LLMResponse F} (hr : ReplyMeets n r) :
    callIds (message "assistant" (.arr r.rawContent)) = r.getToolCalls.map fun tc => some tc.id :=
  hr.recorded

theorem Dangling.reply {b : Bool} {messages : List (Json F)} (h : WellFormed b messages) {n : Nat}
    {r : LLMResponse F} (hr : ReplyMeets n r) : 
    Dangling b messages (message "assistant" (.arr r.rawContent)) :=
  ⟨rfl, (callIds_reply hr).symm ▸ hr.distinct, h⟩

theorem Dangling.applyRewrites {b : Bool} {history : List (Json F)} {last : Json F}
    (h : Dangling b history last) (rewrites : Nat → MessageRewrite) :
    Dangling b (applyRewrites rewrites history) ((rewrites history.length).apply last) ∧
      callIds ((rewrites history.length).apply last) = callIds last ∧
      DevPilot.applyRewrites rewrites (history ++ [last]) =
        DevPilot.applyRewrites rewrites history ++ [(rewrites history.length).apply last] := by
  have hassist := isAssistant_messageRewrite (rewrites history.length) last
  have hcalls : callIds ((rewrites history.length).apply last) = callIds last := by
    have := turns_messageRewrite b (rewrites history.length) last
    rw [turns_of_isAssistant h.assistant, turns_of_isAssistant (hassist.trans h.assistant)] at this
    simpa using this
  refine ⟨⟨hassist.trans h.assistant, hcalls ▸ h.distinct, ?_⟩, hcalls, ?_⟩
  · exact (wellFormed_congr (turns_applyRewrites b rewrites history)).mpr h.wellFormed
  · simp [DevPilot.applyRewrites, List.mapIdx_append]

theorem Dangling.answer {b : Bool} {history : List (Json F)} {last : Json F}
    (h : Dangling b history last) {answer : Json F} {ids : List (Option String)}
    (ha : turns b answer = ids.map fun i => .answers [i]) (hp : ids.Perm (callIds last)) :
    WellFormed b (history ++ [last] ++ [answer]) := by
  rw [WellFormed, List.flatMap_append, flatMap_turns_dangling h, List.flatMap_singleton, ha,
    List.append_assoc, List.singleton_append]
  refine pairWF_exchange h.wellFormed ?_ (paired_singletons ids)
  rw [answersTo_singletons]
  exact (answered_perm hp).mpr (answered_self h.distinct)

theorem wellFormed_reply {b : Bool} {messages : List (Json F)} (h : WellFormed b messages) {n : Nat}
    {r : LLMResponse F} (hr : ReplyMeets n r) (hcalls : r.getToolCalls = []) :
    WellFormed b (messages ++ [message "assistant" (.arr r.rawContent)]) := by
  rw [dangling_wellFormed_iff (.reply h hr), callIds_reply hr, hcalls]
  rfl

theorem afterReply_wellFormed {b : Bool} (agent : Agent) (w : World F) (n : Nat) {s : LoopState F}
    {history : List (Json F)} {r : LLMResponse F}
    (hs : s.messages = history ++ [message "assistant" (.arr r.rawContent)]) {k : Nat}
    (hr : ReplyMeets k r) (hh : WellFormed b history) :
    WellFormed b (afterReply agent w n s r).1.messages := by
  unfold afterReply
  simp only
  split_ifs with hcalls hnudge
  · exact wellFormed_userText (hs ▸ wellFormed_reply hh hr (List.isEmpty_iff.mp hcalls)) _
  · exact hs ▸ wellFormed_reply hh hr (List.isEmpty_iff.mp hcalls)
  · obtain ⟨ids, hids, hperm⟩ := turns_executeTools (F := F) b agent.tools w.outcomes r.getToolCalls
    obtain ⟨hd, hcalls', hsplit⟩ := (Dangling.reply hh hr).applyRewrites w.rewrites
    rw [← callIds_reply hr, ← hcalls'] at hperm
    have hanswer := hd.answer hids hperm
    rw [← hsplit, ← hs] at hanswer
    exact hanswer

theorem handleReply_wellFormed {b : Bool} (agent : Agent) (w : World F) (n : Nat) {s : LoopState F}
    {r : LLMResponse F} (hs : WellFormed b s.messages) (hr : ReplyMeets s.maxTokensRecoveryCount r) :
    WellFormed b (handleReply agent w n s r).1.messages := by
  rw [handleReply]
  simp only
  split_ifs with hmax hcount
  · have hcalls := hr.notCutOff hmax (show _ + 1 ≤ 3 from hcount)
    exact wellFormed_userText (wellFormed_reply hs hr hcalls) _
  · exact afterReply_wellFormed agent w n rfl hr hs
  · exact afterReply_wellFormed agent w n rfl hr hs

/-- The histories at which a run can be interrupted: well formed, or dangling
while the tools run. -/
def Interruptible (b : Bool) (history : List (Json F)) : Prop :=
  WellFormed b history ∨ ∃ earlier last, history = earlier ++ [last] ∧ Dangling b earlier last

structure TurnResult.Sound (b : Bool) (result : TurnResult F) : Prop where
  requests : ∀ request ∈ result.requests, WellFormed b request
  held : ∀ history ∈ result.held, Interruptible b history
  state : WellFormed b result.state.messages

theorem repliedHistory_interruptible {b : Bool} (w : World F) {messages : List (Json F)}
    (h : WellFormed b messages) {n : Nat} {r : LLMResponse F} (hr : ReplyMeets n r) :
    Interruptible b (repliedHistory w messages r) := by
  obtain ⟨hd, -, hsplit⟩ := (Dangling.reply h hr).applyRewrites w.rewrites
  exact .inr ⟨_, _, hsplit, hd⟩

theorem runTurn_sound {b : Bool} (agent : Agent) (w : World F) (n : Nat) {s : LoopState F}
    (hs : WellFormed b s.messages) (h : TurnMeets b agent w s) : (runTurn agent w n s).Sound b := by
  obtain ⟨hcompact, hcall⟩ := h
  have hnoted := wellFormed_notes hs w
  rw [runTurn]
  simp only [LoopState.push]
  cases hm : maybeCompact s.contextManager w.summarise (s.messages ++ noteMessages w)
      agent.systemPrompt with
  | none => exact ⟨by simp, by simpa using .inl hnoted, hnoted⟩
  | some result =>
      obtain ⟨cm, c⟩ := result
      have hc := (maybeCompact_wellFormed_iff hnoted hm).mpr hcompact
      obtain ⟨hrecover, hreply⟩ := hcall cm c hm
      have hsound : (callLlmWithRecovery cm w agent c.messages).Sound b :=
        callAttempts_sound _ _ hc hrecover
      have hrequests : ∀ request ∈ c.requests ++ (callLlmWithRecovery cm w agent c.messages).requests,
          WellFormed b request := by
        intro request hr
        rcases List.mem_append.mp hr with hr | hr
        · obtain ⟨text, rfl⟩ := maybeCompact_requests hm request hr
          exact wellFormed_request b text
        · exact hsound.requests request hr
      have hheld : ∀ history ∈ (s.messages ++ noteMessages w) :: c.messages ::
          (callLlmWithRecovery cm w agent c.messages).held, Interruptible b history := by
        intro history hh
        rcases List.mem_cons.mp hh with rfl | hh
        · exact .inl hnoted
        · rcases List.mem_cons.mp hh with rfl | hh
          · exact .inl hc
          · exact .inl (hsound.held history hh)
      simp only
      split
      · rename_i r hr
        have hmeets := hreply r hr
        have hfinal := handleReply_wellFormed agent w n
          (s := { s with
            messages := (callLlmWithRecovery cm w agent c.messages).messages, contextManager := cm })
          hsound.messages hmeets
        refine ⟨hrequests, fun history hh => ?_, hfinal⟩
        rcases List.mem_append.mp hh with hh | hh
        · exact hheld history hh
        · rcases List.mem_pair.mp hh with rfl | rfl
          · exact repliedHistory_interruptible w hsound.messages hmeets
          · exact .inl hfinal
      · exact ⟨hrequests, hheld, hsound.messages⟩
      · exact ⟨hrequests, hheld, hsound.messages⟩

theorem repliedHistory_mem_held (agent : Agent) (w : World F) (n : Nat) {s : LoopState F}
    (hfits : s.contextManager.currentTokens agent.systemPrompt (s.messages ++ noteMessages w) <
      s.contextManager.threshold) {r : LLMResponse F} (hr : w.attempts 1 = .response r) :
    repliedHistory w (s.messages ++ noteMessages w) r ∈ (runTurn agent w n s).held := by
  obtain ⟨k, hk⟩ := Nat.exists_eq_add_of_le (Nat.le_max_left 1 agent.llmRetryAttempts)
  have hcall : ∀ messages, callLlmWithRecovery s.contextManager w agent messages =
      .last messages (.response r) := by
    intro messages
    rw [callLlmWithRecovery, hk, Nat.add_comm 1 k, callAttempts, hr]
  rw [runTurn]
  simp only [LoopState.push, maybeCompact_of_fits _ hfits, hcall, CallResult.last]
  simp

def TurnsMeet (b : Bool) (agent : Agent) (worlds : Nat → World F) : Nat → Nat → LoopState F → Prop
  | 0, _, _ => True
  | remaining + 1, n, s =>
      TurnMeets b agent (worlds n) s ∧
        match (runTurn agent (worlds n) n s).next with
        | .continue =>
            TurnsMeet b agent worlds remaining (n + 1) (runTurn agent (worlds n) n s).state
        | _ => True

theorem turnsMeet_one {b : Bool} {agent : Agent} {worlds : Nat → World F} {n : Nat} {s : LoopState F}
    (h : TurnMeets b agent (worlds n) s) : TurnsMeet b agent worlds 1 n s := by
  refine ⟨h, ?_⟩
  split <;> trivial

theorem runTurns_sound {b : Bool} (agent : Agent) (worlds : Nat → World F) (remaining n : Nat)
    {s : LoopState F} (hs : WellFormed b s.messages) (h : TurnsMeet b agent worlds remaining n s) :
    (runTurns agent worlds remaining n s).Sound b := by
  induction remaining generalizing n s with
  | zero => exact ⟨by simp [runTurns], by simpa [runTurns] using .inl hs, hs⟩
  | succ remaining ih =>
      obtain ⟨hturn, hrest⟩ := h
      have hsound := runTurn_sound agent (worlds n) n hs hturn
      rw [runTurns]
      simp only
      cases hnext : (runTurn agent (worlds n) n s).next with
      | «continue» =>
          simp only [hnext] at hrest
          have hih := ih _ hsound.state hrest
          exact ⟨fun request hr => (List.mem_append.mp hr).elim (hsound.requests request)
              (hih.requests request),
            fun history hh => (List.mem_append.mp hh).elim (hsound.held history) (hih.held history),
            hih.state⟩
      | finished text => exact hsound
      | failed => exact hsound
      | raised => exact hsound

def RunMeets (b : Bool) (agent : Agent) (worlds : Nat → World F) (userMessage : String)
    (s : LoopState F) : Prop :=
  TurnsMeet b agent worlds agent.maxTurns 1 (s.start userMessage)

theorem runLoop_sound {b : Bool} (agent : Agent) (worlds : Nat → World F) (userMessage : String)
    {s : LoopState F} (hs : WellFormed b s.messages) (h : RunMeets b agent worlds userMessage s) :
    (runLoop agent worlds userMessage s).Sound b := by
  refine runTurns_sound agent worlds agent.maxTurns 1 ?_ h
  rw [LoopState.start]
  split_ifs
  · exact hs
  · exact wellFormed_userText hs userMessage

/-- In every run of the loop whose turns meet their conditions, every call of
the provider gets a well-formed history. -/
theorem runLoop_requests_pairWellFormed (agent : Agent) (worlds : Nat → World F)
    (userMessage : String) {s : LoopState F} (hs : PairWellFormed s.messages)
    (h : RunMeets false agent worlds userMessage s) :
    ∀ request ∈ (runLoop agent worlds userMessage s).requests, PairWellFormed request :=
  (runLoop_sound agent worlds userMessage hs h).requests

/-- An agent that may read files, in a run of at most `maxTurns` turns. -/
def reader (maxTurns : Nat) : Agent where
  systemPrompt := ""
  tools := [⟨"Read", true⟩]
  maxTurns := maxTurns
  llmRetryAttempts := 1

def freshState : LoopState FloatText where
  messages := []
  contextManager := charCounter 1000 4
  maxTokensRecoveryCount := 0
  noToolNudges := 0

/-- A turn in which the model gives the reply `r` at once. -/
def replies (r : LLMResponse FloatText) : World FloatText where
  userNotes := []
  notifications := []
  summarise _ := none
  attempts _ := .response r
  recoverySummarise _ := none
  outcomes _ := .ok "print()"
  rewrites _ := .keep

def readReply (stopReason : StopReason) : LLMResponse FloatText where
  content := [.toolUse "c1" "Read" (.obj [("file_path", .str "a.py")])]
  stopReason := stopReason
  rawContent := [.obj [("type", .str "tool_use"), ("id", .str "c1"), ("name", .str "Read"),
    ("input", .obj [("file_path", .str "a.py")])]]

theorem readRun_meets {b : Bool} :
    RunMeets b (reader 1) (fun _ => replies (readReply .toolUse)) "go" freshState := by
  refine turnsMeet_one ⟨?_, fun cm c _ => ⟨trivial, fun r hr => ?_⟩⟩
  · refine compactsCleanly_of_fits _ ?_
    decide
  · obtain rfl : readReply .toolUse = r := CallOutcome.response.inj hr
    exact ⟨rfl, by decide, fun h => by simp [readReply] at h⟩

theorem runLoop_requests_pairWellFormed_reader :
    (runLoop (reader 1) (fun _ => replies (readReply .toolUse)) "go" freshState).requests.Forall
      PairWellFormed :=
  List.forall_iff_forall_mem.mpr
    (runLoop_requests_pairWellFormed _ _ "go" (by decide) readRun_meets)

theorem runLoop_breaks_pair :
    ¬ ∀ (agent : Agent) (worlds : Nat → World FloatText) (userMessage : String)
        (s : LoopState FloatText), PairWellFormed s.messages →
      ∀ request ∈ (runLoop agent worlds userMessage s).requests, PairWellFormed request := by
  intro h
  have hbad : (runLoop (reader 2) (fun _ => replies (readReply .maxTokens)) "go"
      freshState).requests.all (fun request => decide (PairWellFormed request)) = false := by
    set_option maxRecDepth 20000 in with_unfolding_all decide
  have hgood := h (reader 2) (fun _ => replies (readReply .maxTokens)) "go" freshState (by decide)
  rw [← Bool.not_eq_true, List.all_eq_true] at hbad
  exact hbad fun request hr => decide_eq_true (hgood request hr)

end DevPilot
