import DevPilot.Transcript.ToolIndex

/-!
The final results of tools: which steps of the reducer take one back, and that
in a run without such steps every tool keeps the result it was given.
-/

namespace DevPilot.Transcript

open PyJson Tables

variable {F : Type} {s s' s'' : ReducerState F}

def ReducerState.FinalResultsKept (s : ReducerState F) : Prop :=
  ∀ r ∈ s.finalResults, ∃ tool, s.tool? r.messageId = some tool ∧ tool.state = r.state ∧
    tool.result = r.result

def ReducerState.hasFinalResult (s : ReducerState F) (mid : MessageId) : Bool :=
  s.finalResults.any fun r => r.messageId = mid

/-- The tool of the message has no final result, or `p` holds of it. -/
def ReducerState.finalOnlyIf (s : ReducerState F) (p : ToolCall F → Bool) (mid : MessageId) : Bool :=
  !s.hasFinalResult mid || (s.tool? mid).all p

def toolResult? (c : AgentContent F) : Option (ToolResultUpdate F) :=
  match c.body with
  | .toolResult u => some u
  | _ => none

/-- No result that comes now is taken by a tool that has a final one. -/
def ReducerState.sparesResult (s : ReducerState F) (mid : MessageId) : Bool :=
  s.finalOnlyIf (fun tool => !tool.takesResult) mid

/-- The step takes no final result back: it is no tool call for a tool that was
completed under an approved permission, no result for a tool that has become a
placeholder, and no pending request that restores its tool. -/
def Step.spares (p : TextPass F) : Step F → Bool
  | .request (permId, pending) =>
      (p.state.toolIdToMessageId.get permId).all <| p.state.finalOnlyIf fun tool =>
        !shouldRestorePendingPermissionFromAgentState pending.createdAt tool
  | .toolCall _ (c, _) =>
      ((toolCallId? c).bind p.state.toolIdToMessageId.get).all <| p.state.finalOnlyIf fun tool =>
        !(tool.status = some .approved && tool.state = .completed)
  | .toolResult _ (c, _) =>
      (toolResult? c).all fun u =>
        (p.state.toolIdToMessageId.get u.toolUseId).all p.state.sparesResult
  | .sidechain msg =>
      (msg.content.filterMap toolResult?).all fun u =>
        (p.state.sidechainToolIdToMessageId.get u.toolUseId).all p.state.sparesResult &&
          (p.state.toolIdToMessageId.get u.toolUseId).all p.state.sparesResult
  | _ => true

def CallSpares [DecidableEq F] (host : ReducerHost) (s : ReducerState F) (call : ReducerCall F) : Prop :=
  let traced := (traceMessages call.now s.tracerState (orderedIncomingMessages call.messages)).results
  Runs.Along (Step.apply host call.now) (fun p step => step.spares p = true) (startPass traced s)
    (steps call traced s)

instance [DecidableEq F] (host : ReducerHost) (s : ReducerState F) (call : ReducerCall F) :
    Decidable (CallSpares host s call) := by
  unfold CallSpares
  infer_instance

def ToolCall.isClosed (tool : ToolCall F) : Prop := tool.state = .completed ∨ tool.state = .error

structure KeepsClosed (s s' : ReducerState F) : Prop where
  results : s'.finalResults = s.finalResults
  tools : ∀ mid tool, s.tool? mid = some tool → tool.isClosed → s'.tool? mid = some tool

namespace KeepsClosed

theorem refl (s : ReducerState F) : KeepsClosed s s := ⟨rfl, fun _ _ h _ => h⟩

theorem trans (h : KeepsClosed s s') (h' : KeepsClosed s' s'') : KeepsClosed s s'' :=
  ⟨h'.results.trans h.results, fun mid tool ht hc => h'.tools mid tool (h.tools mid tool ht hc) hc⟩

theorem congr (h : KeepsClosed s s') (hm : s''.messages = s'.messages)
    (hr : s''.finalResults = s'.finalResults) : KeepsClosed s s'' := by
  refine ⟨hr.trans h.results, fun mid tool ht hc => ?_⟩
  rw [ReducerState.tool?, ReducerState.message?, hm]
  exact h.tools mid tool ht hc

theorem of_messages (hm : s'.messages = s.messages) (hr : s'.finalResults = s.finalResults) :
    KeepsClosed s s' := (refl s).congr hm hr

end KeepsClosed

namespace ReducerState

theorem message?_modifyMessage (mid i : MessageId) (f : ReducerMessage F → ReducerMessage F)
    (s : ReducerState F) :
    (s.modifyMessage mid f).message? i = if mid = i then (s.message? i).map f else s.message? i := by
  rw [message?, modifyMessage, List.getElem?_modify]
  split_ifs <;> simp [message?]

theorem message?_addMessage {i : MessageId} {m m' : ReducerMessage F} (h : s.message? i = some m') :
    (s.addMessage m).message? i = some m' :=
  (List.getElem?_append_left (List.getElem?_eq_some_iff.mp h).1).trans h

theorem tool?_addMessage {i : MessageId} {m : ReducerMessage F} {tool : ToolCall F}
    (h : s.tool? i = some tool) : (s.addMessage m).tool? i = some tool := by
  obtain ⟨m', hm, ht⟩ := Option.bind_eq_some_iff.mp h
  rw [tool?, message?_addMessage hm, Option.bind_some, ht]

theorem tool?_modifyMessage (mid i : MessageId) (f : ReducerMessage F → ReducerMessage F)
    (s : ReducerState F) :
    (s.modifyMessage mid f).tool? i =
      if mid = i then (s.message? i).bind fun m => (f m).tool else s.tool? i := by
  rw [tool?, message?_modifyMessage]
  split_ifs
  · rw [Option.bind_map]
    rfl
  · rfl

theorem tool?_modifyTool (mid i : MessageId) (f : ToolCall F → ToolCall F) (s : ReducerState F) :
    (s.modifyTool mid f).tool? i = if mid = i then (s.tool? i).map f else s.tool? i := by
  rw [modifyTool, tool?_modifyMessage]
  split_ifs
  · rw [tool?, Option.map_bind]
    rfl
  · rfl

theorem keepsClosed_addMessage (m : ReducerMessage F) (s : ReducerState F) :
    KeepsClosed s (s.addMessage m) := ⟨rfl, fun _ _ ht _ => tool?_addMessage ht⟩

theorem keepsClosed_addText (m : ReducerMessage F) (msg : NormalizedMessage F) (s : ReducerState F) :
    KeepsClosed s (s.addText m msg) := ⟨rfl, fun _ _ ht _ => tool?_addMessage ht⟩

theorem keepsClosed_writeText (mid : MessageId) (f : ReducerMessage F → ReducerMessage F)
    (hf : ∀ m, (f m).tool = m.tool) (msg : NormalizedMessage F) (s : ReducerState F) :
    KeepsClosed s (s.writeText mid f msg) := by
  refine ⟨rfl, fun i tool ht _ => ?_⟩
  change (s.modifyMessage mid f).tool? i = some tool
  rw [tool?_modifyMessage]
  split_ifs
  · simp only [hf]
    exact ht
  · exact ht

theorem keepsClosed_modifyTool (mid : MessageId) {f : ToolCall F → ToolCall F}
    (hf : ∀ tool, tool.isClosed → f tool = tool) (s : ReducerState F) :
    KeepsClosed s (s.modifyTool mid f) := by
  refine ⟨rfl, fun i tool ht hc => ?_⟩
  rw [tool?_modifyTool]
  split_ifs
  · rw [ht, Option.map_some, hf tool hc]
  · exact ht

theorem keepsClosed_markRunningToolsUnavailable (t : Int) (s : ReducerState F) :
    KeepsClosed s (s.markRunningToolsUnavailable t) := by
  refine ⟨rfl, fun i tool ht hc => ?_⟩
  obtain ⟨m, hm, hmt⟩ := Option.bind_eq_some_iff.mp ht
  have hrunning : s.becomesUnavailable t tool = false := by
    rcases hc with hc | hc <;> simp [becomesUnavailable, hc]
  rw [message?] at hm
  simp [tool?, message?, markRunningToolsUnavailable, hm, hmt, hrunning]

end ReducerState

/-- The final results are kept, and none of them is a placeholder. -/
structure Kept (s : ReducerState F) : Prop where
  kept : s.FinalResultsKept
  closed : ∀ r ∈ s.finalResults, r.state = .completed ∨ r.state = .error
  real : ∀ r ∈ s.finalResults, r.state = .error → resultError r.result ≠ some requestInterruptedReason

theorem ToolCall.isClosed_of_state {tool : ToolCall F} {state : ToolState} (h : tool.state = state)
    (hc : state = .completed ∨ state = .error) : tool.isClosed := by
  rwa [isClosed, h]

theorem Kept.mono (h : Kept s) (hr : s'.finalResults = s.finalResults)
    (ht : ∀ mid tool, s.hasFinalResult mid = true → s.tool? mid = some tool → tool.isClosed →
      ∃ tool', s'.tool? mid = some tool' ∧ tool'.state = tool.state ∧ tool'.result = tool.result) :
    Kept s' where
  kept r hmem := by
    rw [hr] at hmem
    obtain ⟨tool, htool, hstate, hresult⟩ := h.kept r hmem
    have hfinal : s.hasFinalResult r.messageId = true := List.any_eq_true.mpr ⟨r, hmem, by simp⟩
    obtain ⟨tool', htool', hstate', hresult'⟩ :=
      ht r.messageId tool hfinal htool (ToolCall.isClosed_of_state hstate (h.closed r hmem))
    exact ⟨tool', htool', hstate'.trans hstate, hresult'.trans hresult⟩
  closed r hmem := h.closed r (hr ▸ hmem)
  real r hmem := h.real r (hr ▸ hmem)

theorem Kept.congr (h : Kept s) (hm : s'.messages = s.messages)
    (hr : s'.finalResults = s.finalResults) : Kept s' := by
  apply h.mono hr
  intro mid tool _ ht _
  refine ⟨tool, ?_, rfl, rfl⟩
  rwa [ReducerState.tool?, ReducerState.message?, hm]

theorem Kept.of_keepsClosed (h : Kept s) (hk : KeepsClosed s s') : Kept s' :=
  h.mono hk.results fun mid tool _ ht hc => ⟨tool, hk.tools mid tool ht hc, rfl, rfl⟩

theorem Kept.isClosed (h : Kept s) {mid : MessageId} (hf : s.hasFinalResult mid = true) :
    ∃ tool, s.tool? mid = some tool ∧ tool.isClosed := by
  obtain ⟨r, hmem, hmid⟩ := List.any_eq_true.mp hf
  obtain rfl := of_decide_eq_true hmid
  obtain ⟨tool, htool, hstate, -⟩ := h.kept r hmem
  exact ⟨tool, htool, ToolCall.isClosed_of_state hstate (h.closed r hmem)⟩

theorem Kept.not_final_newId (h : Kept s) : s.hasFinalResult s.newId = false := by
  rw [Bool.eq_false_iff]
  intro hf
  obtain ⟨tool, htool, -⟩ := h.isClosed hf
  obtain ⟨m, hm, -⟩ := Option.bind_eq_some_iff.mp htool
  exact (List.getElem?_eq_some_iff.mp hm).1.false

theorem sparesResult_of_not_final {mid : MessageId} (h : s.hasFinalResult mid = false) :
    s.sparesResult mid = true := by
  rw [ReducerState.sparesResult, ReducerState.finalOnlyIf, h]
  rfl

theorem ToolCall.finish_isClosed (u : ToolResultUpdate F) (t : Int) (tool : ToolCall F) :
    (tool.finish u t).isClosed := by
  rw [isClosed, finish]
  cases u.isError
  · exact .inl rfl
  · exact .inr rfl

theorem ToolCall.applyResult_final {u : ToolResultUpdate F} {t : Int} {tool : ToolCall F}
    (ht : tool.takesResult = true) (hu : coerceStreamingToolResultChunk u.content = none) :
    tool.applyResult u t = tool.reopened.finish u t := by
  rw [applyResult, if_pos ht, hu]

theorem ToolCall.not_interrupted {tool : ToolCall F} (h : tool.takesResult = false)
    (he : tool.state = .error) : resultError tool.result ≠ some requestInterruptedReason := by
  intro hr
  simp [takesResult, isLegacyRequestInterrupted, he, hr] at h

theorem mem_finalResults_applyToolResult {mid : MessageId} {u : ToolResultUpdate F} {t : Int}
    {metadata : Option (MessageMeta F)} {r : FinalResult F}
    (h : r ∈ (s.applyToolResult mid u t metadata).finalResults) :
    r ∈ s.finalResults ∨ s.finalResult? mid u t = some r := by
  rcases List.mem_append.mp h with h | h
  · exact .inl h
  · exact .inr (Option.mem_toList.mp h)

theorem finalResult?_spec {mid : MessageId} {u : ToolResultUpdate F} {t : Int} {r : FinalResult F}
    (h : s.finalResult? mid u t = some r) :
    ∃ tool, s.tool? mid = some tool ∧ r.messageId = mid ∧ r.state = (tool.applyResult u t).state ∧
      r.result = (tool.applyResult u t).result ∧ (tool.applyResult u t).isClosed ∧
      (tool.applyResult u t).takesResult = false := by
  obtain ⟨tool, htool, h⟩ := Option.bind_eq_some_iff.mp h
  simp only at h
  split_ifs at h with hc
  simp only [Bool.and_eq_true, Option.isNone_iff_eq_none, Bool.not_eq_true'] at hc
  obtain ⟨⟨htakes, hstream⟩, hplaceholder⟩ := hc
  obtain rfl := Option.some.inj h
  refine ⟨tool, htool, rfl, rfl, rfl, ?_, hplaceholder⟩
  rw [ToolCall.applyResult_final htakes hstream]
  exact ToolCall.finish_isClosed u t _

theorem tool?_applyToolResult (mid i : MessageId) (u : ToolResultUpdate F) (t : Int)
    (metadata : Option (MessageMeta F)) (s : ReducerState F) :
    (s.applyToolResult mid u t metadata).tool? i =
      if mid = i then (s.tool? i).map (ToolCall.applyResult u t) else s.tool? i := by
  change (s.modifyMessage mid _).tool? i = _
  rw [ReducerState.tool?_modifyMessage]
  split_ifs
  · rw [ReducerState.tool?]
    cases hm : s.message? i with
    | none => rfl
    | some m =>
        simp only [Option.bind_some, applyToolResultUpdateToReducerMessage]
        cases htool : m.tool with
        | none => simp [htool]
        | some tool => rfl
  · rfl

theorem ToolCall.applyResult_of_spares {tool : ToolCall F} (h : tool.takesResult = false)
    (u : ToolResultUpdate F) (t : Int) : tool.applyResult u t = tool := by
  rw [applyResult, h]
  rfl

theorem Kept.applyToolResult (h : Kept s) {mid : MessageId} (hs : s.sparesResult mid = true)
    (u : ToolResultUpdate F) (t : Int) (metadata : Option (MessageMeta F)) :
    Kept (s.applyToolResult mid u t metadata) := by
  have hnew : ∀ r, s.finalResult? mid u t = some r →
      (∃ tool, (s.applyToolResult mid u t metadata).tool? r.messageId = some tool ∧
        tool.state = r.state ∧ tool.result = r.result) ∧ (r.state = .completed ∨ r.state = .error) ∧
        (r.state = .error → resultError r.result ≠ some requestInterruptedReason) := by
    intro r hr
    obtain ⟨tool, htool, rfl, hstate, hresult, hclosed, htakes⟩ := finalResult?_spec hr
    refine ⟨⟨tool.applyResult u t, ?_, hstate.symm, hresult.symm⟩, hstate ▸ hclosed, fun he => ?_⟩
    · rw [tool?_applyToolResult, if_pos rfl, htool, Option.map_some]
    · rw [hresult]
      exact ToolCall.not_interrupted htakes (hstate ▸ he)
  refine ⟨fun r hmem => ?_, fun r hmem => ?_, fun r hmem => ?_⟩
  · rcases mem_finalResults_applyToolResult hmem with hmem | hr
    · obtain ⟨tool, htool, hstate, hresult⟩ := h.kept r hmem
      refine ⟨tool, ?_, hstate, hresult⟩
      rw [tool?_applyToolResult]
      split_ifs with heq
      · have hfinal : s.hasFinalResult mid = true := List.any_eq_true.mpr ⟨r, hmem, by simp [heq]⟩
        have htakes : tool.takesResult = false := by
          simpa [ReducerState.sparesResult, ReducerState.finalOnlyIf, hfinal, heq ▸ htool] using hs
        rw [htool, Option.map_some, ToolCall.applyResult_of_spares htakes]
      · exact htool
    · exact (hnew r hr).1
  · rcases mem_finalResults_applyToolResult hmem with hmem | hr
    · exact h.closed r hmem
    · exact (hnew r hr).2.1
  · rcases mem_finalResults_applyToolResult hmem with hmem | hr
    · exact h.real r hmem
    · exact (hnew r hr).2.2

theorem sparesResult_iff {mid : MessageId} :
    s.sparesResult mid = true ↔
      (s.hasFinalResult mid = true → ∀ tool, s.tool? mid = some tool → tool.takesResult = false) := by
  rw [ReducerState.sparesResult, ReducerState.finalOnlyIf]
  cases s.hasFinalResult mid <;> simp [Option.all_eq_true]

theorem hasFinalResult_applyToolResult {mid i : MessageId} {u : ToolResultUpdate F} {t : Int}
    {metadata : Option (MessageMeta F)}
    (h : (s.applyToolResult mid u t metadata).hasFinalResult i = true) :
    s.hasFinalResult i = true ∨ mid = i ∧ ∃ r, s.finalResult? mid u t = some r := by
  obtain ⟨r, hmem, hmid⟩ := List.any_eq_true.mp h
  rcases mem_finalResults_applyToolResult hmem with hmem | hr
  · exact .inl (List.any_eq_true.mpr ⟨r, hmem, hmid⟩)
  · obtain ⟨tool, -, hid, -⟩ := finalResult?_spec hr
    exact .inr ⟨hid.symm.trans (of_decide_eq_true hmid), r, hr⟩

theorem sparesResult_applyToolResult {i : MessageId} (hs : s.sparesResult i = true) (mid : MessageId)
    (u : ToolResultUpdate F) (t : Int) (metadata : Option (MessageMeta F)) :
    (s.applyToolResult mid u t metadata).sparesResult i = true := by
  rw [sparesResult_iff] at hs ⊢
  intro hf tool' ht'
  rw [tool?_applyToolResult] at ht'
  split_ifs at ht' with heq
  · obtain ⟨tool, ht, rfl⟩ := Option.map_eq_some_iff.mp ht'
    rcases hasFinalResult_applyToolResult hf with hf | ⟨-, r, hr⟩
    · have htakes := hs hf tool ht
      rwa [ToolCall.applyResult_of_spares htakes]
    · obtain ⟨tool₂, ht₂, -, -, -, -, htakes⟩ := finalResult?_spec hr
      rw [heq, ht] at ht₂
      exact Option.some.inj ht₂ ▸ htakes
  · rcases hasFinalResult_applyToolResult hf with hf | ⟨hmid, -⟩
    · exact hs hf tool' ht'
    · exact absurd hmid heq

theorem Kept.drain (host : ReducerHost) (h : Kept s) {mid : MessageId} (hs : s.sparesResult mid = true)
    (toolUseId : String) : Kept (s.drainAndApplyOrphanToolResultsToMessage host toolUseId mid) := by
  have hfold : ∀ (os : List (BufferedToolResult F)) (s : ReducerState F), Kept s →
      s.sparesResult mid = true → Kept (os.foldl (ReducerState.applyOrphan mid) s) := by
    intro os
    induction os with
    | nil => exact fun s h _ => h
    | cons o os ih =>
        exact fun s h hs => ih _ (h.applyToolResult hs _ _ _) (sparesResult_applyToolResult hs mid _ _ _)
  exact hfold _ _ (h.of_keepsClosed (KeepsClosed.of_messages rfl rfl)) hs

theorem Kept.drain_new (host : ReducerHost) (h : Kept s) (hk : KeepsClosed s s') (toolUseId : String) :
    Kept (s'.drainAndApplyOrphanToolResultsToMessage host toolUseId s.newId) := by
  apply (h.of_keepsClosed hk).drain host
  apply sparesResult_of_not_final
  rw [ReducerState.hasFinalResult, hk.results]
  exact h.not_final_newId

theorem Kept.addPermissionMessage (host : ReducerHost) (h : Kept s) (permId : String)
    (tool : ToolCall F) : Kept (s.addPermissionMessage host permId tool) := by
  rw [ReducerState.addPermissionMessage]
  apply h.drain_new host
  exact (ReducerState.keepsClosed_addMessage _ s).trans (KeepsClosed.of_messages rfl rfl)

theorem Kept.addToolMessage (host : ReducerHost) (h : Kept s) (msg : NormalizedMessage F)
    (blockIndex : Option Nat) (tool : ToolCall F) : Kept (s.addToolMessage host msg blockIndex tool) := by
  rw [ReducerState.addToolMessage]
  apply h.drain_new host
  exact (ReducerState.keepsClosed_addMessage _ s).trans (KeepsClosed.of_messages rfl rfl)

theorem Kept.modifyMessage (h : Kept s) (mid : MessageId) (f : ReducerMessage F → ReducerMessage F)
    (hf : s.hasFinalResult mid = true → ∀ m tool, m.tool = some tool → tool.isClosed →
      s.tool? mid = some tool →
      ∃ tool', (f m).tool = some tool' ∧ tool'.state = tool.state ∧ tool'.result = tool.result) :
    Kept (s.modifyMessage mid f) := by
  refine Kept.mono h ?_ fun i tool hfinal ht hc => ?_
  · rfl
  rw [ReducerState.tool?_modifyMessage]
  split_ifs with heq
  · subst heq
    obtain ⟨m, hm, hmt⟩ := Option.bind_eq_some_iff.mp ht
    obtain ⟨tool', htool', hstate, hresult⟩ := hf hfinal m tool hmt hc ht
    exact ⟨tool', by rw [hm, Option.bind_some, htool'], hstate, hresult⟩
  · exact ⟨tool, ht, rfl, rfl⟩

theorem Kept.modifyTool (h : Kept s) (mid : MessageId) (f : ToolCall F → ToolCall F)
    (hf : s.hasFinalResult mid = true → ∀ tool, s.tool? mid = some tool → tool.isClosed →
      (f tool).state = tool.state ∧ (f tool).result = tool.result) : Kept (s.modifyTool mid f) := by
  apply h.modifyMessage
  intro hfinal m tool hmt hc ht
  exact ⟨f tool, by rw [hmt, Option.map_some], hf hfinal tool ht hc⟩

theorem ToolCall.settle_of_isClosed (now : Int) (completed : CompletedRequest F) {tool : ToolCall F}
    (hc : tool.isClosed) : tool.settle now completed = tool := by
  rw [settle]
  rcases hc with hc | hc <;> simp [hc]

theorem Kept.processCompleted (host : ReducerHost) (now : Int) (h : Kept s)
    (requests : List (String × PermissionRequest F)) (ids : List String)
    (entry : String × CompletedRequest F) : Kept (s.processCompleted host now requests ids entry) := by
  obtain ⟨permId, completed⟩ := entry
  simp only [ReducerState.processCompleted]
  split
  · rename_i mid _
    split
    · exact h
    · split_ifs
      · have hkept : Kept (s.modifyTool mid (ToolCall.complete permId now completed)) := by
          apply h.modifyTool
          intro _ tool _ hc
          rw [ToolCall.complete, ToolCall.settle_of_isClosed]
          · exact ⟨rfl, rfl⟩
          · exact hc
        exact hkept.congr rfl rfl
      · exact h
  · split_ifs
    · exact h.congr rfl rfl
    · exact h
    · have hstored : Kept (s.storePermission permId (completed.stored now)) := h.congr rfl rfl
      exact hstored.addPermissionMessage host permId _

theorem shouldRestore_request (requestCreatedAt : Option Int) (tool : ToolCall F) (id : String)
    (input : Value F) (p : ToolPermission F) (hp : p.status = .pending)
    (h : shouldRestorePendingPermissionFromAgentState requestCreatedAt tool = false) :
    shouldRestorePendingPermissionFromAgentState requestCreatedAt
      { tool with id, input, permission := some (tool.permission.getD p) } = false := by
  cases hperm : tool.permission with
  | none => simp [shouldRestorePendingPermissionFromAgentState, hp]
  | some q =>
      rw [← h]
      simp only [shouldRestorePendingPermissionFromAgentState, hasRequestInterruptedPlaceholderText,
        ToolCall.reason, hperm, Option.getD_some]
      rfl

theorem Kept.processRequest [DecidableEq F] (host : ReducerHost) (now : Int) (h : Kept s)
    (entry : String × PermissionRequest F)
    (hs : (s.toolIdToMessageId.get entry.1).all (s.finalOnlyIf fun tool =>
      !shouldRestorePendingPermissionFromAgentState entry.2.createdAt tool) = true) :
    Kept (s.processRequest host now entry) := by
  obtain ⟨permId, request⟩ := entry
  cases hmid : s.toolIdToMessageId.get permId with
  | some mid =>
      have hkept : Kept (s.modifyTool mid (ToolCall.request permId request)) := by
        apply h.modifyTool
        intro hfinal tool ht hc
        have hrestore : shouldRestorePendingPermissionFromAgentState request.createdAt tool = false := by
          simpa [hmid, ReducerState.finalOnlyIf, hfinal, ht] using hs
        rw [ToolCall.request]
        simp only [shouldRestore_request request.createdAt tool permId _ (request.permission permId) rfl hrestore]
        exact ⟨rfl, rfl⟩
      simp only [ReducerState.processRequest, hmid]
      exact hkept.congr rfl rfl
  | none =>
      simp only [ReducerState.processRequest, hmid]
      exact (h.addPermissionMessage host permId (request.placeholder permId now)).congr rfl rfl

theorem keepsClosed_upsert (msg : NormalizedMessage F) (next : SegmentSnapshot F) (s : ReducerState F) :
    KeepsClosed s (upsertStreamSegmentSnapshotMessage msg next s).1 := by
  rw [upsertStreamSegmentSnapshotMessage]
  split
  · split
    · exact KeepsClosed.refl s
    · split_ifs
      · exact KeepsClosed.refl s
      · exact ReducerState.keepsClosed_writeText _ next.update (fun _ => rfl) msg s
      · exact KeepsClosed.refl s
  · exact (ReducerState.keepsClosed_addText next.message msg s).trans (KeepsClosed.of_messages rfl rfl)

namespace TextPass

variable {p : TextPass F}

def toolsOf (p : TextPass F) : List (ReducerMessage F) × List (FinalResult F) :=
  (p.state.messages, p.state.finalResults)

@[simp] theorem toolsOf_setThinkingCursor (next : Option MessageId) (p : TextPass F) :
    (p.setThinkingCursor next).toolsOf = p.toolsOf := rfl

@[simp] theorem toolsOf_setStreamCursor (next : Option (MessageId × String)) (p : TextPass F) :
    (p.setStreamCursor next).toolsOf = p.toolsOf := rfl

@[simp] theorem toolsOf_setThinkingCursorIf (c : Bool) (next : Option MessageId) (p : TextPass F) :
    (p.setThinkingCursorIf c next).toolsOf = p.toolsOf := by
  cases c <;> rfl

@[simp] theorem toolsOf_setStreamCursorIf (c : Bool) (next : Option (MessageId × String))
    (p : TextPass F) : (p.setStreamCursorIf c next).toolsOf = p.toolsOf := by
  cases c <;> rfl

@[simp] theorem toolsOf_mapSegmentKey (key : Option String) (mid : MessageId) (p : TextPass F) :
    (p.mapSegmentKey key mid).toolsOf = p.toolsOf := by
  cases key <;> rfl

theorem keepsClosed_of_toolsOf {q : TextPass F} (h : KeepsClosed s p.state) (hq : q.toolsOf = p.toolsOf) :
    KeepsClosed s q.state := h.congr (congrArg Prod.fst hq) (congrArg Prod.snd hq)

theorem keepsClosed_writeText (mid : MessageId) (f : ReducerMessage F → ReducerMessage F)
    (hf : ∀ m, (f m).tool = m.tool) (msg : NormalizedMessage F) (p : TextPass F) :
    KeepsClosed p.state (p.update (·.writeText mid f msg)).state :=
  ReducerState.keepsClosed_writeText mid f hf msg p.state

theorem keepsClosed_newText (m : ReducerMessage F) (msg : NormalizedMessage F) (p : TextPass F) :
    KeepsClosed p.state (p.update (·.addText m msg)).state := ReducerState.keepsClosed_addText m msg p.state

theorem keepsClosed_addUser (msg : NormalizedMessage F) (text : String) (p : TextPass F) :
    KeepsClosed p.state (p.addUser msg text).state := by
  rw [addUser]
  split_ifs
  · exact KeepsClosed.refl _
  · have hadd := ReducerState.keepsClosed_addText (userMessage msg text) msg p.state
    cases msg.localId.bind nonEmpty? <;> exact hadd.trans (KeepsClosed.of_messages rfl rfl)

theorem keepsClosed_addSegment (kind : StreamSegmentKind) (msg : NormalizedMessage F)
    (snapshot : SegmentSnapshot F) (p : TextPass F) :
    KeepsClosed p.state (p.addSegment kind msg snapshot).state := by
  have hupsert := keepsClosed_upsert msg snapshot p.state
  rw [addSegment]
  generalize upsertStreamSegmentSnapshotMessage msg snapshot p.state = r at hupsert
  obtain ⟨state, upsert⟩ := r
  cases kind with
  | assistant => exact keepsClosed_of_toolsOf (p := { p with state }) hupsert (by simp)
  | thinking => exact keepsClosed_of_toolsOf (p := { p with state }) hupsert (by simp)

theorem keepsClosed_addText (msg : NormalizedMessage F) (blockIndex : Nat) (text : String)
    (p : TextPass F) : KeepsClosed p.state (p.addText msg blockIndex text).state := by
  rw [addText]
  split_ifs
  · exact (ReducerState.keepsClosed_markRunningToolsUnavailable msg.createdAt p.state).trans
      (KeepsClosed.of_messages rfl rfl)
  · split
    · exact keepsClosed_addSegment _ msg _ p
    · split
      · rename_i mid _ _ _
        have hwrite := keepsClosed_writeText mid (ReducerMessage.mergeChunk (· ++ text) msg.seq)
          (fun _ => rfl) msg p
        exact keepsClosed_of_toolsOf hwrite (by simp)
      · have hnew := keepsClosed_newText (textMessage msg (some blockIndex) false text) msg p
        exact keepsClosed_of_toolsOf hnew (by simp)

theorem keepsClosed_mergeThinking (mid : MessageId) (msg : NormalizedMessage F) (chunk : String)
    (p : TextPass F) : KeepsClosed p.state (p.mergeThinking mid msg chunk).state :=
  keepsClosed_of_toolsOf (keepsClosed_writeText mid
    (ReducerMessage.mergeChunk (mergeThinkingText · chunk) msg.seq) (fun _ => rfl) msg p) rfl

theorem keepsClosed_addThinkingChunk (msg : NormalizedMessage F) (blockIndex : Nat) (key : Option String)
    (chunk : String) (p : TextPass F) :
    KeepsClosed p.state (p.addThinkingChunk msg blockIndex key chunk).state := by
  rw [addThinkingChunk]
  split
  · exact keepsClosed_mergeThinking _ msg chunk p
  · split
    · rename_i mid _
      exact keepsClosed_of_toolsOf (keepsClosed_mergeThinking mid msg chunk p) (by simp)
    · have hnew := keepsClosed_newText (textMessage msg (some blockIndex) true chunk) msg p
      exact keepsClosed_of_toolsOf hnew (by simp)

theorem kept_addToolCall (h : Kept p.state) (host : ReducerHost) (msg : NormalizedMessage F)
    (blockIndex : Nat) (id name : String) (input : Value F) (description : Option String) :
    Kept (p.addToolCall host msg blockIndex id name input description).state := by
  simp only [addToolCall]
  split_ifs
  · exact h.congr rfl rfl
  · apply Kept.addToolMessage host
    rw [ReducerState.rememberRequest]
    split_ifs
    · exact h.congr rfl rfl
    · exact h.congr rfl rfl

theorem kept_addContent (host : ReducerHost) (msg : NormalizedMessage F) {acc : TextPass F × ThinkingRun}
    (h : Kept acc.1.state) (content : AgentContent F × Nat) :
    Kept (addContent host msg acc content).1.state := by
  obtain ⟨p, run⟩ := acc
  obtain ⟨⟨body, uuid, parentUUID⟩, blockIndex⟩ := content
  cases body with
  | thinking thinking =>
      simp only [addContent]
      split
      · exact h.of_keepsClosed (keepsClosed_addSegment _ msg _ p)
      · split_ifs
        · exact h.of_keepsClosed (keepsClosed_addThinkingChunk msg blockIndex _ _ p)
        · exact h
  | text text => exact h.of_keepsClosed (keepsClosed_addText msg blockIndex text p)
  | toolCall id name input description =>
      exact kept_addToolCall h host msg blockIndex id name input description
  | toolResult update => exact h
  | summary summary => exact h
  | sidechain prompt => exact h

theorem kept_addMessage (h : Kept p.state) (host : ReducerHost) (msg : NormalizedMessage F) :
    Kept (p.addMessage host msg).state := by
  rw [addMessage]
  split
  · exact h.of_keepsClosed (keepsClosed_addUser msg _ p)
  · have hfold : ∀ (cs : List (AgentContent F × Nat)) (acc : TextPass F × ThinkingRun),
        Kept acc.1.state → Kept (cs.foldl (addContent host msg) acc).1.state := by
      intro cs
      induction cs with
      | nil => exact fun acc hacc => hacc
      | cons c cs ih => exact fun acc hacc => ih _ (kept_addContent host msg hacc c)
    exact hfold _ _ h
  · exact h

end TextPass

theorem Kept.addEvent (h : Kept s) (msg : NormalizedMessage F) (event : AgentEvent F) :
    Kept (s.addEvent msg event) := by
  have hadd := h.of_keepsClosed (ReducerState.keepsClosed_addMessage (eventMessage msg event) s)
  exact hadd.congr rfl rfl

theorem Kept.markSeen (h : Kept s) (id : String) : Kept (s.markSeen id) := h.congr rfl rfl

theorem Kept.setThinkingMergeCursor (h : Kept s) (next : Option MessageId) :
    Kept (s.setThinkingMergeCursor next) := h.congr rfl rfl

theorem Kept.markRunningToolsUnavailable (h : Kept s) (t : Int) : Kept (s.markRunningToolsUnavailable t) :=
  h.of_keepsClosed (ReducerState.keepsClosed_markRunningToolsUnavailable t s)

theorem Kept.processEvent (h : Kept s) (msg : NormalizedMessage F) : Kept (s.processEvent msg) := by
  rw [ReducerState.processEvent]
  split
  · split_ifs
    · exact h
    · simp only
      split
      · split_ifs
        · exact (h.markSeen msg.id).markRunningToolsUnavailable msg.createdAt
        · exact h.markSeen msg.id
      · exact (h.markSeen msg.id).addEvent msg _
  · exact h

theorem ToolCall.update_spared [DecidableEq F] (createdAt : Int) (id name : String) (input : Value F)
    (description : Option String) {tool : ToolCall F}
    (hs : ¬ (tool.status = some .approved ∧ tool.state = .completed)) :
    (tool.update createdAt id name input description).state = tool.state ∧
      (tool.update createdAt id name input description).result = tool.result := by
  have hpending : ∀ p : ToolPermission F, p.status = .pending → tool.state = .completed →
      (tool.permission.getD p).status ≠ .approved := by
    intro p hp hstate
    cases hperm : tool.permission with
    | none => simp [hp]
    | some q =>
        rw [Option.getD_some]
        exact fun hq => hs ⟨by simp [status, hperm, hq], hstate⟩
  rw [update]
  by_cases hrequest : isPermissionRequestToolCall id (updatedInput tool.input input) = true
  · have hnot : ¬ ((tool.permission.getD (pendingPermission id)).status = .approved ∧
        tool.state = .completed) := fun h => hpending _ rfl h.2 h.1
    simp [hrequest, status, hnot]
  · have hnot : ¬ (tool.permission.map ToolPermission.status = some .approved ∧
        tool.state = .completed) := hs
    simp only [hrequest, status, hnot, if_false, Bool.false_eq_true]
    exact ⟨trivial, trivial⟩

theorem Kept.processToolCall [DecidableEq F] (host : ReducerHost) (h : Kept s) (msg : NormalizedMessage F)
    (blockIndex : Nat) (id name : String) (input : Value F) (description : Option String)
    (hs : (s.toolIdToMessageId.get id).all (s.finalOnlyIf fun tool =>
      !(tool.status = some .approved && tool.state = .completed)) = true) :
    Kept (s.processToolCall host msg blockIndex id name input description) := by
  cases hmid : s.toolIdToMessageId.get id with
  | some mid =>
      have hkept : Kept (s.modifyMessage mid
          (ReducerMessage.updateTool msg blockIndex id name input description)) := by
        apply h.modifyMessage
        intro hfinal m tool hmt _ ht
        have hspared : ¬ (tool.status = some .approved ∧ tool.state = .completed) := by
          rw [not_and_or]
          simpa [hmid, ReducerState.finalOnlyIf, hfinal, ht] using hs
        refine ⟨_, ?_, ToolCall.update_spared msg.createdAt id name input description hspared⟩
        rw [ReducerMessage.updateTool, hmt]
      simp only [ReducerState.processToolCall, hmid]
      split_ifs
      · exact hkept.markSeen msg.id
      · exact h
  | none =>
      have hremember : Kept (s.rememberRequest msg id name input) := by
        rw [ReducerState.rememberRequest]
        split_ifs
        · exact h.congr rfl rfl
        · exact h
      simp only [ReducerState.processToolCall, hmid]
      apply Kept.setThinkingMergeCursor
      apply Kept.markSeen
      exact hremember.addToolMessage host msg _ _

theorem Kept.processToolResult (h : Kept s) (now : Int) (msg : NormalizedMessage F) (contentIndex : Nat)
    (u : ToolResultUpdate F)
    (hs : (s.toolIdToMessageId.get u.toolUseId).all s.sparesResult = true) :
    Kept (s.processToolResult now msg contentIndex u) := by
  rw [ReducerState.processToolResult]
  cases hmid : s.toolIdToMessageId.get u.toolUseId with
  | none => exact h.congr rfl rfl
  | some mid => exact h.applyToolResult (by simpa [hmid] using hs) u _ _

theorem sparesResult_of_keepsClosed (h : Kept s) (hk : KeepsClosed s s') {mid : MessageId}
    (hs : s.sparesResult mid = true) : s'.sparesResult mid = true := by
  rw [sparesResult_iff] at hs ⊢
  intro hf tool ht
  rw [ReducerState.hasFinalResult, hk.results] at hf
  obtain ⟨tool', ht', hc⟩ := h.isClosed hf
  rw [hk.tools mid tool' ht' hc] at ht
  exact Option.some.inj ht ▸ hs hf tool' ht'

def ReducerState.LeadsTo (s : ReducerState F) (id : String) (mid : MessageId) : Prop :=
  s.sidechainToolIdToMessageId.get id = some mid ∨ s.toolIdToMessageId.get id = some mid

structure KeptFor (ids : List String) (s : ReducerState F) : Prop where
  kept : Kept s
  spares : ∀ id ∈ ids, ∀ mid, s.LeadsTo id mid → s.sparesResult mid = true

variable {ids : List String}

theorem KeptFor.of_keepsClosed (h : KeptFor ids s) (hk : KeepsClosed s s')
    (hl : ∀ id mid, s'.LeadsTo id mid → s.LeadsTo id mid ∨ s.hasFinalResult mid = false) :
    KeptFor ids s' where
  kept := h.kept.of_keepsClosed hk
  spares id hid mid hlead := by
    rcases hl id mid hlead with hlead | hf
    · exact sparesResult_of_keepsClosed h.kept hk (h.spares id hid mid hlead)
    · apply sparesResult_of_not_final
      rw [ReducerState.hasFinalResult, hk.results]
      exact hf

theorem KeptFor.of_tables (h : KeptFor ids s) (hk : KeepsClosed s s')
    (hs : s'.sidechainToolIdToMessageId = s.sidechainToolIdToMessageId)
    (ht : s'.toolIdToMessageId = s.toolIdToMessageId) : KeptFor ids s' :=
  h.of_keepsClosed hk fun id mid hlead => .inl (by rwa [ReducerState.LeadsTo, hs, ht] at hlead)

theorem KeptFor.applyToolResult (h : KeptFor ids s) {id : String} (hid : id ∈ ids) {mid : MessageId}
    (hlead : s.LeadsTo id mid) (u : ToolResultUpdate F) (t : Int) (metadata : Option (MessageMeta F)) :
    KeptFor ids (s.applyToolResult mid u t metadata) where
  kept := h.kept.applyToolResult (h.spares id hid mid hlead) u t metadata
  spares id' hid' mid' hlead' := sparesResult_applyToolResult (h.spares id' hid' mid' hlead') mid u t metadata

namespace ChainPass

variable {p : ChainPass F}

theorem keptFor_congr {s : ReducerState F} (h : KeptFor ids s) {s' : ReducerState F}
    (hm : s'.messages = s.messages) (hr : s'.finalResults = s.finalResults)
    (hs : s'.sidechainToolIdToMessageId = s.sidechainToolIdToMessageId)
    (ht : s'.toolIdToMessageId = s.toolIdToMessageId) : KeptFor ids s' :=
  h.of_tables (KeepsClosed.of_messages hm hr) hs ht

theorem keptFor_setCursor (h : KeptFor ids s) (sidechainId : String) (next : Option MessageId) :
    KeptFor ids (s.setSidechainThinkingMergeCursor sidechainId next) := by
  cases next <;> exact keptFor_congr h rfl rfl rfl rfl

theorem keptFor_setCursorIf (h : KeptFor ids p.state) (c : Bool) (sidechainId : String)
    (next : Option MessageId) : KeptFor ids (p.setCursorIf c sidechainId next).state := by
  cases c
  · exact h
  · exact keptFor_setCursor h sidechainId next

theorem keptFor_newText (h : KeptFor ids s) (m : ReducerMessage F) (msg : NormalizedMessage F) :
    KeptFor ids (s.addText m msg) := h.of_tables (ReducerState.keepsClosed_addText m msg s) rfl rfl

theorem keptFor_writeText (h : KeptFor ids s) (mid : MessageId) (f : String → String)
    (msg : NormalizedMessage F) : KeptFor ids (s.writeText mid (appendText f) msg) :=
  h.of_tables (ReducerState.keepsClosed_writeText mid (appendText f) (fun _ => rfl) msg s) rfl rfl

theorem tables_upsert (msg : NormalizedMessage F) (next : SegmentSnapshot F) (s : ReducerState F) :
    (upsertStreamSegmentSnapshotMessage msg next s).1.sidechainToolIdToMessageId =
        s.sidechainToolIdToMessageId ∧
      (upsertStreamSegmentSnapshotMessage msg next s).1.toolIdToMessageId = s.toolIdToMessageId := by
  rw [upsertStreamSegmentSnapshotMessage]
  split
  · split
    · exact ⟨rfl, rfl⟩
    · split_ifs <;> exact ⟨rfl, rfl⟩
  · exact ⟨rfl, rfl⟩

theorem keptFor_addSegment (h : KeptFor ids p.state) (sidechainId : String) (kind : StreamSegmentKind)
    (msg : NormalizedMessage F) (snapshot : SegmentSnapshot F) :
    KeptFor ids (p.addSegment sidechainId kind msg snapshot).state := by
  have hupsert : KeptFor ids (upsertStreamSegmentSnapshotMessage msg snapshot p.state).1 :=
    h.of_tables (keepsClosed_upsert msg snapshot p.state) (tables_upsert msg snapshot p.state).1
      (tables_upsert msg snapshot p.state).2
  rw [addSegment]
  generalize upsertStreamSegmentSnapshotMessage msg snapshot p.state = r at hupsert
  obtain ⟨state, upsert⟩ := r
  apply keptFor_setCursorIf
  exact hupsert

theorem keptFor_addText (h : KeptFor ids p.state) (sidechainId : String) (msg : NormalizedMessage F)
    (text : String) : KeptFor ids (p.addText sidechainId msg text).state := by
  rw [addText]
  split
  · exact keptFor_addSegment h sidechainId _ msg _
  · apply keptFor_setCursorIf
    split
    · exact keptFor_writeText h _ _ msg
    · exact keptFor_newText h _ msg

theorem keptFor_addThinking (h : KeptFor ids p.state) (sidechainId : String) (msg : NormalizedMessage F)
    (thinking : String) : KeptFor ids (p.addThinking sidechainId msg thinking).state := by
  simp only [addThinking]
  split
  · exact keptFor_addSegment h sidechainId _ msg _
  · split_ifs
    · split
      · rename_i mid _
        exact keptFor_setCursor (keptFor_writeText h mid (unwrapThinkingText · ++ _) msg) sidechainId (some mid)
      · exact keptFor_setCursor (keptFor_newText h (textMessage msg none true _) msg) sidechainId
          (some p.state.newId)
    · exact h

theorem startPermitted_of_isClosed (createdAt : Int) (description : Option String) {tool : ToolCall F}
    (hc : tool.isClosed) : startPermitted createdAt description tool = tool := by
  rw [startPermitted]
  rcases hc with hc | hc <;> simp [hc]

theorem keptFor_newTool (h : KeptFor ids s) (m : ReducerMessage F) (id : String) :
    KeptFor ids { s.addMessage m with
      sidechainToolIdToMessageId := s.sidechainToolIdToMessageId.set id s.newId } := by
  refine h.of_keepsClosed ((ReducerState.keepsClosed_addMessage m s).congr rfl rfl) fun id' mid hlead => ?_
  rcases hlead with hlead | hlead
  · rw [Table.get_set] at hlead
    split_ifs at hlead
    · exact .inr (Option.some.inj hlead ▸ h.kept.not_final_newId)
    · exact .inl (.inl hlead)
  · exact .inl (.inr hlead)

theorem keptFor_addToolCall (h : KeptFor ids p.state) (sidechainId : String) (msg : NormalizedMessage F)
    (id name : String) (input : Value F) (description : Option String) :
    KeptFor ids (p.addToolCall sidechainId msg id name input description).state := by
  have hcursor := keptFor_setCursor h sidechainId none
  simp only [addToolCall]
  split
  · rename_i mid _
    apply keptFor_newTool (s := ReducerState.modifyTool mid _ _)
    refine hcursor.of_tables (ReducerState.keepsClosed_modifyTool mid ?_ _) rfl rfl
    exact fun tool hc => startPermitted_of_isClosed _ _ hc
  · exact keptFor_newTool hcursor _ id

theorem keptFor_applyTo (h : KeptFor ids p.state) {id : String} (hid : id ∈ ids) (mid : Option MessageId)
    (hlead : ∀ i, mid = some i → p.state.LeadsTo id i) (msg : NormalizedMessage F) (u : ToolResultUpdate F) :
    KeptFor ids (p.applyTo mid msg u).state := by
  cases mid with
  | none => exact h
  | some i => exact h.applyToolResult hid (hlead i rfl) u _ _

theorem keptFor_addContent (h : KeptFor ids p.state) (sidechainId : String) (msg : NormalizedMessage F)
    (c : AgentContent F) (hc : ∀ u, toolResult? c = some u → u.toolUseId ∈ ids) :
    KeptFor ids (p.addContent sidechainId msg c).state := by
  obtain ⟨body, uuid, parentUUID⟩ := c
  cases body with
  | text text => exact keptFor_addText h sidechainId msg text
  | thinking thinking => exact keptFor_addThinking h sidechainId msg thinking
  | toolCall id name input description => exact keptFor_addToolCall h sidechainId msg id name input description
  | toolResult u =>
      have hid := hc u rfl
      have hfirst := keptFor_applyTo h hid (p.state.sidechainToolIdToMessageId.get u.toolUseId)
        (fun i hi => .inl hi) msg u
      exact keptFor_applyTo hfirst hid _ (fun i hi => .inr hi) msg u
  | summary summary => exact h
  | sidechain prompt => exact h

theorem keptFor_addContents (h : KeptFor ids p.state) (sidechainId : String) (msg : NormalizedMessage F)
    (hc : ∀ c ∈ msg.content, ∀ u, toolResult? c = some u → u.toolUseId ∈ ids) :
    KeptFor ids (p.addContents sidechainId msg).state := by
  rw [addContents]
  split
  · exact keptFor_setCursor (keptFor_newText h _ msg) sidechainId none
  · generalize msg.content = contents at hc
    induction contents generalizing p with
    | nil => exact h
    | cons c cs ih =>
        obtain ⟨hc, hcs⟩ := List.forall_mem_cons.mp hc
        exact ih (keptFor_addContent h sidechainId msg c hc) hcs

end ChainPass

theorem Kept.restore (h : Kept s) (mid : MessageId) (sidechainId : String) :
    Kept (s.restoreSubagentToolFromSyntheticInterruption mid sidechainId) := by
  apply h.modifyTool
  intro hfinal tool ht hc
  obtain ⟨r, hmem, hmid⟩ := List.any_eq_true.mp hfinal
  obtain rfl := of_decide_eq_true hmid
  obtain ⟨tool', ht', hstate, hresult⟩ := h.kept r hmem
  obtain rfl := Option.some.inj (ht.symm.trans ht')
  have hnot : tool.isRestorableSubagentClosure = false := by
    rcases hc with hc | hc
    · simp [ToolCall.isRestorableSubagentClosure, hc]
    · have hreal := h.real r hmem (hstate.symm.trans hc)
      rw [← hresult] at hreal
      simp [ToolCall.isRestorableSubagentClosure, ToolCall.isSyntheticRequestInterrupted, hc, hreal]
  rw [hnot, Bool.false_and, if_neg Bool.false_ne_true]
  exact ⟨rfl, rfl⟩

theorem Kept.processSidechainMessage (h : Kept s) (msg : NormalizedMessage F)
    (hs : ∀ u ∈ msg.content.filterMap toolResult?, ∀ mid, s.LeadsTo u.toolUseId mid →
      s.sparesResult mid = true) : Kept (s.processSidechainMessage msg) := by
  rw [ReducerState.processSidechainMessage]
  split
  · exact h
  · rename_i sidechainId _
    split_ifs
    · exact h
    · have hstart : KeptFor ((msg.content.filterMap toolResult?).map ToolResultUpdate.toolUseId)
          (s.markSeen msg.id) := by
        refine ⟨h.markSeen msg.id, fun id hid mid hlead => ?_⟩
        obtain ⟨u, hu, rfl⟩ := List.mem_map.mp hid
        exact hs u hu mid hlead
      have hpass := ChainPass.keptFor_addContents (p := ⟨s.markSeen msg.id, s.chain sidechainId⟩) hstart
        sidechainId msg fun c hc u hu => List.mem_map_of_mem (List.mem_filterMap.mpr ⟨c, hc, hu⟩)
      generalize ChainPass.addContents sidechainId msg ⟨s.markSeen msg.id, s.chain sidechainId⟩ = pass at hpass
      have hstored : Kept (ReducerState.storeChain sidechainId pass) := hpass.kept.congr rfl rfl
      simp only
      split
      · exact hstored.restore _ sidechainId
      · exact hstored

theorem Conversion.kept_add {c : Conversion F} (h : Kept c.state) (msg : NormalizedMessage F) :
    Kept (c.add msg).state := by
  rw [Conversion.add]
  split_ifs
  · exact h
  · exact h.markSeen msg.id
  · split
    · exact h.markSeen msg.id
    · exact h

theorem kept_converted (h : Kept s) (traced : List (NormalizedMessage F)) : Kept (converted traced s).state := by
  rw [converted]
  exact List.foldlRecOn (motive := fun c : Conversion F => Kept c.state) _ _ h fun _ hc msg _ =>
    Conversion.kept_add hc msg

section Runs

variable [DecidableEq F] (host : ReducerHost)

theorem kept_step (now : Int) {p : TextPass F} (step : Step F) (h : Kept p.state)
    (hs : step.spares p = true) : Kept (step.apply host now p).state := by
  cases step with
  | convert msg event => exact h.addEvent msg event
  | request entry => exact h.processRequest host now entry hs
  | completed requests ids entry => exact h.processCompleted host now requests ids entry
  | text msg => exact TextPass.kept_addMessage h host msg
  | toolCall msg content =>
      obtain ⟨⟨body, uuid, parentUUID⟩, blockIndex⟩ := content
      cases body with
      | toolCall id name input description =>
          exact h.processToolCall host msg blockIndex id name input description hs
      | _ => exact h
  | toolResult msg content =>
      obtain ⟨⟨body, uuid, parentUUID⟩, contentIndex⟩ := content
      cases body with
      | toolResult u => exact h.processToolResult now msg contentIndex u hs
      | _ => exact h
  | sidechain msg =>
      apply h.processSidechainMessage
      intro u hu mid hlead
      have hboth := Bool.and_eq_true_iff.mp (List.all_eq_true.mp hs u hu)
      rcases hlead with hlead | hlead
      · simpa [hlead] using hboth.1
      · simpa [hlead] using hboth.2
  | event msg => exact h.processEvent msg
  | ready readyAt => exact h.markRunningToolsUnavailable readyAt

theorem kept_reducer {s : ReducerState F} (call : ReducerCall F) (h : Kept s)
    (hs : CallSpares host s call) : Kept (reducer host s call) := by
  have hrun := Runs.run_invariant_along (I := fun p => Kept p.state)
    (fun p step => kept_step host call.now step) (kept_converted h _) hs
  rw [reducer, runPhases_eq_run]
  exact hrun.congr rfl rfl

omit [DecidableEq F] in
theorem kept_createReducer : Kept (createReducer : ReducerState F) :=
  ⟨fun _ h => absurd h List.not_mem_nil, fun _ h => absurd h List.not_mem_nil,
    fun _ h => absurd h List.not_mem_nil⟩

def approvedRequest : CompletedRequest Empty :=
  ⟨"Bash", none, some (.obj []), some 1, some 2, .approved, none, none, none, none, none⟩

def bashCall (id : String) (createdAt : Int) : NormalizedMessage Empty :=
  .ofAgent id createdAt (.toolCall "t1" "Bash" (some (.obj [])) none)

def bashResult (id : String) (createdAt : Int) (isError : Bool) : NormalizedMessage Empty :=
  .ofAgent id createdAt (.toolResult ⟨"t1", some (.str "output"), isError, none⟩)

def callAfterResult (isError : Bool) : List (ReducerCall Empty) :=
  [⟨[bashCall "m1" 1], some ⟨[], [("t1", approvedRequest)]⟩, 5⟩, ⟨[bashResult "m2" 2 isError], none, 6⟩,
    ⟨[bashCall "m3" 3], none, 7⟩]

end Runs

end DevPilot.Transcript
