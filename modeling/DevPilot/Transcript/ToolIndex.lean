import DevPilot.Transcript.Steps

/-!
The index from tool ids to messages: every id leads to the one root message of
its tool, in every state, and no message changes the time it was created at.
-/

namespace DevPilot.Transcript

open PyJson Tables

variable {F : Type}

/-- The creation times and the tool ids of the messages, and where they are. -/
structure Index where
  rows : List (Int × Option String)
  toolIds : Table MessageId
  sidechains : Table (List MessageId)

def ReducerMessage.row (m : ReducerMessage F) : Int × Option String :=
  (m.createdAt, m.tool.map ToolCall.id)

def ReducerState.index (s : ReducerState F) : Index :=
  ⟨s.messages.map ReducerMessage.row, s.toolIdToMessageId, s.sidechains⟩

namespace Index

def inSidechains (ix : Index) : List MessageId := ix.sidechains.values.flatten

def add (row : Int × Option String) (ix : Index) : Index := { ix with rows := ix.rows ++ [row] }

def addTool (t : Int) (id : String) (ix : Index) : Index :=
  { ix.add (t, some id) with toolIds := ix.toolIds.set id ix.rows.length }

/-- The index is sound while the messages of `chain` are put into a sidechain,
and the messages that were created at `times` still are the first ones. -/
structure Sound (times : List Int) (chain : List MessageId) (ix : Index) : Prop where
  mapped : ∀ id mid, ix.toolIds.get id = some mid → ∃ t, ix.rows[mid]? = some (t, some id)
  outside : ∀ id mid, ix.toolIds.get id = some mid → mid ∉ ix.inSidechains ∧ mid ∉ chain
  known : ∀ mid t id, ix.rows[mid]? = some (t, some id) → mid ∉ ix.inSidechains → mid ∉ chain →
    ix.toolIds.get id = some mid
  bounded : ∀ mid, mid ∈ ix.inSidechains ∨ mid ∈ chain → mid < ix.rows.length
  times_kept : times <+: ix.rows.map Prod.fst

variable {times : List Int} {chain : List MessageId} {ix : Index}

theorem times_kept_add (h : times <+: ix.rows.map Prod.fst) (row : Int × Option String) :
    times <+: (ix.add row).rows.map Prod.fst := by
  rw [add, List.map_append]
  exact h.trans (List.prefix_append _ _)

theorem rows_add_of_lt {mid : MessageId} (h : mid < ix.rows.length) (row : Int × Option String) :
    (ix.add row).rows[mid]? = ix.rows[mid]? := List.getElem?_append_left h

theorem lt_of_rows {mid : MessageId} {row : Int × Option String} (h : ix.rows[mid]? = some row) :
    mid < ix.rows.length := (List.getElem?_eq_some_iff.mp h).1

theorem rows_add_cases {mid : MessageId} {row r : Int × Option String}
    (h : (ix.add row).rows[mid]? = some r) : ix.rows[mid]? = some r ∨ mid = ix.rows.length ∧ r = row := by
  rcases Nat.lt_or_ge mid ix.rows.length with hlt | hge
  · exact .inl (rows_add_of_lt hlt row ▸ h)
  · obtain ⟨hmid, hrow⟩ := List.getElem?_eq_some_iff.mp h
    have heq : mid = ix.rows.length := by
      rw [add, List.length_append] at hmid
      exact Nat.le_antisymm (Nat.le_of_lt_succ hmid) hge
    subst heq
    rw [add, List.getElem?_concat_length] at h
    exact .inr ⟨rfl, (Option.some.inj h).symm⟩

theorem lt_length_add {mid : MessageId} (h : mid < ix.rows.length) (row : Int × Option String) :
    mid < (ix.add row).rows.length := by
  rw [add, List.length_append]
  exact Nat.lt_add_right _ h

theorem Sound.add (h : Sound times chain ix) (t : Int) : Sound times chain (ix.add (t, none)) where
  mapped id mid hid := by
    obtain ⟨t', hrow⟩ := h.mapped id mid hid
    exact ⟨t', (rows_add_of_lt (lt_of_rows hrow) _).trans hrow⟩
  outside := h.outside
  known mid t' id hrow hs hc := by
    rcases rows_add_cases hrow with hrow | ⟨-, hrow⟩
    · exact h.known mid t' id hrow hs hc
    · cases hrow
  bounded mid hmid := lt_length_add (h.bounded mid hmid) _
  times_kept := times_kept_add h.times_kept _

theorem Sound.addTool (h : Sound times chain ix) {id : String} (hfresh : ix.toolIds.get id = none)
    (t : Int) : Sound times chain (ix.addTool t id) where
  mapped id' mid hid := by
    rw [Index.addTool, Table.get_set] at hid
    split_ifs at hid with heq
    · obtain rfl := Option.some.inj hid
      exact ⟨t, heq ▸ List.getElem?_concat_length⟩
    · obtain ⟨t', hrow⟩ := h.mapped id' mid hid
      exact ⟨t', (rows_add_of_lt (lt_of_rows hrow) _).trans hrow⟩
  outside id' mid hid := by
    rw [Index.addTool, Table.get_set] at hid
    split_ifs at hid with heq
    · obtain rfl := Option.some.inj hid
      constructor
      · exact fun hmem => (h.bounded _ (.inl hmem)).false
      · exact fun hmem => (h.bounded _ (.inr hmem)).false
    · exact h.outside id' mid hid
  known mid t' id' hrow hs hc := by
    rw [Index.addTool, Table.get_set]
    rcases rows_add_cases hrow with hrow | ⟨hmid, hrow⟩
    · have hknown := h.known mid t' id' hrow hs hc
      have hne : id' ≠ id := fun heq => by rw [heq, hfresh] at hknown; cases hknown
      rw [if_neg hne, hknown]
    · obtain ⟨-, heq⟩ := Prod.mk.inj hrow
      rw [hmid, if_pos (Option.some.inj heq)]
  bounded mid hmid := lt_length_add (h.bounded mid hmid) _
  times_kept := times_kept_add h.times_kept _

theorem Sound.push (h : Sound times chain ix) (row : Int × Option String) :
    Sound times (chain ++ [ix.rows.length]) (ix.add row) where
  mapped id mid hid := by
    obtain ⟨t', hrow⟩ := h.mapped id mid hid
    exact ⟨t', (rows_add_of_lt (lt_of_rows hrow) _).trans hrow⟩
  outside id mid hid := by
    obtain ⟨t', hrow⟩ := h.mapped id mid hid
    obtain ⟨hs, hc⟩ := h.outside id mid hid
    refine ⟨hs, fun hmem => ?_⟩
    rcases List.mem_append.mp hmem with hmem | hmem
    · exact hc hmem
    · exact (lt_of_rows hrow).ne (List.mem_singleton.mp hmem)
  known mid t id hrow hs hc := by
    rw [List.mem_append, not_or, List.mem_singleton] at hc
    rcases rows_add_cases hrow with hrow | ⟨hmid, -⟩
    · exact h.known mid t id hrow hs hc.1
    · exact absurd hmid hc.2
  bounded mid hmid := by
    rcases hmid with hmid | hmid
    · exact lt_length_add (h.bounded mid (.inl hmid)) row
    · rcases List.mem_append.mp hmid with hmid | hmid
      · exact lt_length_add (h.bounded mid (.inr hmid)) row
      · rw [List.mem_singleton.mp hmid, Index.add, List.length_append]
        exact Nat.lt_succ_self _
  times_kept := times_kept_add h.times_kept _

theorem Sound.of_mem_iff (h : Sound times chain ix) {chain' : List MessageId} {ix' : Index}
    (hrows : ix'.rows = ix.rows) (htools : ix'.toolIds = ix.toolIds)
    (hmem : ∀ mid, (mid ∈ ix'.inSidechains ∨ mid ∈ chain') ↔ (mid ∈ ix.inSidechains ∨ mid ∈ chain)) :
    Sound times chain' ix' where
  mapped id mid hid := by
    rw [htools] at hid
    rw [hrows]
    exact h.mapped id mid hid
  outside id mid hid := by
    rw [htools] at hid
    rw [← not_or, hmem, not_or]
    exact h.outside id mid hid
  known mid t id hrow hs hc := by
    rw [hrows] at hrow
    rw [htools]
    obtain ⟨hs, hc⟩ := not_or.mp (mt (hmem mid).mpr (not_or.mpr ⟨hs, hc⟩))
    exact h.known mid t id hrow hs hc
  bounded mid hmid := by
    rw [hrows]
    exact h.bounded mid ((hmem mid).mp hmid)
  times_kept := hrows ▸ h.times_kept

end Index

section Rows

theorem ToolCall.applyResult_id (u : ToolResultUpdate F) (t : Int) (tool : ToolCall F) :
    (tool.applyResult u t).id = tool.id := by
  have hreopened : tool.reopened.id = tool.id := by
    rw [ToolCall.reopened]
    split <;> rfl
  rw [ToolCall.applyResult]
  split
  · split <;> exact hreopened
  · rfl

@[simp] theorem row_addMeta (metadata : Option (MessageMeta F)) (m : ReducerMessage F) :
    (m.addMeta metadata).row = m.row := by
  cases metadata <;> rfl

theorem row_applyToolResult (u : ToolResultUpdate F) (t : Int) (metadata : Option (MessageMeta F))
    (m : ReducerMessage F) : (applyToolResultUpdateToReducerMessage u t metadata m).row = m.row := by
  rw [applyToolResultUpdateToReducerMessage]
  cases htool : m.tool with
  | none => rfl
  | some tool =>
      have htime : (m.addMeta metadata).createdAt = m.createdAt := congrArg Prod.fst (row_addMeta metadata m)
      simp [ReducerMessage.row, htool, htime, ToolCall.applyResult_id]

theorem row_mergeChunk (merge : String → String) (seq : Option Int) (m : ReducerMessage F) :
    (m.mergeChunk merge seq).row = m.row := rfl

end Rows

namespace ReducerState

variable {s : ReducerState F} {mid : MessageId} {f : ReducerMessage F → ReducerMessage F}

theorem index_modifyMessage (h : ∀ m, s.message? mid = some m → (f m).row = m.row) :
    (s.modifyMessage mid f).index = s.index := by
  have hrows : (s.messages.modify mid f).map ReducerMessage.row = s.messages.map ReducerMessage.row := by
    apply List.ext_getElem?
    intro i
    rw [List.getElem?_map, List.getElem?_modify, List.getElem?_map]
    cases hm : s.messages[i]? with
    | none => rfl
    | some m =>
        by_cases hi : mid = i
        · subst hi
          simp [h m hm]
        · simp [hi]
  rw [index, modifyMessage, hrows]
  rfl

theorem index_writeText (h : ∀ m, (f m).row = m.row) (msg : NormalizedMessage F) :
    (s.writeText mid f msg).index = s.index := index_modifyMessage fun m _ => h m

theorem index_modifyTool {f : ToolCall F → ToolCall F} (h : ∀ tool, (f tool).id = tool.id) :
    (s.modifyTool mid f).index = s.index := by
  apply index_modifyMessage
  intro m _
  cases htool : m.tool with
  | none => simp [ReducerMessage.row, htool]
  | some tool => simp [ReducerMessage.row, htool, h]

theorem index_applyToolResult (s : ReducerState F) (mid : MessageId) (u : ToolResultUpdate F) (t : Int)
    (metadata : Option (MessageMeta F)) : (s.applyToolResult mid u t metadata).index = s.index :=
  index_modifyMessage (s := s) fun m _ => row_applyToolResult u t metadata m

theorem index_drain (host : ReducerHost) (toolUseId : String) (mid : MessageId) (s : ReducerState F) :
    (s.drainAndApplyOrphanToolResultsToMessage host toolUseId mid).index = s.index := by
  rw [drainAndApplyOrphanToolResultsToMessage]
  change _ = ({ s with orphanToolResults := s.orphanToolResults.delete toolUseId } : ReducerState F).index
  generalize ({ s with orphanToolResults := s.orphanToolResults.delete toolUseId } : ReducerState F) = s'
  induction s.orphansOf host toolUseId generalizing s' with
  | nil => rfl
  | cons o os ih => rw [List.foldl_cons, ih, applyOrphan, index_applyToolResult]

theorem index_markRunningToolsUnavailable (t : Int) (s : ReducerState F) :
    (s.markRunningToolsUnavailable t).index = s.index := by
  have hrow : ∀ m : ReducerMessage F, ReducerMessage.row
      { m with
        tool := m.tool.map fun tool =>
          if s.becomesUnavailable t tool then { tool with state := .unavailable, completedAt := some t }
          else tool } = m.row := by
    intro m
    cases htool : m.tool with
    | none => simp [ReducerMessage.row, htool]
    | some tool =>
        simp only [ReducerMessage.row, htool, Option.map_some]
        split <;> rfl
  simp only [index, markRunningToolsUnavailable, List.map_map]
  congr 1
  exact List.map_congr_left fun m _ => hrow m

theorem index_addMessage (m : ReducerMessage F) (s : ReducerState F) :
    (s.addMessage m).index = s.index.add m.row := by
  simp [index, addMessage, Index.add]

theorem index_addText (m : ReducerMessage F) (msg : NormalizedMessage F) (s : ReducerState F) :
    (s.addText m msg).index = s.index.add m.row := index_addMessage m s

theorem tool_of_mapped {times : List Int} {chain : List MessageId} (h : s.index.Sound times chain)
    {id : String} (hid : s.toolIdToMessageId.get id = some mid) :
    ∃ m tool, s.message? mid = some m ∧ m.tool = some tool ∧ tool.id = id := by
  obtain ⟨t, hrow⟩ := h.mapped id mid hid
  rw [index, List.getElem?_map, Option.map_eq_some_iff] at hrow
  obtain ⟨m, hm, hrow⟩ := hrow
  obtain ⟨tool, htool, htid⟩ := Option.map_eq_some_iff.mp (congrArg Prod.snd hrow)
  exact ⟨m, tool, hm, htool, htid⟩

theorem index_of_mapped {times : List Int} {chain : List MessageId} (h : s.index.Sound times chain)
    {id : String} (hid : s.toolIdToMessageId.get id = some mid)
    (htime : ∀ m, (f m).createdAt = m.createdAt)
    (htool : ∀ m tool, m.tool = some tool → tool.id = id → (f m).tool.map ToolCall.id = some id) :
    (s.modifyMessage mid f).index = s.index := by
  obtain ⟨m, tool, hm, hmt, htid⟩ := tool_of_mapped h hid
  apply index_modifyMessage
  intro m' hm'
  obtain rfl := Option.some.inj (hm'.symm.trans hm)
  rw [ReducerMessage.row, ReducerMessage.row, htime, htool m' tool hmt htid, hmt, Option.map_some, htid]

end ReducerState

variable {times : List Int} {chain : List MessageId} {s : ReducerState F}

section Permissions

variable (host : ReducerHost) (now : Int)

theorem ToolCall.settle_id (completed : CompletedRequest F) (tool : ToolCall F) :
    (tool.settle now completed).id = tool.id := by
  rw [ToolCall.settle]
  split_ifs <;> rfl

theorem sound_addPermissionMessage (h : s.index.Sound times chain) (tool : ToolCall F)
    (hfresh : s.toolIdToMessageId.get tool.id = none) :
    (s.addPermissionMessage host tool.id tool).index.Sound times chain := by
  rw [ReducerState.addPermissionMessage, ReducerState.index_drain]
  have hadd : ({ s.addMessage (permissionMessage tool.createdAt tool) with
      thinkingMergeCursor := none
      toolIdToMessageId := s.toolIdToMessageId.set tool.id s.newId } : ReducerState F).index =
      s.index.addTool tool.createdAt tool.id := by
    simp [ReducerState.index, ReducerState.addMessage, Index.addTool, Index.add, ReducerState.newId,
      ReducerMessage.row, permissionMessage]
  rw [hadd]
  exact h.addTool hfresh _

theorem sound_processCompleted (h : s.index.Sound times chain) (requests : List (String × PermissionRequest F))
    (ids : List String) (entry : String × CompletedRequest F) :
    (s.processCompleted host now requests ids entry).index.Sound times chain := by
  obtain ⟨permId, completed⟩ := entry
  simp only [ReducerState.processCompleted]
  split
  · rename_i mid _
    split
    · exact h
    · split
      · have hindex : (s.modifyTool mid (ToolCall.complete permId now completed)).index = s.index :=
          ReducerState.index_modifyTool fun tool => ToolCall.settle_id now completed _
        exact hindex ▸ h
      · exact h
  · rename_i hfresh
    split_ifs
    · exact h
    · exact h
    · exact sound_addPermissionMessage host (s := s.storePermission permId (completed.stored now)) h
        (completed.placeholder permId now) hfresh

variable [DecidableEq F]

theorem ToolCall.request_id (permId : String) (request : PermissionRequest F) (tool : ToolCall F) :
    (tool.request permId request).id = permId := by
  rw [ToolCall.request]
  split_ifs <;> rfl

theorem sound_processRequest (h : s.index.Sound times chain) (entry : String × PermissionRequest F) :
    (s.processRequest host now entry).index.Sound times chain := by
  obtain ⟨permId, request⟩ := entry
  simp only [ReducerState.processRequest]
  cases hid : s.toolIdToMessageId.get permId with
  | some mid =>
      have hindex : (s.modifyTool mid (ToolCall.request permId request)).index = s.index := by
        apply ReducerState.index_of_mapped h hid
        · exact fun m => rfl
        · intro m tool htool _
          simp [htool, ToolCall.request_id]
      exact hindex ▸ h
  | none => exact sound_addPermissionMessage host h (request.placeholder permId now) hid

end Permissions

section Texts

theorem sound_addText (h : s.index.Sound times chain) {m : ReducerMessage F} (hm : m.tool = none)
    (msg : NormalizedMessage F) : (s.addText m msg).index.Sound times chain := by
  rw [ReducerState.index_addText, ReducerMessage.row, hm]
  exact h.add m.createdAt

theorem sound_writeText (h : s.index.Sound times chain) (f : ReducerMessage F → ReducerMessage F)
    (hf : ∀ m, (f m).row = m.row) (mid : MessageId) (msg : NormalizedMessage F) :
    (s.writeText mid f msg).index.Sound times chain :=
  (ReducerState.index_writeText hf msg).symm ▸ h

theorem sound_addToolMessage (host : ReducerHost) (h : s.index.Sound times chain)
    (msg : NormalizedMessage F) (blockIndex : Option Nat) {tool : ToolCall F}
    (hfresh : s.toolIdToMessageId.get tool.id = none) :
    (s.addToolMessage host msg blockIndex tool).index.Sound times chain := by
  rw [ReducerState.addToolMessage, ReducerState.index_drain]
  have hadd : ({ s.addMessage { agentMessage msg blockIndex with tool := some tool } with
      toolIdToMessageId := s.toolIdToMessageId.set tool.id s.newId } : ReducerState F).index =
      s.index.addTool msg.createdAt tool.id := by
    simp [ReducerState.index, ReducerState.addMessage, Index.addTool, Index.add, ReducerState.newId,
      ReducerMessage.row, agentMessage]
  rw [hadd]
  exact h.addTool hfresh _

theorem newToolCall_id (msg : NormalizedMessage F) (id name : String) (input : Value F)
    (description : Option String) (permission : Option (StoredPermission F)) :
    (newToolCall msg id name input description permission).id = id := by
  cases permission with
  | none =>
      simp only [newToolCall]
      split <;> rfl
  | some p =>
      simp only [newToolCall]
      split <;> rfl

@[simp] theorem toolIds_rememberRequest (msg : NormalizedMessage F) (id name : String) (input : Value F)
    (s : ReducerState F) : (s.rememberRequest msg id name input).toolIdToMessageId = s.toolIdToMessageId := by
  rw [ReducerState.rememberRequest]
  split_ifs <;> rfl

theorem index_rememberRequest (msg : NormalizedMessage F) (id name : String) (input : Value F)
    (s : ReducerState F) : (s.rememberRequest msg id name input).index = s.index := by
  rw [ReducerState.rememberRequest]
  split_ifs <;> rfl

theorem index_upsert (msg : NormalizedMessage F) (next : SegmentSnapshot F) (s : ReducerState F) :
    let r := upsertStreamSegmentSnapshotMessage msg next s
    r.1.index = s.index ∧ r.2.didCreate = false ∨
      r.1.index = s.index.add (next.createdAt, none) ∧ r.2.didCreate = true ∧ r.2.messageId = some s.newId := by
  simp only [upsertStreamSegmentSnapshotMessage]
  split
  · split
    · exact .inl ⟨rfl, rfl⟩
    · split_ifs
      · exact .inl ⟨rfl, rfl⟩
      · have hupdate : ∀ m, (next.update m).row = m.row := fun _ => rfl
        exact .inl ⟨ReducerState.index_writeText hupdate msg, rfl⟩
      · exact .inl ⟨rfl, rfl⟩
  · exact .inr ⟨ReducerState.index_addText next.message msg s, rfl, rfl⟩

namespace TextPass

variable {p : TextPass F}

@[simp] theorem index_setThinkingCursorIf (c : Bool) (next : Option MessageId) (p : TextPass F) :
    (p.setThinkingCursorIf c next).state.index = p.state.index := by
  cases c <;> rfl

@[simp] theorem index_setStreamCursorIf (c : Bool) (next : Option (MessageId × String)) (p : TextPass F) :
    (p.setStreamCursorIf c next).state.index = p.state.index := by
  cases c <;> rfl

@[simp] theorem index_setThinkingCursor (next : Option MessageId) (p : TextPass F) :
    (p.setThinkingCursor next).state.index = p.state.index := rfl

@[simp] theorem index_setStreamCursor (next : Option (MessageId × String)) (p : TextPass F) :
    (p.setStreamCursor next).state.index = p.state.index := rfl

@[simp] theorem index_mapSegmentKey (key : Option String) (mid : MessageId) (p : TextPass F) :
    (p.mapSegmentKey key mid).state.index = p.state.index := by
  cases key <;> rfl

theorem sound_addUser (h : p.state.index.Sound times chain) (msg : NormalizedMessage F) (text : String) :
    (p.addUser msg text).state.index.Sound times chain := by
  rw [addUser]
  split_ifs
  · exact h
  · have hadd := sound_addText h (m := userMessage msg text) rfl msg
    cases msg.localId.bind nonEmpty? <;> exact hadd

theorem sound_addSegment (h : p.state.index.Sound times chain) (kind : StreamSegmentKind)
    (msg : NormalizedMessage F) (snapshot : SegmentSnapshot F) :
    (p.addSegment kind msg snapshot).state.index.Sound times chain := by
  have hstate : (upsertStreamSegmentSnapshotMessage msg snapshot p.state).1.index.Sound times chain := by
    rcases index_upsert msg snapshot p.state with ⟨hindex, -⟩ | ⟨hindex, -⟩
    · exact hindex ▸ h
    · exact hindex ▸ h.add _
  cases kind <;> simpa [addSegment] using hstate

theorem sound_addText (h : p.state.index.Sound times chain) (msg : NormalizedMessage F) (blockIndex : Nat)
    (text : String) : (p.addText msg blockIndex text).state.index.Sound times chain := by
  rw [addText]
  split_ifs
  · exact ReducerState.index_markRunningToolsUnavailable msg.createdAt p.state ▸ h
  · split
    · exact sound_addSegment h _ msg _
    · split
      · rw [index_setThinkingCursorIf, index_setStreamCursor]
        exact sound_writeText h _ (row_mergeChunk _ _) _ msg
      · rw [index_setStreamCursor, index_setThinkingCursorIf]
        exact Transcript.sound_addText h rfl msg

theorem sound_mergeThinking (h : p.state.index.Sound times chain) (mid : MessageId)
    (msg : NormalizedMessage F) (chunk : String) :
    (p.mergeThinking mid msg chunk).state.index.Sound times chain :=
  sound_writeText h _ (row_mergeChunk _ _) mid msg

theorem sound_addThinkingChunk (h : p.state.index.Sound times chain) (msg : NormalizedMessage F)
    (blockIndex : Nat) (key : Option String) (chunk : String) :
    (p.addThinkingChunk msg blockIndex key chunk).state.index.Sound times chain := by
  rw [addThinkingChunk]
  split
  · exact sound_mergeThinking h _ msg chunk
  · split
    · rw [index_mapSegmentKey]
      exact sound_mergeThinking h _ msg chunk
    · rw [index_mapSegmentKey, index_setThinkingCursor]
      exact Transcript.sound_addText h rfl msg

theorem sound_addToolCall (h : p.state.index.Sound times chain) (host : ReducerHost)
    (msg : NormalizedMessage F) (blockIndex : Nat) (id name : String) (input : Value F)
    (description : Option String) :
    (p.addToolCall host msg blockIndex id name input description).state.index.Sound times chain := by
  simp only [addToolCall]
  split_ifs with hid
  · exact h
  · apply sound_addToolMessage host
    · rw [index_rememberRequest]
      exact h
    · rw [toolIds_rememberRequest, newToolCall_id]
      simpa [Table.has] using hid

theorem sound_addContent (host : ReducerHost) (msg : NormalizedMessage F)
    {acc : TextPass F × ThinkingRun} (h : acc.1.state.index.Sound times chain)
    (content : AgentContent F × Nat) :
    (addContent host msg acc content).1.state.index.Sound times chain := by
  obtain ⟨p, run⟩ := acc
  obtain ⟨⟨body, uuid, parentUUID⟩, blockIndex⟩ := content
  cases body with
  | thinking thinking =>
      simp only [addContent]
      split
      · exact sound_addSegment h _ msg _
      · split_ifs
        · exact sound_addThinkingChunk h msg blockIndex _ _
        · exact h
  | text text => exact sound_addText h msg blockIndex text
  | toolCall id name input description =>
      exact sound_addToolCall h host msg blockIndex id name input description
  | toolResult update => exact h
  | summary summary => exact h
  | sidechain prompt => exact h

theorem sound_addMessage (h : p.state.index.Sound times chain) (host : ReducerHost)
    (msg : NormalizedMessage F) : (p.addMessage host msg).state.index.Sound times chain := by
  rw [addMessage]
  split
  · exact sound_addUser h msg _
  · rename_i content _
    have hfold : ∀ (cs : List (AgentContent F × Nat)) (acc : TextPass F × ThinkingRun),
        acc.1.state.index.Sound times chain →
          (cs.foldl (addContent host msg) acc).1.state.index.Sound times chain := by
      intro cs
      induction cs with
      | nil => exact fun acc hacc => hacc
      | cons c cs ih => exact fun acc hacc => ih _ (sound_addContent host msg hacc c)
    exact hfold _ _ h
  · exact h

end TextPass

end Texts

section Tools

theorem sound_processToolResult (h : s.index.Sound times chain) (now : Int) (msg : NormalizedMessage F)
    (contentIndex : Nat) (u : ToolResultUpdate F) :
    (s.processToolResult now msg contentIndex u).index.Sound times chain := by
  rw [ReducerState.processToolResult]
  split
  · exact h
  · rw [ReducerState.index_applyToolResult]
    exact h

theorem sound_addEvent (h : s.index.Sound times chain) (msg : NormalizedMessage F) (event : AgentEvent F) :
    (s.addEvent msg event).index.Sound times chain :=
  (ReducerState.index_addMessage (eventMessage msg event) s).symm ▸ h.add _

theorem sound_processEvent (h : s.index.Sound times chain) (msg : NormalizedMessage F) :
    (s.processEvent msg).index.Sound times chain := by
  rw [ReducerState.processEvent]
  split
  · split_ifs
    · exact h
    · simp only
      split
      · split_ifs
        · exact (ReducerState.index_markRunningToolsUnavailable msg.createdAt (s.markSeen msg.id)).symm ▸ h
        · exact h
      · exact sound_addEvent h msg _
  · exact h

variable [DecidableEq F]

theorem ToolCall.update_id (createdAt : Int) (id name : String) (input : Value F)
    (description : Option String) {tool : ToolCall F} (htool : tool.id = id) :
    (tool.update createdAt id name input description).id = id := by
  rw [ToolCall.update]
  split_ifs <;> simp_all

theorem sound_processToolCall (h : s.index.Sound times chain) (host : ReducerHost)
    (msg : NormalizedMessage F) (blockIndex : Nat) (id name : String) (input : Value F)
    (description : Option String) :
    (s.processToolCall host msg blockIndex id name input description).index.Sound times chain := by
  rw [ReducerState.processToolCall]
  cases hid : s.toolIdToMessageId.get id with
  | some mid =>
      have hindex : (s.modifyMessage mid
          (ReducerMessage.updateTool msg blockIndex id name input description)).index = s.index := by
        apply ReducerState.index_of_mapped h hid
        · intro m
          rw [ReducerMessage.updateTool]
          cases m.tool <;> rfl
        · intro m tool htool htid
          simp [ReducerMessage.updateTool, htool, ToolCall.update_id _ _ _ _ _ htid]
      simp only
      split_ifs
      · exact hindex.symm ▸ h
      · exact h
  | none =>
      apply sound_addToolMessage host (s := s.rememberRequest msg id name input)
      · rw [index_rememberRequest]
        exact h
      · rw [toolIds_rememberRequest]
        exact (newToolCall_id msg id name input description _).symm ▸ hid

end Tools

section Chains

namespace ChainPass

variable {p : ChainPass F}

theorem sound_pushText (h : p.state.index.Sound times p.chain) (m : ReducerMessage F)
    (msg : NormalizedMessage F) : (p.pushText m msg).state.index.Sound times (p.pushText m msg).chain := by
  have hpush := h.push m.row
  rw [← ReducerState.index_addText m msg] at hpush
  simpa [ReducerState.index, ReducerState.newId, pushText] using hpush

theorem sound_setCursorIf (h : p.state.index.Sound times p.chain) (c : Bool) (sidechainId : String)
    (next : Option MessageId) :
    (p.setCursorIf c sidechainId next).state.index.Sound times (p.setCursorIf c sidechainId next).chain := by
  cases c
  · exact h
  · cases next <;> exact h

theorem sound_addSegment (h : p.state.index.Sound times p.chain) (sidechainId : String)
    (kind : StreamSegmentKind) (msg : NormalizedMessage F) (snapshot : SegmentSnapshot F) :
    (p.addSegment sidechainId kind msg snapshot).state.index.Sound times
      (p.addSegment sidechainId kind msg snapshot).chain := by
  have hcases := index_upsert msg snapshot p.state
  rw [addSegment]
  generalize upsertStreamSegmentSnapshotMessage msg snapshot p.state = r at hcases
  obtain ⟨state, upsert⟩ := r
  apply sound_setCursorIf
  rcases hcases with ⟨hindex, hcreate⟩ | ⟨hindex, hcreate, hid⟩
  · simp only at hindex hcreate
    simp only [hcreate, hindex]
    exact h
  · simp only at hindex hcreate hid
    simp only [hcreate, hindex, hid]
    simpa [ReducerState.index, ReducerState.newId] using h.push (snapshot.createdAt, none)

theorem sound_addText (h : p.state.index.Sound times p.chain) (sidechainId : String)
    (msg : NormalizedMessage F) (text : String) :
    (p.addText sidechainId msg text).state.index.Sound times (p.addText sidechainId msg text).chain := by
  rw [addText]
  split
  · exact sound_addSegment h sidechainId _ msg _
  · apply sound_setCursorIf
    split
    · exact sound_writeText h (appendText (· ++ text)) (fun _ => rfl) _ msg
    · exact sound_pushText h _ msg

theorem sound_addThinking (h : p.state.index.Sound times p.chain) (sidechainId : String)
    (msg : NormalizedMessage F) (thinking : String) :
    (p.addThinking sidechainId msg thinking).state.index.Sound times
      (p.addThinking sidechainId msg thinking).chain := by
  simp only [addThinking]
  split
  · exact sound_addSegment h sidechainId _ msg _
  · split_ifs
    · split
      · exact sound_writeText h (appendText (unwrapThinkingText · ++ normalizeThinkingChunk thinking))
          (fun _ => rfl) _ msg
      · exact sound_pushText h _ msg
    · exact h

theorem index_startPermitted (s : ReducerState F) (mid : MessageId) (createdAt : Int)
    (description : Option String) :
    (s.modifyTool mid (startPermitted createdAt description)).index = s.index := by
  apply ReducerState.index_modifyTool
  intro tool
  rw [startPermitted]
  split_ifs <;> rfl

theorem sound_push (h : p.state.index.Sound times p.chain) (m : ReducerMessage F) :
    (p.push m).state.index.Sound times (p.push m).chain := by
  have hpush := h.push m.row
  rw [← ReducerState.index_addMessage] at hpush
  simpa [ReducerState.index, ReducerState.newId, push] using hpush

theorem sound_addToolCall (h : p.state.index.Sound times p.chain) (sidechainId : String)
    (msg : NormalizedMessage F) (id name : String) (input : Value F) (description : Option String) :
    (p.addToolCall sidechainId msg id name input description).state.index.Sound times
      (p.addToolCall sidechainId msg id name input description).chain := by
  simp only [addToolCall]
  split
  · rename_i mid _
    apply sound_push (p := ChainPass.update (·.modifyTool mid _) _)
    exact (index_startPermitted _ mid _ _).symm ▸ h
  · exact sound_push (p := p.update (·.setSidechainThinkingMergeCursor sidechainId none)) h _

theorem sound_applyTo (h : p.state.index.Sound times p.chain) (mid : Option MessageId)
    (msg : NormalizedMessage F) (u : ToolResultUpdate F) :
    (p.applyTo mid msg u).state.index.Sound times (p.applyTo mid msg u).chain := by
  cases mid with
  | none => exact h
  | some mid => exact (ReducerState.index_applyToolResult p.state mid u _ _).symm ▸ h

theorem sound_addContent (h : p.state.index.Sound times p.chain) (sidechainId : String)
    (msg : NormalizedMessage F) (c : AgentContent F) :
    (p.addContent sidechainId msg c).state.index.Sound times (p.addContent sidechainId msg c).chain := by
  obtain ⟨body, uuid, parentUUID⟩ := c
  cases body with
  | text text => exact sound_addText h sidechainId msg text
  | thinking thinking => exact sound_addThinking h sidechainId msg thinking
  | toolCall id name input description => exact sound_addToolCall h sidechainId msg id name input description
  | toolResult u => exact sound_applyTo (sound_applyTo h _ msg u) _ msg u
  | summary summary => exact h
  | sidechain prompt => exact h

theorem sound_addContents (h : p.state.index.Sound times p.chain) (sidechainId : String)
    (msg : NormalizedMessage F) :
    (p.addContents sidechainId msg).state.index.Sound times (p.addContents sidechainId msg).chain := by
  rw [addContents]
  split
  · exact sound_pushText h _ msg
  · induction msg.content generalizing p with
    | nil => exact h
    | cons c cs ih => exact ih (sound_addContent h sidechainId msg c)

structure Extends (p q : ChainPass F) : Prop where
  chain : p.chain <+: q.chain
  sidechains : q.state.sidechains = p.state.sidechains

variable {p q r : ChainPass F}

theorem Extends.refl (p : ChainPass F) : Extends p p := ⟨List.prefix_rfl, rfl⟩

theorem Extends.trans (hq : Extends p q) (hr : Extends q r) : Extends p r :=
  ⟨hq.chain.trans hr.chain, hr.sidechains.trans hq.sidechains⟩

theorem extends_update {f : ReducerState F → ReducerState F} (h : ∀ s, (f s).sidechains = s.sidechains)
    (p : ChainPass F) : Extends p (p.update f) := ⟨List.prefix_rfl, h p.state⟩

theorem sidechains_setCursor (sidechainId : String) (next : Option MessageId) (s : ReducerState F) :
    (s.setSidechainThinkingMergeCursor sidechainId next).sidechains = s.sidechains := by
  cases next <;> rfl

theorem extends_setCursorIf (c : Bool) (sidechainId : String) (next : Option MessageId) (p : ChainPass F) :
    Extends p (p.setCursorIf c sidechainId next) := by
  cases c
  · exact Extends.refl p
  · exact extends_update (sidechains_setCursor sidechainId next) p

theorem extends_pushText (m : ReducerMessage F) (msg : NormalizedMessage F) (p : ChainPass F) :
    Extends p (p.pushText m msg) := ⟨List.prefix_append _ _, rfl⟩

theorem extends_push (m : ReducerMessage F) (p : ChainPass F) : Extends p (p.push m) :=
  ⟨List.prefix_append _ _, rfl⟩

theorem extends_addSegment (sidechainId : String) (kind : StreamSegmentKind) (msg : NormalizedMessage F)
    (snapshot : SegmentSnapshot F) (p : ChainPass F) :
    Extends p (p.addSegment sidechainId kind msg snapshot) := by
  have hindex : (upsertStreamSegmentSnapshotMessage msg snapshot p.state).1.sidechains = p.state.sidechains := by
    rcases index_upsert msg snapshot p.state with ⟨hindex, -⟩ | ⟨hindex, -⟩
    · exact congrArg Index.sidechains hindex
    · exact congrArg Index.sidechains hindex
  rw [addSegment]
  generalize upsertStreamSegmentSnapshotMessage msg snapshot p.state = r at hindex
  obtain ⟨state, upsert⟩ := r
  refine Extends.trans ⟨?_, hindex⟩ (extends_setCursorIf _ sidechainId _ _)
  split
  · exact List.prefix_append _ _
  · exact List.prefix_rfl

theorem extends_addText (sidechainId : String) (msg : NormalizedMessage F) (text : String)
    (p : ChainPass F) : Extends p (p.addText sidechainId msg text) := by
  rw [addText]
  split
  · exact extends_addSegment sidechainId _ msg _ p
  · refine Extends.trans ?_ (extends_setCursorIf _ sidechainId none _)
    split
    · exact ⟨List.prefix_rfl, rfl⟩
    · exact extends_pushText _ msg p

theorem extends_addThinking (sidechainId : String) (msg : NormalizedMessage F) (thinking : String)
    (p : ChainPass F) : Extends p (p.addThinking sidechainId msg thinking) := by
  simp only [addThinking]
  split
  · exact extends_addSegment sidechainId _ msg _ p
  · split_ifs
    · split
      · exact ⟨List.prefix_rfl, rfl⟩
      · exact (extends_pushText _ msg p).trans (extends_update (sidechains_setCursor sidechainId _) _)
    · exact Extends.refl p

theorem extends_addToolCall (sidechainId : String) (msg : NormalizedMessage F) (id name : String)
    (input : Value F) (description : Option String) (p : ChainPass F) :
    Extends p (p.addToolCall sidechainId msg id name input description) := by
  simp only [addToolCall]
  split
  · exact ⟨List.prefix_append _ _, rfl⟩
  · exact ⟨List.prefix_append _ _, rfl⟩

theorem extends_applyTo (mid : Option MessageId) (msg : NormalizedMessage F) (u : ToolResultUpdate F)
    (p : ChainPass F) : Extends p (p.applyTo mid msg u) := by
  cases mid with
  | none => exact Extends.refl p
  | some mid => exact ⟨List.prefix_rfl, rfl⟩

theorem extends_addContent (sidechainId : String) (msg : NormalizedMessage F) (p : ChainPass F)
    (c : AgentContent F) : Extends p (p.addContent sidechainId msg c) := by
  obtain ⟨body, uuid, parentUUID⟩ := c
  cases body with
  | text text => exact extends_addText sidechainId msg text p
  | thinking thinking => exact extends_addThinking sidechainId msg thinking p
  | toolCall id name input description => exact extends_addToolCall sidechainId msg id name input description p
  | toolResult u => exact (extends_applyTo _ msg u p).trans (extends_applyTo _ msg u _)
  | summary summary => exact Extends.refl p
  | sidechain prompt => exact Extends.refl p

theorem extends_addContents (sidechainId : String) (msg : NormalizedMessage F) (p : ChainPass F) :
    Extends p (p.addContents sidechainId msg) := by
  rw [addContents]
  split
  · exact (extends_pushText _ msg p).trans (extends_update (sidechains_setCursor sidechainId none) _)
  · induction msg.content generalizing p with
    | nil => exact Extends.refl p
    | cons c cs ih => exact (extends_addContent sidechainId msg p c).trans (ih _)

end ChainPass

theorem restored_id (c : Bool) (tool : ToolCall F) : (if c then tool.restored else tool).id = tool.id := by
  cases c <;> rfl

theorem index_restore (mid : MessageId) (sidechainId : String) (s : ReducerState F) :
    (s.restoreSubagentToolFromSyntheticInterruption mid sidechainId).index = s.index :=
  ReducerState.index_modifyTool fun tool => restored_id _ tool

theorem ReducerState.mem_sidechainIds_of_chain {sidechainId : String} {mid : MessageId}
    (h : mid ∈ s.chain sidechainId) : mid ∈ s.sidechainIds := by
  rw [ReducerState.chain] at h
  cases hget : s.sidechains.get sidechainId with
  | none => simp [hget] at h
  | some ids =>
      rw [hget, Option.getD_some] at h
      exact List.mem_flatten.mpr ⟨ids, Table.mem_values_of_get hget, h⟩

theorem mem_sidechainIds_storeChain {sidechainId : String} {p : ChainPass F} {mid : MessageId}
    (h : p.state.chain sidechainId ⊆ p.chain) :
    mid ∈ (ReducerState.storeChain sidechainId p).sidechainIds ↔
      mid ∈ p.state.sidechainIds ∨ mid ∈ p.chain := by
  apply Table.mem_flatten_values_set
  intro ids hids
  rwa [ReducerState.chain, hids] at h

theorem sound_processSidechainMessage (h : s.index.Sound times []) (msg : NormalizedMessage F) :
    (s.processSidechainMessage msg).index.Sound times [] := by
  rw [ReducerState.processSidechainMessage]
  split
  · exact h
  · rename_i sidechainId _
    split_ifs
    · exact h
    · simp only
      set p₀ : ChainPass F := ⟨s.markSeen msg.id, s.chain sidechainId⟩ with hp₀
      set p := p₀.addContents sidechainId msg with hp
      have hext := ChainPass.extends_addContents sidechainId msg p₀
      have hstart : p₀.state.index.Sound times p₀.chain := by
        apply h.of_mem_iff rfl rfl
        intro mid
        have hchain : mid ∈ p₀.chain → mid ∈ s.index.inSidechains := ReducerState.mem_sidechainIds_of_chain
        change (mid ∈ s.index.inSidechains ∨ mid ∈ p₀.chain) ↔ _
        simpa using hchain
      have hpass := ChainPass.sound_addContents hstart sidechainId msg
      have hold : p.state.chain sidechainId ⊆ p.chain := by
        have heq : p.state.chain sidechainId = p₀.chain := by
          rw [ReducerState.chain, hext.sidechains]
          rfl
        exact heq ▸ hext.chain.subset
      have hstored : (ReducerState.storeChain sidechainId p).index.Sound times [] := by
        refine hpass.of_mem_iff ?_ ?_ fun mid => ?_
        · rfl
        · rfl
        · rw [or_iff_left List.not_mem_nil]
          exact mem_sidechainIds_storeChain hold
      split
      · rw [index_restore]
        exact hstored
      · exact hstored

end Chains

section Runs

variable [DecidableEq F] (host : ReducerHost)

theorem sound_step (now : Int) {p : TextPass F} (h : p.state.index.Sound times []) (step : Step F) :
    (step.apply host now p).state.index.Sound times [] := by
  cases step with
  | convert msg event => exact sound_addEvent h msg event
  | request entry => exact sound_processRequest host now h entry
  | completed requests ids entry => exact sound_processCompleted host now h requests ids entry
  | text msg => exact TextPass.sound_addMessage h host msg
  | toolCall msg content =>
      simp only [Step.apply, TextPass.update, ReducerState.processToolCallContent]
      split
      · exact sound_processToolCall h host msg _ _ _ _ _
      · exact h
  | toolResult msg content =>
      simp only [Step.apply, TextPass.update, ReducerState.processToolResultContent]
      split
      · exact sound_processToolResult h now msg _ _
      · exact h
  | sidechain msg => exact sound_processSidechainMessage h msg
  | event msg => exact sound_processEvent h msg
  | ready readyAt => exact (ReducerState.index_markRunningToolsUnavailable readyAt p.state).symm ▸ h

omit [DecidableEq F] in
theorem index_add (c : Conversion F) (msg : NormalizedMessage F) : (c.add msg).state.index = c.state.index := by
  rw [Conversion.add]
  split_ifs
  · rfl
  · rfl
  · split <;> rfl

omit [DecidableEq F] in
theorem index_converted (traced : List (NormalizedMessage F)) (s : ReducerState F) :
    (converted traced s).state.index = s.index := by
  have hfold : ∀ (messages : List (NormalizedMessage F)) (c : Conversion F),
      (messages.foldl Conversion.add c).state.index = c.state.index := by
    intro messages
    induction messages with
    | nil => exact fun c => rfl
    | cons msg messages ih => exact fun c => (ih _).trans (index_add c msg)
  exact hfold _ _

theorem sound_reducer (h : s.index.Sound times []) (call : ReducerCall F) :
    (reducer host s call).index.Sound times [] := by
  have hphases : ∀ traced, (runPhases host call traced s).index.Sound times [] := by
    intro traced
    rw [runPhases_eq_run]
    apply Runs.run_invariant (I := fun p : TextPass F => p.state.index.Sound times [])
      fun p step hp => sound_step host call.now hp step
    exact (index_converted traced s).symm ▸ h
  exact hphases _

theorem sound_run (h : s.index.Sound times []) (calls : List (ReducerCall F)) :
    (Runs.run (reducer host) s calls).index.Sound times [] :=
  Runs.run_invariant (I := fun s : ReducerState F => s.index.Sound times [])
    (fun _ call hs => sound_reducer host hs call) h calls

omit [DecidableEq F] in
theorem sound_createReducer : (createReducer : ReducerState F).index.Sound [] [] where
  mapped _ _ h := by cases h
  outside _ _ h := by cases h
  known _ _ _ h := by cases h
  bounded _ h := by simp [Index.inSidechains, ReducerState.index, createReducer, Table.values, Table.empty] at h
  times_kept := List.prefix_rfl

theorem sound_afterCalls (calls : List (ReducerCall F)) : (afterCalls host calls).index.Sound [] [] :=
  sound_run host sound_createReducer calls

theorem Index.Sound.at_times {ix : Index} (h : ix.Sound times chain) :
    ix.Sound (ix.rows.map Prod.fst) chain := ⟨h.mapped, h.outside, h.known, h.bounded, List.prefix_rfl⟩

omit [DecidableEq F] in
theorem index_rows (s : ReducerState F) (mid : MessageId) :
    s.index.rows[mid]? = (s.message? mid).map ReducerMessage.row := List.getElem?_map ..

theorem createdAt_run (h : s.index.Sound times []) (calls : List (ReducerCall F)) {mid : MessageId}
    {m : ReducerMessage F} (hm : s.message? mid = some m) :
    ∃ m', (Runs.run (reducer host) s calls).message? mid = some m' ∧ m'.createdAt = m.createdAt := by
  obtain ⟨later, hlater⟩ := (sound_run host h.at_times calls).times_kept
  have htime : (s.index.rows.map Prod.fst)[mid]? = some m.createdAt := by
    rw [List.getElem?_map, index_rows, hm]
    rfl
  have hlt := (List.getElem?_eq_some_iff.mp htime).1
  have hfirst : (s.index.rows.map Prod.fst ++ later)[mid]? = some m.createdAt :=
    (List.getElem?_append_left hlt).trans htime
  rw [hlater, List.getElem?_map, index_rows] at hfirst
  cases hm' : (Runs.run (reducer host) s calls).message? mid with
  | none => simp [hm'] at hfirst
  | some m' => exact ⟨m', rfl, by simpa [hm', ReducerMessage.row] using hfirst⟩

/-- In every state that calls lead to, every tool id that is known leads to a
root message with that tool, no tool has two root messages, and whatever calls
come next, every message keeps the time it was created at. -/
theorem tool_index_invariant (calls : List (ReducerCall F)) :
    let s := afterCalls host calls
    (∀ id mid, s.toolIdToMessageId.get id = some mid →
      s.IsRoot mid ∧ ∃ tool, s.tool? mid = some tool ∧ tool.id = id) ∧
    (∀ mid mid' tool tool', s.IsRoot mid → s.IsRoot mid' → s.tool? mid = some tool →
      s.tool? mid' = some tool' → tool.id = tool'.id → mid = mid') ∧
    ∀ mid m next, s.message? mid = some m →
      ∃ m', (afterCalls host (calls ++ next)).message? mid = some m' ∧ m'.createdAt = m.createdAt := by
  intro s
  have h : s.index.Sound [] [] := sound_afterCalls host calls
  have hrow : ∀ mid tool, s.tool? mid = some tool → ∃ t, s.index.rows[mid]? = some (t, some tool.id) := by
    intro mid tool htool
    obtain ⟨m, hm, hmt⟩ := Option.bind_eq_some_iff.mp htool
    exact ⟨m.createdAt, by rw [index_rows, hm]; simp [ReducerMessage.row, hmt]⟩
  refine ⟨fun id mid hid => ?_, fun mid mid' tool tool' hr hr' ht ht' heq => ?_, fun mid m next hm => ?_⟩
  · obtain ⟨m, tool, hm, hmt, htid⟩ := ReducerState.tool_of_mapped h hid
    refine ⟨⟨(List.getElem?_eq_some_iff.mp hm).1, (h.outside id mid hid).1⟩, tool, ?_, htid⟩
    rw [ReducerState.tool?, hm, Option.bind_some, hmt]
  · obtain ⟨t, hrow₁⟩ := hrow mid tool ht
    obtain ⟨t', hrow₂⟩ := hrow mid' tool' ht'
    have hknown := h.known mid t tool.id hrow₁ hr.2 List.not_mem_nil
    have hknown' := h.known mid' t' tool'.id hrow₂ hr'.2 List.not_mem_nil
    rw [heq, hknown'] at hknown
    exact (Option.some.inj hknown).symm
  · rw [afterCalls, Runs.run_append]
    exact createdAt_run host h next hm

end Runs

end DevPilot.Transcript
