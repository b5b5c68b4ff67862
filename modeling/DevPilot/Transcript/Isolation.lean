import DevPilot.Transcript.ToolIndex

/-!
Sub-agent threads: whether texts of a sub-agent reach the root transcript.
-/

namespace DevPilot.Transcript

open PyJson Tables

variable {F : Type} {s s' s'' : ReducerState F}

def isMarked (msg : NormalizedMessage F) : Bool :=
  shouldTreatAsSidechain msg || (msg.sidechainId.bind nonEmpty?).isSome

def ReducerState.SidechainsIsolated (s : ReducerState F) : Prop :=
  ∀ w ∈ s.textWriters, s.IsRoot w.1 → isMarked w.2 = false

def segment? (msg : NormalizedMessage F) (c : AgentContent F) : Option (SegmentSnapshot F) :=
  match c.body with
  | .text text =>
      (streamSegment? msg .assistant).map fun localId => segmentSnapshot msg localId none false text
  | .thinking thinking =>
      (streamSegment? msg .thinking).map fun localId =>
        segmentSnapshot msg localId none true (normalizeThinkingChunk thinking)
  | _ => none

def ReducerState.overwritten? (s : ReducerState F) (next : SegmentSnapshot F) : Option MessageId :=
  (s.localIds.get next.localId).filter fun mid =>
    (s.message? mid).any fun prev =>
      prev.role = .agent && prev.isThinking = next.isThinking &&
        shouldApplyStreamSegmentSnapshotUpdate prev next

def ChainPass.isolates (msg : NormalizedMessage F) (p : ChainPass F) (c : AgentContent F) : Prop :=
  ∀ mid ∈ (segment? msg c).bind p.state.overwritten?, mid ∈ p.state.sidechainIds ∨ mid ∈ p.chain

instance (msg : NormalizedMessage F) (p : ChainPass F) (c : AgentContent F) : Decidable (p.isolates msg c) :=
  inferInstanceAs (Decidable (∀ mid ∈ _, _))

def chainContents (msg : NormalizedMessage F) : List (AgentContent F) :=
  match msg.content.head?.map AgentContent.body with
  | some (.sidechain _) => []
  | _ => msg.content

def ReducerState.isolatesMessage (s : ReducerState F) (msg : NormalizedMessage F) : Prop :=
  match msg.sidechainId.bind nonEmpty? with
  | none => True
  | some sidechainId =>
      Runs.Along (ChainPass.addContent sidechainId msg) (ChainPass.isolates msg)
        ⟨s.markSeen msg.id, s.chain sidechainId⟩ (chainContents msg)

instance (s : ReducerState F) (msg : NormalizedMessage F) : Decidable (s.isolatesMessage msg) := by
  rw [ReducerState.isolatesMessage]
  split <;> infer_instance

def Step.isolates (p : TextPass F) : Step F → Prop
  | .sidechain msg => p.state.isolatesMessage msg
  | _ => True

instance (p : TextPass F) (step : Step F) : Decidable (step.isolates p) := by
  rw [Step.isolates.eq_def]
  split <;> infer_instance

/-- No sidechain message of the call replaces a text of the root transcript. -/
def CallIsolates [DecidableEq F] (host : ReducerHost) (s : ReducerState F) (call : ReducerCall F) : Prop :=
  let traced := (traceMessages call.now s.tracerState (orderedIncomingMessages call.messages)).results
  Runs.Along (Step.apply host call.now) (fun p step => step.isolates p) (startPass traced s)
    (steps call traced s)

instance [DecidableEq F] (host : ReducerHost) (s : ReducerState F) (call : ReducerCall F) :
    Decidable (CallIsolates host s call) := by
  rw [CallIsolates]
  infer_instance

structure KeepsThreads (s s' : ReducerState F) : Prop where
  length : s.messages.length ≤ s'.messages.length
  sidechains : s'.sidechains = s.sidechains
  chainCursors : s'.sidechainThinkingMergeCursors = s.sidechainThinkingMergeCursors
  keys : s'.thinkingSegmentKeyToMessageId = s.thinkingSegmentKeyToMessageId
  thinking : s'.thinkingMergeCursor = s.thinkingMergeCursor ∨ s'.thinkingMergeCursor = none
  stream : s'.streamMergeCursor = s.streamMergeCursor
  writers : s'.textWriters = s.textWriters

namespace KeepsThreads

theorem refl (s : ReducerState F) : KeepsThreads s s := ⟨le_rfl, rfl, rfl, rfl, .inl rfl, rfl, rfl⟩

theorem trans (h : KeepsThreads s s') (h' : KeepsThreads s' s'') : KeepsThreads s s'' where
  length := h.length.trans h'.length
  sidechains := h'.sidechains.trans h.sidechains
  chainCursors := h'.chainCursors.trans h.chainCursors
  keys := h'.keys.trans h.keys
  thinking := by
    rcases h'.thinking with heq | hnone
    · rw [heq]
      exact h.thinking
    · exact .inr hnone
  stream := h'.stream.trans h.stream
  writers := h'.writers.trans h.writers

end KeepsThreads

namespace ReducerState

theorem keepsThreads_addMessage (m : ReducerMessage F) (s : ReducerState F) :
    KeepsThreads s (s.addMessage m) :=
  ⟨by simp [addMessage], rfl, rfl, rfl, .inl rfl, rfl, rfl⟩

theorem keepsThreads_modifyMessage (mid : MessageId) (f : ReducerMessage F → ReducerMessage F)
    (s : ReducerState F) : KeepsThreads s (s.modifyMessage mid f) :=
  ⟨by simp [modifyMessage], rfl, rfl, rfl, .inl rfl, rfl, rfl⟩

theorem keepsThreads_modifyTool (mid : MessageId) (f : ToolCall F → ToolCall F) (s : ReducerState F) :
    KeepsThreads s (s.modifyTool mid f) := keepsThreads_modifyMessage mid _ s

theorem keepsThreads_applyToolResult (mid : MessageId) (u : ToolResultUpdate F) (t : Int)
    (metadata : Option (MessageMeta F)) (s : ReducerState F) :
    KeepsThreads s (s.applyToolResult mid u t metadata) :=
  ⟨by simp [applyToolResult, modifyMessage], rfl, rfl, rfl, .inl rfl, rfl, rfl⟩

theorem keepsThreads_drain (host : ReducerHost) (toolUseId : String) (mid : MessageId)
    (s : ReducerState F) :
    KeepsThreads s (s.drainAndApplyOrphanToolResultsToMessage host toolUseId mid) := by
  have hfold : ∀ (os : List (BufferedToolResult F)) (s : ReducerState F),
      KeepsThreads s (os.foldl (applyOrphan mid) s) := by
    intro os
    induction os with
    | nil => exact KeepsThreads.refl
    | cons o os ih => exact fun s => (keepsThreads_applyToolResult mid _ _ _ s).trans (ih _)
  have hdelete : KeepsThreads s { s with orphanToolResults := s.orphanToolResults.delete toolUseId } :=
    ⟨le_rfl, rfl, rfl, rfl, .inl rfl, rfl, rfl⟩
  exact hdelete.trans (hfold _ _)

theorem keepsThreads_markRunningToolsUnavailable (t : Int) (s : ReducerState F) :
    KeepsThreads s (s.markRunningToolsUnavailable t) :=
  ⟨by simp [markRunningToolsUnavailable], rfl, rfl, rfl, .inl rfl, rfl, rfl⟩

theorem keepsThreads_addPermissionMessage (host : ReducerHost) (permId : String) (tool : ToolCall F)
    (s : ReducerState F) : KeepsThreads s (s.addPermissionMessage host permId tool) := by
  rw [addPermissionMessage]
  refine KeepsThreads.trans ?_ (keepsThreads_drain host permId s.newId _)
  exact ⟨by simp [addMessage], rfl, rfl, rfl, .inr rfl, rfl, rfl⟩

theorem keepsThreads_addToolMessage (host : ReducerHost) (msg : NormalizedMessage F)
    (blockIndex : Option Nat) (tool : ToolCall F) (s : ReducerState F) :
    KeepsThreads s (s.addToolMessage host msg blockIndex tool) := by
  rw [addToolMessage]
  refine KeepsThreads.trans ?_ (keepsThreads_drain host tool.id s.newId _)
  exact ⟨by simp [addMessage], rfl, rfl, rfl, .inl rfl, rfl, rfl⟩

theorem keepsThreads_storePermission (permId : String) (permission : StoredPermission F)
    (s : ReducerState F) : KeepsThreads s (s.storePermission permId permission) :=
  ⟨le_rfl, rfl, rfl, rfl, .inl rfl, rfl, rfl⟩

theorem keepsThreads_rememberRequest (msg : NormalizedMessage F) (id name : String) (input : Value F)
    (s : ReducerState F) : KeepsThreads s (s.rememberRequest msg id name input) := by
  rw [rememberRequest]
  split_ifs
  · exact keepsThreads_storePermission id _ s
  · exact KeepsThreads.refl s

theorem keepsThreads_markSeen (id : String) (s : ReducerState F) : KeepsThreads s (s.markSeen id) :=
  ⟨le_rfl, rfl, rfl, rfl, .inl rfl, rfl, rfl⟩

theorem keepsThreads_clearThinking (s : ReducerState F) : KeepsThreads s (s.setThinkingMergeCursor none) :=
  ⟨le_rfl, rfl, rfl, rfl, .inr rfl, rfl, rfl⟩

theorem keepsThreads_addEvent (msg : NormalizedMessage F) (event : AgentEvent F) (s : ReducerState F) :
    KeepsThreads s (s.addEvent msg event) :=
  (keepsThreads_addMessage _ s).trans (keepsThreads_clearThinking _)

theorem keepsThreads_processEvent (msg : NormalizedMessage F) (s : ReducerState F) :
    KeepsThreads s (s.processEvent msg) := by
  have hseen := keepsThreads_markSeen msg.id s
  rw [processEvent]
  split
  · split_ifs
    · exact KeepsThreads.refl s
    · simp only
      split
      · split_ifs
        · exact hseen.trans (keepsThreads_markRunningToolsUnavailable msg.createdAt _)
        · exact hseen
      · exact hseen.trans (keepsThreads_addEvent msg _ _)
  · exact KeepsThreads.refl s

theorem keepsThreads_processCompleted (host : ReducerHost) (now : Int)
    (requests : List (String × PermissionRequest F)) (ids : List String)
    (entry : String × CompletedRequest F) (s : ReducerState F) :
    KeepsThreads s (s.processCompleted host now requests ids entry) := by
  obtain ⟨permId, completed⟩ := entry
  simp only [processCompleted]
  split
  · split
    · exact KeepsThreads.refl s
    · split_ifs
      · exact (keepsThreads_modifyTool _ _ s).trans (keepsThreads_storePermission permId _ _)
      · exact KeepsThreads.refl s
  · split_ifs
    · exact keepsThreads_storePermission permId _ s
    · exact KeepsThreads.refl s
    · exact (keepsThreads_storePermission permId _ s).trans (keepsThreads_addPermissionMessage host permId _ _)

section

variable [DecidableEq F]

theorem keepsThreads_processRequest (host : ReducerHost) (now : Int)
    (entry : String × PermissionRequest F) (s : ReducerState F) :
    KeepsThreads s (s.processRequest host now entry) := by
  obtain ⟨permId, request⟩ := entry
  simp only [processRequest]
  refine KeepsThreads.trans ?_ (keepsThreads_storePermission permId _ _)
  split
  · exact keepsThreads_modifyTool _ _ s
  · exact keepsThreads_addPermissionMessage host permId _ s

theorem keepsThreads_processToolCallContent (host : ReducerHost) (msg : NormalizedMessage F)
    (content : AgentContent F × Nat) (s : ReducerState F) :
    KeepsThreads s (s.processToolCallContent host msg content) := by
  rw [processToolCallContent]
  split
  · rename_i id name input description _
    simp only [processToolCall]
    split
    · split_ifs
      · exact (keepsThreads_modifyMessage _ _ s).trans (keepsThreads_markSeen msg.id _)
      · exact KeepsThreads.refl s
    · have hremember := keepsThreads_rememberRequest msg id name input s
      exact ((hremember.trans (keepsThreads_addToolMessage host msg _ _ _)).trans
        (keepsThreads_markSeen msg.id _)).trans (keepsThreads_clearThinking _)
  · exact KeepsThreads.refl s

end

theorem keepsThreads_processToolResultContent (now : Int) (msg : NormalizedMessage F)
    (content : AgentContent F × Nat) (s : ReducerState F) :
    KeepsThreads s (s.processToolResultContent now msg content) := by
  rw [processToolResultContent]
  split
  · rw [processToolResult]
    split
    · exact ⟨le_rfl, rfl, rfl, rfl, .inl rfl, rfl, rfl⟩
    · exact keepsThreads_applyToolResult _ _ _ _ s
  · exact KeepsThreads.refl s

end ReducerState

namespace ReducerState

def InThreads (s : ReducerState F) (chain : List MessageId) (mid : MessageId) : Prop :=
  mid ∈ s.sidechainIds ∨ mid ∈ chain

def IsMain (s : ReducerState F) (chain : List MessageId) (mid : MessageId) : Prop :=
  mid < s.messages.length ∧ ¬ s.InThreads chain mid

end ReducerState

structure Isolated (chain : List MessageId) (s : ReducerState F) : Prop where
  bounded : ∀ mid, s.InThreads chain mid → mid < s.messages.length
  thinking : ∀ mid, s.thinkingMergeCursor = some mid → s.IsMain chain mid
  stream : ∀ p, s.streamMergeCursor = some p → s.IsMain chain p.1
  keys : ∀ k mid, s.thinkingSegmentKeyToMessageId.get k = some mid → s.IsMain chain mid
  chainCursors : ∀ k mid, s.sidechainThinkingMergeCursors.get k = some mid → s.InThreads chain mid
  writers : ∀ w ∈ s.textWriters, isMarked w.2 = true → s.InThreads chain w.1

variable {chain : List MessageId}

theorem KeepsThreads.inThreads (hk : KeepsThreads s s') {mid : MessageId} :
    s'.InThreads chain mid ↔ s.InThreads chain mid := by
  simp only [ReducerState.InThreads, ReducerState.sidechainIds, hk.sidechains]

theorem KeepsThreads.isMain (hk : KeepsThreads s s') {mid : MessageId} (h : s.IsMain chain mid) :
    s'.IsMain chain mid := ⟨h.1.trans_le hk.length, fun hin => h.2 (hk.inThreads.mp hin)⟩

namespace Isolated

theorem mono (h : Isolated chain s) (hk : KeepsThreads s s') : Isolated chain s' where
  bounded mid hin := (h.bounded mid (hk.inThreads.mp hin)).trans_le hk.length
  thinking mid hmid := by
    rcases hk.thinking with heq | hnone
    · exact hk.isMain (h.thinking mid (heq ▸ hmid))
    · exact absurd (hnone.symm.trans hmid) (by simp)
  stream p hp := hk.isMain (h.stream p (hk.stream ▸ hp))
  keys k mid hmid := hk.isMain (h.keys k mid (hk.keys ▸ hmid))
  chainCursors k mid hmid := hk.inThreads.mpr (h.chainCursors k mid (hk.chainCursors ▸ hmid))
  writers w hw hmarked := hk.inThreads.mpr (h.writers w (hk.writers ▸ hw) hmarked)

theorem noteWriter (h : Isolated chain s) {mid : MessageId} {msg : NormalizedMessage F}
    (hw : isMarked msg = true → s.InThreads chain mid) : Isolated chain (s.noteWriter mid msg) where
  bounded := h.bounded
  thinking := h.thinking
  stream := h.stream
  keys := h.keys
  chainCursors := h.chainCursors
  writers w hmem hmarked := by
    rcases List.mem_append.mp hmem with hmem | hmem
    · exact h.writers w hmem hmarked
    · obtain rfl := List.mem_singleton.mp hmem
      exact hw hmarked

theorem writeText (h : Isolated chain s) {mid : MessageId} {msg : NormalizedMessage F}
    (f : ReducerMessage F → ReducerMessage F) (hw : isMarked msg = true → s.InThreads chain mid) :
    Isolated chain (s.writeText mid f msg) := by
  have hk := ReducerState.keepsThreads_modifyMessage mid f s
  exact (h.mono hk).noteWriter fun hmarked => hk.inThreads.mpr (hw hmarked)

theorem addText (h : Isolated chain s) {msg : NormalizedMessage F} (m : ReducerMessage F)
    (hmsg : isMarked msg = false) : Isolated chain (s.addText m msg) :=
  (h.mono (ReducerState.keepsThreads_addMessage m s)).noteWriter fun hmarked =>
    absurd (hmsg.symm.trans hmarked) Bool.false_ne_true

theorem isMain_newId (h : Isolated chain s) (m : ReducerMessage F) (msg : NormalizedMessage F) :
    (s.addText m msg).IsMain chain s.newId := by
  refine ⟨by simp [ReducerState.addText, ReducerState.noteWriter, ReducerState.addMessage, ReducerState.newId],
    fun hin => ?_⟩
  exact (h.bounded s.newId hin).false

theorem push (h : Isolated chain s) (m : ReducerMessage F) :
    Isolated (chain ++ [s.newId]) (s.addMessage m) := by
  have hin : ∀ mid, (s.addMessage m).InThreads (chain ++ [s.newId]) mid ↔
      s.InThreads chain mid ∨ mid = s.newId := by
    intro mid
    simp [ReducerState.InThreads, ReducerState.addMessage, ReducerState.sidechainIds, or_assoc]
  have hmain : ∀ mid, s.IsMain chain mid → (s.addMessage m).IsMain (chain ++ [s.newId]) mid := by
    intro mid hmid
    refine ⟨hmid.1.trans_le (ReducerState.keepsThreads_addMessage m s).length, fun hthread => ?_⟩
    rcases (hin mid).mp hthread with hthread | rfl
    · exact hmid.2 hthread
    · exact hmid.1.false
  exact {
    bounded := fun mid hthread => by
      have hlength : (s.addMessage m).messages.length = s.messages.length + 1 := by
        simp [ReducerState.addMessage]
      rcases (hin mid).mp hthread with hthread | rfl
      · have hlt := h.bounded mid hthread
        exact hlength ▸ hlt.trans (Nat.lt_succ_self _)
      · exact hlength ▸ Nat.lt_succ_self _
    thinking := fun mid hmid => hmain mid (h.thinking mid hmid)
    stream := fun p hp => hmain p.1 (h.stream p hp)
    keys := fun k mid hmid => hmain mid (h.keys k mid hmid)
    chainCursors := fun k mid hmid => (hin mid).mpr (.inl (h.chainCursors k mid hmid))
    writers := fun w hw hmarked => (hin w.1).mpr (.inl (h.writers w hw hmarked)) }

theorem pushText (h : Isolated chain s) (m : ReducerMessage F) (msg : NormalizedMessage F) :
    Isolated (chain ++ [s.newId]) (s.addText m msg) :=
  (h.push m).noteWriter fun _ => .inr (List.mem_append_right _ (List.mem_singleton_self _))

theorem setThinkingMergeCursor (h : Isolated chain s) {next : Option MessageId}
    (hn : ∀ mid, next = some mid → s.IsMain chain mid) : Isolated chain (s.setThinkingMergeCursor next) :=
  { h with thinking := hn }

theorem setStreamMergeCursor (h : Isolated chain s) {next : Option (MessageId × String)}
    (hn : ∀ p, next = some p → s.IsMain chain p.1) : Isolated chain (s.setStreamMergeCursor next) :=
  { h with stream := hn }

theorem setChainCursor (h : Isolated chain s) (sidechainId : String) {next : Option MessageId}
    (hn : ∀ mid, next = some mid → s.InThreads chain mid) :
    Isolated chain (s.setSidechainThinkingMergeCursor sidechainId next) := by
  cases next with
  | none =>
      refine { h with chainCursors := fun k mid hmid => ?_ }
      simp only [ReducerState.setSidechainThinkingMergeCursor, Table.get_delete] at hmid
      split_ifs at hmid
      exact h.chainCursors k mid hmid
  | some mid' =>
      refine { h with chainCursors := fun k mid hmid => ?_ }
      simp only [ReducerState.setSidechainThinkingMergeCursor, Table.get_set] at hmid
      split_ifs at hmid
      · exact hn mid hmid
      · exact h.chainCursors k mid hmid

end Isolated

theorem upsert_cases (msg : NormalizedMessage F) (next : SegmentSnapshot F) (s : ReducerState F) :
    (∃ r : UpsertResult, r.didCreate = false ∧ r.accepted = false ∧
      upsertStreamSegmentSnapshotMessage msg next s = (s, r)) ∨
    (∃ mid, s.overwritten? next = some mid ∧
      upsertStreamSegmentSnapshotMessage msg next s =
        (s.writeText mid next.update msg, ⟨some mid, false, true⟩)) ∨
    upsertStreamSegmentSnapshotMessage msg next s =
      ({ s.addText next.message msg with localIds := s.localIds.set next.localId s.newId },
        ⟨some s.newId, true, true⟩) := by
  rw [upsertStreamSegmentSnapshotMessage]
  cases hlocal : s.localIds.get next.localId with
  | none => exact .inr (.inr rfl)
  | some existingId =>
      cases hprev : s.message? existingId with
      | none =>
          simp only [hprev]
          exact .inl ⟨_, rfl, rfl, rfl⟩
      | some prev =>
          simp only [hprev]
          split_ifs with hkind happly
          · exact .inl ⟨_, rfl, rfl, rfl⟩
          · refine .inr (.inl ⟨existingId, ?_, rfl⟩)
            rw [not_or, not_not, not_not] at hkind
            simp [ReducerState.overwritten?, hlocal, hprev, hkind, happly]
          · exact .inl ⟨_, rfl, rfl, rfl⟩

namespace TextPass

structure Isolated (p : TextPass F) : Prop where
  state : Transcript.Isolated [] p.state
  thinking : ∀ mid, p.thinking = some mid → p.state.IsMain [] mid
  stream : ∀ q, p.stream = some q → p.state.IsMain [] q.1

namespace Isolated

variable {p : TextPass F}

theorem update (h : p.Isolated) {f : ReducerState F → ReducerState F} (hk : KeepsThreads p.state (f p.state)) :
    (p.update f).Isolated :=
  ⟨h.state.mono hk, fun mid hmid => hk.isMain (h.thinking mid hmid), fun q hq => hk.isMain (h.stream q hq)⟩

theorem setThinkingCursor (h : p.Isolated) {next : Option MessageId}
    (hn : ∀ mid, next = some mid → p.state.IsMain [] mid) : (p.setThinkingCursor next).Isolated :=
  ⟨h.state.setThinkingMergeCursor hn, hn, h.stream⟩

theorem setStreamCursor (h : p.Isolated) {next : Option (MessageId × String)}
    (hn : ∀ q, next = some q → p.state.IsMain [] q.1) : (p.setStreamCursor next).Isolated :=
  ⟨h.state.setStreamMergeCursor hn, h.thinking, hn⟩

theorem setThinkingCursorIf (h : p.Isolated) (c : Bool) {next : Option MessageId}
    (hn : ∀ mid, next = some mid → c = true → p.state.IsMain [] mid) :
    (p.setThinkingCursorIf c next).Isolated := by
  cases c
  · exact h
  · exact h.setThinkingCursor fun mid hmid => hn mid hmid rfl

theorem clearThinkingIf (h : p.Isolated) (c : Bool) : (p.setThinkingCursorIf c none).Isolated :=
  h.setThinkingCursorIf c (by simp)

theorem clearStreamIf (h : p.Isolated) (c : Bool) : (p.setStreamCursorIf c none).Isolated := by
  cases c
  · exact h
  · exact h.setStreamCursor (by simp)

theorem clearAllCursors (h : p.Isolated) : p.clearAllCursors.Isolated :=
  (h.setThinkingCursor (by simp)).setStreamCursor (by simp)

theorem isMain_streamTarget (h : p.Isolated) {key : Option String} {mid : MessageId}
    (ht : p.streamTarget key = some mid) : p.state.IsMain [] mid := by
  rw [streamTarget.eq_def] at ht
  split at ht
  · rename_i hstream
    split_ifs at ht
    obtain rfl := Option.some.inj ht
    exact h.stream _ hstream
  · exact absurd ht (by simp)

variable {msg : NormalizedMessage F} (hmsg : isMarked msg = false)

include hmsg

theorem writeText (h : p.Isolated) (mid : MessageId) (f : ReducerMessage F → ReducerMessage F) :
    (p.update (·.writeText mid f msg)).Isolated := by
  have hk := ReducerState.keepsThreads_modifyMessage mid f p.state
  refine ⟨h.state.writeText f fun hmarked => ?_, fun i hi => hk.isMain (h.thinking i hi),
    fun q hq => hk.isMain (h.stream q hq)⟩
  exact absurd (hmsg.symm.trans hmarked) Bool.false_ne_true

theorem addText (h : p.Isolated) (m : ReducerMessage F) : (p.update (·.addText m msg)).Isolated := by
  have hk := ReducerState.keepsThreads_addMessage m p.state
  exact ⟨h.state.addText m hmsg, fun i hi => hk.isMain (h.thinking i hi), fun q hq => hk.isMain (h.stream q hq)⟩

theorem addUser (h : p.Isolated) (text : String) : (p.addUser msg text).Isolated := by
  rw [TextPass.addUser]
  split_ifs
  · exact h
  · apply clearAllCursors
    have hadd := h.addText hmsg (userMessage msg text)
    cases msg.localId.bind nonEmpty? with
    | none => exact hadd.update (ReducerState.keepsThreads_markSeen msg.id _)
    | some localId =>
        exact hadd.update (f := fun s => ReducerState.markSeen msg.id
          { s with localIds := s.localIds.set localId p.state.newId })
          ⟨le_rfl, rfl, rfl, rfl, .inl rfl, rfl, rfl⟩

theorem addSegment (h : p.Isolated) (kind : StreamSegmentKind) (snapshot : SegmentSnapshot F) :
    (p.addSegment kind msg snapshot).Isolated := by
  have hupsert : let r := upsertStreamSegmentSnapshotMessage msg snapshot p.state
      ({ p with state := r.1 } : TextPass F).Isolated ∧
        ∀ mid, r.2.messageId = some mid → r.2.didCreate = true → r.1.IsMain [] mid := by
    rcases upsert_cases msg snapshot p.state with ⟨r, hcreate, -, hr⟩ | ⟨mid, -, hr⟩ | hr
    · rw [hr]
      exact ⟨h, fun mid _ hc => absurd (hcreate.symm.trans hc) Bool.false_ne_true⟩
    · rw [hr]
      exact ⟨h.writeText hmsg mid snapshot.update, fun _ _ hc => absurd hc Bool.false_ne_true⟩
    · rw [hr]
      have hadd := (h.addText hmsg snapshot.message).update (f := fun s =>
        { s with localIds := p.state.localIds.set snapshot.localId p.state.newId })
        ⟨le_rfl, rfl, rfl, rfl, .inl rfl, rfl, rfl⟩
      refine ⟨hadd, fun mid hmid _ => ?_⟩
      obtain rfl := Option.some.inj hmid
      exact h.state.isMain_newId snapshot.message msg
  rw [TextPass.addSegment]
  generalize upsertStreamSegmentSnapshotMessage msg snapshot p.state = r at hupsert
  obtain ⟨state, upsert⟩ := r
  obtain ⟨hstate, hcreated⟩ := hupsert
  cases kind with
  | assistant => exact hstate.clearThinkingIf _
  | thinking => exact (hstate.setThinkingCursorIf _ hcreated).clearStreamIf _

theorem addTextContent (h : p.Isolated) (blockIndex : Nat) (text : String) :
    (p.addText msg blockIndex text).Isolated := by
  rw [TextPass.addText]
  split_ifs
  · exact (h.update (ReducerState.keepsThreads_markRunningToolsUnavailable msg.createdAt _)).clearAllCursors
  · split
    · exact h.addSegment hmsg _ _
    · split
      · rename_i mid key htarget _
        have hmain := h.isMain_streamTarget htarget
        have hwrite := h.writeText hmsg mid (ReducerMessage.mergeChunk (· ++ text) msg.seq)
        refine (hwrite.setStreamCursor fun q hq => ?_).clearThinkingIf _
        obtain rfl := Option.some.inj hq
        exact (ReducerState.keepsThreads_modifyMessage mid _ p.state).isMain hmain
      · have hnew := h.addText hmsg (textMessage msg (some blockIndex) false text)
        refine (hnew.clearThinkingIf _).setStreamCursor fun q hq => ?_
        obtain ⟨key, -, rfl⟩ := Option.map_eq_some_iff.mp hq
        have hmain := h.state.isMain_newId (textMessage msg (some blockIndex) false text) msg
        cases hasVisibleText text <;> exact hmain

theorem mergeThinking (h : p.Isolated) {mid : MessageId} (hmid : p.state.IsMain [] mid) (chunk : String) :
    (p.mergeThinking mid msg chunk).Isolated := by
  refine (h.writeText hmsg mid _).setThinkingCursor fun i hi => ?_
  obtain rfl := Option.some.inj hi
  exact (ReducerState.keepsThreads_modifyMessage mid _ p.state).isMain hmid

omit hmsg in
theorem mapSegmentKey (h : p.Isolated) (key : Option String) {mid : MessageId}
    (hmid : p.state.IsMain [] mid) : (p.mapSegmentKey key mid).Isolated := by
  cases key with
  | none => exact h
  | some key =>
      refine ⟨{ h.state with keys := fun k i hi => ?_ }, h.thinking, h.stream⟩
      change (Table.set _ key mid).get k = some i at hi
      rw [Table.get_set] at hi
      split_ifs at hi
      · exact Option.some.inj hi ▸ hmid
      · exact h.state.keys k i hi

theorem addThinkingChunk (h : p.Isolated) (blockIndex : Nat) (key : Option String) (chunk : String) :
    (p.addThinkingChunk msg blockIndex key chunk).Isolated := by
  rw [TextPass.addThinkingChunk]
  split
  · rename_i mid htarget
    obtain ⟨key', -, hget⟩ := Option.bind_eq_some_iff.mp (Option.filter_eq_some_iff.mp htarget).1
    exact h.mergeThinking hmsg (h.state.keys key' mid hget) chunk
  · split
    · rename_i mid htarget
      have hmid := h.thinking mid (Option.filter_eq_some_iff.mp htarget).1
      refine (h.mergeThinking hmsg hmid chunk).mapSegmentKey key ?_
      exact (ReducerState.keepsThreads_modifyMessage mid _ p.state).isMain hmid
    · have hmain := h.state.isMain_newId (textMessage msg (some blockIndex) true chunk) msg
      have hnew := h.addText hmsg (textMessage msg (some blockIndex) true chunk)
      refine (hnew.setThinkingCursor fun i hi => ?_).mapSegmentKey key hmain
      exact Option.some.inj hi ▸ hmain

omit hmsg in
theorem addToolCall (h : p.Isolated) (host : ReducerHost) (blockIndex : Nat) (id name : String)
    (input : Value F) (description : Option String) :
    (p.addToolCall host msg blockIndex id name input description).Isolated := by
  simp only [TextPass.addToolCall]
  split_ifs
  · exact h.clearAllCursors
  · apply h.clearAllCursors.update
    exact (ReducerState.keepsThreads_rememberRequest msg id name input _).trans
      (ReducerState.keepsThreads_addToolMessage host msg _ _ _)

theorem addContent (host : ReducerHost) {acc : TextPass F × ThinkingRun} (h : acc.1.Isolated)
    (content : AgentContent F × Nat) : (addContent host msg acc content).1.Isolated := by
  obtain ⟨p, run⟩ := acc
  obtain ⟨⟨body, uuid, parentUUID⟩, blockIndex⟩ := content
  replace h : p.Isolated := h
  cases body with
  | thinking thinking =>
      simp only [TextPass.addContent]
      split
      · rename_i localId _
        exact h.addSegment hmsg .thinking (segmentSnapshot msg localId (some blockIndex) true _)
      · split_ifs
        · exact h.addThinkingChunk hmsg blockIndex _ _
        · exact h
  | text text => exact h.addTextContent hmsg blockIndex text
  | toolCall id name input description => exact h.addToolCall host blockIndex id name input description
  | toolResult update => exact h
  | summary summary => exact h
  | sidechain prompt => exact h

theorem addMessage (h : p.Isolated) (host : ReducerHost) : (p.addMessage host msg).Isolated := by
  rw [TextPass.addMessage]
  split
  · exact h.addUser hmsg _
  · exact List.foldlRecOn (motive := fun acc : TextPass F × ThinkingRun => acc.1.Isolated) _ _ h
      fun acc hacc content _ => addContent hmsg host hacc content
  · exact h

end Isolated

end TextPass

namespace ChainPass

variable {p : ChainPass F}

theorem isolated_setCursor (h : Isolated p.chain p.state) (sidechainId : String)
    {next : Option MessageId} (hn : ∀ mid, next = some mid → p.state.InThreads p.chain mid) :
    Isolated (p.update (·.setSidechainThinkingMergeCursor sidechainId next)).chain
      (p.update (·.setSidechainThinkingMergeCursor sidechainId next)).state :=
  h.setChainCursor sidechainId hn

theorem isolated_setCursorIf (h : Isolated p.chain p.state) (c : Bool) (sidechainId : String)
    {next : Option MessageId} (hn : ∀ mid, next = some mid → c = true → p.state.InThreads p.chain mid) :
    Isolated (p.setCursorIf c sidechainId next).chain (p.setCursorIf c sidechainId next).state := by
  cases c
  · exact h
  · exact h.setChainCursor sidechainId fun mid hmid => hn mid hmid rfl

theorem isolated_addSegment (h : Isolated p.chain p.state) (sidechainId : String)
    (kind : StreamSegmentKind) (msg : NormalizedMessage F) (snapshot : SegmentSnapshot F)
    (hs : ∀ mid, p.state.overwritten? snapshot = some mid → p.state.InThreads p.chain mid) :
    Isolated (p.addSegment sidechainId kind msg snapshot).chain
      (p.addSegment sidechainId kind msg snapshot).state := by
  rcases upsert_cases msg snapshot p.state with ⟨r, hcreate, haccepted, hr⟩ | ⟨mid, hmid, hr⟩ | hr
  · simp only [addSegment, hr, hcreate, haccepted]
    exact h
  · simp only [addSegment, hr]
    have hk := ReducerState.keepsThreads_modifyMessage mid snapshot.update p.state
    refine isolated_setCursorIf (h.writeText snapshot.update fun _ => hs mid hmid) _ sidechainId fun i hi _ => ?_
    cases kind with
    | assistant => exact absurd hi (by simp)
    | thinking =>
        obtain rfl := Option.some.inj hi
        exact hk.inThreads.mpr (hs _ hmid)
  · simp only [addSegment, hr]
    have hpush := h.pushText snapshot.message msg
    refine isolated_setCursorIf (p := ⟨_, p.chain ++ [p.state.newId]⟩) (hpush.mono ?_) _ sidechainId
      fun i hi _ => ?_
    · exact ⟨le_rfl, rfl, rfl, rfl, .inl rfl, rfl, rfl⟩
    · cases kind with
      | assistant => exact absurd hi (by simp)
      | thinking =>
          obtain rfl := Option.some.inj hi
          exact .inr (List.mem_append_right _ (List.mem_singleton_self _))

theorem isolated_addText (h : Isolated p.chain p.state) (sidechainId : String)
    (msg : NormalizedMessage F) (text : String)
    (hs : ∀ localId, streamSegment? msg .assistant = some localId → ∀ mid,
      p.state.overwritten? (segmentSnapshot msg localId none false text) = some mid →
        p.state.InThreads p.chain mid) :
    Isolated (p.addText sidechainId msg text).chain (p.addText sidechainId msg text).state := by
  rw [addText]
  split
  · rename_i localId hsegment
    exact isolated_addSegment h sidechainId .assistant msg _ (hs localId hsegment)
  · refine isolated_setCursorIf ?_ _ sidechainId (by simp)
    split
    · rename_i mid htarget
      refine h.writeText _ fun _ => .inr ?_
      rw [streamTarget.eq_def] at htarget
      split at htarget
      · rename_i hlast
        split_ifs at htarget
        obtain rfl := Option.some.inj htarget
        obtain ⟨i, hi, hmap⟩ := Option.bind_eq_some_iff.mp hlast
        obtain ⟨m, -, hm⟩ := Option.map_eq_some_iff.mp hmap
        exact (Prod.mk.inj hm).1 ▸ List.mem_of_getLast? hi
      · exact absurd htarget (by simp)
    · exact h.pushText _ msg

theorem inThreads_thinkingTarget (h : Isolated p.chain p.state) {sidechainId : String} {mid : MessageId}
    (ht : p.thinkingTarget sidechainId = some mid) : p.state.InThreads p.chain mid := by
  rcases Option.or_eq_some_iff.mp ht with hcursor | ⟨-, hlast⟩
  · exact h.chainCursors _ mid (Option.filter_eq_some_iff.mp hcursor).1
  · exact .inr (List.mem_of_getLast? (Option.filter_eq_some_iff.mp hlast).1)

theorem isolated_addThinking (h : Isolated p.chain p.state) (sidechainId : String)
    (msg : NormalizedMessage F) (thinking : String)
    (hs : ∀ localId, streamSegment? msg .thinking = some localId → ∀ mid,
      p.state.overwritten? (segmentSnapshot msg localId none true (normalizeThinkingChunk thinking)) = some mid →
        p.state.InThreads p.chain mid) :
    Isolated (p.addThinking sidechainId msg thinking).chain (p.addThinking sidechainId msg thinking).state := by
  simp only [addThinking]
  split
  · rename_i localId hsegment
    exact isolated_addSegment h sidechainId .thinking msg _ (hs localId hsegment)
  · split_ifs
    · split
      · rename_i mid htarget
        have hmid := inThreads_thinkingTarget h htarget
        have hk := ReducerState.keepsThreads_modifyMessage mid
          (appendText (unwrapThinkingText · ++ normalizeThinkingChunk thinking)) p.state
        refine isolated_setCursor (h.writeText _ fun _ => hmid) sidechainId fun i hi => ?_
        obtain rfl := Option.some.inj hi
        exact hk.inThreads.mpr hmid
      · refine isolated_setCursor (h.pushText _ msg) sidechainId fun i hi => ?_
        obtain rfl := Option.some.inj hi
        exact .inr (List.mem_append_right _ (List.mem_singleton_self _))
    · exact h

theorem isolated_addToolCall (h : Isolated p.chain p.state) (sidechainId : String)
    (msg : NormalizedMessage F) (id name : String) (input : Value F) (description : Option String) :
    Isolated (p.addToolCall sidechainId msg id name input description).chain
      (p.addToolCall sidechainId msg id name input description).state := by
  have hcursor := isolated_setCursor h sidechainId (by simp : ∀ mid, none = some mid → _)
  have hpush : ∀ (q : ChainPass F) (m : ReducerMessage F), Isolated q.chain q.state →
      Isolated (q.push m).chain { (q.push m).state with
        sidechainToolIdToMessageId := q.state.sidechainToolIdToMessageId.set id q.state.newId } :=
    fun q m hq => (hq.push m).mono ⟨le_rfl, rfl, rfl, rfl, .inl rfl, rfl, rfl⟩
  simp only [addToolCall]
  split
  · rename_i mid _
    apply hpush
    exact hcursor.mono (ReducerState.keepsThreads_modifyTool mid _ _)
  · exact hpush _ _ hcursor

theorem isolated_applyTo (h : Isolated p.chain p.state) (mid : Option MessageId) (msg : NormalizedMessage F)
    (u : ToolResultUpdate F) : Isolated (p.applyTo mid msg u).chain (p.applyTo mid msg u).state := by
  cases mid with
  | none => exact h
  | some mid => exact h.mono (ReducerState.keepsThreads_applyToolResult mid u _ _ p.state)

theorem isolated_addContent (h : Isolated p.chain p.state) (sidechainId : String)
    (msg : NormalizedMessage F) (c : AgentContent F) (hs : p.isolates msg c) :
    Isolated (p.addContent sidechainId msg c).chain (p.addContent sidechainId msg c).state := by
  obtain ⟨body, uuid, parentUUID⟩ := c
  cases body with
  | text text =>
      refine isolated_addText h sidechainId msg text fun localId hlocal mid hmid => hs mid ?_
      simp [segment?, hlocal, hmid]
  | thinking thinking =>
      refine isolated_addThinking h sidechainId msg thinking fun localId hlocal mid hmid => hs mid ?_
      simp [segment?, hlocal, hmid]
  | toolCall id name input description => exact isolated_addToolCall h sidechainId msg id name input description
  | toolResult u => exact isolated_applyTo (isolated_applyTo h _ msg u) _ msg u
  | summary summary => exact h
  | sidechain prompt => exact h

theorem isolated_addContents (h : Isolated p.chain p.state) (sidechainId : String)
    (msg : NormalizedMessage F)
    (hs : Runs.Along (addContent sidechainId msg) (isolates msg) p (chainContents msg)) :
    Isolated (p.addContents sidechainId msg).chain (p.addContents sidechainId msg).state := by
  rw [addContents]
  rw [chainContents] at hs
  split
  · exact isolated_setCursor (h.pushText _ msg) sidechainId (by simp)
  · rename_i hother
    split at hs
    · rename_i hhead
      exact absurd hhead (hother _)
    · exact Runs.run_invariant_along (I := fun p : ChainPass F => Isolated p.chain p.state)
        (fun p c hp hc => isolated_addContent hp sidechainId msg c hc) h hs

end ChainPass

theorem Isolated.of_inThreads (h : Isolated chain s) {chain' : List MessageId}
    {sidechains : Table (List MessageId)}
    (hk : ∀ mid, ReducerState.InThreads { s with sidechains } chain' mid ↔ s.InThreads chain mid) :
    Isolated chain' { s with sidechains } := by
  have hmain : ∀ mid, s.IsMain chain mid → ReducerState.IsMain { s with sidechains } chain' mid :=
    fun mid hmid => ⟨hmid.1, fun hin => hmid.2 ((hk mid).mp hin)⟩
  exact {
    bounded := fun mid hin => h.bounded mid ((hk mid).mp hin)
    thinking := fun mid hmid => hmain mid (h.thinking mid hmid)
    stream := fun p hp => hmain p.1 (h.stream p hp)
    keys := fun k mid hmid => hmain mid (h.keys k mid hmid)
    chainCursors := fun k mid hmid => (hk mid).mpr (h.chainCursors k mid hmid)
    writers := fun w hw hmarked => (hk w.1).mpr (h.writers w hw hmarked) }

theorem isolated_processSidechainMessage (h : Isolated [] s) (msg : NormalizedMessage F)
    (hs : s.isolatesMessage msg) : Isolated [] (s.processSidechainMessage msg) := by
  rw [ReducerState.isolatesMessage] at hs
  rw [ReducerState.processSidechainMessage]
  cases hid : msg.sidechainId.bind nonEmpty? with
  | none => exact h
  | some sidechainId =>
      simp only [hid] at hs ⊢
      split_ifs
      · exact h
      · set p₀ : ChainPass F := ⟨s.markSeen msg.id, s.chain sidechainId⟩
        set p := p₀.addContents sidechainId msg
        have hext := ChainPass.extends_addContents sidechainId msg p₀
        have hstart : Isolated p₀.chain p₀.state := by
          have hseen := h.mono (ReducerState.keepsThreads_markSeen msg.id s)
          apply hseen.of_inThreads
          intro mid
          have hchain : mid ∈ p₀.chain → mid ∈ s.sidechainIds := ReducerState.mem_sidechainIds_of_chain
          change (mid ∈ s.sidechainIds ∨ mid ∈ p₀.chain) ↔ (mid ∈ s.sidechainIds ∨ mid ∈ [])
          simpa using hchain
        have hpass : Isolated p.chain p.state := ChainPass.isolated_addContents hstart sidechainId msg hs
        have hold : p.state.chain sidechainId ⊆ p.chain := by
          have heq : p.state.chain sidechainId = p₀.chain := by
            rw [ReducerState.chain, hext.sidechains]
            rfl
          exact heq ▸ hext.chain.subset
        have hstored : Isolated [] (ReducerState.storeChain sidechainId p) := by
          apply hpass.of_inThreads
          intro mid
          rw [ReducerState.InThreads, or_iff_left List.not_mem_nil]
          exact mem_sidechainIds_storeChain hold
        split
        · exact hstored.mono (ReducerState.keepsThreads_modifyTool _ _ _)
        · exact hstored

theorem ne_empty_of_nonEmpty? {t id : String} (h : nonEmpty? t = some id) : id ≠ "" := by
  rw [nonEmpty?] at h
  split_ifs at h with ht
  exact Option.some.inj h ▸ ht

theorem ne_empty_of_nonBlank? {t id : String} (h : nonBlank? t = some id) : id ≠ "" := by
  rw [nonBlank?] at h
  split_ifs at h with ht
  exact Option.some.inj h ▸ ht

theorem nonEmpty?_eq_some {id : String} (h : id ≠ "") : nonEmpty? id = some id := if_neg h

structure TracerState.Named (s : TracerState F) : Prop where
  prompts : ∀ k id, s.promptToTaskId.get k = some id → id ≠ ""
  uuids : ∀ k id, s.uuidToSidechainId.get k = some id → id ≠ ""

/-- A marked message that leaves the tracer has the id of its sidechain. -/
structure Trace.Sound (t : Trace F) : Prop where
  named : t.state.Named
  results : ∀ msg ∈ t.results, isMain msg = true → isMarked msg = false

namespace Trace.Sound

variable {t : Trace F}

theorem markProcessed (h : t.Sound) (key : String) : Trace.Sound ⟨t.state.markProcessed key, t.results⟩ :=
  ⟨⟨h.named.prompts, h.named.uuids⟩, h.results⟩

theorem addOrphan (h : t.Sound) (now : Int) (key : String) (msg : NormalizedMessage F) :
    Trace.Sound ⟨t.state.addOrphan now key msg, t.results⟩ := ⟨⟨h.named.prompts, h.named.uuids⟩, h.results⟩

theorem link (h : t.Sound) {sidechainId : String} (hid : sidechainId ≠ "") (msg : NormalizedMessage F) :
    (t.link sidechainId msg).Sound where
  named := by
    rw [Trace.link]
    cases getMessageUuid msg with
    | none => exact ⟨h.named.prompts, h.named.uuids⟩
    | some uuid =>
        refine ⟨h.named.prompts, fun k id hget => ?_⟩
        simp only [TracerState.mapUuid, Table.get_set] at hget
        split_ifs at hget
        · exact Option.some.inj hget ▸ hid
        · exact h.named.uuids k id hget
  results m hm hmain := by
    rcases List.mem_append.mp hm with hm | hm
    · exact h.results m hm hmain
    · obtain rfl := List.mem_singleton.mp hm
      simp [isMain, nonEmpty?_eq_some hid] at hmain

theorem processOrphans {sidechainId : String} (hid : sidechainId ≠ "") (fuel : Nat) :
    ∀ (parentUuid : String) (t : Trace F), t.Sound →
      (Transcript.processOrphans sidechainId fuel parentUuid t).Sound := by
  induction fuel with
  | zero => exact fun _ _ h => h
  | succ fuel ih =>
      intro parentUuid t h
      rw [Transcript.processOrphans]
      split
      · exact h
      · apply List.foldlRecOn (motive := fun t : Trace F => t.Sound)
        · exact ⟨⟨h.named.prompts, h.named.uuids⟩, h.results⟩
        · intro t ht orphan _
          split
          · exact ih _ _ (ht.link hid orphan)
          · exact ht.link hid orphan

theorem linkAndFlush (h : t.Sound) {sidechainId : String} (hid : sidechainId ≠ "")
    (msg : NormalizedMessage F) : (Transcript.linkAndFlush sidechainId msg t).Sound := by
  rw [Transcript.linkAndFlush]
  split
  · exact processOrphans hid _ _ _ (h.link hid msg)
  · exact h.link hid msg

theorem indexTask (h : t.Sound) {task : String × String} (htask : task.2 ≠ "") :
    (Transcript.indexTask t task).Sound := by
  apply processOrphans htask
  refine ⟨⟨fun k id hget => ?_, h.named.uuids⟩, h.results⟩
  rw [Table.get_set] at hget
  split_ifs at hget
  · exact Option.some.inj hget ▸ htask
  · exact h.named.prompts k id hget

end Trace.Sound

theorem ne_empty_of_taskOf {messageId : String} {c : AgentContent F} {task : String × String}
    (h : taskOf messageId c = some task) : task.2 ≠ "" := by
  rw [taskOf] at h
  split at h
  · split_ifs at h
    simp only [Option.bind_eq_bind, Option.bind_eq_some_iff] at h
    obtain ⟨ms, -, toolCallId, hid, promptKey, -, htask⟩ := h
    obtain rfl := Option.some.inj htask
    rcases Option.or_eq_some_iff.mp hid with hid | ⟨-, hid⟩
    · exact ne_empty_of_nonEmpty? hid
    · exact ne_empty_of_nonEmpty? hid
  · exact absurd h (by simp)

theorem linkByPrompt_fst {prompts : Table String} {contents : List (AgentContent F)}
    {pending : Option String} {id : String} (h : (linkByPrompt prompts contents pending).1 = some id) :
    ∃ key, prompts.get key = some id := by
  fun_induction linkByPrompt prompts contents pending with
  | case1 pending => exact absurd h (by simp)
  | case2 pending prompt uuid parent rest hblank ih => exact ih h
  | case3 pending prompt uuid parent rest key hkey task htask => exact ⟨key, htask.trans h⟩
  | case4 pending prompt uuid parent rest key hkey hget ih => exact ih h
  | case5 pending c rest hc ih => exact ih h

theorem ne_empty_of_explicitSidechainId {msg : NormalizedMessage F} {id : String}
    (h : explicitSidechainId msg = some id) : id ≠ "" := by
  obtain ⟨v, -, hv⟩ := List.exists_of_findSome?_eq_some h
  obtain ⟨t, -, ht⟩ := Option.bind_eq_some_iff.mp hv
  exact ne_empty_of_nonBlank? ht

theorem Trace.Sound.traceSidechainMessage {t : Trace F} (h : t.Sound) (now : Int)
    (msg : NormalizedMessage F) : (Transcript.traceSidechainMessage now msg t).Sound := by
  rw [Transcript.traceSidechainMessage]
  cases hexplicit : explicitSidechainId msg with
  | some sidechainId => exact h.linkAndFlush (ne_empty_of_explicitSidechainId hexplicit) msg
  | none =>
      have hprompt : ∀ id, (linkByPrompt t.state.promptToTaskId msg.content none).1 = some id → id ≠ "" := by
        intro id hid
        obtain ⟨key, hkey⟩ := linkByPrompt_fst hid
        exact h.named.prompts key id hkey
      simp only
      split
      · exact h.linkAndFlush (hprompt _ ‹_›) msg
      · split
        · split
          · rename_i hget
            exact h.linkAndFlush (h.named.uuids _ _ hget) msg
          · exact h.addOrphan now _ msg
        · split
          · exact h.addOrphan now _ msg
          · exact h.markProcessed _

theorem isMarked_of_isMain {msg : NormalizedMessage F} (h : isMain msg = true)
    (hs : shouldTreatAsSidechain msg = false) : isMarked msg = false := by
  rw [isMain, Bool.and_eq_true] at h
  rw [isMarked, hs, Bool.false_or, Option.isNone_iff_eq_none.mp h.1]
  rfl

theorem Trace.Sound.traceMessage {t : Trace F} (h : t.Sound) (now : Int) (msg : NormalizedMessage F) :
    (Transcript.traceMessage now t msg).Sound := by
  have hindex : ((msg.content.filterMap (taskOf msg.id)).foldl Transcript.indexTask t).Sound := by
    apply List.foldlRecOn (motive := fun t : Trace F => t.Sound) _ _ h
    intro t ht task htask
    obtain ⟨c, -, hc⟩ := List.mem_filterMap.mp htask
    exact ht.indexTask (ne_empty_of_taskOf hc)
  rw [Transcript.traceMessage]
  simp only
  split_ifs with hseen hside
  · exact h
  · exact hindex.traceSidechainMessage now msg
  · refine ⟨(hindex.markProcessed _).named, fun m hm hmain => ?_⟩
    rcases List.mem_append.mp hm with hm | hm
    · exact hindex.results m hm hmain
    · obtain rfl := List.mem_singleton.mp hm
      exact isMarked_of_isMain hmain (Bool.eq_false_iff.mpr hside)

theorem sound_traceMessages (now : Int) {s : TracerState F} (h : s.Named)
    (messages : List (NormalizedMessage F)) : (traceMessages now s messages).Sound := by
  have hstart : Trace.Sound ⟨s.pruneOrphans now, []⟩ :=
    ⟨⟨h.prompts, h.uuids⟩, fun _ hm => absurd hm List.not_mem_nil⟩
  exact List.foldlRecOn (motive := fun t : Trace F => t.Sound) _ _ hstart fun t ht msg _ => ht.traceMessage now msg

def Step.IsEarly : Step F → Prop
  | .text msg => isMarked msg = false
  | .sidechain _ => False
  | _ => True

def Step.IsLate : Step F → Prop
  | .text _ => False
  | _ => True

theorem messagesToProcess_subset (traced : List (NormalizedMessage F)) (s : ReducerState F) :
    (converted traced s).messagesToProcess ⊆ traced.filter isMain := by
  have hfold : ∀ (messages : List (NormalizedMessage F)) (c : Conversion F),
      (messages.foldl Conversion.add c).messagesToProcess ⊆ c.messagesToProcess ++ messages := by
    intro messages
    induction messages with
    | nil => exact fun c => by simp
    | cons msg messages ih =>
        intro c m hm
        have hadd : (c.add msg).messagesToProcess ⊆ c.messagesToProcess ++ [msg] := by
          rw [Conversion.add]
          split_ifs
          · exact List.subset_append_left _ _
          · exact List.subset_append_left _ _
          · split
            · exact List.subset_append_left _ _
            · exact List.Subset.refl _
        rcases List.mem_append.mp (ih (c.add msg) hm) with hm | hm
        · rcases List.mem_append.mp (hadd hm) with hm | hm
          · exact List.mem_append_left _ hm
          · exact List.mem_append_right _ (List.mem_cons.mpr (.inl (List.mem_singleton.mp hm)))
        · exact List.mem_append_right _ (List.mem_cons_of_mem msg hm)
  exact hfold (traced.filter isMain) ⟨s, [], [], none⟩

theorem steps_eq {traced : List (NormalizedMessage F)}
    (h : ∀ msg ∈ traced, isMain msg = true → isMarked msg = false) (call : ReducerCall F)
    (s : ReducerState F) : ∃ early late, steps call traced s = early ++ late ∧
      (∀ step ∈ early, step.IsEarly) ∧ ∀ step ∈ late, step.IsLate := by
  have hmain : ∀ msg ∈ (converted traced s).messagesToProcess, isMarked msg = false := by
    intro msg hmsg
    obtain ⟨htraced, hm⟩ := List.mem_filter.mp (messagesToProcess_subset traced s hmsg)
    exact h msg htraced hm
  have hpermissions : ∀ ids, ∀ step ∈ permissionSteps call.agentState ids, step.IsEarly := by
    intro ids step hstep
    cases hstate : call.agentState with
    | none => simp [permissionSteps, hstate] at hstep
    | some agentState =>
        simp only [permissionSteps, hstate, List.mem_append, List.mem_map] at hstep
        rcases hstep with ⟨entry, -, rfl⟩ | ⟨entry, -, rfl⟩ <;> trivial
  refine ⟨_, _, (List.append_assoc _ _ _).trans (List.append_assoc _ _ _), ?_, ?_⟩
  · simp only [List.mem_append, contentSteps, List.mem_map, List.mem_flatMap]
    rintro step ((((⟨p, -, rfl⟩ | hstep) | ⟨msg, hmsg, rfl⟩) | ⟨msg, -, c, -, rfl⟩) | ⟨msg, -, c, -, rfl⟩)
    · trivial
    · exact hpermissions _ step hstep
    · exact hmain msg hmsg
    · trivial
    · trivial
  · simp only [List.mem_append, List.mem_map]
    rintro step (⟨msg, -, rfl⟩ | ⟨msg, -, rfl⟩ | ⟨readyAt, -, rfl⟩) <;> trivial

theorem keepsThreads_converted (traced : List (NormalizedMessage F)) (s : ReducerState F) :
    KeepsThreads s (converted traced s).state := by
  rw [converted]
  apply List.foldlRecOn (motive := fun c : Conversion F => KeepsThreads s c.state)
  · exact KeepsThreads.refl s
  · intro c hc msg _
    have hseen := hc.trans (ReducerState.keepsThreads_markSeen msg.id c.state)
    rw [Conversion.add]
    split_ifs
    · exact hc
    · exact hseen
    · split
      · exact hseen
      · exact hc

theorem isMain_lastMain (h : Isolated [] s) {mid : MessageId} (hmid : s.lastMainThinkingMessageId = some mid) :
    s.IsMain [] mid := by
  rcases Option.or_eq_some_iff.mp hmid with hcursor | ⟨-, hlast⟩
  · exact h.thinking mid (Option.filter_eq_some_iff.mp hcursor).1
  · obtain ⟨p, hp, rfl⟩ := Option.map_eq_some_iff.mp hlast
    have hfold : ∀ last, s.lastMain = some last → s.IsMain [] last.1 := by
      rw [ReducerState.lastMain]
      apply List.foldlRecOn (motive := fun last : Option (MessageId × ReducerMessage F) =>
        ∀ p, last = some p → s.IsMain [] p.1)
      · exact fun _ h => absurd h (by simp)
      · intro last hlast q hq p hp
        have hmain : q.2 ∉ s.sidechainIds → s.IsMain [] q.2 := fun hnot =>
          ⟨(List.mem_zipIdx' hq).1, fun hin => hnot (hin.resolve_right List.not_mem_nil)⟩
        split_ifs at hp with hin
        · exact hlast p hp
        · split at hp
          · obtain rfl := Option.some.inj hp
            exact hmain hin
          · split_ifs at hp
            · obtain rfl := Option.some.inj hp
              exact hmain hin
            · exact hlast p hp
    exact hfold p (Option.filter_eq_some_iff.mp hp).1

section Runs

variable [DecidableEq F] (host : ReducerHost)

theorem isolated_early (now : Int) {p : TextPass F} (step : Step F) (h : p.Isolated)
    (hearly : step.IsEarly) : (step.apply host now p).Isolated := by
  cases step with
  | convert msg event => exact h.update (ReducerState.keepsThreads_addEvent msg event _)
  | request entry =>
      exact h.update (f := (·.processRequest host now entry))
        (ReducerState.keepsThreads_processRequest host now entry _)
  | completed requests ids entry =>
      exact h.update (f := (·.processCompleted host now requests ids entry))
        (ReducerState.keepsThreads_processCompleted host now requests ids entry _)
  | text msg => exact h.addMessage hearly host
  | toolCall msg content =>
      exact h.update (f := (·.processToolCallContent host msg content))
        (ReducerState.keepsThreads_processToolCallContent host msg content _)
  | toolResult msg content =>
      exact h.update (f := (·.processToolResultContent now msg content))
        (ReducerState.keepsThreads_processToolResultContent now msg content _)
  | sidechain msg => exact hearly.elim
  | event msg => exact h.update (f := (·.processEvent msg)) (ReducerState.keepsThreads_processEvent msg _)
  | ready readyAt => exact h.update (ReducerState.keepsThreads_markRunningToolsUnavailable readyAt _)

theorem isolated_late (now : Int) {p : TextPass F} (step : Step F) (h : Isolated [] p.state)
    (hlate : step.IsLate) (hs : step.isolates p) : Isolated [] (step.apply host now p).state := by
  cases step with
  | convert msg event => exact h.mono (ReducerState.keepsThreads_addEvent msg event _)
  | request entry => exact h.mono (ReducerState.keepsThreads_processRequest host now entry _)
  | completed requests ids entry =>
      exact h.mono (ReducerState.keepsThreads_processCompleted host now requests ids entry _)
  | text msg => exact hlate.elim
  | toolCall msg content => exact h.mono (ReducerState.keepsThreads_processToolCallContent host msg content _)
  | toolResult msg content => exact h.mono (ReducerState.keepsThreads_processToolResultContent now msg content _)
  | sidechain msg => exact isolated_processSidechainMessage h msg hs
  | event msg => exact h.mono (ReducerState.keepsThreads_processEvent msg _)
  | ready readyAt => exact h.mono (ReducerState.keepsThreads_markRunningToolsUnavailable readyAt _)

structure ReducerState.Isolated (s : ReducerState F) : Prop where
  threads : Transcript.Isolated [] s
  named : s.tracerState.Named

theorem isolated_reducer {s : ReducerState F} (call : ReducerCall F) (h : s.Isolated)
    (hs : CallIsolates host s call) : (reducer host s call).Isolated := by
  have htrace := sound_traceMessages call.now h.named (orderedIncomingMessages call.messages)
  refine ⟨?_, htrace.named⟩
  rw [CallIsolates] at hs
  rw [reducer]
  generalize traceMessages call.now s.tracerState (orderedIncomingMessages call.messages) = trace at htrace hs
  have hstart : (startPass trace.results s).Isolated := by
    have hk := keepsThreads_converted trace.results s
    exact ⟨h.threads.mono hk, fun mid hmid => hk.isMain (isMain_lastMain h.threads hmid),
      fun q hq => hk.isMain (h.threads.stream q hq)⟩
  obtain ⟨early, late, hsteps, hearly, hlate⟩ := steps_eq htrace.results call s
  simp only [hsteps, Runs.along_append_iff] at hs
  have hfirst := Runs.run_invariant_along_of_mem (I := TextPass.Isolated)
    (fun p step hp hstep _ => isolated_early host call.now step hp hstep) hearly hstart hs.1
  have hrun := Runs.run_invariant_along_of_mem (I := fun p : TextPass F => Isolated [] p.state)
    (fun p step hp hstep hc => isolated_late host call.now step hp hstep hc) hlate hfirst.state hs.2
  rw [runPhases_eq_run, hsteps, Runs.run_append]
  exact hrun.mono ⟨le_rfl, rfl, rfl, rfl, .inl rfl, rfl, rfl⟩

omit [DecidableEq F] in
theorem isolated_createReducer : (createReducer : ReducerState F).Isolated := by
  refine ⟨⟨fun mid h => ?_, ?_, ?_, ?_, ?_, ?_⟩, ?_, ?_⟩
  · simp [ReducerState.InThreads, ReducerState.sidechainIds, createReducer, Table.values, Table.empty] at h
  all_goals simp [createReducer, createTracer]

/-- In a run in which no stream segment of a sub-agent replaces a text of the
root transcript, no root message has a text of a marked message. -/
theorem sidechains_isolated (calls later : List (ReducerCall F))
    (hs : Runs.Along (reducer host) (CallIsolates host) createReducer (calls ++ later)) :
    (afterCalls host calls).SidechainsIsolated := by
  have h : (afterCalls host calls).Isolated :=
    Runs.run_invariant_along (fun _ call => isolated_reducer host call) isolated_createReducer
      (Runs.along_append_iff.mp hs).1
  intro w hw hroot
  by_contra hmarked
  have hin := h.threads.writers w hw (by simpa using hmarked)
  exact hroot.2 (hin.resolve_right List.not_mem_nil)

/-! A segment of the main timeline, and one of a sub-agent. -/

def segmentMessage (id : String) (createdAt : Int) (localId text : String) (sidechainId : Option String) :
    NormalizedMessage Empty :=
  { NormalizedMessage.ofAgent id createdAt (.text text) with
    sidechainId
    metadata := some [("happierStreamSegmentV1",
      .obj [("v", .int 1), ("segmentKind", .str "assistant"), ("segmentLocalId", .str localId)])] }

def segmentCalls (localId : String) : List (ReducerCall Empty) :=
  [⟨[segmentMessage "m1" 1 "main" "shown" none], none, 5⟩,
    ⟨[segmentMessage "m2" 2 localId "hidden" (some "t1")], none, 6⟩]

theorem sidechains_isolated_own_segment :
    Runs.Along (reducer ⟨(· ≤ ·)⟩) (CallIsolates ⟨(· ≤ ·)⟩) createReducer (segmentCalls "sub") ∧
      (afterCalls ⟨(· ≤ ·)⟩ (segmentCalls "sub")).textWriters.length = 2 ∧
      (afterCalls ⟨(· ≤ ·)⟩ (segmentCalls "sub")).SidechainsIsolated := by
  have hs : Runs.Along (reducer ⟨(· ≤ ·)⟩) (CallIsolates ⟨(· ≤ ·)⟩) createReducer
      (segmentCalls "sub" ++ []) := by decide
  exact ⟨hs, by decide, sidechains_isolated ⟨(· ≤ ·)⟩ (segmentCalls "sub") [] hs⟩

theorem shared_segment_leaks :
    ¬ ∀ (host : ReducerHost) (calls : List (ReducerCall Empty)),
      (afterCalls host calls).SidechainsIsolated := by
  intro h
  have hwriters : (afterCalls ⟨(· ≤ ·)⟩ (segmentCalls "main")).textWriters.map
      (fun w => (w.1, isMarked w.2)) = [(0, false), (0, true)] := by decide
  have hroot : (afterCalls ⟨(· ≤ ·)⟩ (segmentCalls "main")).IsRoot 0 := by decide
  obtain ⟨w, hw, hmarked⟩ := List.mem_map.mp (hwriters ▸ List.mem_cons_of_mem _ (List.mem_singleton_self (0, true)))
  have hunmarked := h ⟨(· ≤ ·)⟩ (segmentCalls "main") w hw ((Prod.mk.inj hmarked).1 ▸ hroot)
  exact absurd (hunmarked.symm.trans (Prod.mk.inj hmarked).2) Bool.false_ne_true

end Runs

end DevPilot.Transcript
