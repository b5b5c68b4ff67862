import DevPilot.Core.AgentLoop
import DevPilot.Lib.Runs

/-!
The hook that elides the scratch work of an IDEATE round after each commit: it
holds the message list that the agent had when it was wired.
-/

namespace DevPilot

open PyJson Runs

variable {F : Type}

theorem blocks?_set_content {msg : Json F} {bs : List (Json F)} (h : blocks? msg = some bs)
    (bs' : List (Json F)) : blocks? (msg.set "content" (.arr bs')) = some bs' := by
  rw [blocks?, get?_set_content h]

attribute [local instance] lawfulBEq_optionString

def isScratch (b : Json F) : Bool :=
  b.getStr? "type" ∈ [some "thinking", some "redacted_thinking", some "text"]

theorem filter_elideReasoning {p : Json F → Bool} (hp : ∀ b, isScratch b = true → p b = false)
    (emitted : Bool) (bs : List (Json F)) :
    (elideReasoning emitted bs).filter p = bs.filter p := by
  have hskip : ∀ b : Json F, b.getStr? "type" ∈ [some "thinking", some "redacted_thinking", some "text"] →
      Option.guard p b = none := by
    intro b hb
    rw [Option.guard, hp b (decide_eq_true hb)]
    rfl
  simpa only [List.filterMap_eq_filter] using filterMap_elideReasoning hskip emitted bs

theorem elideReasoning_idem (emitted : Bool) (bs : List (Json F)) :
    elideReasoning emitted (elideReasoning emitted bs) = elideReasoning emitted bs := by
  induction bs generalizing emitted with
  | nil => rfl
  | cons b bs ih =>
      rw [elideReasoning]
      split_ifs with hthink htxt hemitted hstub
      · exact ih emitted
      · exact ih emitted
      · rw [elideReasoning, if_neg hthink, if_pos htxt, if_neg hemitted, if_pos hstub, ih]
      · have htype : (Json.obj [("type", .str "text"), ("text", .str reasoningStub)] :
            Json F).getStr? "type" = some "text" := rfl
        rw [elideReasoning, htype, if_neg (by decide), if_pos rfl, if_neg hemitted, if_pos (by rfl), ih]
      · rw [elideReasoning, if_neg hthink, if_neg htxt, ih]

theorem stubSkill_idem (skillIds : List String) (b : Json F) :
    stubSkill skillIds (stubSkill skillIds b) = stubSkill skillIds b := by
  by_cases h : b.getStr? "type" = some "tool_result" ∧
      (b.getStr? "tool_use_id").any (· ∈ skillIds) = true
  · have hset : stubSkill skillIds b = b.set "content" (.str skillStub) := if_pos h
    rw [hset, stubSkill, Json.getStr?_set_ne (by decide), Json.getStr?_set_ne (by decide), if_pos h,
      Json.set_set]
  · have hkeep : stubSkill skillIds b = b := if_neg h
    rw [hkeep, hkeep]

theorem rewriteAssistantMessage_idem (msg : Json F) :
    rewriteAssistantMessage (rewriteAssistantMessage msg) = rewriteAssistantMessage msg := by
  cases hbs : blocks? msg with
  | none =>
      have hkeep : rewriteAssistantMessage msg = msg := by rw [rewriteAssistantMessage, hbs]
      rw [hkeep, hkeep]
  | some bs =>
      have hset : rewriteAssistantMessage msg = msg.set "content" (.arr (elideReasoning false bs)) := by
        rw [rewriteAssistantMessage, hbs]
      rw [hset, rewriteAssistantMessage, blocks?_set_content hbs]
      dsimp only
      rw [elideReasoning_idem, Json.set_set]

theorem rewriteSkillToolResults_idem (skillIds : List String) (msg : Json F) :
    rewriteSkillToolResults skillIds (rewriteSkillToolResults skillIds msg) =
      rewriteSkillToolResults skillIds msg := by
  cases hbs : blocks? msg with
  | none =>
      have hkeep : rewriteSkillToolResults skillIds msg = msg := by
        rw [rewriteSkillToolResults, mapBlocks, hbs]
      rw [hkeep, hkeep]
  | some bs =>
      have hset : rewriteSkillToolResults skillIds msg =
          msg.set "content" (.arr (bs.map (stubSkill skillIds))) := by
        rw [rewriteSkillToolResults, mapBlocks, hbs]
      rw [hset, rewriteSkillToolResults, mapBlocks, blocks?_set_content hbs]
      dsimp only
      rw [Json.set_set, List.map_map]
      congr 2
      apply List.map_congr_left
      exact fun b _ => stubSkill_idem skillIds b

theorem messageRewrite_idem (rewrite : MessageRewrite) (msg : Json F) :
    rewrite.apply (rewrite.apply msg) = rewrite.apply msg := by
  cases rewrite with
  | keep => rfl
  | rewrite skillIds =>
      have hassistant := isAssistant_messageRewrite (.rewrite skillIds) msg
      by_cases ha : isAssistant msg = true
      · have happly : (MessageRewrite.rewrite skillIds).apply msg = rewriteAssistantMessage msg :=
          if_pos ha
        rw [happly] at hassistant ⊢
        rw [MessageRewrite.apply, if_pos (hassistant.trans ha), rewriteAssistantMessage_idem]
      · by_cases hu : msg.getStr? "role" = some "user"
        · have happly : (MessageRewrite.rewrite skillIds).apply msg =
              rewriteSkillToolResults skillIds msg := by
            rw [MessageRewrite.apply, if_neg ha, if_pos hu]
          have hrole : (rewriteSkillToolResults skillIds msg).getStr? "role" = some "user" := by
            rw [rewriteSkillToolResults, mapBlocks]
            split
            · rw [Json.getStr?_set_ne (by decide), hu]
            · exact hu
          rw [happly] at hassistant ⊢
          rw [MessageRewrite.apply, if_neg (hassistant.trans_ne ha), if_pos hrole,
            rewriteSkillToolResults_idem]
        · have hkeep : (MessageRewrite.rewrite skillIds).apply msg = msg := by
            rw [MessageRewrite.apply, if_neg ha, if_neg hu]
          rw [hkeep, hkeep]

theorem filter_blocks_messageRewrite {p : Json F → Bool}
    (hp : ∀ b, isScratch b = true → p b = false) (rewrite : MessageRewrite) {msg : Json F}
    (h : isAssistant msg = true) : (blocks (rewrite.apply msg)).filter p = (blocks msg).filter p := by
  cases rewrite with
  | keep => rfl
  | rewrite skillIds =>
      rw [MessageRewrite.apply, if_pos h, rewriteAssistantMessage]
      cases hbs : blocks? msg with
      | none => rfl
      | some bs =>
          dsimp only
          rw [blocks, blocks, blocks?_set_content hbs, hbs]
          exact filter_elideReasoning hp false bs

theorem length_applyRewrites (rewrites : Nat → MessageRewrite) (messages : List (Json F)) :
    (applyRewrites rewrites messages).length = messages.length := List.length_mapIdx

theorem getElem?_applyRewrites (rewrites : Nat → MessageRewrite) (messages : List (Json F))
    (i : Nat) : (applyRewrites rewrites messages)[i]? = (messages[i]?).map (rewrites i).apply :=
  List.getElem?_mapIdx

theorem isToolUse_of_isScratch (name : String) {b : Json F} (h : isScratch b = true) :
    isToolUse name b = false := by
  have hmem := of_decide_eq_true h
  rw [isToolUse]
  cases htype : b.getStr? "type" == some "tool_use" with
  | false => rfl
  | true =>
      rw [beq_iff_eq.mp htype] at hmem
      exact absurd hmem (by decide)

theorem findConstraintsAnchor_applyRewrites (rewrites : Nat → MessageRewrite)
    (messages : List (Json F)) :
    findConstraintsAnchor (applyRewrites rewrites messages) = findConstraintsAnchor messages := by
  rw [findConstraintsAnchor, findConstraintsAnchor, length_applyRewrites]
  congr 1
  funext i
  rw [getElem?_applyRewrites]
  cases messages[i]? with
  | none => rfl
  | some msg =>
      rw [Option.map_some, Option.any_some, Option.any_some, isAssistant_messageRewrite]
      cases ha : isAssistant msg with
      | false => rfl
      | true =>
          have hfilter := filter_blocks_messageRewrite (p := isConstraintsView)
            (fun b hb => by rw [isConstraintsView, isToolUse_of_isScratch _ hb, Bool.false_and])
            (rewrites i) ha
          rw [Bool.true_and, Bool.true_and, Bool.eq_iff_iff, List.any_eq_true, List.any_eq_true]
          have hmem : ∀ bs : List (Json F), (∃ b ∈ bs, isConstraintsView b = true) ↔
              bs.filter isConstraintsView ≠ [] := by
            intro bs
            rw [Ne, List.filter_eq_nil_iff]
            simp
          rw [hmem, hmem, hfilter]

def isSkillLoad (b : Json F) : Bool :=
  isToolUse "LoadSkill" b && ((b.get? "input").bind (·.getStr? "skill_name")).any (· ∈ ideateSkillNames)

def skillIdsOf (msg : Json F) : List String :=
  if isAssistant msg then ((blocks msg).filter isSkillLoad).filterMap (·.getStr? "id") else []

theorem collectSkillToolUseIds_eq (messages : List (Json F)) (first : Nat) :
    collectSkillToolUseIds messages first = ((messages.map skillIdsOf).drop first).flatten := by
  rw [collectSkillToolUseIds, ← List.map_drop]
  induction messages.drop first with
  | nil => rfl
  | cons msg messages ih =>
      rw [List.map_cons, List.flatten_cons, ← ih, skillIdsOf]
      cases ha : isAssistant msg with
      | false => simp [ha]
      | true =>
          rw [List.filter_cons_of_pos ha, List.flatMap_cons, if_pos rfl]
          rfl

theorem collectSkillToolUseIds_applyRewrites (rewrites : Nat → MessageRewrite)
    (messages : List (Json F)) (first : Nat) :
    collectSkillToolUseIds (applyRewrites rewrites messages) first =
      collectSkillToolUseIds messages first := by
  rw [collectSkillToolUseIds_eq, collectSkillToolUseIds_eq]
  congr 2
  apply List.ext_getElem?
  intro i
  rw [List.getElem?_map, List.getElem?_map, getElem?_applyRewrites, Option.map_map]
  congr 1
  funext msg
  rw [Function.comp_apply, skillIdsOf, skillIdsOf, isAssistant_messageRewrite]
  cases ha : isAssistant msg with
  | false => rfl
  | true =>
      rw [if_pos rfl, if_pos rfl, filter_blocks_messageRewrite _ (rewrites i) ha]
      intro b hb
      rw [isSkillLoad, isToolUse_of_isScratch _ hb, Bool.false_and]

theorem pruneIdeateContext_idem (messages : List (Json F)) :
    pruneIdeateContext (pruneIdeateContext messages) = pruneIdeateContext messages := by
  have hrewrites : pruneRewrites (pruneIdeateContext messages) = pruneRewrites messages := by
    funext i
    rw [pruneRewrites, pruneRewrites, pruneIdeateContext, findConstraintsAnchor_applyRewrites]
    simp only [collectSkillToolUseIds_applyRewrites]
  rw [pruneIdeateContext, hrewrites]
  apply List.ext_getElem?
  intro i
  rw [getElem?_applyRewrites, pruneIdeateContext, getElem?_applyRewrites, Option.map_map]
  congr 1
  funext msg
  exact messageRewrite_idem (pruneRewrites messages i) msg

/-- What the hook of TreeAddNode holds: nothing while skills are disabled, the
agent's list, or a list that the agent has replaced. The messages from an index
on are not in a replaced list. -/
inductive Hook
  | absent
  | live
  | replaced (shared : Nat)
deriving DecidableEq

inductive HistoryEvent (F : Type)
  | extend (messages : List (Json F))
  | compact (cm : ContextManager F) (summarise : String → Option String) (systemPrompt : String)
  /-- The first recovery from a prompt that is too long. -/
  | shorten
  | summarise (cm : ContextManager F) (summarise : String → Option String)
  /-- TreeAddNode adds a node. What a replaced list shares with the agent's is
  rewritten there too. -/
  | commit (sharing : Nat → MessageRewrite)

structure HookedAgent (F : Type) where
  messages : List (Json F)
  hook : Hook

namespace HookedAgent

def start (skillsEnabled : Bool) : HookedAgent F := ⟨[], if skillsEnabled then .live else .absent⟩

def rebind (a : HookedAgent F) (messages : List (Json F)) : HookedAgent F :=
  ⟨messages, match a.hook with
    | .absent => .absent
    | _ => .replaced messages.length⟩

/-- `maybe_compact` gives back the list it is given only where that fits. -/
def fits (cm : ContextManager F) (systemPrompt : String) (messages : List (Json F)) : Bool :=
  decide (cm.currentTokens systemPrompt messages < cm.threshold)

def commit (a : HookedAgent F) (sharing : Nat → MessageRewrite) : HookedAgent F :=
  match a.hook with
  | .absent => a
  | .live => { a with messages := pruneIdeateContext a.messages }
  | .replaced shared =>
      { a with messages := applyRewrites (fun i => if i < shared then sharing i else .keep) a.messages }

def step (a : HookedAgent F) : HistoryEvent F → HookedAgent F
  | .extend messages => { a with messages := a.messages ++ messages }
  | .compact cm summarise systemPrompt =>
      if fits cm systemPrompt a.messages then a
      else match maybeCompact cm summarise a.messages systemPrompt with
        | none => a
        | some (_, compacted) => a.rebind compacted.messages
  | .shorten => a.rebind (shortenAll a.messages)
  | .summarise cm summarise =>
      if (a.messages.length : Int) ≤ cm.keepRecent then a
      else match summarizeOldMessages cm summarise a.messages with
        | none => a
        | some compacted => a.rebind compacted.messages
  | .commit sharing => a.commit sharing

/-- After a commit the agent's list is the pruned one, with nothing left to prune. -/
def ElidesAt (a : HookedAgent F) (e : HistoryEvent F) : Prop :=
  match e with
  | .commit _ => (a.step e).messages = pruneIdeateContext a.messages ∧
      pruneIdeateContext (a.step e).messages = (a.step e).messages
  | _ => True

/-- The list that the agent was wired with has not been replaced. -/
def HoldsLiveAt (a : HookedAgent F) : HistoryEvent F → Prop
  | .commit _ => a.hook = .live
  | _ => True

theorem HoldsLiveAt.elidesAt {a : HookedAgent F} {e : HistoryEvent F} (h : a.HoldsLiveAt e) :
    a.ElidesAt e := by
  cases e with
  | commit sharing =>
      have hmessages : (a.step (.commit sharing)).messages = pruneIdeateContext a.messages := by
        rw [step, commit, h]
      refine ⟨hmessages, ?_⟩
      rw [hmessages, pruneIdeateContext_idem]
  | _ => trivial

end HookedAgent

def ideateRound : List (Json FloatText) :=
  [message "assistant" (.arr [.obj [("type", .str "tool_use"), ("id", .str "1"),
      ("name", .str "TreeView"), ("input", .obj [("format", .str "constraints")])]]),
    message "user" (.arr [.obj [("type", .str "tool_result"), ("tool_use_id", .str "1"),
      ("content", .str "none")]]),
    message "assistant" (.arr [.obj [("type", .str "text"), ("text", .str "candidates")],
      .obj [("type", .str "tool_use"), ("id", .str "2"), ("name", .str "TreeAddNode"),
        ("input", .obj [])]])]

end DevPilot
