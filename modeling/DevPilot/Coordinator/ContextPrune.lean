import DevPilot.Core.Context

/-!
Eliding the scratch work of an IDEATE round from the coordinator's history,
in place and without touching the pairing of tool calls and results.
-/

namespace DevPilot

open PyJson CallPairing

variable {F : Type}

def reasoningStub : String := "[IDEATE reasoning elided post-commit]"

def skillStub : String := "[skill body elided post-IDEATE]"

def ideateSkillNames : List String := ["idea_drafting", "first_principles_probe"]

def isToolUse (name : String) (block : Json F) : Bool :=
  block.getStr? "type" == some "tool_use" && block.getStr? "name" == some name

def isConstraintsView (block : Json F) : Bool :=
  isToolUse "TreeView" block &&
    (block.get? "input").bind (·.getStr? "format") == some "constraints"

/-- `_find_constraints_anchor`: the most recent assistant message that calls
TreeView for the constraints. -/
def findConstraintsAnchor (messages : List (Json F)) : Option Nat :=
  (List.range messages.length).reverse.find? fun i =>
    (messages[i]?).any fun msg => isAssistant msg && (blocks msg).any isConstraintsView

def collectSkillToolUseIds (messages : List (Json F)) (first : Nat) : List String :=
  ((messages.drop first).filter isAssistant).flatMap fun msg =>
    ((blocks msg).filter fun b => isToolUse "LoadSkill" b &&
      ((b.get? "input").bind (·.getStr? "skill_name")).any (· ∈ ideateSkillNames)).filterMap
        (·.getStr? "id")

theorem lawfulBEq_optionString : LawfulBEq (Option String) := inferInstance

/-- The blocks of an assistant message without its thinking and with one stub
for its texts, unless a stub was emitted before. -/
def elideReasoning : Bool → List (Json F) → List (Json F)
  | _, [] => []
  | emitted, b :: bs =>
      if b.getStr? "type" ∈ [some "thinking", some "redacted_thinking"] then
        elideReasoning emitted bs
      else if b.getStr? "type" = some "text" then
        if emitted then elideReasoning emitted bs
        else (if b.getStr? "text" = some reasoningStub then b
          else .obj [("type", .str "text"), ("text", .str reasoningStub)]) :: elideReasoning true bs
      else b :: elideReasoning emitted bs

def rewriteAssistantMessage (msg : Json F) : Json F :=
  match blocks? msg with
  | some bs => msg.set "content" (.arr (elideReasoning false bs))
  | none => msg

def stubSkill (skillIds : List String) (block : Json F) : Json F :=
  if block.getStr? "type" = some "tool_result" ∧
      (block.getStr? "tool_use_id").any (· ∈ skillIds) then
    block.set "content" (.str skillStub)
  else block

def rewriteSkillToolResults (skillIds : List String) : Json F → Json F := mapBlocks (stubSkill skillIds)

inductive MessageRewrite
  | keep
  | rewrite (skillIds : List String)

def MessageRewrite.apply (msg : Json F) : MessageRewrite → Json F
  | .keep => msg
  | .rewrite skillIds =>
      if isAssistant msg then rewriteAssistantMessage msg
      else if msg.getStr? "role" = some "user" then rewriteSkillToolResults skillIds msg
      else msg

def applyRewrites (rewrites : Nat → MessageRewrite) (messages : List (Json F)) : List (Json F) :=
  messages.mapIdx fun i msg => (rewrites i).apply msg

/-- The rewrites `prune_ideate_context` makes: everything after the anchor. -/
def pruneRewrites (messages : List (Json F)) (i : Nat) : MessageRewrite :=
  match findConstraintsAnchor messages with
  | none => .keep
  | some anchor =>
      if anchor < i then .rewrite (collectSkillToolUseIds messages (anchor + 1)) else .keep

def pruneIdeateContext (messages : List (Json F)) : List (Json F) :=
  applyRewrites (pruneRewrites messages) messages

theorem filterMap_elideReasoning {β : Type} {q : Json F → Option β}
    (hskip : ∀ b : Json F, b.getStr? "type" ∈ [some "thinking", some "redacted_thinking", some "text"] →
      q b = none) (emitted : Bool) (bs : List (Json F)) :
    (elideReasoning emitted bs).filterMap q = bs.filterMap q := by
  induction bs generalizing emitted with
  | nil => rfl
  | cons b bs ih =>
      rw [elideReasoning]
      split_ifs with hthink htext hemitted hstub
      · have hb : q b = none := hskip b (by
          simp only [List.mem_cons, List.not_mem_nil, or_false] at hthink ⊢
          tauto)
        simpa [hb] using ih emitted
      · have hb : q b = none := hskip b (by simp [htext])
        simpa [hb] using ih emitted
      · simp only [List.filterMap_cons, ih]
      · have hb : q b = none := hskip b (by simp [htext])
        have hstub : q (.obj [("type", .str "text"), ("text", .str reasoningStub)]) = none :=
          hskip _ (by simp [Json.getStr?, Json.get?])
        simp [hb, hstub, ih]
      · simp only [List.filterMap_cons, ih]

theorem callIds_elideReasoning (emitted : Bool) (bs : List (Json F)) :
    (elideReasoning emitted bs).filterMap callId? = bs.filterMap callId? := by
  refine filterMap_elideReasoning (fun b hb => ?_) emitted bs
  simp only [List.mem_cons, List.not_mem_nil, or_false] at hb
  rcases hb with hb | hb | hb <;> simp [callId?, hb]

theorem keepsCalls_stubSkill (skillIds : List String) :
    KeepsCalls (stubSkill skillIds : Json F → Json F) := by
  intro b
  rw [stubSkill]
  split_ifs
  · exact keepsCalls_set (by decide) _ _
  · exact ⟨rfl, fun _ => rfl⟩

@[simp] theorem isAssistant_messageRewrite (rewrite : MessageRewrite) (msg : Json F) :
    isAssistant (rewrite.apply msg) = isAssistant msg := by
  have hset : ∀ f : Json F → Json F, isAssistant (mapBlocks f msg) = isAssistant msg := by
    intro f
    rw [mapBlocks]
    split
    · exact isAssistant_set_content _ _
    · rfl
  cases rewrite with
  | keep => rfl
  | rewrite skillIds =>
      unfold MessageRewrite.apply rewriteAssistantMessage
      simp only
      split_ifs
      · split
        · exact isAssistant_set_content _ _
        · rfl
      · exact hset _
      · rfl

theorem turns_messageRewrite (b : Bool) (rewrite : MessageRewrite) (msg : Json F) :
    turns b (rewrite.apply msg) = turns b msg := by
  cases rewrite with
  | keep => rfl
  | rewrite skillIds =>
      unfold MessageRewrite.apply
      simp only
      split_ifs with ha
      · rw [rewriteAssistantMessage]
        split
        · rename_i bs hbs
          rw [turns_of_isAssistant ha, turns_of_isAssistant (by rwa [isAssistant_set_content]),
            callIds_set_content hbs, callIds_elideReasoning, callIds, blocks, hbs]
          rfl
        · rfl
      · exact turns_mapBlocks (keepsCalls_stubSkill skillIds) b msg
      · rfl

theorem turns_applyRewrites (b : Bool) (rewrites : Nat → MessageRewrite) (messages : List (Json F)) :
    (applyRewrites rewrites messages).map (turns b) = messages.map (turns b) := by
  refine List.ext_getElem (by simp [applyRewrites]) fun i h₁ h₂ => ?_
  simp [applyRewrites, turns_messageRewrite]

theorem pruneIdeateContext_wellFormed_iff (b : Bool) (messages : List (Json F)) :
    WellFormed b (pruneIdeateContext messages) ↔ WellFormed b messages :=
  wellFormed_congr (turns_applyRewrites b _ messages)

end DevPilot
