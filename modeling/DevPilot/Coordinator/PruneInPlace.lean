import DevPilot.Coordinator.PruneHook
import DevPilot.Lib.InPlace

/-!
The prune of an IDEATE round as the code makes it, message by message and in
place: the sets of ids raise on a list or a dictionary, and what was rewritten
before that stays.
-/

namespace DevPilot

open PyJson InPlace

variable {F : Type}

def hashable : Json F → Bool
  | .arr _ => false
  | .obj _ => false
  | _ => true

/-- `inp.get("skill_name")` of a LoadSkill call. -/
def skillName? (block : Json F) : Option (Json F) :=
  if isToolUse "LoadSkill" block then (block.get? "input").bind (·.get? "skill_name") else none

/-- `_collect_skill_tool_use_ids` finishes: every skill it looks up is hashable. -/
def collects (messages : List (Json F)) (first : Nat) : Bool :=
  ((messages.drop first).filter isAssistant).all fun msg =>
    ((blocks msg).filterMap skillName?).all hashable

/-- One turn of the loop of `_rewrite_skill_tool_results`. -/
def stubBlock (skillIds : List String) (block : Json F) : Json F × Bool :=
  if block.getStr? "type" = some "tool_result" ∧
      ((block.get? "tool_use_id").all hashable) = false then (block, true)
  else (stubSkill skillIds block, false)

def stubResults (skillIds : List String) (msg : Json F) : Json F × Bool :=
  match blocks? msg with
  | some bs =>
      (msg.set "content" (.arr (sweep (stubBlock skillIds) bs).1), (sweep (stubBlock skillIds) bs).2)
  | none => (msg, false)

/-- One turn of the loop of `prune_ideate_context`. -/
def pruneMessage (skillIds : List String) (msg : Json F) : Json F × Bool :=
  if isAssistant msg then (rewriteAssistantMessage msg, false)
  else if msg.getStr? "role" = some "user" then stubResults skillIds msg
  else (msg, false)

/-- `prune_ideate_context`: the messages it leaves and whether it raised. -/
def pruneInPlace (messages : List (Json F)) : List (Json F) × Bool :=
  match findConstraintsAnchor messages with
  | none => (messages, false)
  | some anchor =>
      if collects messages (anchor + 1) then
        let rest := sweep (pruneMessage (collectSkillToolUseIds messages (anchor + 1)))
          (messages.drop (anchor + 1))
        (messages.take (anchor + 1) ++ rest.1, rest.2)
      else (messages, true)

def toolUse? (block : Json F) : Option (Json F) :=
  if block.getStr? "type" = some "tool_use" then some block else none

/-- The `tool_use_id` of a result, which may be missing. -/
def resultRef? (block : Json F) : Option (Option (Json F)) :=
  if block.getStr? "type" = some "tool_result" then some (block.get? "tool_use_id") else none

/-- The part of a message that calls and results are paired by. -/
structure Skeleton (F : Type) where
  role : Option (Json F)
  toolUses : List (Json F)
  resultIds : List (Option (Json F))

def skeleton (msg : Json F) : Skeleton F where
  role := msg.get? "role"
  toolUses := (blocks msg).filterMap toolUse?
  resultIds := (blocks msg).filterMap resultRef?

theorem skeleton_set_content {msg : Json F} {bs bs' : List (Json F)} (h : blocks? msg = some bs)
    (huses : bs'.filterMap toolUse? = bs.filterMap toolUse?)
    (hresults : bs'.filterMap resultRef? = bs.filterMap resultRef?) :
    skeleton (msg.set "content" (.arr bs')) = skeleton msg := by
  have hnew : blocks (msg.set "content" (.arr bs')) = bs' := by
    rw [blocks, blocks?_set_content h, Option.getD_some]
  have hold : blocks msg = bs := by rw [blocks, h, Option.getD_some]
  rw [skeleton, skeleton, hnew, hold, huses, hresults, Json.get?_set_ne (by decide)]

theorem toolUse?_stubBlock (skillIds : List String) (b : Json F) :
    toolUse? (stubBlock skillIds b).1 = toolUse? b := by
  rw [stubBlock, stubSkill]
  split_ifs with hraise hresult
  · rfl
  · simp [toolUse?, Json.getStr?_set_ne, hresult.1]
  · rfl

theorem resultRef?_stubBlock (skillIds : List String) (b : Json F) :
    resultRef? (stubBlock skillIds b).1 = resultRef? b := by
  rw [stubBlock, stubSkill]
  split_ifs with hraise hresult
  · rfl
  · rw [resultRef?, resultRef?, Json.getStr?_set_ne (by decide), Json.get?_set_ne (by decide)]
  · rfl

theorem skeleton_rewriteAssistantMessage (msg : Json F) :
    skeleton (rewriteAssistantMessage msg) = skeleton msg := by
  rw [rewriteAssistantMessage]
  split
  · rename_i bs hbs
    refine skeleton_set_content hbs (filterMap_elideReasoning (fun b hb => ?_) false bs)
      (filterMap_elideReasoning (fun b hb => ?_) false bs)
    · simp only [List.mem_cons, List.not_mem_nil, or_false] at hb
      rcases hb with hb | hb | hb <;> simp [toolUse?, hb]
    · simp only [List.mem_cons, List.not_mem_nil, or_false] at hb
      rcases hb with hb | hb | hb <;> simp [resultRef?, hb]
  · rfl

theorem skeleton_pruneMessage (skillIds : List String) (msg : Json F) :
    skeleton (pruneMessage skillIds msg).1 = skeleton msg := by
  rw [pruneMessage]
  split_ifs
  · exact skeleton_rewriteAssistantMessage msg
  · rw [stubResults]
    split
    · rename_i bs hbs
      exact skeleton_set_content hbs (filterMap_sweep (toolUse?_stubBlock skillIds) bs)
        (filterMap_sweep (resultRef?_stubBlock skillIds) bs)
    · rfl
  · rfl

theorem skeleton_pruneInPlace (messages : List (Json F)) :
    (pruneInPlace messages).1.map skeleton = messages.map skeleton := by
  unfold pruneInPlace
  split
  · rfl
  · rename_i anchor _
    split_ifs
    · simp only [List.map_append, map_sweep (skeleton_pruneMessage _)]
      rw [← List.map_append, List.take_append_drop]
    · rfl

theorem isAssistant_eq_skeleton (msg : Json F) :
    isAssistant msg = ((skeleton msg).role.bind Json.str? == some "assistant") := rfl

theorem blocks_filter_toolUse {q : Json F → Bool}
    (hq : ∀ b, q b = true → b.getStr? "type" = some "tool_use") (msg : Json F) :
    (blocks msg).filter q = (skeleton msg).toolUses.filter q := by
  rw [skeleton]
  induction blocks msg with
  | nil => rfl
  | cons b bs ih =>
      by_cases hb : b.getStr? "type" = some "tool_use"
      · simp [List.filter_cons, toolUse?, hb, ih]
      · have hqb : q b = false := by
          cases h : q b
          · rfl
          · exact absurd (hq b h) hb
        simp [toolUse?, hb, hqb, ih]

theorem isConstraintsView_toolUse (b : Json F) (h : isConstraintsView b = true) :
    b.getStr? "type" = some "tool_use" := by
  simp only [isConstraintsView, isToolUse, Bool.and_eq_true, beq_iff_eq] at h
  exact h.1.1

def Skeleton.isAssistant (s : Skeleton F) : Bool := s.role.bind Json.str? == some "assistant"

theorem findConstraintsAnchor_skeleton (messages : List (Json F)) :
    findConstraintsAnchor messages =
      (List.range (messages.map skeleton).length).reverse.find? fun i =>
        ((messages.map skeleton)[i]?).any fun s =>
          s.isAssistant && s.toolUses.any isConstraintsView := by
  have hmsg : ∀ msg : Json F, (isAssistant msg && (blocks msg).any isConstraintsView) =
      ((skeleton msg).isAssistant && (skeleton msg).toolUses.any isConstraintsView) := by
    intro msg
    have hfilter := blocks_filter_toolUse isConstraintsView_toolUse msg
    have hany : (blocks msg).any isConstraintsView = (skeleton msg).toolUses.any isConstraintsView := by
      rw [Bool.eq_iff_iff, List.any_eq_true, List.any_eq_true]
      simp only [← List.mem_filter, hfilter]
    rw [isAssistant_eq_skeleton, hany, Skeleton.isAssistant]
  simp only [findConstraintsAnchor, hmsg, List.length_map, List.getElem?_map, Option.any_map]

def Skeleton.skillIds (s : Skeleton F) : List String :=
  (s.toolUses.filter fun b => isToolUse "LoadSkill" b &&
    ((b.get? "input").bind (·.getStr? "skill_name")).any (· ∈ ideateSkillNames)).filterMap
      (·.getStr? "id")

theorem collectSkillToolUseIds_skeleton (messages : List (Json F)) (first : Nat) :
    collectSkillToolUseIds messages first =
      (((messages.map skeleton).drop first).filter (·.isAssistant)).flatMap (·.skillIds) := by
  rw [collectSkillToolUseIds, ← List.map_drop, List.filter_map, List.flatMap_map]
  refine List.flatMap_congr fun msg _ => ?_
  rw [Skeleton.skillIds, blocks_filter_toolUse]
  intro b hb
  simp only [isToolUse, Bool.and_eq_true, beq_iff_eq] at hb
  exact hb.1.1

theorem collects_skeleton (messages : List (Json F)) (first : Nat) :
    collects messages first = (((messages.map skeleton).drop first).filter (·.isAssistant)).all
      fun s => (s.toolUses.filterMap skillName?).all hashable := by
  have hmsg : ∀ msg : Json F,
      (blocks msg).filterMap skillName? = (skeleton msg).toolUses.filterMap skillName? := by
    intro msg
    have hcalls := blocks_filter_toolUse (q := isToolUse "LoadSkill")
      (fun b hb => by
        simp only [isToolUse, Bool.and_eq_true, beq_iff_eq] at hb
        exact hb.1) msg
    have hfilter : ∀ bs : List (Json F), bs.filterMap skillName? =
        (bs.filter (isToolUse "LoadSkill")).filterMap skillName? := by
      intro bs
      rw [List.filterMap_filter]
      refine List.filterMap_congr fun b _ => ?_
      by_cases hb : isToolUse "LoadSkill" b = true
      · rw [if_pos hb]
      · rw [if_neg hb, skillName?, if_neg hb]
    rw [hfilter, hcalls, ← hfilter]
  rw [collects, ← List.map_drop, List.filter_map, List.all_map]
  simp only [hmsg]
  rfl

theorem stubBlock_stubBlock (skillIds : List String) (b : Json F) :
    stubBlock skillIds (stubBlock skillIds b).1 = stubBlock skillIds b := by
  by_cases hraise : b.getStr? "type" = some "tool_result" ∧
      ((b.get? "tool_use_id").all hashable) = false
  · have hb : stubBlock skillIds b = (b, true) := if_pos hraise
    rw [hb, hb]
  · have hb : stubBlock skillIds b = (stubSkill skillIds b, false) := if_neg hraise
    have hagain : ¬((stubSkill skillIds b).getStr? "type" = some "tool_result" ∧
        (((stubSkill skillIds b).get? "tool_use_id").all hashable) = false) := by
      rw [stubSkill]
      split_ifs
      · rwa [Json.getStr?_set_ne (by decide), Json.get?_set_ne (by decide)]
      · exact hraise
    rw [hb, stubBlock, if_neg hagain, stubSkill_idem]

theorem stubResults_stubResults (skillIds : List String) (msg : Json F) :
    stubResults skillIds (stubResults skillIds msg).1 = stubResults skillIds msg := by
  cases hbs : blocks? msg with
  | none =>
      have hmsg : stubResults skillIds msg = (msg, false) := by rw [stubResults, hbs]
      rw [hmsg, hmsg]
  | some bs =>
      have hmsg : stubResults skillIds msg = (msg.set "content"
          (.arr (sweep (stubBlock skillIds) bs).1), (sweep (stubBlock skillIds) bs).2) := by
        rw [stubResults, hbs]
      rw [hmsg, stubResults, blocks?_set_content hbs]
      simp only [sweep_sweep (stubBlock_stubBlock skillIds), Json.set_set]

theorem pruneMessage_pruneMessage (skillIds : List String) (msg : Json F) :
    pruneMessage skillIds (pruneMessage skillIds msg).1 = pruneMessage skillIds msg := by
  have hrole : (pruneMessage skillIds msg).1.get? "role" = msg.get? "role" :=
    congrArg Skeleton.role (skeleton_pruneMessage skillIds msg)
  have hassistant : isAssistant (pruneMessage skillIds msg).1 = isAssistant msg := by
    rw [isAssistant, isAssistant, Json.getStr?, Json.getStr?, hrole]
  have huser : (pruneMessage skillIds msg).1.getStr? "role" = msg.getStr? "role" := by
    rw [Json.getStr?, Json.getStr?, hrole]
  by_cases ha : isAssistant msg = true
  · have hmsg : pruneMessage skillIds msg = (rewriteAssistantMessage msg, false) := if_pos ha
    rw [pruneMessage, hassistant, if_pos ha, hmsg]
    simp only [rewriteAssistantMessage_idem]
  · by_cases hu : msg.getStr? "role" = some "user"
    · have hmsg : pruneMessage skillIds msg = stubResults skillIds msg := by
        rw [pruneMessage, if_neg ha, if_pos hu]
      rw [pruneMessage, hassistant, huser, if_neg ha, if_pos hu, hmsg, stubResults_stubResults]
    · have hmsg : pruneMessage skillIds msg = (msg, false) := by
        rw [pruneMessage, if_neg ha, if_neg hu]
      rw [hmsg, hmsg]

theorem length_pruneInPlace (messages : List (Json F)) :
    (pruneInPlace messages).1.length = messages.length := by
  simpa using congrArg List.length (skeleton_pruneInPlace messages)

theorem pruneInPlace_pruneInPlace (messages : List (Json F)) :
    pruneInPlace (pruneInPlace messages).1 = pruneInPlace messages := by
  have hskeleton := skeleton_pruneInPlace messages
  have hanchor : findConstraintsAnchor (pruneInPlace messages).1 = findConstraintsAnchor messages := by
    rw [findConstraintsAnchor_skeleton, findConstraintsAnchor_skeleton, hskeleton]
  cases ha : findConstraintsAnchor messages with
  | none =>
      have hms : pruneInPlace messages = (messages, false) := by rw [pruneInPlace, ha]
      rw [hms, hms]
  | some anchor =>
      have hcollects : collects (pruneInPlace messages).1 (anchor + 1) =
          collects messages (anchor + 1) := by
        rw [collects_skeleton, collects_skeleton, hskeleton]
      have hids : collectSkillToolUseIds (pruneInPlace messages).1 (anchor + 1) =
          collectSkillToolUseIds messages (anchor + 1) := by
        rw [collectSkillToolUseIds_skeleton, collectSkillToolUseIds_skeleton, hskeleton]
      by_cases hc : collects messages (anchor + 1) = true
      · have hms : pruneInPlace messages = (messages.take (anchor + 1) ++
            (sweep (pruneMessage (collectSkillToolUseIds messages (anchor + 1)))
              (messages.drop (anchor + 1))).1,
            (sweep (pruneMessage (collectSkillToolUseIds messages (anchor + 1)))
              (messages.drop (anchor + 1))).2) := by
          simp only [pruneInPlace, ha, if_pos hc]
        have hlt : anchor < messages.length := by
          have hmem := List.mem_of_find?_eq_some ha
          simpa using hmem
        have hlen : (messages.take (anchor + 1)).length = anchor + 1 :=
          List.length_take_of_le hlt
        rw [pruneInPlace, hanchor, ha]
        simp only [hcollects, hids, if_pos hc]
        rw [hms]
        simp only [List.take_left' hlen, List.drop_left' hlen,
          sweep_sweep (pruneMessage_pruneMessage _)]
      · have hms : pruneInPlace messages = (messages, true) := by
          simp only [pruneInPlace, ha, if_neg hc]
        rw [hms, hms]

theorem getElem?_pruneInPlace (messages : List (Json F)) {i : Nat}
    (hi : ∀ anchor ∈ findConstraintsAnchor messages, i ≤ anchor) :
    (pruneInPlace messages).1[i]? = messages[i]? := by
  unfold pruneInPlace
  split
  · rfl
  · rename_i anchor ha
    split_ifs
    · have hlt : anchor < messages.length := by
        have hmem := List.mem_of_find?_eq_some ha
        simpa using hmem
      have hle := hi anchor ha
      have hlen : (messages.take (anchor + 1)).length = anchor + 1 := List.length_take_of_le hlt
      rw [List.getElem?_append_left (by omega), List.getElem?_take_of_lt (by omega)]
    · rfl

theorem stubBlock_of_not_raised {skillIds : List String} {b : Json F}
    (h : (stubBlock skillIds b).2 = false) : (stubBlock skillIds b).1 = stubSkill skillIds b := by
  rw [stubBlock] at h ⊢
  split_ifs at h ⊢
  rfl

theorem pruneMessage_of_not_raised {skillIds : List String} {msg : Json F}
    (h : (pruneMessage skillIds msg).2 = false) :
    (pruneMessage skillIds msg).1 = (MessageRewrite.rewrite skillIds).apply msg := by
  rw [pruneMessage] at h ⊢
  unfold MessageRewrite.apply
  simp only
  split_ifs at h ⊢
  · rfl
  · rw [stubResults] at h ⊢
    rw [rewriteSkillToolResults, mapBlocks]
    cases hbs : blocks? msg with
    | none => rfl
    | some bs =>
        rw [hbs] at h
        have hblocks := not_raised_iff.mp h
        have hmap : (sweep (stubBlock skillIds) bs).1 = bs.map (stubSkill skillIds) := by
          rw [sweep_of_not_raised hblocks]
          exact List.map_congr_left fun b hb => stubBlock_of_not_raised (hblocks b hb)
        simp only [hmap]
  · rfl

/-- Pruning twice leaves what pruning once does; the roles, the calls and the
ids of the results stay; and so does everything up to the anchor. -/
theorem pruneInPlace_idempotent (messages : List (Json F)) :
    pruneInPlace (pruneInPlace messages).1 = pruneInPlace messages ∧
      (pruneInPlace messages).1.length = messages.length ∧
      (pruneInPlace messages).1.map skeleton = messages.map skeleton ∧
      ∀ i : Nat, (∀ anchor ∈ findConstraintsAnchor messages, i ≤ anchor) →
        (pruneInPlace messages).1[i]? = messages[i]? :=
  ⟨pruneInPlace_pruneInPlace messages, length_pruneInPlace messages, skeleton_pruneInPlace messages,
    fun _ hi => getElem?_pruneInPlace messages hi⟩

end DevPilot
