import DevPilot.Coordinator.PruneInPlace

/-!
Which assistant messages the prune of an IDEATE round leaves without any block.
-/

namespace DevPilot

open PyJson InPlace

variable {F : Type}

attribute [local instance] lawfulBEq_optionString

def isThinking (block : Json F) : Bool :=
  block.getStr? "type" ∈ [some "thinking", some "redacted_thinking"]

def ThinkingOnly (msg : Json F) : Prop :=
  isAssistant msg ∧ blocks msg ≠ [] ∧ ∀ b ∈ blocks msg, isThinking b

/-- The prune raises at the message: a result names its call by a list or a dictionary. -/
def stopsPrune (msg : Json F) : Bool :=
  !isAssistant msg && msg.getStr? "role" == some "user" &&
    (blocks msg).any fun b =>
      b.getStr? "type" == some "tool_result" && !(b.get? "tool_use_id").all hashable

def prunedMessages (messages : List (Json F)) : List (Json F) :=
  match findConstraintsAnchor messages with
  | none => []
  | some anchor =>
      if collects messages (anchor + 1) then (messages.drop (anchor + 1)).takeWhile (!stopsPrune ·)
      else []

def StaysFilled (msg left : Json F) : Prop := isAssistant msg → blocks msg ≠ [] → blocks left ≠ []

def NoneEmptied (messages pruned : List (Json F)) : Prop :=
  ∀ p ∈ messages.zip pruned, StaysFilled p.1 p.2

theorem elideReasoning_eq_nil_iff {bs : List (Json F)} :
    elideReasoning false bs = [] ↔ ∀ b ∈ bs, isThinking b := by
  induction bs with
  | nil => simp [elideReasoning]
  | cons b bs ih =>
      rw [elideReasoning, List.forall_mem_cons]
      by_cases hthink : b.getStr? "type" ∈ [some "thinking", some "redacted_thinking"]
      · rw [if_pos hthink, ih]
        simp [isThinking, hthink]
      · have hb : isThinking b = false := by simpa [isThinking] using hthink
        rw [if_neg hthink, hb]
        by_cases htext : b.getStr? "type" = some "text"
        · rw [if_pos htext, if_neg Bool.false_ne_true]
          simp
        · rw [if_neg htext]
          simp

theorem blocks_rewriteAssistantMessage (msg : Json F) :
    blocks (rewriteAssistantMessage msg) = elideReasoning false (blocks msg) := by
  rw [rewriteAssistantMessage]
  cases hbs : blocks? msg with
  | none => simp [blocks, hbs, elideReasoning]
  | some bs =>
      dsimp only
      rw [blocks, blocks?_set_content hbs, blocks, hbs]
      rfl

theorem pruneMessage_of_isAssistant {skillIds : List String} {msg : Json F}
    (h : isAssistant msg = true) : pruneMessage skillIds msg = (rewriteAssistantMessage msg, false) :=
  if_pos h

theorem raised_stubResults (skillIds : List String) (msg : Json F) :
    (stubResults skillIds msg).2 = (blocks msg).any fun b =>
      b.getStr? "type" == some "tool_result" && !(b.get? "tool_use_id").all hashable := by
  rw [stubResults]
  cases hbs : blocks? msg with
  | none => simp [blocks, hbs]
  | some bs =>
      rw [blocks, hbs, Option.getD_some]
      dsimp only
      rw [Bool.eq_iff_iff, ← not_iff_not, Bool.not_eq_true, not_raised_iff, List.any_eq_true]
      constructor
      · rintro h ⟨b, hb, hstops⟩
        have hraise := h b hb
        simp only [Bool.and_eq_true, beq_iff_eq, Bool.not_eq_true'] at hstops
        rw [stubBlock, if_pos hstops] at hraise
        cases hraise
      · intro h b hb
        rw [stubBlock]
        split_ifs with hstops
        · exact absurd ⟨b, hb, by simp [hstops.1, hstops.2]⟩ h
        · rfl

theorem raised_pruneMessage (skillIds : List String) (msg : Json F) :
    (pruneMessage skillIds msg).2 = stopsPrune msg := by
  rw [pruneMessage, stopsPrune]
  by_cases ha : isAssistant msg = true
  · rw [if_pos ha, ha]
    rfl
  · rw [if_neg ha, Bool.eq_false_iff.mpr ha]
    by_cases hu : msg.getStr? "role" = some "user"
    · rw [if_pos hu, raised_stubResults]
      simp [hu]
    · rw [if_neg hu, beq_eq_false_iff_ne.mpr hu]
      rfl

theorem StaysFilled.refl (msg : Json F) : StaysFilled msg msg := fun _ hne => hne

theorem noneEmptied_self (messages : List (Json F)) : NoneEmptied messages messages :=
  forall_zip_self StaysFilled.refl messages

/-- The prune leaves every assistant message a block that had one, where none of those
it gets to is made of thinking alone. -/
theorem noneEmptied_iff (messages : List (Json F)) :
    NoneEmptied messages (pruneInPlace messages).1 ↔
      ∀ msg ∈ prunedMessages messages, ¬ThinkingOnly msg := by
  rw [pruneInPlace, prunedMessages]
  cases findConstraintsAnchor messages with
  | none => simp [noneEmptied_self]
  | some anchor =>
      dsimp only
      split_ifs with hcollects
      · rw [NoneEmptied]
        nth_rewrite 1 [← List.take_append_drop (anchor + 1) messages]
        rw [List.zip_append rfl]
        simp only [List.mem_append, or_imp, forall_and]
        rw [and_iff_right (forall_zip_self StaysFilled.refl _), forall_zip_sweep StaysFilled.refl]
        · simp only [raised_pruneMessage]
          refine forall₂_congr fun msg _ => ?_
          constructor
          · rintro h ⟨ha, hne, hthink⟩
            have hleft := h ha hne
            rw [pruneMessage_of_isAssistant ha, blocks_rewriteAssistantMessage] at hleft
            exact hleft (elideReasoning_eq_nil_iff.mpr hthink)
          · intro h ha hne hempty
            rw [pruneMessage_of_isAssistant ha, blocks_rewriteAssistantMessage] at hempty
            exact h ⟨ha, hne, elideReasoning_eq_nil_iff.mp hempty⟩
        · intro msg hraised ha
          rw [pruneMessage_of_isAssistant ha] at hraised
          cases hraised
      · simp [noneEmptied_self]

def thoughtfulRound : List (Json Nat) :=
  [.obj [("role", .str "assistant"), ("content", .arr [.obj [("type", .str "tool_use"),
      ("id", .str "t1"), ("name", .str "TreeView"),
      ("input", .obj [("format", .str "constraints")])]])],
    .obj [("role", .str "assistant"), ("content", .arr [.obj [("type", .str "thinking"),
      ("thinking", .str "a")]])]]

theorem thoughtfulRound_emptied :
    ¬NoneEmptied thoughtfulRound (pruneInPlace thoughtfulRound).1 := by
  intro h
  have hmem : (thoughtfulRound[1], rewriteAssistantMessage thoughtfulRound[1]) ∈
      thoughtfulRound.zip (pruneInPlace thoughtfulRound).1 := List.mem_of_getElem? (i := 1) rfl
  exact h _ hmem rfl nofun rfl

end DevPilot
