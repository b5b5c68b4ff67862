import DevPilot.Core.Context

/-!
When compaction keeps tool calls and their results together. The first three
layers always do; a cut does exactly when it does not fall between a call and
its results.
-/

namespace DevPilot

open PyJson CallPairing Pending Slices

variable {F : Type}

/-- The turns left by the summariser, message by message. It cuts at the middle
when it fails and before the `keepRecent` most recent messages otherwise. -/
def summarizedTurns (b : Bool) (keepRecent : Int) (failed : Bool) (ts : List Turns) : List Turns :=
  if (ts.length : Int) ≤ keepRecent then ts
  else if failed then ts.drop (ts.length / 2)
  else note b :: [.asks []] :: startingAt ts (-keepRecent)

/-- The cut of the summariser does not leave results behind whose call it
dropped. -/
def CleanSummary (keepRecent : Int) (failed : Bool) (ts : List Turns) : Prop :=
  (ts.length : Int) ≤ keepRecent ∨
    answersTo (if failed then ts.drop (ts.length / 2) else startingAt ts (-keepRecent)).flatten = []

/-- The emergency truncation keeps two messages and a suffix that fit
together: the results at the start of the suffix are those the two messages
wait for, and a suffix that reaches back to the summary follows a clean cut. -/
def CleanTruncation (b : Bool) (keepRecent : Int) (failed : Bool) (ts : List Turns) : Prop :=
  let kept := summarizedTurns b keepRecent failed ts
  let head := (upTo kept 2).flatten
  start.Orderly head ∧
    Answered (pending head).calls
      ((pending head).answered ++ answersTo (startingAt kept (-(keepRecent / 2))).flatten) ∧
    (failed = false → bound kept.length (-(keepRecent / 2)) < 2 → CleanSummary keepRecent failed ts)

instance (keepRecent : Int) (failed : Bool) (ts : List Turns) :
    Decidable (CleanSummary keepRecent failed ts) := inferInstanceAs (Decidable (_ ∨ _))

theorem paired_drop {ts : List Turns} (h : Paired ts.flatten) (k : Nat) :
    Paired (ts.drop k).flatten :=
  have hsplit : Paired ((ts.take k).flatten ++ (ts.drop k).flatten) := by
    rwa [← List.flatten_append, List.take_append_drop]
  paired_of_append hsplit

theorem pairWF_drop_iff {ts : List Turns} (h : PairWF ts.flatten) (k : Nat) :
    PairWF (ts.drop k).flatten ↔ answersTo (ts.drop k).flatten = [] :=
  have hsplit : PairWF ((ts.take k).flatten ++ (ts.drop k).flatten) := by
    rwa [← List.flatten_append, List.take_append_drop]
  pairWF_suffix_iff hsplit

theorem pairWF_summary_iff (b : Bool) (ts : Turns) :
    PairWF (note b ++ ([Turn.asks []] ++ ts)) ↔ PairWF ts := by
  have h : PairWF ([Turn.asks []] ++ ts) ↔ PairWF ts :=
    ⟨fun hp => hp.2, fun hp => ⟨answered_nil_iff.mpr rfl, hp⟩⟩
  cases b with
  | false => exact h
  | true => exact Iff.trans ⟨fun hp => hp.2, fun hp => ⟨answered_nil_iff.mpr rfl, hp⟩⟩ h

theorem summarizedTurns_pairWF_iff {ts : List Turns} (h : PairWF ts.flatten) (b : Bool)
    (keepRecent : Int) (failed : Bool) :
    PairWF (summarizedTurns b keepRecent failed ts).flatten ↔ CleanSummary keepRecent failed ts := by
  unfold summarizedTurns CleanSummary
  by_cases hlen : (ts.length : Int) ≤ keepRecent
  · simp only [hlen, if_true, true_or, h]
  · simp only [hlen, if_false, false_or]
    cases failed with
    | true => exact pairWF_drop_iff h _
    | false =>
        rw [if_neg Bool.false_ne_true, if_neg Bool.false_ne_true, List.flatten_cons,
          List.flatten_cons]
        exact (pairWF_summary_iff b _).trans (pairWF_drop_iff h _)

theorem summarizedTurns_suffix_paired_iff {ts : List Turns} (h : PairWF ts.flatten) (b : Bool)
    (keepRecent : Int) (failed : Bool) (k : Nat) :
    Paired ((summarizedTurns b keepRecent failed ts).drop k).flatten ↔
      (failed = false → k < 2 → CleanSummary keepRecent failed ts) := by
  by_cases hlen : (ts.length : Int) ≤ keepRecent
  · have hclean : CleanSummary keepRecent failed ts := .inl hlen
    simp only [summarizedTurns, if_pos hlen, paired_drop h.2 k, hclean, implies_true]
  · cases failed with
    | true =>
        simp only [summarizedTurns, if_neg hlen, if_true, Bool.true_eq_false, false_implies, iff_true]
        exact paired_drop (paired_drop h.2 _) _
    | false =>
        have hkept : summarizedTurns b keepRecent false ts =
            note b :: [.asks []] :: startingAt ts (-keepRecent) := by
          simp [summarizedTurns, if_neg hlen]
        have hsum : CleanSummary keepRecent false ts ↔
            Answered [] (answersTo (startingAt ts (-keepRecent)).flatten) := by
          simp [CleanSummary, hlen, answered_nil_iff]
        rw [hkept, hsum]
        have hp : Paired (startingAt ts (-keepRecent)).flatten := paired_drop h.2 _
        cases k with
        | zero => cases b <;> simp [note, Paired, hp, answersTo, answered_nil_iff]
        | succ k =>
            cases k with
            | zero => simp [Paired, hp]
            | succ k => simpa using paired_drop hp k

theorem emergency_pairWF_iff {ts : List Turns} (h : PairWF ts.flatten) (b : Bool) (keepRecent : Int)
    (failed : Bool) :
    PairWF (upTo (summarizedTurns b keepRecent failed ts) 2 ++
        startingAt (summarizedTurns b keepRecent failed ts) (-(keepRecent / 2))).flatten ↔
      CleanTruncation b keepRecent failed ts := by
  rw [List.flatten_append, pairWF_append_iff, CleanTruncation, startingAt,
    summarizedTurns_suffix_paired_iff h b keepRecent failed]

theorem turns_shortenResults (b : Bool) (cm : ContextManager F) (fits : List (Json F) → Bool)
    (messages : List (Json F)) :
    (shortenResults cm fits messages).map (turns b) = messages.map (turns b) := by
  rw [shortenResults]
  simp only
  split_ifs <;>
    simp only [turns_truncateLongToolResults, turns_snipOldToolResults, turns_dropRedundantReads]

def summaryFails (cm : ContextManager F) (summarise : String → Option String)
    (messages : List (Json F)) : Bool :=
  ((formatMessagesForSummary cm (upTo messages (-cm.keepRecent))).bind
    (summarise <| fitTranscript cm ·)).isNone

theorem turns_summarizeOldMessages (b : Bool) {cm : ContextManager F}
    {summarise : String → Option String} {messages : List (Json F)} {c : Compacted F}
    (h : summarizeOldMessages cm summarise messages = some c) :
    c.messages.map (turns b) =
      summarizedTurns b cm.keepRecent (summaryFails cm summarise messages) (messages.map (turns b)) := by
  rw [summarizeOldMessages] at h
  rw [summarizedTurns, List.length_map]
  split_ifs at h ⊢ with hlen hfail
  · exact Option.some.inj h ▸ rfl
  · obtain ⟨transcript, ht, rfl⟩ := Option.map_eq_some_iff.mp h
    simp only [summaryFails, ht, Option.bind_some, Option.isNone_iff_eq_none] at hfail
    simp only [hfail, List.map_drop]
  · obtain ⟨transcript, ht, rfl⟩ := Option.map_eq_some_iff.mp h
    simp only [summaryFails, ht, Option.bind_some, Option.isNone_iff_eq_none] at hfail
    obtain ⟨summary, hs⟩ := Option.ne_none_iff_exists'.mp hfail
    simp only [hs, List.map_cons, map_startingAt]
    rfl

theorem summarizeOldMessages_wellFormed_iff {b : Bool} {cm : ContextManager F}
    {summarise : String → Option String} {messages : List (Json F)} {c : Compacted F}
    (hm : WellFormed b messages) (h : summarizeOldMessages cm summarise messages = some c) :
    WellFormed b c.messages ↔
      CleanSummary cm.keepRecent (summaryFails cm summarise messages) (messages.map (turns b)) := by
  rw [WellFormed, List.flatMap_def] at hm ⊢
  rw [turns_summarizeOldMessages b h, summarizedTurns_pairWF_iff hm]

theorem summarizeOldMessages_requests {cm : ContextManager F} {summarise : String → Option String}
    {messages : List (Json F)} {c : Compacted F} (h : summarizeOldMessages cm summarise messages = some c) :
    ∀ request ∈ c.requests, ∃ text, request = [userText text] := by
  rw [summarizeOldMessages] at h
  split_ifs at h
  · exact Option.some.inj h ▸ by simp
  · obtain ⟨transcript, -, rfl⟩ := Option.map_eq_some_iff.mp h
    simp only
    split <;> exact fun request hr => ⟨_, List.mem_singleton.mp hr⟩

/-- The cuts that compacting a history makes, if any, are clean. -/
def CompactsCleanly (b : Bool) (cm : ContextManager F) (summarise : String → Option String)
    (messages : List (Json F)) (systemPrompt : String) : Prop :=
  let fits := fun messages => decide (cm.currentTokens systemPrompt messages < cm.threshold)
  let shortened := shortenResults cm fits messages
  let failed := summaryFails cm summarise shortened
  fits shortened = false → ∀ c ∈ summarizeOldMessages cm summarise shortened,
    if fits c.messages then CleanSummary cm.keepRecent failed (messages.map (turns b))
    else CleanTruncation b cm.keepRecent failed (messages.map (turns b))

theorem compactsCleanly_of_fits {b : Bool} {cm : ContextManager F} (summarise : String → Option String)
    {messages : List (Json F)} {systemPrompt : String}
    (h : cm.currentTokens systemPrompt messages < cm.threshold) :
    CompactsCleanly b cm summarise messages systemPrompt := by
  intro hfits
  simp [shortenResults, h] at hfits

theorem maybeCompact_of_fits {cm : ContextManager F} (summarise : String → Option String)
    {messages : List (Json F)} {systemPrompt : String}
    (h : cm.currentTokens systemPrompt messages < cm.threshold) :
    maybeCompact cm summarise messages systemPrompt = some (cm, ⟨messages, []⟩) := by
  simp [maybeCompact, shortenResults, h]

theorem maybeCompact_wellFormed_iff {b : Bool} {cm cm' : ContextManager F}
    {summarise : String → Option String} {messages : List (Json F)} {systemPrompt : String}
    {c : Compacted F} (hm : WellFormed b messages)
    (h : maybeCompact cm summarise messages systemPrompt = some (cm', c)) :
    WellFormed b c.messages ↔ CompactsCleanly b cm summarise messages systemPrompt := by
  have hts := hm
  rw [WellFormed, List.flatMap_def] at hts
  rw [maybeCompact] at h
  rw [CompactsCleanly]
  simp only at h ⊢
  split_ifs at h with hfits
  · simp only [Option.some.injEq, Prod.mk.injEq] at h
    obtain ⟨-, rfl⟩ := h
    simp only [(wellFormed_congr (turns_shortenResults b _ _ _)).mpr hm, hfits, Bool.true_eq_false,
      false_implies]
  · obtain ⟨d, hd, he⟩ := Option.map_eq_some_iff.mp h
    simp only [Prod.mk.injEq] at he
    obtain ⟨-, rfl⟩ := he
    have hturns := turns_summarizeOldMessages b hd
    rw [turns_shortenResults] at hturns
    simp only [Bool.not_eq_true] at hfits
    simp only [hfits, hd, Option.mem_def, Option.some.injEq, forall_eq', true_implies]
    split_ifs
    · rw [WellFormed, List.flatMap_def, hturns, summarizedTurns_pairWF_iff hts]
    · rw [WellFormed, List.flatMap_def, emergencyTruncate, List.map_append, map_upTo, map_startingAt,
        hturns, emergency_pairWF_iff hts]

theorem maybeCompact_requests {cm cm' : ContextManager F} {summarise : String → Option String}
    {messages : List (Json F)} {systemPrompt : String} {c : Compacted F}
    (h : maybeCompact cm summarise messages systemPrompt = some (cm', c)) :
    ∀ request ∈ c.requests, ∃ text, request = [userText text] := by
  rw [maybeCompact] at h
  simp only at h
  split_ifs at h
  · simp only [Option.some.injEq, Prod.mk.injEq] at h
    exact h.2 ▸ by simp
  · obtain ⟨d, hd, he⟩ := Option.map_eq_some_iff.mp h
    simp only [Prod.mk.injEq] at he
    obtain ⟨-, rfl⟩ := he
    exact fun request hr => summarizeOldMessages_requests hd request hr

/-- The results at the start of the suffix that the emergency truncation keeps
are those the first two messages wait for. -/
def TruncatesCleanly (keepRecent : Int) (messages : List (Json F)) : Prop :=
  let head := pending ((upTo messages 2).flatMap (turns false))
  Answered head.calls
    (head.answered ++ answersTo ((startingAt messages (-(keepRecent / 2))).flatMap (turns false)))

instance (keepRecent : Int) (messages : List (Json F)) :
    Decidable (TruncatesCleanly keepRecent messages) := inferInstanceAs (Decidable (Answered _ _))

theorem emergencyTruncate_pairWellFormed_iff {messages : List (Json F)} (hm : PairWellFormed messages)
    (keepRecent : Int) :
    PairWellFormed (emergencyTruncate keepRecent messages) ↔ TruncatesCleanly keepRecent messages := by
  have hsplit : ∀ k, PairWF ((messages.take k).flatMap (turns false) ++
      (messages.drop k).flatMap (turns false)) := by
    intro k
    rw [← List.flatMap_append, List.take_append_drop]
    exact hm
  rw [PairWellFormed, WellFormed, emergencyTruncate, List.flatMap_append]
  exact pairWF_omit_iff (hsplit _) (hsplit _).2

/-- Compaction and emergency truncation keep a history well formed exactly when
no cut they make falls between a call and its results. -/
theorem compaction_keepsPairs_iff (cm : ContextManager F) (summarise : String → Option String)
    (systemPrompt : String) {messages : List (Json F)} (hm : PairWellFormed messages) :
    (∀ cm' c, maybeCompact cm summarise messages systemPrompt = some (cm', c) →
      (PairWellFormed c.messages ↔ CompactsCleanly false cm summarise messages systemPrompt)) ∧
    (PairWellFormed (emergencyTruncate cm.keepRecent messages) ↔
      TruncatesCleanly cm.keepRecent messages) :=
  ⟨fun _ _ h => maybeCompact_wellFormed_iff hm h, emergencyTruncate_pairWellFormed_iff hm _⟩

def readTurn (id : String) : List (Json FloatText) :=
  [message "assistant" (.arr [.obj [("type", .str "tool_use"), ("id", .str id),
      ("name", .str "Read"), ("input", .obj [("file_path", .str "a.py")])]]),
    message "user" (.arr [.obj [("type", .str "tool_result"), ("tool_use_id", .str id),
      ("content", .str "print()")]])]

def twoReads : List (Json FloatText) := userText "go" :: (readTurn "c1" ++ readTurn "c2")

def charCounter (threshold keepRecent : Int) : ContextManager FloatText where
  fmt := literalFormat
  countTokens := String.length
  contextWindow := 200
  threshold := threshold
  keepRecent := keepRecent
  scaleLength n maxTokens tokens := n * maxTokens / tokens
  compactCount := 0

theorem compaction_keepsPairs_iff_twoReads :
    (∀ cm' c, maybeCompact (charCounter 10 2) (fun _ => some "fixed it") twoReads "" = some (cm', c) →
      (PairWellFormed c.messages ↔
        CompactsCleanly false (charCounter 10 2) (fun _ => some "fixed it") twoReads "")) ∧
    (PairWellFormed (emergencyTruncate 2 twoReads) ↔ TruncatesCleanly 2 twoReads) :=
  compaction_keepsPairs_iff (charCounter 10 2) (fun _ => some "fixed it") "" (by decide)

theorem compaction_splits_pair :
    ¬ ∀ (cm cm' : ContextManager FloatText) (summarise : String → Option String)
        (messages : List (Json FloatText)) (systemPrompt : String) (c : Compacted FloatText),
      PairWellFormed messages → maybeCompact cm summarise messages systemPrompt = some (cm', c) →
      PairWellFormed c.messages := by
  intro h
  have hcut : ((maybeCompact (charCounter 46 3) (fun _ => none) twoReads "").any fun c =>
      decide (¬ PairWellFormed c.2.messages)) = true := by decide
  obtain ⟨⟨cm', c⟩, hc, hbad⟩ := (Option.any_eq_true _ _).mp hcut
  exact of_decide_eq_true hbad (h _ _ _ _ _ _ (by decide) hc)

end DevPilot
