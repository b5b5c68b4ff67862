import DevPilot.Streaming.Flushes

/-!
The checkpoints of a segment: a text that is not persisted has one to come.
-/

namespace DevPilot.Streaming

open OrderedMaps Runs

variable {Value : Type}

namespace Segment

variable {config : Config} {enabled : Bool} {s s' : Segment Value} {now : ℤ}

/-- A checkpoint of the text is to come, or a commit of it, as new as its last delta. -/
def Covered (s : Segment Value) : Prop :=
  s.durableCheckpointTimer = true ∨ s.pendingDurableCommit.isSome ∨
    ∃ c ∈ s.committing, c.ended = false ∧ s.deltaVersion ≤ c.version

instance (s : Segment Value) : Decidable s.Covered := inferInstanceAs (Decidable (_ ∨ _ ∨ _))

/-- As `Covered`, with the newest text. -/
def Current (s : Segment Value) : Prop :=
  s.durableCheckpointTimer = true ∨ s.pendingDurableCommit.isSome ∨
    ∃ c ∈ s.committing, c.ended = false ∧ c.version = s.textVersion

theorem Current.ite {a b : Segment Value} {p : Prop} [Decidable p] (ha : a.Current) (hb : b.Current) :
    (if p then a else b).Current := by
  split_ifs
  · exact ha
  · exact hb

structure Versioned (s : Segment Value) : Prop where
  older : ∀ c ∈ s.committing, c.version ≤ s.textVersion ∧
    (c.version = s.textVersion → c.text = s.accumulatedText)
  delta : s.deltaVersion ≤ s.textVersion
  restored : s.exempt = false → s.accumulatedText = s.lastDurableText →
    ∀ c ∈ s.committing, c.ended = false → c.text = s.accumulatedText

structure Tracked (enabled : Bool) (s : Segment Value) : Prop where
  versioned : s.Versioned
  disabled : enabled = false → s.committing = none
  current : enabled = true → s.exempt = false → s.accumulatedText ≠ s.lastDurableText → s.Current

theorem Tracked.covered (h : s.Tracked true) (hexempt : s.exempt = false)
    (hdirty : s.accumulatedText ≠ s.lastDurableText) : s.Covered := by
  rcases h.current rfl hexempt hdirty with htimer | hpending | ⟨c, hc, hended, hversion⟩
  · exact .inl htimer
  · exact .inr (.inl hpending)
  · exact .inr (.inr ⟨c, hc, hended, by rw [hversion]; exact h.versioned.delta⟩)

theorem LiveStep.versioned (hlive : LiveStep s s') (h : s.Versioned) : s'.Versioned := by
  obtain ⟨_, _, _, _, _, _⟩ := hlive
  exact ⟨h.older, h.delta, h.restored⟩

theorem current_of_issued (s : Segment Value) (now : ℤ) (state : SegmentState) (reason : Option String) :
    (s.commitStreamedTranscriptSegmentSnapshot now state reason).Current := by
  rw [commitStreamedTranscriptSegmentSnapshot]
  split_ifs
  · exact .inr (.inl rfl)
  · exact .inr (.inr ⟨_, rfl, rfl, rfl⟩)

theorem Versioned.commit (h : s.Versioned) (now : ℤ) (state : SegmentState) (reason : Option String) :
    (s.commitStreamedTranscriptSegmentSnapshot now state reason).Versioned := by
  rw [commitStreamedTranscriptSegmentSnapshot]
  split_ifs
  · exact ⟨h.older, h.delta, h.restored⟩
  · refine ⟨?_, h.delta, ?_⟩
    · rintro c ⟨⟩
      exact ⟨le_rfl, fun _ => rfl⟩
    · rintro - - c ⟨⟩ -
      rfl

theorem CheckpointStep.versioned (hstep : CheckpointStep s now s') (h : s.Versioned) : s'.Versioned := by
  cases hstep with
  | timer armed => exact ⟨h.older, h.delta, h.restored⟩
  | commit =>
      have hclear : s.clearDurableCheckpointTimer.Versioned := ⟨h.older, h.delta, h.restored⟩
      exact hclear.commit now .streaming none

theorem CheckpointStep.frame (hstep : CheckpointStep s now s') :
    s'.exempt = s.exempt ∧ s'.accumulatedText = s.accumulatedText ∧ s'.lastDurableText = s.lastDurableText := by
  cases hstep with
  | timer armed => exact ⟨rfl, rfl, rfl⟩
  | commit =>
      rw [commitStreamedTranscriptSegmentSnapshot]
      split_ifs <;> exact ⟨rfl, rfl, rfl⟩

theorem current_commitDurableSnapshot (s : Segment Value) (now : ℤ) (state : SegmentState) (reason : Option String)
    (force : Bool) : (s.commitDurableSnapshot true now state reason force).Current := by
  simp only [commitDurableSnapshot, Bool.not_true, Bool.false_and, Bool.false_eq_true, if_false]
  exact current_of_issued _ now state reason

theorem current_commitScheduledDurableSnapshot (hdirty : s.hasDirtyDurableText = true) (now : ℤ) :
    (s.commitScheduledDurableSnapshot true now true).Current := by
  simp only [commitScheduledDurableSnapshot, hdirty, Bool.not_true, Bool.false_eq_true, if_false]
  exact current_commitDurableSnapshot s now .streaming none false

theorem current_scheduleDurableCheckpoint (hdirty : s.hasDirtyDurableText = true) (config : Config) (now : ℤ) :
    (s.scheduleDurableCheckpoint config true now true).Current := by
  simp only [scheduleDurableCheckpoint, hdirty, Bool.not_true, Bool.false_eq_true, if_false]
  by_cases harmed : s.durableCheckpointTimer = true
  · rw [if_pos harmed]
    exact .inl harmed
  · rw [if_neg harmed]
    exact .ite (current_commitScheduledDurableSnapshot hdirty now) (.inl rfl)

theorem current_maybeCommit (hdirty : s.hasDirtyDurableText = true) (config : Config) (now : ℤ)
    (hleft : s.leftUncovered config = false) :
    (s.maybeCommitDurableStreamingSnapshot config true now true).Current := by
  have hcommit := current_commitDurableSnapshot s now .streaming none false
  have hschedule := current_scheduleDurableCheckpoint hdirty config now
  simp only [leftUncovered, Bool.or_eq_false_iff] at hleft
  simp only [maybeCommitDurableStreamingSnapshot, hdirty, Bool.not_true, Bool.false_eq_true, if_false]
  by_cases hfirst : s.didWriteDurable = true
  · simp only [hfirst, Bool.not_true, Bool.false_eq_true, if_false]
    exact .ite (.ite hcommit hschedule) (.ite hcommit hschedule)
  · have hfirst' : s.didWriteDurable = false := by simpa using hfirst
    simp only [hfirst', Bool.not_false, if_true]
    cases hephemeral : config.ephemeral with
    | true => exact hschedule
    | false =>
        -- without live snapshots, only a first commit under way keeps the text from being committed
        have hgo : (!s.isCommittingDurable || (decide (config.checkpointIntervalMs = 0) &&
            decide ((config.checkpointMinChars : ℤ) ≤ s.getDirtyAppendChars config))) = true := by
          have hnot := hleft.1
          simp only [hephemeral, hfirst', Bool.not_false, Bool.true_and] at hnot
          cases hbusy : s.isCommittingDurable with
          | false => rfl
          | true =>
              rw [hbusy, Bool.true_and, Bool.not_eq_false'] at hnot
              rw [hnot, Bool.or_true]
        rw [Bool.not_false, if_pos rfl, if_pos hgo]
        exact hcommit

theorem hasDirtyDurableText_iff : s.hasDirtyDurableText = true ↔ s.accumulatedText ≠ s.lastDurableText := by
  simp [hasDirtyDurableText]

theorem maybeCommit_disabled (config : Config) (s : Segment Value) (now : ℤ) :
    s.maybeCommitDurableStreamingSnapshot config false now true = s.clearDurableCheckpointTimer := rfl

theorem Tracked.maybeCommit (hversioned : s.Versioned) (hdisabled : enabled = false → s.committing = none)
    (hleft : s.exempt = false → s.leftUncovered config = false) (now : ℤ) :
    (s.maybeCommitDurableStreamingSnapshot config enabled now true).Tracked enabled := by
  have hstep := checkpointStep_maybeCommitDurableStreamingSnapshot config enabled s now true
  refine ⟨hstep.versioned hversioned, ?_, ?_⟩
  · rintro rfl
    rw [maybeCommit_disabled]
    exact hdisabled rfl
  · rintro rfl
    obtain ⟨hexempt, htext, hdurable⟩ := hstep.frame
    rw [hexempt, htext, hdurable]
    exact fun hex hdirty => current_maybeCommit (hasDirtyDurableText_iff.mpr hdirty) config now (hleft hex)

theorem leftUncovered_restored (hleft : s.leftUncovered config = false)
    (heq : s.accumulatedText = s.lastDurableText) :
    ∀ c ∈ s.committing, c.ended = false → c.text = s.accumulatedText := by
  intro c hc hended
  obtain ⟨-, hrestored⟩ := Bool.or_eq_false_iff.mp hleft
  have hclean : s.hasDirtyDurableText = false := by simpa [hasDirtyDurableText] using heq
  rw [Option.mem_def] at hc
  rw [hclean, hc, Bool.not_false, Bool.true_and, Option.any_some, hended] at hrestored
  simpa using hrestored

theorem Tracked.textChanged (holder : ∀ c ∈ s.committing, c.version ≤ s.textVersion)
    (hdelta : s.deltaVersion ≤ s.textVersion + 1) (hdisabled : enabled = false → s.committing = none)
    (config : Config) (now : ℤ) : (s.textChanged config enabled now).Tracked enabled := by
  have hlive := liveStep_maybeEmitLiveStreamingSnapshot config
    { s with
      textVersion := s.textVersion + 1
      exempt := leftUncovered config { s with textVersion := s.textVersion + 1 } } now
  have hversioned : Versioned
      { s with
        textVersion := s.textVersion + 1
        exempt := leftUncovered config { s with textVersion := s.textVersion + 1 } } := by
    refine ⟨fun c hc => ⟨(holder c hc).trans (Nat.le_succ _), fun heq => ?_⟩, hdelta, fun hexempt heq => ?_⟩
    · have hle := holder c hc
      simp only at heq
      omega
    · exact leftUncovered_restored (s := { s with textVersion := s.textVersion + 1 }) hexempt heq
  rw [Segment.textChanged]
  simp only
  generalize hs₁ : maybeEmitLiveStreamingSnapshot config
    { s with
      textVersion := s.textVersion + 1
      exempt := leftUncovered config { s with textVersion := s.textVersion + 1 } } now = s₁ at hlive
  refine Tracked.maybeCommit (hlive.versioned hversioned) ?_ ?_ now
  · clear hs₁
    obtain ⟨_, _, _, _, _, _⟩ := hlive
    exact hdisabled
  · clear hs₁
    obtain ⟨_, _, _, _, _, _⟩ := hlive
    exact id

theorem Tracked.append (h : s.Tracked enabled) (config : Config) (now : ℤ) (text : Text) :
    (s.append config enabled now text).Tracked enabled := by
  refine Tracked.textChanged ?_ ?_ ?_ config now
  · exact fun c hc => (h.versioned.older c hc).1
  · exact le_rfl
  · exact h.disabled

theorem Tracked.overrideText (h : s.Tracked enabled) (config : Config) (now : ℤ) (text : Text) :
    (s.overrideText config enabled now text).Tracked enabled := by
  rw [Segment.overrideText]
  split_ifs
  · exact h
  · refine Tracked.textChanged ?_ ?_ ?_ config now
    · exact fun c hc => (h.versioned.older c hc).1
    · exact h.versioned.delta.trans (Nat.le_succ _)
    · exact h.disabled

theorem Tracked.mergeMeta (h : s.Tracked enabled) (fields : List (String × Value)) :
    (s.mergeMeta fields).Tracked enabled :=
  ⟨⟨h.versioned.older, h.versioned.delta, h.versioned.restored⟩, h.disabled, h.current⟩

theorem Tracked.liveStep (h : s.Tracked enabled) (hlive : LiveStep s s') : s'.Tracked enabled := by
  have hversioned := hlive.versioned h.versioned
  obtain ⟨_, _, _, _, _, _⟩ := hlive
  exact ⟨hversioned, h.disabled, h.current⟩

theorem Tracked.checkpointTimerFired (h : s.Tracked enabled) (now : ℤ) :
    (s.checkpointTimerFired enabled now true).Tracked enabled := by
  have hstep := checkpointStep_checkpointTimerFired enabled s now true
  refine ⟨hstep.versioned h.versioned, ?_, ?_⟩
  · rintro rfl
    have hnone := h.disabled rfl
    rw [Segment.checkpointTimerFired, commitScheduledDurableSnapshot]
    split_ifs <;> exact hnone
  · rintro rfl
    obtain ⟨hexempt, htext, hdurable⟩ := hstep.frame
    rw [hexempt, htext, hdurable]
    intro hex hdirty
    rw [Segment.checkpointTimerFired]
    split_ifs
    · exact current_commitScheduledDurableSnapshot (s := s.clearDurableCheckpointTimer)
        (hasDirtyDurableText_iff.mpr hdirty) now
    · exact h.current rfl hex hdirty

theorem Tracked.endStep {c : Committing} {outcome : Outcome} (h : s.Tracked enabled)
    (hstep : EndStep s s' c outcome) : s'.Tracked enabled := by
  obtain ⟨-, -, htext, hversion, -, hpending, -⟩ := hstep.frame
  obtain ⟨hle, heq⟩ := h.versioned.older c hstep.before
  refine ⟨⟨?_, ?_, ?_⟩, ?_, ?_⟩
  · rw [hstep.committing, hversion, htext]
    rintro c' ⟨⟩
    exact ⟨hle, heq⟩
  · rw [hversion, hstep.deltaVersion]
    exact h.versioned.delta
  · rw [hstep.committing]
    rintro - - c' ⟨⟩ hrunning
    cases hrunning
  · intro hoff
    have hnone := h.disabled hoff
    rw [hstep.before] at hnone
    cases hnone
  · intro hon hexempt hdirty
    rw [hstep.exempt, Bool.or_eq_false_iff] at hexempt
    obtain ⟨hex, hpersisted⟩ := hexempt
    have hpersisted' : outcome = .persisted := by simpa using hpersisted
    rw [htext, (hstep.persisted hpersisted').1] at hdirty
    have hwas : s.accumulatedText ≠ s.lastDurableText := fun hclean =>
      hdirty (h.versioned.restored hex hclean c hstep.before hstep.running).symm
    rcases h.current hon hex hwas with htimer | hp | ⟨c', hc', -, hv⟩
    · exact .inl (hstep.timers.1.trans htimer)
    · exact .inr (.inl (by rw [hpending]; exact hp))
    · rw [hstep.before] at hc'
      obtain rfl := Option.some.inj hc'
      exact absurd (heq hv).symm hdirty

theorem Tracked.finallyStep (h : s.Tracked enabled) (hstep : FinallyStep s now s') : s'.Tracked enabled := by
  have hbusy := hstep.busy
  cases hstep with
  | next c p hc hended hp =>
      refine ⟨Versioned.commit ?_ now p.state p.interruptedReason, fun hoff => absurd (h.disabled hoff) hbusy,
        fun _ _ _ => current_of_issued _ now p.state p.interruptedReason⟩
      exact ⟨nofun, h.versioned.delta, fun _ _ => nofun⟩
  | idle c hc hended hp =>
      refine ⟨⟨nofun, h.versioned.delta, fun _ _ => nofun⟩, fun _ => rfl, fun hon hexempt hdirty => ?_⟩
      rcases h.current hon hexempt hdirty with htimer | hsome | ⟨c', hc', hrunning, -⟩
      · exact .inl htimer
      · rw [hp] at hsome
        cases hsome
      · rw [hc] at hc'
        obtain rfl := Option.some.inj hc'
        rw [hended] at hrunning
        cases hrunning

end Segment

namespace Writer

variable {config : Config} {w : Writer Value}

/-- Every segment of the map whose text is not the persisted one is covered, unless the last
change of its text, or a commit since that was not persisted, exempts it. -/
def Checkpointed (w : Writer Value) : Prop :=
  w.durableCommitsEnabled = true → ∀ i (s : Segment Value), w.InMap i → w.created[i]? = some s →
    s.accumulatedText ≠ s.lastDurableText → s.exempt = false → s.Covered

structure Tracks (w : Writer Value) : Prop where
  inv : w.Inv
  tracked : ∀ i (s : Segment Value), w.InMap i → w.created[i]? = some s → s.Tracked w.durableCommitsEnabled

theorem Tracks.checkpointed (h : w.Tracks) : w.Checkpointed := by
  intro hon i s hi hs hdirty hexempt
  have htracked := h.tracked i s hi hs
  rw [hon] at htracked
  exact htracked.covered hexempt hdirty

theorem Tracks.modify (h : w.Tracks) {i : ℕ} {f : Segment Value → Segment Value} (hinv : (w.modify i f).Inv)
    (hf : ∀ s, w.InMap i → w.created[i]? = some s → s.Tracked w.durableCommitsEnabled →
      (f s).Tracked w.durableCommitsEnabled) : (w.modify i f).Tracks := by
  refine ⟨hinv, fun j s' hj hs' => ?_⟩
  rw [Writer.modify, List.getElem?_modify, Option.map_eq_map, Option.map_eq_some_iff] at hs'
  obtain ⟨s, hs, rfl⟩ := hs'
  have htracked := h.tracked j s hj hs
  split_ifs with hij
  · subst hij
    exact hf s hj hs htracked
  · exact htracked

theorem Tracks.of_empty (hinv : w.Inv) (hempty : w.segments = .empty) : w.Tracks := by
  refine ⟨hinv, fun i s hi => ?_⟩
  obtain ⟨key, hmem⟩ := hi
  rw [hempty] at hmem
  cases hmem

theorem Inv.mapped (h : w.Inv) {i : ℕ} {s : Segment Value} (hi : w.InMap i) (hs : w.created[i]? = some s) :
    w.mapped s = true := by
  obtain ⟨key, hmem⟩ := hi
  obtain ⟨s', hs', hkey, -⟩ := h.inMap key i hmem
  rw [hs] at hs'
  obtain rfl := Option.some.inj hs'
  rw [Writer.mapped, hkey, OrderedMap.get_eq_some.mpr hmem]
  rfl

theorem Tracks.getOrCreateSegment (h : w.Tracks) (kind : SegmentKind) (sidechainId : Option String) (now : ℤ) :
    (w.getOrCreateSegment kind sidechainId now).1.Tracks := by
  have hready := h.inv.getOrCreateSegment kind sidechainId now
  refine ⟨hready.inv, fun j s hj hs => ?_⟩
  revert hj hs
  simp only [Writer.getOrCreateSegment]
  split
  next i hi => exact h.tracked j s
  next hnone =>
    rintro ⟨key, hmem⟩ hs
    rw [OrderedMap.mem_set] at hmem
    rcases hmem with ⟨-, rfl⟩ | ⟨-, hmem⟩
    · rw [List.getElem?_concat_length] at hs
      obtain rfl := Option.some.inj hs
      refine ⟨⟨?_, le_rfl, ?_⟩, fun _ => rfl, fun _ _ hne => absurd rfl hne⟩ <;>
        intros <;> contradiction
    · have hlt := h.inv.lt_length ⟨key, hmem⟩
      rw [List.getElem?_append_left hlt] at hs
      exact h.tracked j s ⟨key, hmem⟩ hs

theorem Tracks.enableDurableCommits (h : w.Tracks) (now : ℤ) : (w.enableDurableCommits config now).Tracks := by
  refine ⟨h.inv.enableDurableCommits now, ?_⟩
  rw [Writer.enableDurableCommits]
  split_ifs with hon
  · exact h.tracked
  · intro i s' hi hs'
    have hcreated := (created_modifyLive_of_inMap (w := { w with durableCommitsEnabled := true }) hi).symm.trans hs'
    obtain ⟨s, hs, rfl⟩ := Option.map_eq_some_iff.mp hcreated
    have htracked := h.tracked i s hi hs
    have hidle := htracked.disabled (by simpa using hon)
    have hleft : s.leftUncovered config = false := by
      simp [Segment.leftUncovered, Segment.isCommittingDurable, hidle]
    have hnever : true = false → s.committing = none := by simp
    exact Segment.Tracked.maybeCommit htracked.versioned hnever (fun _ => hleft) now

theorem tracks_step (h : w.Tracks) (e : Event Value) : (step config w e).Tracks := by
  have hinv : (step config w e).Inv := inv_step h.inv e
  cases e with
  | appendDelta kind deltaText sidechainId now =>
      simp only [step, Writer.appendDelta] at hinv ⊢
      split_ifs at hinv ⊢
      · exact h
      · exact (h.getOrCreateSegment kind _ now).modify hinv fun s _ _ htracked =>
          htracked.append config now deltaText
  | overrideText kind text sidechainId now =>
      simp only [step, Writer.overrideSegmentText] at hinv ⊢
      cases hget : w.getExistingSegment kind (normalizeSidechainId sidechainId) with
      | none => exact h
      | some i =>
          rw [hget] at hinv
          exact h.modify hinv fun s _ _ htracked => htracked.overrideText config now text
  | mergeMeta kind fields sidechainId =>
      simp only [step, Writer.mergeSegmentMeta] at hinv ⊢
      cases hget : w.getExistingSegment kind (normalizeSidechainId sidechainId) with
      | none => exact h
      | some i =>
          rw [hget] at hinv
          exact h.modify hinv fun s _ _ htracked => htracked.mergeMeta fields
  | enableDurableCommits now => exact h.enableDurableCommits now
  | discard => exact .of_empty hinv rfl
  | flushAll reason interruptedReason now => exact .of_empty hinv rfl
  | flushResolves n =>
      refine ⟨hinv, ?_⟩
      rw [step, Writer.flushResolves]
      split
      · exact h.tracked
      · split_ifs <;> exact h.tracked
  | checkpointTimer i now =>
      refine h.modify hinv fun s hi hs htracked => ?_
      rw [h.inv.mapped hi hs]
      exact htracked.checkpointTimerFired now
  | liveTimer i now =>
      exact h.modify hinv fun s _ _ htracked =>
        htracked.liveStep (Segment.liveStep_liveTimerFired config s now _)
  | commitEnded i outcome now =>
      refine h.modify hinv fun s _ _ htracked => ?_
      rcases Segment.endStep_or s now outcome with heq | ⟨c, hstep⟩
      · rw [heq]
        exact htracked
      · exact htracked.endStep hstep
  | commitFinally i now =>
      refine h.modify hinv fun s _ _ htracked => ?_
      rcases Segment.finallyStep_or s now with heq | hstep
      · rw [heq]
        exact htracked
      · exact htracked.finallyStep hstep

def deltaDuringFirstCommit : List (Event Unit) :=
  [.appendDelta .assistant [72] none 0, .appendDelta .assistant [105] none 0]

end Writer

end DevPilot.Streaming
