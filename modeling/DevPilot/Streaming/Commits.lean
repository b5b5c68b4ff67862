import DevPilot.Streaming.TranscriptWriter

/-!
The durable commits of a segment: one at a time, with texts that never get older, and the one
with the final state last.
-/

namespace DevPilot.Streaming

open OrderedMaps Runs

variable {Value : Type}

def Entry.commit? : Entry Value → Option (Commit Value)
  | .commit c => some c
  | _ => none

def Entry.outcome? : Entry Value → Option Outcome
  | .ended outcome => some outcome
  | _ => none

namespace Segment

variable {config : Config} {enabled : Bool} {s s' : Segment Value} {now : ℤ} {state : SegmentState}
  {reason : Option String} {text : Text}

def commits (s : Segment Value) : List (Commit Value) := s.log.filterMap Entry.commit?

def outcomes (s : Segment Value) : List Outcome := s.log.filterMap Entry.outcome?

def inFlight (s : Segment Value) : ℕ := if s.committing.any (!·.ended) then 1 else 0

def StreamingOnly (s : Segment Value) : Prop := ∀ c ∈ s.commits, c.state = .streaming

structure Sound (s : Segment Value) : Prop where
  counted : s.commits.length = s.outcomes.length + s.inFlight
  current : ∀ c ∈ s.committing, ∃ k ∈ s.commits.getLast?, k.version = c.version ∧ k.state = c.state ∧
    k.snapshot.body.text = c.text
  versions : (s.commits.map (·.version)).Pairwise (· ≤ ·)
  newest : ∀ c ∈ s.commits, c.version ≤ s.textVersion
  states : s.commits.Pairwise fun c c' => c.state ≠ .streaming → c'.state ≠ .streaming
  pending : s.pendingDurableCommit.isSome → s.committing.isSome ∧ s.StreamingOnly
  committed : ∀ state ∈ s.lastCommittedState, ∃ c ∈ s.commits, c.state = state

structure Open (s : Segment Value) : Prop where
  streaming : s.StreamingOnly
  pending : ∀ p ∈ s.pendingDurableCommit, p.state = .streaming
  waiters : s.idleWaiters = []

def Carries (s : Segment Value) (k : Commit Value) : Prop :=
  match s.additionalMeta.get "happierStreamSegmentV1" with
  | none => ∃ m, k.snapshot.fields.get "happierStreamSegmentV1" = some (.segment m) ∧ m.segmentState = k.state
  | some v => k.snapshot.fields.get "happierStreamSegmentV1" = some (.merged v)

structure Final (s : Segment Value) (state : SegmentState) : Prop where
  pending : s.pendingDurableCommit = none
  last : ∃ old k, s.commits = old ++ [k] ∧ (∀ c ∈ old, c.state = .streaming) ∧ k.state = state ∧
    k.version = s.textVersion ∧ k.snapshot.body.text = s.accumulatedText ∧ s.Carries k
  unfinished : ∀ c ∈ s.committing, c.ended = false → s.lastCommittedState ≠ some state
  finished : (∀ c ∈ s.committing, c.ended = true) → ∃ outcome ∈ s.outcomes.getLast?,
    (outcome = .persisted ↔ s.lastCommittedTextVersion = s.textVersion ∧ s.lastCommittedState = some state)

/-- The final commit waits for the one under way. -/
structure Queued (s : Segment Value) (state : SegmentState) : Prop where
  streaming : s.StreamingOnly
  pending : ∃ p ∈ s.pendingDurableCommit, p.state = state

/-- A segment that a flush has ended. -/
structure Flushed (s : Segment Value) (state : SegmentState) (text : Text) (flush : ℕ) : Prop where
  final : state ≠ .streaming
  text : s.accumulatedText = text
  waits : flush ∈ s.idleWaiters ∨ s.committing = none
  stage : s.Queued state ∨ s.Final state

inductive LiveStep (s : Segment Value) : Segment Value → Prop
  | mk (didWriteLive : Bool) (lastLiveSnapshotAtMs : ℤ) (lastLiveSnapshotTextLen : ℕ)
      (lastLiveSnapshotText : Text) (liveSnapshotTimer : Bool) (snapshots : List (Snapshot Value)) :
      LiveStep s { s with
        didWriteLive := didWriteLive
        lastLiveSnapshotAtMs := lastLiveSnapshotAtMs
        lastLiveSnapshotTextLen := lastLiveSnapshotTextLen
        lastLiveSnapshotText := lastLiveSnapshotText
        liveSnapshotTimer := liveSnapshotTimer
        log := s.log ++ snapshots.map .live }

theorem LiveStep.refl (s : Segment Value) : LiveStep s s := by
  have h := LiveStep.mk (s := s) s.didWriteLive s.lastLiveSnapshotAtMs s.lastLiveSnapshotTextLen
    s.lastLiveSnapshotText s.liveSnapshotTimer []
  simpa using h

theorem LiveStep.timer (s : Segment Value) (armed : Bool) :
    LiveStep s { s with liveSnapshotTimer := armed } := by
  have h := LiveStep.mk (s := s) s.didWriteLive s.lastLiveSnapshotAtMs s.lastLiveSnapshotTextLen
    s.lastLiveSnapshotText armed []
  rwa [List.map_nil, List.append_nil] at h

theorem LiveStep.ite {a b : Segment Value} {p : Prop} [Decidable p] (ha : LiveStep s a)
    (hb : LiveStep s b) : LiveStep s (if p then a else b) := by
  split_ifs
  · exact ha
  · exact hb

theorem liveStep_emitLiveSnapshot (config : Config) (s : Segment Value) (now : ℤ) (state : SegmentState)
    (reason : Option String) : LiveStep s (s.emitLiveSnapshot config now state reason) :=
  .ite (.refl s) (.mk true now s.accumulatedText.length s.accumulatedText false
    [s.clearLiveSnapshotTimer.snapshot now state reason])

theorem liveStep_scheduleLiveSnapshot (config : Config) (s : Segment Value) :
    LiveStep s (s.scheduleLiveSnapshot config) :=
  .ite (.refl s) (.ite (.refl s) (.ite (.refl s) (.timer s true)))

theorem liveStep_maybeEmitLiveStreamingSnapshot (config : Config) (s : Segment Value) (now : ℤ) :
    LiveStep s (s.maybeEmitLiveStreamingSnapshot config now) :=
  .ite (.refl s) (.ite (liveStep_emitLiveSnapshot config s now .streaming none)
    (.ite (.refl s) (.ite (liveStep_emitLiveSnapshot config s now .streaming none)
      (liveStep_scheduleLiveSnapshot config s))))

theorem LiveStep.trans {s'' : Segment Value} (h : LiveStep s s') (h' : LiveStep s' s'') : LiveStep s s'' := by
  obtain ⟨_, _, _, _, _, snapshots⟩ := h
  obtain ⟨didWriteLive, at', len, text, timer, snapshots'⟩ := h'
  have h := LiveStep.mk (s := s) didWriteLive at' len text timer (snapshots ++ snapshots')
  simpa using h

theorem liveStep_liveTimerFired (config : Config) (s : Segment Value) (now : ℤ) (mapped : Bool) :
    LiveStep s (s.liveTimerFired config now mapped) :=
  .ite (.ite (.timer s false) (.ite (.timer s false)
    ((LiveStep.timer s false).trans (liveStep_emitLiveSnapshot config _ now .streaming none)))) (.refl s)

theorem LiveStep.commits_eq (h : LiveStep s s') : s'.commits = s.commits := by
  obtain ⟨_, _, _, _, _, snapshots⟩ := h
  have hnone : (snapshots.map Entry.live).filterMap Entry.commit? = [] := by
    simp [List.filterMap_eq_nil_iff, Entry.commit?]
  simp [commits, hnone]

theorem LiveStep.outcomes_eq (h : LiveStep s s') : s'.outcomes = s.outcomes := by
  obtain ⟨_, _, _, _, _, snapshots⟩ := h
  have hnone : (snapshots.map Entry.live).filterMap Entry.outcome? = [] := by
    simp [List.filterMap_eq_nil_iff, Entry.outcome?]
  simp [outcomes, hnone]

theorem Sound.congr (h : s.Sound) (hcommits : s'.commits = s.commits) (houtcomes : s'.outcomes = s.outcomes)
    (hcommitting : s'.committing = s.committing) (hpending : s'.pendingDurableCommit = s.pendingDurableCommit)
    (hversion : s.textVersion ≤ s'.textVersion) (hstate : s'.lastCommittedState = s.lastCommittedState) :
    s'.Sound where
  counted := by rw [hcommits, houtcomes, inFlight, hcommitting]; exact h.counted
  current := by rw [hcommits, hcommitting]; exact h.current
  versions := by rw [hcommits]; exact h.versions
  newest := by
    rw [hcommits]
    exact fun c hc => (h.newest c hc).trans hversion
  states := by rw [hcommits]; exact h.states
  pending := by rw [StreamingOnly, hcommits, hcommitting, hpending]; exact h.pending
  committed := by rw [hcommits, hstate]; exact h.committed

theorem LiveStep.sound (hlive : LiveStep s s') (h : s.Sound) : s'.Sound := by
  have hcommits := hlive.commits_eq
  have houtcomes := hlive.outcomes_eq
  obtain ⟨_, _, _, _, _, snapshots⟩ := hlive
  exact h.congr hcommits houtcomes rfl rfl le_rfl rfl

theorem commits_of_issued (hidle : s.committing = none) (now : ℤ) (state : SegmentState) (reason : Option String) :
    (s.commitStreamedTranscriptSegmentSnapshot now state reason).commits =
      s.commits ++ [⟨s.snapshot now state reason, s.textVersion, state⟩] := by
  simp [commitStreamedTranscriptSegmentSnapshot, isCommittingDurable, hidle, commits, Entry.commit?]

theorem outcomes_of_issued (now : ℤ) (state : SegmentState) (reason : Option String) :
    (s.commitStreamedTranscriptSegmentSnapshot now state reason).outcomes = s.outcomes := by
  rw [commitStreamedTranscriptSegmentSnapshot]
  split_ifs
  · rfl
  · simp [outcomes, Entry.outcome?]

theorem Sound.commit (h : s.Sound) (hstreaming : s.StreamingOnly) (now : ℤ) (state : SegmentState)
    (reason : Option String) : (s.commitStreamedTranscriptSegmentSnapshot now state reason).Sound := by
  by_cases hbusy : s.isCommittingDurable = true
  · rw [commitStreamedTranscriptSegmentSnapshot, if_pos hbusy]
    exact ⟨h.counted, h.current, h.versions, h.newest, h.states, fun _ => ⟨hbusy, hstreaming⟩, h.committed⟩
  · have hidle : s.committing = none := by
      rw [isCommittingDurable] at hbusy
      simpa using hbusy
    have hcommits := commits_of_issued hidle now state reason
    have houtcomes := outcomes_of_issued (s := s) now state reason
    have hcommitting : (s.commitStreamedTranscriptSegmentSnapshot now state reason).committing =
        some ⟨s.accumulatedText, s.textVersion, state, false⟩ := by
      rw [commitStreamedTranscriptSegmentSnapshot, if_neg hbusy]
    have hframe : (s.commitStreamedTranscriptSegmentSnapshot now state reason).textVersion = s.textVersion ∧
        (s.commitStreamedTranscriptSegmentSnapshot now state reason).pendingDurableCommit =
          s.pendingDurableCommit ∧
        (s.commitStreamedTranscriptSegmentSnapshot now state reason).lastCommittedState =
          s.lastCommittedState := by
      rw [commitStreamedTranscriptSegmentSnapshot, if_neg hbusy]
      exact ⟨rfl, rfl, rfl⟩
    generalize s.commitStreamedTranscriptSegmentSnapshot now state reason = s' at hcommits houtcomes hcommitting hframe
    obtain ⟨hversion, hpending, hstate⟩ := hframe
    refine ⟨?_, ?_, ?_, ?_, ?_, ?_, ?_⟩
    · have hcounted := h.counted
      rw [inFlight, hidle] at hcounted
      rw [hcommits, houtcomes, inFlight, hcommitting, List.length_append, hcounted]
      rfl
    · rw [hcommits, hcommitting]
      rintro c ⟨⟩
      exact ⟨_, by rw [List.getLast?_concat]; rfl, rfl, rfl, rfl⟩
    · rw [hcommits, List.map_append, List.pairwise_append]
      refine ⟨h.versions, by simp, fun v hv v' hv' => ?_⟩
      obtain ⟨c, hc, rfl⟩ := List.mem_map.mp hv
      rw [List.map_cons, List.map_nil, List.mem_singleton] at hv'
      subst hv'
      exact h.newest c hc
    · rw [hcommits, hversion]
      intro c hc
      rcases List.mem_append.mp hc with hc | hc
      · exact h.newest c hc
      · rw [List.mem_singleton] at hc
        subst hc
        exact le_rfl
    · rw [hcommits, List.pairwise_append]
      exact ⟨h.states, by simp, fun c hc c' hc' hne => absurd (hstreaming c hc) hne⟩
    · rw [hpending]
      intro hsome
      have hbusy' := (h.pending hsome).1
      rw [hidle] at hbusy'
      cases hbusy'
    · rw [hstate, hcommits]
      intro state' hstate'
      obtain ⟨c, hc, heq⟩ := h.committed state' hstate'
      exact ⟨c, List.mem_append_left _ hc, heq⟩

inductive CheckpointStep (s : Segment Value) (now : ℤ) : Segment Value → Prop
  | timer (armed : Bool) : CheckpointStep s now { s with durableCheckpointTimer := armed }
  | commit : CheckpointStep s now
      (s.clearDurableCheckpointTimer.commitStreamedTranscriptSegmentSnapshot now .streaming none)

theorem CheckpointStep.refl (s : Segment Value) (now : ℤ) : CheckpointStep s now s :=
  .timer s.durableCheckpointTimer

theorem CheckpointStep.ite {a b : Segment Value} {p : Prop} [Decidable p] (ha : CheckpointStep s now a)
    (hb : CheckpointStep s now b) : CheckpointStep s now (if p then a else b) := by
  split_ifs
  · exact ha
  · exact hb

theorem checkpointStep_commitDurableSnapshot (enabled : Bool) (s : Segment Value) (now : ℤ) :
    CheckpointStep s now (s.commitDurableSnapshot enabled now .streaming none false) :=
  .ite (.timer false) .commit

theorem checkpointStep_commitScheduledDurableSnapshot (enabled : Bool) (s : Segment Value) (now : ℤ)
    (mapped : Bool) : CheckpointStep s now (s.commitScheduledDurableSnapshot enabled now mapped) :=
  .ite (.refl s now) (.ite (.refl s now) (checkpointStep_commitDurableSnapshot enabled s now))

theorem checkpointStep_scheduleDurableCheckpoint (config : Config) (enabled : Bool) (s : Segment Value)
    (now : ℤ) (mapped : Bool) : CheckpointStep s now (s.scheduleDurableCheckpoint config enabled now mapped) :=
  .ite (.timer false) (.ite (.timer false) (.ite (.refl s now)
    (.ite (checkpointStep_commitScheduledDurableSnapshot enabled s now mapped) (.timer true))))

theorem checkpointStep_maybeCommitDurableStreamingSnapshot (config : Config) (enabled : Bool)
    (s : Segment Value) (now : ℤ) (mapped : Bool) :
    CheckpointStep s now (s.maybeCommitDurableStreamingSnapshot config enabled now mapped) :=
  have hcommit := checkpointStep_commitDurableSnapshot enabled s now
  have hschedule := checkpointStep_scheduleDurableCheckpoint config enabled s now mapped
  .ite (.timer false) (.ite (.timer false) (.ite (.ite (.ite hcommit (.refl s now)) hschedule)
    (.ite (.ite hcommit hschedule) (.ite hcommit hschedule))))

theorem checkpointStep_checkpointTimerFired (enabled : Bool) (s : Segment Value) (now : ℤ) (mapped : Bool) :
    CheckpointStep s now (s.checkpointTimerFired enabled now mapped) :=
  .ite (.ite (.timer false) (.ite (.timer false) (.ite (.timer false) .commit))) (.refl s now)

theorem CheckpointStep.sound (hstep : CheckpointStep s now s') (h : s.Sound) (hopen : s.Open) : s'.Sound := by
  cases hstep with
  | timer armed => exact h.congr rfl rfl rfl rfl le_rfl rfl
  | commit =>
      refine Sound.commit (s := s.clearDurableCheckpointTimer) ?_ hopen.streaming now .streaming none
      exact h.congr rfl rfl rfl rfl le_rfl rfl

theorem Open.congr (h : s.Open) (hcommits : s'.commits = s.commits)
    (hpending : s'.pendingDurableCommit = s.pendingDurableCommit) (hwaiters : s'.idleWaiters = s.idleWaiters) :
    s'.Open := by
  refine ⟨?_, ?_, hwaiters.trans h.waiters⟩
  · rw [StreamingOnly, hcommits]
    exact h.streaming
  · rw [hpending]
    exact h.pending

theorem LiveStep.open (hlive : LiveStep s s') (h : s.Open) : s'.Open := by
  have hcommits := hlive.commits_eq
  obtain ⟨_, _, _, _, _, snapshots⟩ := hlive
  exact h.congr hcommits rfl rfl

theorem Open.commit (h : s.Open) (now : ℤ) (reason : Option String) :
    (s.commitStreamedTranscriptSegmentSnapshot now .streaming reason).Open := by
  by_cases hbusy : s.isCommittingDurable = true
  · rw [commitStreamedTranscriptSegmentSnapshot, if_pos hbusy]
    refine ⟨h.streaming, ?_, h.waiters⟩
    rintro p ⟨⟩
    rfl
  · have hidle : s.committing = none := by
      rw [isCommittingDurable] at hbusy
      simpa using hbusy
    refine ⟨?_, ?_, ?_⟩
    · rw [StreamingOnly, commits_of_issued hidle]
      intro c hc
      rcases List.mem_append.mp hc with hc | hc
      · exact h.streaming c hc
      · rw [List.mem_singleton] at hc
        rw [hc]
    · rw [commitStreamedTranscriptSegmentSnapshot, if_neg hbusy]
      exact h.pending
    · rw [commitStreamedTranscriptSegmentSnapshot, if_neg hbusy]
      exact h.waiters

theorem CheckpointStep.open (hstep : CheckpointStep s now s') (h : s.Open) : s'.Open := by
  cases hstep with
  | timer armed => exact h.congr rfl rfl rfl
  | commit =>
      refine Open.commit (s := s.clearDurableCheckpointTimer) ?_ now none
      exact h.congr rfl rfl rfl

structure EndStep (s s' : Segment Value) (c : Committing) (outcome : Outcome) : Prop where
  before : s.committing = some c
  running : c.ended = false
  committing : s'.committing = some { c with ended := true }
  commits : s'.commits = s.commits
  outcomes : s'.outcomes = s.outcomes ++ [outcome]
  frame : s'.key = s.key ∧ s'.segmentLocalId = s.segmentLocalId ∧ s'.accumulatedText = s.accumulatedText ∧
    s'.textVersion = s.textVersion ∧ s'.additionalMeta = s.additionalMeta ∧
    s'.pendingDurableCommit = s.pendingDurableCommit ∧ s'.idleWaiters = s.idleWaiters
  timers : s'.durableCheckpointTimer = s.durableCheckpointTimer ∧ s'.liveSnapshotTimer = s.liveSnapshotTimer
  deltaVersion : s'.deltaVersion = s.deltaVersion
  exempt : s'.exempt = (s.exempt || outcome ≠ .persisted)
  persisted : outcome = .persisted → s'.lastDurableText = c.text ∧
    s'.lastCommittedTextVersion = c.version ∧ s'.lastCommittedState = some c.state
  otherwise : outcome ≠ .persisted → s'.lastDurableText = s.lastDurableText ∧
    s'.lastCommittedTextVersion = s.lastCommittedTextVersion ∧ s'.lastCommittedState = s.lastCommittedState

theorem endStep_or (s : Segment Value) (now : ℤ) (outcome : Outcome) :
    s.commitEnded now outcome = s ∨ ∃ c, EndStep s (s.commitEnded now outcome) c outcome := by
  cases hc : s.committing with
  | none => exact .inl (by simp [commitEnded, hc])
  | some c =>
      cases hended : c.ended with
      | true => exact .inl (by simp [commitEnded, hc, hended])
      | false =>
          refine .inr ⟨c, ?_⟩
          cases outcome <;>
            constructor <;>
            simp [commitEnded, hc, hended, Segment.commits, Segment.outcomes, Entry.commit?, Entry.outcome?]

inductive FinallyStep (s : Segment Value) (now : ℤ) : Segment Value → Prop
  | next (c : Committing) (p : PendingCommit) (hc : s.committing = some c) (hended : c.ended = true)
      (hp : s.pendingDurableCommit = some p) :
      FinallyStep s now
        ({ s with committing := none, pendingDurableCommit := none }.commitStreamedTranscriptSegmentSnapshot
          now p.state p.interruptedReason)
  | idle (c : Committing) (hc : s.committing = some c) (hended : c.ended = true)
      (hp : s.pendingDurableCommit = none) :
      FinallyStep s now { s with committing := none, pendingDurableCommit := none, idleWaiters := [] }

theorem finallyStep_or (s : Segment Value) (now : ℤ) :
    s.commitFinally now = s ∨ FinallyStep s now (s.commitFinally now) := by
  cases hc : s.committing with
  | none => exact .inl (by simp [commitFinally, hc])
  | some c =>
      cases hended : c.ended with
      | false => exact .inl (by simp [commitFinally, hc, hended])
      | true =>
          right
          cases hp : s.pendingDurableCommit with
          | none =>
              have hidle : FinallyStep s now _ := .idle c hc hended hp
              simpa [commitFinally, hc, hended, hp] using hidle
          | some p =>
              have hnext : FinallyStep s now _ := .next c p hc hended hp
              simpa [commitFinally, hc, hended, hp] using hnext

theorem EndStep.sound {c : Committing} {outcome : Outcome} (hstep : EndStep s s' c outcome) (h : s.Sound) :
    s'.Sound := by
  obtain ⟨k, hk, hversion, hstate, htext⟩ := h.current c hstep.before
  obtain ⟨-, -, -, hv, -, hp, -⟩ := hstep.frame
  refine ⟨?_, ?_, ?_, ?_, ?_, ?_, ?_⟩
  · have hcounted := h.counted
    rw [inFlight, hstep.before] at hcounted
    rw [hstep.commits, hstep.outcomes, inFlight, hstep.committing, hcounted]
    simp [hstep.running]
  · rw [hstep.committing, hstep.commits]
    rintro c' ⟨⟩
    exact ⟨k, hk, hversion, hstate, htext⟩
  · rw [hstep.commits]
    exact h.versions
  · rw [hstep.commits, hv]
    exact h.newest
  · rw [hstep.commits]
    exact h.states
  · rw [hp, StreamingOnly, hstep.commits, hstep.committing]
    exact fun hsome => ⟨rfl, (h.pending hsome).2⟩
  · rw [hstep.commits]
    intro state hs
    by_cases hpersisted : outcome = .persisted
    · rw [(hstep.persisted hpersisted).2.2] at hs
      obtain rfl := Option.some.inj hs
      exact ⟨k, List.mem_of_getLast? hk, hstate⟩
    · rw [(hstep.otherwise hpersisted).2.2] at hs
      exact h.committed state hs

theorem Sound.cleared {c : Committing} (h : s.Sound) (hc : s.committing = some c) (hended : c.ended = true)
    (waiters : List ℕ) :
    Sound { s with committing := none, pendingDurableCommit := none, idleWaiters := waiters } where
  counted := by
    have hcounted := h.counted
    rw [inFlight, hc] at hcounted
    have heq : s.commits.length = s.outcomes.length := by simpa [hended] using hcounted
    exact heq
  current := nofun
  versions := h.versions
  newest := h.newest
  states := h.states
  pending := nofun
  committed := h.committed

theorem FinallyStep.sound (hstep : FinallyStep s now s') (h : s.Sound) : s'.Sound := by
  cases hstep with
  | next c p hc hended hp =>
      refine Sound.commit ?_ ?_ now p.state p.interruptedReason
      · exact h.cleared hc hended s.idleWaiters
      · exact (h.pending (by rw [hp]; rfl)).2
  | idle c hc hended hp => exact h.cleared hc hended []

theorem EndStep.open {c : Committing} {outcome : Outcome} (hstep : EndStep s s' c outcome) (h : s.Open) :
    s'.Open :=
  h.congr hstep.commits hstep.frame.2.2.2.2.2.1 hstep.frame.2.2.2.2.2.2

theorem FinallyStep.open (hstep : FinallyStep s now s') (h : s.Open) : s'.Open := by
  cases hstep with
  | next c p hc hended hp =>
      obtain ⟨pstate, preason⟩ := p
      obtain rfl : pstate = .streaming := h.pending _ hp
      refine Open.commit ?_ now preason
      exact ⟨h.streaming, nofun, h.waiters⟩
  | idle c hc hended hp => exact ⟨h.streaming, nofun, rfl⟩

theorem carries_snapshot (s : Segment Value) (now : ℤ) (state : SegmentState) (reason : Option String)
    (version : ℕ) : s.Carries ⟨s.snapshot now state reason, version, state⟩ := by
  rw [Carries, OrderedMap.get]
  have hget := OrderedMap.get_foldl_set (@MetaValue.merged Value) s.additionalMeta.nodup
  split
  next hnone =>
    refine ⟨?_, ?_, ?_⟩
    rotate_left
    · simp only [snapshot, snapshotMeta]
      rw [hget, hnone, Option.map_none, Option.none_or, OrderedMap.get_set, if_pos rfl]
    · rfl
  next v hsome =>
    simp only [snapshot, snapshotMeta]
    rw [hget, hsome]
    rfl

theorem Sound.final (h : s.Sound) (hstreaming : s.StreamingOnly) (hidle : s.committing = none)
    (hpending : s.pendingDurableCommit = none) (hstate : state ≠ .streaming) (now : ℤ) (reason : Option String) :
    (s.commitStreamedTranscriptSegmentSnapshot now state reason).Final state := by
  have hcommits := commits_of_issued hidle now state reason
  have hnot : s.lastCommittedState ≠ some state := by
    intro heq
    obtain ⟨c, hc, hcs⟩ := h.committed state heq
    exact hstate (hcs.symm.trans (hstreaming c hc))
  refine ⟨?_, ⟨s.commits, _, hcommits, hstreaming, rfl, ?_, ?_, ?_⟩, ?_, ?_⟩
  all_goals simp only [commitStreamedTranscriptSegmentSnapshot, isCommittingDurable, hidle, Option.isSome_none,
    Bool.false_eq_true, if_false]
  · exact hpending
  · rfl
  · exact carries_snapshot s now state reason s.textVersion
  · exact fun _ _ _ => hnot
  · intro hall
    have hended := hall _ rfl
    cases hended

theorem Open.commitFinal (hopen : s.Open) (h : s.Sound) (hstate : state ≠ .streaming) (now : ℤ)
    (reason : Option String) :
    (s.commitStreamedTranscriptSegmentSnapshot now state reason).Queued state ∨
      (s.commitStreamedTranscriptSegmentSnapshot now state reason).Final state := by
  cases hc : s.committing with
  | none =>
      refine .inr (h.final hopen.streaming hc ?_ hstate now reason)
      by_contra hp
      have hsome := (h.pending (Option.isSome_iff_ne_none.mpr hp)).1
      rw [hc] at hsome
      cases hsome
  | some c =>
      left
      have hbusy : s.isCommittingDurable = true := by rw [isCommittingDurable, hc]; rfl
      rw [commitStreamedTranscriptSegmentSnapshot, if_pos hbusy]
      exact ⟨hopen.streaming, ⟨state, reason⟩, rfl, rfl⟩

theorem committing_of_issued (s : Segment Value) (now : ℤ) (state : SegmentState) (reason : Option String) :
    (s.commitStreamedTranscriptSegmentSnapshot now state reason).committing.isSome := by
  rw [commitStreamedTranscriptSegmentSnapshot]
  split_ifs with hbusy
  · exact hbusy
  · rfl

structure Same (s s' : Segment Value) : Prop where
  key : s'.key = s.key
  segmentLocalId : s'.segmentLocalId = s.segmentLocalId
  accumulatedText : s'.accumulatedText = s.accumulatedText

theorem same_commit (s : Segment Value) (now : ℤ) (state : SegmentState) (reason : Option String) :
    Same s (s.commitStreamedTranscriptSegmentSnapshot now state reason) := by
  rw [commitStreamedTranscriptSegmentSnapshot]
  split_ifs <;> exact ⟨rfl, rfl, rfl⟩

theorem LiveStep.same (h : LiveStep s s') : Same s s' := by
  obtain ⟨_, _, _, _, _, _⟩ := h
  exact ⟨rfl, rfl, rfl⟩

theorem Same.trans {s'' : Segment Value} (h : Same s s') (h' : Same s' s'') : Same s s'' :=
  ⟨h'.key.trans h.key, h'.segmentLocalId.trans h.segmentLocalId, h'.accumulatedText.trans h.accumulatedText⟩

theorem same_clear (s : Segment Value) : Same s s.clearDurableCheckpointTimer := ⟨rfl, rfl, rfl⟩

/-- A segment that has left the map: its timers are off. -/
structure Closed (s : Segment Value) : Prop where
  checkpoint : s.durableCheckpointTimer = false
  live : s.liveSnapshotTimer = false

theorem flush_spec (h : s.Sound) (hopen : s.Open) (hstate : state ≠ .streaming) (config : Config) (enabled : Bool)
    (now : ℤ) (number : ℕ) (reason : Option String) :
    (s.flush config enabled now number state reason).Sound ∧
      (s.flush config enabled now number state reason).Flushed state s.accumulatedText number ∧
      (s.flush config enabled now number state reason).Closed ∧
      Same s (s.flush config enabled now number state reason) := by
  simp only [flush]
  have hlive := (LiveStep.timer s.clearDurableCheckpointTimer false).trans
    (liveStep_emitLiveSnapshot config s.clearDurableCheckpointTimer.clearLiveSnapshotTimer now state reason)
  have hsound := hlive.sound (h.congr rfl rfl rfl rfl le_rfl rfl)
  have hopened := hlive.open (hopen.congr rfl rfl rfl)
  have hsame := hlive.same
  have hoff : (s.clearDurableCheckpointTimer.clearLiveSnapshotTimer.emitLiveSnapshot config now state
      reason).liveSnapshotTimer = false := by
    rw [emitLiveSnapshot]
    split_ifs <;> rfl
  generalize s.clearDurableCheckpointTimer.clearLiveSnapshotTimer.emitLiveSnapshot config now state reason = s₁
    at *
  have hcleared : s₁.clearDurableCheckpointTimer.Sound := hsound.congr rfl rfl rfl rfl le_rfl rfl
  have hclearedOpen : s₁.clearDurableCheckpointTimer.Open := hopened.congr rfl rfl rfl
  have hcommit : s₁.commitDurableSnapshot enabled now state reason true =
      s₁.clearDurableCheckpointTimer.commitStreamedTranscriptSegmentSnapshot now state reason := by
    simp [commitDurableSnapshot]
  rw [hcommit]
  have hstage := hclearedOpen.commitFinal hcleared hstate now reason
  have hbusy := committing_of_issued s₁.clearDurableCheckpointTimer now state reason
  have hnext := hcleared.commit hclearedOpen.streaming now state reason
  have hsame' := hsame.trans
    ((same_clear s₁).trans (same_commit s₁.clearDurableCheckpointTimer now state reason))
  have htimers : (s₁.clearDurableCheckpointTimer.commitStreamedTranscriptSegmentSnapshot now state reason).Closed := by
    rw [commitStreamedTranscriptSegmentSnapshot]
    split_ifs <;> exact ⟨rfl, hoff⟩
  generalize commitStreamedTranscriptSegmentSnapshot s₁.clearDurableCheckpointTimer now state reason = s₂ at *
  have hwaits : s₂.waitForSegmentDrain number = { s₂ with idleWaiters := s₂.idleWaiters ++ [number] } := by
    rw [waitForSegmentDrain, isCommittingDurable, hbusy]
    rfl
  rw [hwaits]
  refine ⟨hnext.congr rfl rfl rfl rfl le_rfl rfl, ⟨hstate, hsame'.accumulatedText, .inl (by simp), ?_⟩,
    ⟨htimers.checkpoint, htimers.live⟩, ⟨hsame'.key, hsame'.segmentLocalId, hsame'.accumulatedText⟩⟩
  rcases hstage with hqueued | hfinal
  · exact .inl ⟨hqueued.streaming, hqueued.pending⟩
  · exact .inr ⟨hfinal.pending, hfinal.last, hfinal.unfinished, hfinal.finished⟩

theorem EndStep.final {c : Committing} {outcome : Outcome} (hstep : EndStep s s' c outcome) (h : s.Sound)
    (hfinal : s.Final state) : s'.Final state := by
  obtain ⟨-, -, htext, hversion, hmeta, hpending, -⟩ := hstep.frame
  obtain ⟨old, k, hcommits, hold, hks, hkv, hkt, hcarries⟩ := hfinal.last
  have hcurrent : c.version = s.textVersion ∧ c.state = state := by
    obtain ⟨k', hk', hv, hs, -⟩ := h.current c hstep.before
    rw [hcommits, List.getLast?_concat] at hk'
    obtain rfl := Option.some.inj hk'
    exact ⟨hv.symm.trans hkv, hs.symm.trans hks⟩
  refine ⟨hpending.trans hfinal.pending, ⟨old, k, hstep.commits.trans hcommits, hold, hks, ?_, ?_, ?_⟩, ?_, ?_⟩
  · rw [hversion, hkv]
  · rw [htext, hkt]
  · rw [Carries, hmeta]
    exact hcarries
  · rw [hstep.committing]
    rintro c' ⟨⟩ hrunning
    cases hrunning
  · intro _
    refine ⟨outcome, by rw [hstep.outcomes, List.getLast?_concat]; rfl, ?_⟩
    rw [hversion]
    constructor
    · intro hpersisted
      obtain ⟨-, hv, hs⟩ := hstep.persisted hpersisted
      rw [hv, hs, hcurrent.1, hcurrent.2]
      exact ⟨rfl, rfl⟩
    · rintro ⟨-, hs⟩
      by_contra hnot
      rw [(hstep.otherwise hnot).2.2] at hs
      exact hfinal.unfinished c hstep.before hstep.running hs

theorem EndStep.flushed {c : Committing} {outcome : Outcome} {n : ℕ} (hstep : EndStep s s' c outcome) (h : s.Sound)
    (hflushed : s.Flushed state text n) : s'.Flushed state text n := by
  obtain ⟨-, -, htext, -, -, hpending, hwaiters⟩ := hstep.frame
  refine ⟨hflushed.final, htext.trans hflushed.text, ?_, ?_⟩
  · rw [hwaiters]
    refine .inl (hflushed.waits.resolve_right fun hnone => ?_)
    rw [hstep.before] at hnone
    cases hnone
  · rcases hflushed.stage with hqueued | hfinal
    · left
      refine ⟨?_, ?_⟩
      · rw [StreamingOnly, hstep.commits]
        exact hqueued.streaming
      · rw [hpending]
        exact hqueued.pending
    · exact .inr (hstep.final h hfinal)

theorem FinallyStep.flushed {n : ℕ} (hstep : FinallyStep s now s') (h : s.Sound)
    (hflushed : s.Flushed state text n) : s'.Flushed state text n := by
  cases hstep with
  | next c p hc hended hp =>
      have hqueued : s.Queued state := by
        refine hflushed.stage.resolve_right fun hfinal => ?_
        rw [hfinal.pending] at hp
        cases hp
      have hstate : p.state = state := by
        obtain ⟨p', hp', hs⟩ := hqueued.pending
        rw [hp] at hp'
        obtain rfl := Option.some.inj hp'
        exact hs
      obtain ⟨pstate, preason⟩ := p
      obtain rfl : pstate = state := hstate
      have hsound := h.cleared hc hended s.idleWaiters
      have hfinal := Sound.final hsound hqueued.streaming rfl rfl hflushed.final now preason
      have hsame := same_commit { s with committing := none, pendingDurableCommit := none } now pstate preason
      refine ⟨hflushed.final, hsame.accumulatedText.trans hflushed.text, ?_, .inr hfinal⟩
      refine .inl (hflushed.waits.resolve_right fun hnone => ?_)
      rw [hc] at hnone
      cases hnone
  | idle c hc hended hp =>
      have hfinal : s.Final state := by
        refine hflushed.stage.resolve_left fun hqueued => ?_
        obtain ⟨p, hp', -⟩ := hqueued.pending
        rw [hp] at hp'
        cases hp'
      refine ⟨hflushed.final, hflushed.text, .inr rfl, .inr ⟨rfl, hfinal.last, nofun, fun _ => ?_⟩⟩
      refine hfinal.finished fun c' hc' => ?_
      rw [hc] at hc'
      obtain rfl := Option.some.inj hc'
      exact hended

structure Evolves (mapped : Prop) (s s' : Segment Value) : Prop where
  key : s'.key = s.key
  segmentLocalId : s'.segmentLocalId = s.segmentLocalId
  sound : (mapped → s.Open) → s.Sound → s'.Sound
  opened : mapped → s.Open → s'.Open
  closed : ¬ mapped → s.Closed → s'.Closed
  flushed : ¬ mapped → ∀ state text n, s.Sound → s.Flushed state text n → s'.Flushed state text n
  idle : ¬ mapped → s.Closed → s.committing = none → s' = s

theorem Evolves.refl (mapped : Prop) (s : Segment Value) : Evolves mapped s s :=
  ⟨rfl, rfl, fun _ h => h, fun _ h => h, fun _ h => h, fun _ _ _ _ _ h => h, fun _ _ _ => rfl⟩

theorem Evolves.of_mapped {mapped : Prop} (hmapped : mapped) (hkey : s'.key = s.key)
    (hid : s'.segmentLocalId = s.segmentLocalId) (h : s.Open → s.Sound → s'.Sound ∧ s'.Open)
    (hopen : s.Open → s'.Open) : Evolves mapped s s' where
  key := hkey
  segmentLocalId := hid
  sound := fun hopened hsound => (h (hopened hmapped) hsound).1
  opened := fun _ => hopen
  closed := fun hnot => absurd hmapped hnot
  flushed := fun hnot => absurd hmapped hnot
  idle := fun hnot => absurd hmapped hnot

theorem CheckpointStep.same (hstep : CheckpointStep s now s') : Same s s' := by
  cases hstep with
  | timer armed => exact ⟨rfl, rfl, rfl⟩
  | commit => exact (same_clear s).trans (same_commit s.clearDurableCheckpointTimer now .streaming none)

theorem CheckpointStep.evolves (hstep : CheckpointStep s now s') {mapped : Prop} (hmapped : mapped) :
    Evolves mapped s s' :=
  .of_mapped hmapped hstep.same.key hstep.same.segmentLocalId
    (fun hopen hsound => ⟨hstep.sound hsound hopen, hstep.open hopen⟩) hstep.open

theorem textChanged_spec (config : Config) (enabled : Bool) (s : Segment Value) (now : ℤ) :
    ∃ s₁, LiveStep { s with
        textVersion := s.textVersion + 1
        exempt := leftUncovered config { s with textVersion := s.textVersion + 1 } } s₁ ∧
      CheckpointStep s₁ now (s.textChanged config enabled now) :=
  ⟨_, liveStep_maybeEmitLiveStreamingSnapshot config _ now,
    checkpointStep_maybeCommitDurableStreamingSnapshot config enabled _ now true⟩

theorem textChanged_evolves (config : Config) (enabled : Bool) (s : Segment Value) (now : ℤ) {mapped : Prop}
    (hmapped : mapped) : Evolves mapped s (s.textChanged config enabled now) := by
  obtain ⟨s₁, hlive, hstep⟩ := textChanged_spec config enabled s now
  have hopen : s.Open → s₁.Open := fun h => hlive.open (h.congr rfl rfl rfl)
  refine .of_mapped hmapped ?_ ?_ (fun hopened hsound => ⟨?_, ?_⟩) fun h => hstep.open (hopen h)
  · exact hstep.same.key.trans hlive.same.key
  · exact hstep.same.segmentLocalId.trans hlive.same.segmentLocalId
  · exact hstep.sound (hlive.sound (hsound.congr rfl rfl rfl rfl (Nat.le_succ _) rfl)) (hopen hopened)
  · exact hstep.open (hopen hopened)

theorem textChanged_text (config : Config) (enabled : Bool) (s : Segment Value) (now : ℤ) :
    (s.textChanged config enabled now).accumulatedText = s.accumulatedText := by
  obtain ⟨s₁, hlive, hstep⟩ := textChanged_spec config enabled s now
  exact hstep.same.accumulatedText.trans hlive.same.accumulatedText

theorem Evolves.congr {mapped : Prop} {s₁ : Segment Value} (h : Evolves mapped s₁ s') (hmapped : mapped)
    (hkey : s₁.key = s.key) (hid : s₁.segmentLocalId = s.segmentLocalId) (hsound : s.Sound → s₁.Sound)
    (hopen : s.Open → s₁.Open) : Evolves mapped s s' :=
  .of_mapped hmapped (h.key.trans hkey) (h.segmentLocalId.trans hid)
    (fun hopened hs => ⟨h.sound (fun _ => hopen hopened) (hsound hs), h.opened hmapped (hopen hopened)⟩)
    fun hopened => h.opened hmapped (hopen hopened)

theorem append_evolves (config : Config) (enabled : Bool) (s : Segment Value) (now : ℤ) (text : Text)
    {mapped : Prop} (hmapped : mapped) : Evolves mapped s (s.append config enabled now text) := by
  refine (textChanged_evolves config enabled _ now hmapped).congr hmapped rfl rfl (fun h => ?_) fun h => ?_
  · exact h.congr rfl rfl rfl rfl le_rfl rfl
  · exact h.congr rfl rfl rfl

theorem overrideText_evolves (config : Config) (enabled : Bool) (s : Segment Value) (now : ℤ) (text : Text)
    {mapped : Prop} (hmapped : mapped) : Evolves mapped s (s.overrideText config enabled now text) := by
  rw [overrideText]
  split_ifs
  · exact .refl mapped s
  · refine (textChanged_evolves config enabled _ now hmapped).congr hmapped rfl rfl (fun h => ?_) fun h => ?_
    · exact h.congr rfl rfl rfl rfl le_rfl rfl
    · exact h.congr rfl rfl rfl

theorem mergeMeta_evolves (s : Segment Value) (fields : List (String × Value)) {mapped : Prop} (hmapped : mapped) :
    Evolves mapped s (s.mergeMeta fields) :=
  .of_mapped hmapped rfl rfl
    (fun hopen hsound => ⟨hsound.congr rfl rfl rfl rfl le_rfl rfl, hopen.congr rfl rfl rfl⟩)
    fun hopen => hopen.congr rfl rfl rfl

theorem checkpointTimerFired_evolves (enabled : Bool) (s : Segment Value) (now : ℤ) (mapped : Bool) (inMap : Prop)
    (h : ¬ inMap → s.Closed) : Evolves inMap s (s.checkpointTimerFired enabled now mapped) := by
  by_cases hmap : inMap
  · exact (checkpointStep_checkpointTimerFired enabled s now mapped).evolves hmap
  · rw [checkpointTimerFired, if_neg (by simp [(h hmap).checkpoint])]
    exact .refl inMap s

theorem liveTimerFired_evolves (config : Config) (s : Segment Value) (now : ℤ) (mapped : Bool) (inMap : Prop)
    (h : ¬ inMap → s.Closed) : Evolves inMap s (s.liveTimerFired config now mapped) := by
  by_cases hmap : inMap
  · have hlive := liveStep_liveTimerFired config s now mapped
    exact .of_mapped hmap hlive.same.key hlive.same.segmentLocalId
      (fun hopen hsound => ⟨hlive.sound hsound, hlive.open hopen⟩) hlive.open
  · rw [liveTimerFired, if_neg (by simp [(h hmap).live])]
    exact .refl inMap s

theorem commitEnded_evolves (s : Segment Value) (now : ℤ) (outcome : Outcome) (inMap : Prop) :
    Evolves inMap s (s.commitEnded now outcome) := by
  rcases endStep_or s now outcome with heq | ⟨c, hstep⟩
  · rw [heq]
    exact .refl inMap s
  · refine ⟨hstep.frame.1, hstep.frame.2.1, fun _ => hstep.sound, fun _ => hstep.open, fun _ h => ?_,
      fun _ _ _ _ => hstep.flushed, fun _ _ hnone => ?_⟩
    · exact ⟨hstep.timers.1.trans h.checkpoint, hstep.timers.2.trans h.live⟩
    · rw [hstep.before] at hnone
      cases hnone

theorem FinallyStep.same (hstep : FinallyStep s now s') : Same s s' := by
  cases hstep with
  | next c p hc hended hp =>
      have hsame := same_commit { s with committing := none, pendingDurableCommit := none } now p.state
        p.interruptedReason
      exact ⟨hsame.key, hsame.segmentLocalId, hsame.accumulatedText⟩
  | idle c hc hended hp => exact ⟨rfl, rfl, rfl⟩

theorem FinallyStep.closed (hstep : FinallyStep s now s') (h : s.Closed) : s'.Closed := by
  cases hstep with
  | next c p hc hended hp =>
      rw [commitStreamedTranscriptSegmentSnapshot]
      split_ifs <;> exact ⟨h.checkpoint, h.live⟩
  | idle c hc hended hp => exact ⟨h.checkpoint, h.live⟩

theorem FinallyStep.busy (hstep : FinallyStep s now s') : s.committing ≠ none := by
  cases hstep with
  | next c p hc hended hp => simp [hc]
  | idle c hc hended hp => simp [hc]

theorem commitFinally_evolves (s : Segment Value) (now : ℤ) (inMap : Prop) :
    Evolves inMap s (s.commitFinally now) := by
  rcases finallyStep_or s now with heq | hstep
  · rw [heq]
    exact .refl inMap s
  · refine ⟨hstep.same.key, hstep.same.segmentLocalId, fun _ => hstep.sound, fun _ => hstep.open,
      fun _ => hstep.closed, fun _ _ _ _ => hstep.flushed, fun _ _ hnone => ?_⟩
    exact absurd hnone hstep.busy

end Segment

end DevPilot.Streaming
