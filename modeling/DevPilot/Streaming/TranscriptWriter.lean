import DevPilot.Lib.OrderedMap
import DevPilot.Lib.PathText
import DevPilot.Lib.Runs

/-!
The writer of streamed transcripts: the text of a segment grows delta by delta, live snapshots
and durable commits of it go to the session, and a flush ends the segment.
-/

namespace DevPilot.Streaming

open OrderedMaps

abbrev Text := List UInt16

inductive SegmentKind
  | assistant
  | thinking
deriving DecidableEq, Repr

inductive SegmentState
  | streaming
  | complete
  | interrupted
deriving DecidableEq, Repr

structure Config where
  ephemeral : Bool
  initialCheckpointDelayMs : ℕ
  checkpointIntervalMs : ℕ
  checkpointMinChars : ℕ
  liveSnapshotIntervalMs : ℕ
  liveSnapshotMinChars : ℕ

def SegmentKind.text : SegmentKind → String
  | .assistant => "assistant"
  | .thinking => "thinking"

def normalizeSidechainId (input : Option String) : Option String :=
  let trimmed := (input.map fun t => String.ofList (PathText.trim t.toList)).getD ""
  if trimmed = "" then none else some trimmed

def buildStreamedTranscriptSegmentKey (kind : SegmentKind) (sidechainId : Option String) : String :=
  kind.text ++ ":" ++ sidechainId.getD "main"

structure SegmentMeta where
  segmentKind : SegmentKind
  segmentLocalId : ℕ
  segmentState : SegmentState
  startedAtMs : ℤ
  updatedAtMs : ℤ
  interruptedReason : Option String
deriving DecidableEq, Repr

inductive MetaValue (Value : Type)
  | segment (m : SegmentMeta)
  | merged (v : Value)
deriving DecidableEq, Repr

structure SnapshotBody where
  kind : SegmentKind
  text : Text
  sidechainId : Option String
deriving DecidableEq, Repr

structure Snapshot (Value : Type) where
  localId : ℕ
  body : SnapshotBody
  fields : OrderedMap String (MetaValue Value)

inductive Outcome
  | persisted
  | notPersisted
  | failed
deriving DecidableEq, Repr

structure Commit (Value : Type) where
  snapshot : Snapshot Value
  version : ℕ
  state : SegmentState

/-- What a segment has handed to the session, and what came of it. -/
inductive Entry (Value : Type)
  | live (snapshot : Snapshot Value)
  | commit (c : Commit Value)
  | ended (outcome : Outcome)

/-- What the callbacks of a commit remember of it. -/
structure Committing where
  text : Text
  version : ℕ
  state : SegmentState
  /-- Its promise has ended, and `finally` comes next. -/
  ended : Bool := false
deriving DecidableEq, Repr

structure PendingCommit where
  state : SegmentState
  interruptedReason : Option String
deriving DecidableEq, Repr

structure Segment (Value : Type) where
  key : String
  kind : SegmentKind
  sidechainId : Option String
  segmentLocalId : ℕ
  startedAtMs : ℤ
  accumulatedText : Text := []
  textVersion : ℕ := 0
  didWriteDurable : Bool := false
  didWriteLive : Bool := false
  lastDurableText : Text := []
  lastCheckpointAtMs : ℤ := 0
  lastCheckpointTextLen : ℕ := 0
  lastCommittedTextVersion : ℕ := 0
  lastCommittedState : Option SegmentState := none
  lastCommitFailedAtMs : ℤ := 0
  lastLiveSnapshotAtMs : ℤ := 0
  lastLiveSnapshotTextLen : ℕ := 0
  lastLiveSnapshotText : Text := []
  additionalMeta : OrderedMap String Value := .empty
  durableCheckpointTimer : Bool := false
  liveSnapshotTimer : Bool := false
  committing : Option Committing := none
  pendingDurableCommit : Option PendingCommit := none
  /-- The flushes that wait for the segment to drain. -/
  idleWaiters : List ℕ := []
  /-- The version of the text at its last delta. -/
  deltaVersion : ℕ := 0
  /-- Whether anything, at the last change of the text or since, has left it without a
  checkpoint to come. -/
  exempt : Bool := false
  log : List (Entry Value) := []

namespace Segment

variable {Value : Type} (config : Config) (enabled : Bool) (s : Segment Value) (now : ℤ)

def isCommittingDurable : Bool := s.committing.isSome

def snapshotBody : SnapshotBody := ⟨s.kind, s.accumulatedText, s.sidechainId⟩

def snapshotMeta (state : SegmentState) (interruptedReason : Option String) :
    OrderedMap String (MetaValue Value) :=
  let own : SegmentMeta :=
    { segmentKind := s.kind
      segmentLocalId := s.segmentLocalId
      segmentState := state
      startedAtMs := s.startedAtMs
      updatedAtMs := now
      interruptedReason :=
        if state = .interrupted then interruptedReason.filter (· ≠ "") else none }
  s.additionalMeta.entries.foldl (fun m e => m.set e.1 (.merged e.2))
    (OrderedMap.empty.set "happierStreamSegmentV1" (.segment own))

def snapshot (state : SegmentState) (interruptedReason : Option String) : Snapshot Value :=
  ⟨s.segmentLocalId, s.snapshotBody, s.snapshotMeta now state interruptedReason⟩

def commitStreamedTranscriptSegmentSnapshot (state : SegmentState) (interruptedReason : Option String) :
    Segment Value :=
  if s.isCommittingDurable then { s with pendingDurableCommit := some ⟨state, interruptedReason⟩ }
  else
    { s with
      committing := some ⟨s.accumulatedText, s.textVersion, state, false⟩
      log := s.log ++ [Entry.commit ⟨s.snapshot now state interruptedReason, s.textVersion, state⟩] }

def commitEnded (outcome : Outcome) : Segment Value :=
  match s.committing with
  | none => s
  | some c =>
    if c.ended then s
    else
      let s := { s with committing := some { c with ended := true }, log := s.log ++ [Entry.ended outcome] }
      match outcome with
      | .persisted =>
        { s with
          didWriteDurable := true
          lastDurableText := c.text
          lastCheckpointAtMs := now
          lastCheckpointTextLen := c.text.length
          lastCommittedTextVersion := c.version
          lastCommittedState := some c.state }
      | .notPersisted => { s with exempt := true }
      | .failed => { s with lastCommitFailedAtMs := now, exempt := true }

def commitFinally : Segment Value :=
  match s.committing with
  | none => s
  | some c =>
    if c.ended then
      let s' := { s with committing := none, pendingDurableCommit := none }
      match s.pendingDurableCommit with
      | some p => s'.commitStreamedTranscriptSegmentSnapshot now p.state p.interruptedReason
      | none => { s' with idleWaiters := [] }
    else s

def waitForSegmentDrain (flush : ℕ) : Segment Value :=
  if !s.isCommittingDurable && s.pendingDurableCommit.isNone then s
  else { s with idleWaiters := s.idleWaiters ++ [flush] }

def clearDurableCheckpointTimer : Segment Value := { s with durableCheckpointTimer := false }

def clearLiveSnapshotTimer : Segment Value := { s with liveSnapshotTimer := false }

def commitDurableSnapshot (state : SegmentState) (interruptedReason : Option String) (force : Bool) :
    Segment Value :=
  let s := s.clearDurableCheckpointTimer
  if !enabled && !force then s else s.commitStreamedTranscriptSegmentSnapshot now state interruptedReason

def hasDirtyDurableText : Bool := s.accumulatedText ≠ s.lastDurableText

def getDirtyAppendChars : ℤ :=
  if s.lastDurableText.isPrefixOf s.accumulatedText then
    (s.accumulatedText.length : ℤ) - s.lastDurableText.length
  else config.checkpointMinChars

/-- `mapped` tells whether the writer still has a segment of this key. -/
def commitScheduledDurableSnapshot (mapped : Bool) : Segment Value :=
  if !mapped then s
  else if !s.hasDirtyDurableText then s
  else s.commitDurableSnapshot enabled now .streaming none false

def scheduleDurableCheckpoint (mapped : Bool) : Segment Value :=
  if !enabled then s.clearDurableCheckpointTimer
  else if !s.hasDirtyDurableText then s.clearDurableCheckpointTimer
  else if s.durableCheckpointTimer then s
  else
    let elapsedMs := if s.didWriteDurable then now - s.lastCheckpointAtMs else 0
    let targetDelayMs :=
      if s.didWriteDurable then config.checkpointIntervalMs else config.initialCheckpointDelayMs
    let delayMs : ℤ := if targetDelayMs ≤ 0 then 0 else max 0 (targetDelayMs - elapsedMs)
    if delayMs ≤ 0 then s.commitScheduledDurableSnapshot enabled now mapped
    else { s with durableCheckpointTimer := true }

def maybeCommitDurableStreamingSnapshot (mapped : Bool) : Segment Value :=
  if !enabled then s.clearDurableCheckpointTimer
  else if !s.hasDirtyDurableText then s.clearDurableCheckpointTimer
  else if !s.didWriteDurable then
    if !config.ephemeral then
      if !s.isCommittingDurable ||
          (config.checkpointIntervalMs = 0 && config.checkpointMinChars ≤ s.getDirtyAppendChars config) then
        s.commitDurableSnapshot enabled now .streaming none false
      else s
    else s.scheduleDurableCheckpoint config enabled now mapped
  else if config.checkpointIntervalMs = 0 then
    if config.checkpointMinChars ≤ s.getDirtyAppendChars config then
      s.commitDurableSnapshot enabled now .streaming none false
    else s.scheduleDurableCheckpoint config enabled now mapped
  else if config.checkpointIntervalMs ≤ now - s.lastCheckpointAtMs ∧
      config.checkpointMinChars ≤ s.getDirtyAppendChars config then
    s.commitDurableSnapshot enabled now .streaming none false
  else s.scheduleDurableCheckpoint config enabled now mapped

def checkpointTimerFired (mapped : Bool) : Segment Value :=
  if s.durableCheckpointTimer then
    s.clearDurableCheckpointTimer.commitScheduledDurableSnapshot enabled now mapped
  else s

def emitLiveSnapshot (state : SegmentState) (interruptedReason : Option String) : Segment Value :=
  if !config.ephemeral then s
  else
    let s := s.clearLiveSnapshotTimer
    { s with
      didWriteLive := true
      lastLiveSnapshotAtMs := now
      lastLiveSnapshotTextLen := s.accumulatedText.length
      lastLiveSnapshotText := s.accumulatedText
      log := s.log ++ [Entry.live (s.snapshot now state interruptedReason)] }

def scheduleLiveSnapshot : Segment Value :=
  if !config.ephemeral then s
  else if s.liveSnapshotTimer then s
  else if s.accumulatedText = s.lastLiveSnapshotText then s
  else { s with liveSnapshotTimer := true }

def maybeEmitLiveStreamingSnapshot : Segment Value :=
  if !config.ephemeral then s
  else if !s.didWriteLive then s.emitLiveSnapshot config now .streaming none
  else if s.accumulatedText = s.lastLiveSnapshotText then s
  else
    let isPureAppend := s.lastLiveSnapshotText.isPrefixOf s.accumulatedText
    let addedChars : ℤ :=
      if isPureAppend then (s.accumulatedText.length : ℤ) - s.lastLiveSnapshotText.length
      else config.liveSnapshotMinChars
    let elapsedMs := now - s.lastLiveSnapshotAtMs
    let shouldEmitImmediately : Bool :=
      if !isPureAppend then true
      else if config.liveSnapshotIntervalMs = 0 then config.liveSnapshotMinChars ≤ addedChars
      else config.liveSnapshotIntervalMs ≤ elapsedMs && config.liveSnapshotMinChars ≤ addedChars
    if shouldEmitImmediately then s.emitLiveSnapshot config now .streaming none
    else s.scheduleLiveSnapshot config

def liveTimerFired (mapped : Bool) : Segment Value :=
  if s.liveSnapshotTimer then
    let s := s.clearLiveSnapshotTimer
    if !mapped then s
    else if s.accumulatedText = s.lastLiveSnapshotText then s
    else s.emitLiveSnapshot config now .streaming none
  else s

/-- Whether the change of the text leaves it without a checkpoint to come: the first commit is
under way and there are no live snapshots, or the text is the last persisted one again while
another one is under way. -/
def leftUncovered : Bool :=
  (!config.ephemeral && !s.didWriteDurable && s.isCommittingDurable &&
      !(config.checkpointIntervalMs = 0 && config.checkpointMinChars ≤ s.getDirtyAppendChars config)) ||
    (!s.hasDirtyDurableText && s.committing.any fun c => !c.ended && c.text ≠ s.accumulatedText)

def textChanged : Segment Value :=
  let s := { s with textVersion := s.textVersion + 1 }
  let s := { s with exempt := s.leftUncovered config }
  (s.maybeEmitLiveStreamingSnapshot config now).maybeCommitDurableStreamingSnapshot config enabled now true

def append (deltaText : Text) : Segment Value :=
  textChanged config enabled
    { s with accumulatedText := s.accumulatedText ++ deltaText, deltaVersion := s.textVersion + 1 } now

def overrideText (text : Text) : Segment Value :=
  if s.accumulatedText = text then s
  else textChanged config enabled { s with accumulatedText := text } now

def mergeMeta (fields : List (String × Value)) : Segment Value :=
  { s with additionalMeta := fields.foldl (fun m e => m.set e.1 e.2) s.additionalMeta }

def flush (number : ℕ) (state : SegmentState) (interruptedReason : Option String) : Segment Value :=
  let s := s.clearDurableCheckpointTimer.clearLiveSnapshotTimer
  ((s.emitLiveSnapshot config now state interruptedReason).commitDurableSnapshot enabled now state
    interruptedReason true).waitForSegmentDrain number

def discard : Segment Value :=
  { s.clearDurableCheckpointTimer.clearLiveSnapshotTimer with
    pendingDurableCommit := none, idleWaiters := [] }

def didSegmentDurablyFlush (expectedState : SegmentState) : Bool :=
  if s.accumulatedText.length = 0 then false
  else s.lastCommittedTextVersion = s.textVersion && s.lastCommittedState = some expectedState

end Segment

structure SegmentFlushSummary where
  kind : SegmentKind
  sidechainId : Option String
  sawText : Bool
  didDurablyFlush : Bool
  lastCommittedState : Option SegmentState
deriving DecidableEq, Repr

structure Aggregate where
  sawText : Bool
  didDurablyFlush : Bool
deriving DecidableEq, Repr

structure FlushSummary where
  assistant : Aggregate
  assistantRoot : Aggregate
  thinking : Aggregate
  thinkingRoot : Aggregate
  segments : List SegmentFlushSummary
deriving DecidableEq, Repr

/-- `sidechainId` is there where the aggregate is about one. -/
def buildAggregate (segments : List SegmentFlushSummary) (kind : SegmentKind)
    (sidechainId : Option (Option String)) : Aggregate :=
  let found := segments.filter fun s =>
    s.kind = kind && s.sawText && (sidechainId.all fun id => s.sidechainId = id)
  ⟨!found.isEmpty, !found.isEmpty && found.all (·.didDurablyFlush)⟩

def buildFlushSummary {Value : Type} (flushedSegments : List (Segment Value)) (expectedState : SegmentState) :
    FlushSummary :=
  let segments := flushedSegments.map fun s =>
    { kind := s.kind
      sidechainId := s.sidechainId
      sawText := 0 < s.accumulatedText.length
      didDurablyFlush := s.didSegmentDurablyFlush expectedState
      lastCommittedState := s.lastCommittedState : SegmentFlushSummary }
  { assistant := buildAggregate segments .assistant none
    assistantRoot := buildAggregate segments .assistant (some none)
    thinking := buildAggregate segments .thinking none
    thinkingRoot := buildAggregate segments .thinking (some none)
    segments := segments }

inductive FlushReason
  | toolCallBoundary
  | turnEnd
  | abort
deriving DecidableEq, Repr

def FlushReason.state : FlushReason → SegmentState
  | .abort => .interrupted
  | _ => .complete

/-- A call of `flushAll`: the segments it has flushed, with their texts. -/
structure Flush where
  state : SegmentState
  segments : List (ℕ × Text)
  summary : Option FlushSummary := none
deriving DecidableEq, Repr

structure Writer (Value : Type) where
  durableCommitsEnabled : Bool
  /-- The segments by key, each the number of one that was created. -/
  segments : OrderedMap String ℕ := .empty
  created : List (Segment Value) := []
  localIds : ℕ := 0
  flushes : List Flush := []

inductive Event (Value : Type)
  | appendDelta (kind : SegmentKind) (deltaText : Text) (sidechainId : Option String) (now : ℤ)
  | overrideText (kind : SegmentKind) (text : Text) (sidechainId : Option String) (now : ℤ)
  | mergeMeta (kind : SegmentKind) (fields : List (String × Value)) (sidechainId : Option String)
  | enableDurableCommits (now : ℤ)
  | discard
  | flushAll (reason : FlushReason) (interruptedReason : Option String) (now : ℤ)
  /-- The promise that `flushAll` has returned resolves. -/
  | flushResolves (flush : ℕ)
  | checkpointTimer (segment : ℕ) (now : ℤ)
  | liveTimer (segment : ℕ) (now : ℤ)
  | commitEnded (segment : ℕ) (outcome : Outcome) (now : ℤ)
  | commitFinally (segment : ℕ) (now : ℤ)

namespace Writer

variable {Value : Type} (config : Config) (w : Writer Value)

def mapped (s : Segment Value) : Bool := (w.segments.get s.key).isSome

def modify (segment : ℕ) (f : Segment Value → Segment Value) : Writer Value :=
  { w with created := w.created.modify segment f }

def modifyLive (f : Segment Value → Segment Value) : Writer Value :=
  { w with created := w.created.mapIdx fun i s => if i ∈ w.segments.entries.map Prod.snd then f s else s }

/-- The writer with a segment of the key, and which one that is. -/
def getOrCreateSegment (kind : SegmentKind) (sidechainId : Option String) (now : ℤ) : Writer Value × ℕ :=
  let key := buildStreamedTranscriptSegmentKey kind sidechainId
  match w.segments.get key with
  | some i => (w, i)
  | none =>
    ({ w with
        segments := w.segments.set key w.created.length
        created := w.created ++
          [{ key := key, kind := kind, sidechainId := sidechainId, segmentLocalId := w.localIds,
             startedAtMs := now }]
        localIds := w.localIds + 1 }, w.created.length)

def getExistingSegment (kind : SegmentKind) (sidechainId : Option String) : Option ℕ :=
  w.segments.get (buildStreamedTranscriptSegmentKey kind sidechainId)

def appendDelta (kind : SegmentKind) (deltaText : Text) (sidechainId : Option String) (now : ℤ) :
    Writer Value :=
  if deltaText = [] then w
  else
    let (w, i) := w.getOrCreateSegment kind sidechainId now
    w.modify i fun s => s.append config w.durableCommitsEnabled now deltaText

def overrideSegmentText (kind : SegmentKind) (text : Text) (sidechainId : Option String) (now : ℤ) :
    Writer Value :=
  match w.getExistingSegment kind sidechainId with
  | none => w
  | some i => w.modify i fun s => s.overrideText config w.durableCommitsEnabled now text

def mergeSegmentMeta (kind : SegmentKind) (fields : List (String × Value)) (sidechainId : Option String) :
    Writer Value :=
  match w.getExistingSegment kind sidechainId with
  | none => w
  | some i => w.modify i fun s => s.mergeMeta fields

def enableDurableCommits (now : ℤ) : Writer Value :=
  if w.durableCommitsEnabled then w
  else modifyLive { w with durableCommitsEnabled := true } fun s =>
    s.maybeCommitDurableStreamingSnapshot config true now true

def discard : Writer Value :=
  let w := w.modifyLive Segment.discard
  { w with segments := .empty }

def flushAll (reason : FlushReason) (interruptedReason : Option String) (now : ℤ) : Writer Value :=
  let flushed := w.segments.entries.filterMap fun e =>
    (w.created[e.2]?).map fun s => (e.2, s.accumulatedText)
  let flushedWriter := w.modifyLive fun s =>
    s.flush config w.durableCommitsEnabled now w.flushes.length reason.state interruptedReason
  { flushedWriter with
    segments := .empty
    flushes := w.flushes ++ [{ state := reason.state, segments := flushed }] }

def flushedSegments (f : Flush) : List (Segment Value) := f.segments.filterMap fun e => w.created[e.1]?

def flushResolves (n : ℕ) : Writer Value :=
  match w.flushes[n]? with
  | none => w
  | some f =>
    if f.summary = none ∧ (w.flushedSegments f).all fun s => n ∉ s.idleWaiters then
      let summary := buildFlushSummary (w.flushedSegments f) f.state
      { w with flushes := w.flushes.set n { f with summary := some summary } }
    else w

def step (w : Writer Value) : Event Value → Writer Value
  | .appendDelta kind deltaText sidechainId now =>
    w.appendDelta config kind deltaText (normalizeSidechainId sidechainId) now
  | .overrideText kind text sidechainId now =>
    w.overrideSegmentText config kind text (normalizeSidechainId sidechainId) now
  | .mergeMeta kind fields sidechainId => w.mergeSegmentMeta kind fields (normalizeSidechainId sidechainId)
  | .enableDurableCommits now => w.enableDurableCommits config now
  | .discard => w.discard
  | .flushAll reason interruptedReason now => w.flushAll config reason interruptedReason now
  | .flushResolves n => w.flushResolves n
  | .checkpointTimer i now => w.modify i fun s => s.checkpointTimerFired w.durableCommitsEnabled now (w.mapped s)
  | .liveTimer i now => w.modify i fun s => s.liveTimerFired config now (w.mapped s)
  | .commitEnded i outcome now => w.modify i fun s => s.commitEnded now outcome
  | .commitFinally i now => w.modify i fun s => s.commitFinally now

def create (durableCommitsRequireExplicitEnable : Bool) : Writer Value :=
  { durableCommitsEnabled := !durableCommitsRequireExplicitEnable }

end Writer

end DevPilot.Streaming
