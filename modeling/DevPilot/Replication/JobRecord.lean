import Mathlib.Tactic

/-!
The durable record of a workspace replication job, and how the store merges a
record it is asked to write into the one on disk.
-/

namespace DevPilot.Replication

inductive JobState
  | pending
  | inProgress
  | completed
  | aborted
  | failed
  | awaitingRecovery
deriving DecidableEq, Repr

def JobState.isTerminal : JobState → Bool
  | .completed | .aborted | .failed | .awaitingRecovery => true
  | .pending | .inProgress => false

inductive Phase
  | planning
  | negotiateMissingDigests
  | transferMissingBlobsToTargetCas
  | apply
  | commitBaseline
deriving DecidableEq, Repr

inductive Checkpoint
  | jobCreated
  | relationshipResolved
  | missingDigestsNegotiated
  | blobTransferStarted
  | blobTransferCompleted
  | applyStarted
  | applyCompleted
  | baselineCommitted
deriving DecidableEq, Repr

def Checkpoint.index : Checkpoint → Nat
  | .jobCreated => 0
  | .relationshipResolved => 1
  | .missingDigestsNegotiated => 2
  | .blobTransferStarted => 3
  | .blobTransferCompleted => 4
  | .applyStarted => 5
  | .applyCompleted => 6
  | .baselineCommitted => 7

structure ProgressCounters where
  plannedFiles : Nat := 0
  plannedBytes : Nat := 0
  transferredFiles : Nat := 0
  transferredBytes : Nat := 0
  appliedFiles : Nat := 0
  appliedBytes : Nat := 0
deriving DecidableEq, Repr

structure JobStatus where
  status : JobState
  phase : Phase
  checkpoint : Checkpoint
  progressCounters : ProgressCounters := {}
  warnings : List String := []
  blockingDivergenceCandidates : List String := []
deriving DecidableEq, Repr

structure Attempt where
  attemptNumber : Nat
  leaseId : String
  ownerId : String
  acquiredAtMs : Nat
deriving DecidableEq, Repr

inductive Strategy
  | transferSnapshot
  | syncChanges
deriving DecidableEq, Repr

inductive ConflictPolicy
  | createSiblingCopy
  | replaceExisting
deriving DecidableEq, Repr

inductive Mode
  | oneWaySafe
  | oneWayReplica
  | twoWaySafe
deriving DecidableEq, Repr

structure ResumeContext where
  targetPath : String
  strategy : Strategy
  conflictPolicy : ConflictPolicy
deriving DecidableEq, Repr

structure JobRecord where
  lastAttempt : Option Attempt := none
  jobId : String
  correlationId : Option String := none
  relationshipId : Option String := none
  directionId : Option String := none
  offerId : Option String := none
  mode : Option Mode := none
  createdAtMs : Nat
  updatedAtMs : Nat
  resumeContext : Option ResumeContext := none
  cancelRequestedAtMs : Option Nat := none
  abortedAtMs : Option Nat := none
  completedAtMs : Option Nat := none
  awaitingRecoveryAtMs : Option Nat := none
  failedAtMs : Option Nat := none
  lastErrorMessage : Option String := none
  result : Option String := none
  status : JobStatus
deriving DecidableEq, Repr

namespace JobRecord

def isTerminal (r : JobRecord) : Bool := r.status.status.isTerminal

def checkpoint (r : JobRecord) : Checkpoint := r.status.checkpoint

end JobRecord

def mergeProgressCounters (a b : ProgressCounters) : ProgressCounters where
  plannedFiles := max a.plannedFiles b.plannedFiles
  plannedBytes := max a.plannedBytes b.plannedBytes
  transferredFiles := max a.transferredFiles b.transferredFiles
  transferredBytes := max a.transferredBytes b.transferredBytes
  appliedFiles := max a.appliedFiles b.appliedFiles
  appliedBytes := max a.appliedBytes b.appliedBytes

/-- With both lists given, the first keeps its repetitions and only what is
new is added. -/
def mergeWarnings (a b : List String) : List String :=
  if b.isEmpty then a
  else if a.isEmpty then b
  else b.foldl (fun merged warning => if warning ∈ merged then merged else merged ++ [warning]) a

/-- The status a write leaves: a checkpoint does not go back, but an outcome
that stops the runner gets through. -/
def mergeStatus (existing incoming : JobStatus) : JobStatus :=
  if incoming.checkpoint.index < existing.checkpoint.index then
    if incoming.status ∈ [.aborted, .failed, .awaitingRecovery] then
      { existing with
        status := incoming.status
        progressCounters := mergeProgressCounters existing.progressCounters incoming.progressCounters
        warnings := mergeWarnings existing.warnings incoming.warnings
        blockingDivergenceCandidates :=
          if incoming.blockingDivergenceCandidates.isEmpty then existing.blockingDivergenceCandidates
          else incoming.blockingDivergenceCandidates }
    else existing
  else if existing.checkpoint = incoming.checkpoint then
    { incoming with
      progressCounters := mergeProgressCounters existing.progressCounters incoming.progressCounters }
  else incoming

def mergeLastAttempt : Option Attempt → Option Attempt → Option Attempt
  | none, incoming => incoming
  | some existing, none => some existing
  | some existing, some incoming =>
      if existing.attemptNumber ≤ incoming.attemptNumber then some incoming else some existing

def mergeJobRecordsForWrite (existing : Option JobRecord) (incoming : JobRecord) : JobRecord :=
  match existing with
  | none => incoming
  | some existing =>
      if existing.isTerminal then existing
      else
        { lastAttempt := mergeLastAttempt existing.lastAttempt incoming.lastAttempt
          jobId := incoming.jobId
          correlationId := incoming.correlationId <|> existing.correlationId
          relationshipId := incoming.relationshipId <|> existing.relationshipId
          directionId := incoming.directionId <|> existing.directionId
          offerId := incoming.offerId <|> existing.offerId
          mode := incoming.mode <|> existing.mode
          createdAtMs := existing.createdAtMs
          updatedAtMs := incoming.updatedAtMs
          resumeContext := incoming.resumeContext <|> existing.resumeContext
          cancelRequestedAtMs := existing.cancelRequestedAtMs <|> incoming.cancelRequestedAtMs
          abortedAtMs := incoming.abortedAtMs <|> existing.abortedAtMs
          completedAtMs := incoming.completedAtMs <|> existing.completedAtMs
          awaitingRecoveryAtMs := incoming.awaitingRecoveryAtMs <|> existing.awaitingRecoveryAtMs
          failedAtMs := incoming.failedAtMs <|> existing.failedAtMs
          lastErrorMessage := incoming.lastErrorMessage <|> existing.lastErrorMessage
          result := incoming.result <|> existing.result
          status := mergeStatus existing.status incoming.status }

/-- A record that may follow `r` on disk: an outcome stays an outcome, the
checkpoint does not go back and a request to cancel stays. -/
structure JobRecord.Keeps (r r' : JobRecord) : Prop where
  terminal : r.isTerminal = true → r'.isTerminal = true
  checkpoint : r.checkpoint.index ≤ r'.checkpoint.index
  cancel : ∀ t, r.cancelRequestedAtMs = some t → r'.cancelRequestedAtMs = some t

instance (r r' : JobRecord) : Decidable (r.Keeps r') :=
  decidable_of_iff
    ((r.isTerminal = true → r'.isTerminal = true) ∧ r.checkpoint.index ≤ r'.checkpoint.index ∧
      (r.cancelRequestedAtMs.isSome = true → r'.cancelRequestedAtMs = r.cancelRequestedAtMs))
    ⟨fun ⟨h₁, h₂, h₃⟩ => ⟨h₁, h₂, fun t ht => (h₃ (by rw [ht]; rfl)).trans ht⟩,
      fun h => ⟨h.terminal, h.checkpoint, fun hs => by
        obtain ⟨t, ht⟩ := Option.isSome_iff_exists.mp hs
        rw [ht, h.cancel t ht]⟩⟩

namespace JobRecord.Keeps

protected theorem refl (r : JobRecord) : r.Keeps r := ⟨id, le_rfl, fun _ => id⟩

protected theorem trans {r₁ r₂ r₃ : JobRecord} (h : r₁.Keeps r₂) (h' : r₂.Keeps r₃) : r₁.Keeps r₃ :=
  ⟨h'.terminal ∘ h.terminal, h.checkpoint.trans h'.checkpoint, fun t => h'.cancel t ∘ h.cancel t⟩

end JobRecord.Keeps

theorem le_mergeStatus_checkpoint (existing incoming : JobStatus) :
    existing.checkpoint.index ≤ (mergeStatus existing incoming).checkpoint.index := by
  rw [mergeStatus]
  by_cases hback : incoming.checkpoint.index < existing.checkpoint.index
  · rw [if_pos hback]
    split <;> exact le_rfl
  · rw [if_neg hback]
    split <;> exact not_lt.mp hback

theorem keeps_mergeJobRecordsForWrite (existing incoming : JobRecord) :
    existing.Keeps (mergeJobRecordsForWrite (some existing) incoming) := by
  rw [mergeJobRecordsForWrite]
  split_ifs with hterminal
  · exact .refl existing
  · refine ⟨fun h => absurd h hterminal, le_mergeStatus_checkpoint _ _, fun t ht => ?_⟩
    simp only [ht]
    rfl

/-- The fields of a record that a later one has to keep. -/
structure Guards where
  terminal : Bool
  checkpoint : Checkpoint
  cancelRequestedAtMs : Option Nat
deriving DecidableEq

def JobRecord.guards (r : JobRecord) : Guards := ⟨r.isTerminal, r.checkpoint, r.cancelRequestedAtMs⟩

theorem JobRecord.keeps_congr {r₁ r₂ r' : JobRecord} (h : r₁.guards = r₂.guards) (hk : r₁.Keeps r') :
    r₂.Keeps r' := by
  obtain ⟨hterminal, hcheckpoint, hcancel⟩ := Guards.mk.inj h
  exact ⟨fun h₂ => hk.terminal (hterminal.trans h₂), hcheckpoint ▸ hk.checkpoint,
    fun t ht => hk.cancel t (hcancel.trans ht)⟩

end DevPilot.Replication
