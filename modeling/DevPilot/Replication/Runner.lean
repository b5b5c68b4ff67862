import DevPilot.Replication.JobRecord
import DevPilot.Lib.Programs

/-!
What the runner of a replication job asks of its stores, leases and callbacks,
and the steps it takes between them.
-/

namespace DevPilot.Replication

open Programs

/-- What is thrown: the error of a request to cancel, another `Error` with its
message unless that is blank, or a value that is no `Error`. -/
inductive Failure
  | cancelRequested
  | error (message : Option String)
  | thrown
deriving DecidableEq, Repr

structure OfferBlob where
  digest : String
  sizeBytes : Nat
deriving DecidableEq, Repr

structure SourceOffer where
  offerId : String
  relationshipId : String
  directionId : String
  sourceFingerprint : String
  blobIndex : List OfferBlob
deriving DecidableEq, Repr

inductive LeaseOf
  | job
  | scope
deriving DecidableEq, Repr

/-- A lease that has been acquired. It always has an id and an attempt. -/
structure AcquiredLease where
  leaseId : String
  attempt : Nat
  acquiredAtMs : Nat
deriving DecidableEq, Repr

inductive ReadSite
  /-- The first one of an execution. -/
  | start
  /-- The one of `runWorkspaceReplicationJob` before it runs the runner. -/
  | current
  /-- The one of `runWorkspaceReplicationJob` after its write. -/
  | merged
  | cancellation
  /-- The one made when a lease is held by another runner. -/
  | latest
  | resumed
  | afterCommit
deriving DecidableEq, Repr

/-- What a safety check finds, unless it gives back a record itself. -/
structure SafetyReport where
  blockingDivergenceCandidates : List String
  lastErrorMessage : Option String := none
deriving DecidableEq, Repr

inductive SafetyResult
  | null
  | record (r : JobRecord)
  | report (r : SafetyReport)
deriving DecidableEq, Repr

structure TransferResult where
  transferredFiles : Nat
  transferredBytes : Nat
deriving DecidableEq, Repr

structure ApplyResult where
  appliedFiles : Nat
  appliedBytes : Nat
  targetPath : String
deriving DecidableEq, Repr

inductive Op
  | now
  | readJob (site : ReadSite)
  | readExisting
  | replaceJob (record : JobRecord)
  | tryAcquireLease (lease : LeaseOf)
  | renewLease (lease : LeaseOf)
  | releaseLease (lease : LeaseOf)
  | startHeartbeat (lease : LeaseOf)
  | stopHeartbeat (lease : LeaseOf)
  | removeStagingDirectory
  | readRelationship (relationshipId : String)
  | resolveSourceOffer (offerId : String)
  | casContains (digest : String)
  | assertSafeToApply (job : JobRecord) (offer : SourceOffer)
  | transferMissingBlobs (job : JobRecord) (offer : SourceOffer) (missingDigests : List String)
      (missingBytes : Nat)
  | applyPlan (job : JobRecord) (offer : SourceOffer)
  | commitBaseline (job : JobRecord) (offer : SourceOffer)
deriving DecidableEq

abbrev Op.Answer : Op → Type
  | .now => Except Failure Nat
  | .readJob _ | .readExisting => Except Failure (Option JobRecord)
  | .tryAcquireLease _ => Except Failure (Option AcquiredLease)
  | .renewLease _ => Except Failure Bool
  | .startHeartbeat _ => Unit
  | .replaceJob _ | .releaseLease _ | .stopHeartbeat _ | .removeStagingDirectory
  | .commitBaseline .. => Except Failure Unit
  -- The id of the relationship, if it is there.
  | .readRelationship _ => Except Failure (Option String)
  | .resolveSourceOffer _ => Except Failure SourceOffer
  | .casContains _ => Except Failure Bool
  | .assertSafeToApply .. => Except Failure SafetyResult
  | .transferMissingBlobs .. => Except Failure TransferResult
  | .applyPlan .. => Except Failure ApplyResult

abbrev Job (α : Type) : Type := Program Op Op.Answer Failure α

/-- `params`, with the owner of the lease and whether there is a safety check. -/
structure ExecuteParams where
  jobId : String
  leaseOwnerId : String
  assertsSafeToApply : Bool
deriving DecidableEq, Repr

def resolveNowMs : Job Nat := .call .now .ofExcept

def readJob (site : ReadSite) : Job (Option JobRecord) := .call (.readJob site) .ofExcept

def writeJob (record : JobRecord) : Job Unit := do
  let existing ← .call .readExisting .ofExcept
  .call (.replaceJob (mergeJobRecordsForWrite existing record)) .ofExcept

def tryAcquireLease (lease : LeaseOf) : Job (Option AcquiredLease) :=
  .call (.tryAcquireLease lease) .ofExcept

def renewLease (lease : LeaseOf) : Job Bool := .call (.renewLease lease) .ofExcept

def releaseLease (lease : LeaseOf) : Job Unit := .call (.releaseLease lease) .ofExcept

def startHeartbeat (lease : LeaseOf) : Job Unit := .call (.startHeartbeat lease) .ret

def stopHeartbeat (lease : LeaseOf) : Job Unit := .call (.stopHeartbeat lease) .ofExcept

def removeStagingDirectory : Job Unit := .call .removeStagingDirectory .ofExcept

def readRelationship (relationshipId : String) : Job (Option String) :=
  .call (.readRelationship relationshipId) .ofExcept

def resolveSourceOfferById (offerId : String) : Job SourceOffer :=
  .call (.resolveSourceOffer offerId) .ofExcept

def casContains (digest : String) : Job Bool := .call (.casContains digest) .ofExcept

def assertSafeToApply (job : JobRecord) (offer : SourceOffer) : Job SafetyResult :=
  .call (.assertSafeToApply job offer) .ofExcept

def transferMissingBlobsToTargetCas (job : JobRecord) (offer : SourceOffer)
    (missingDigests : List String) (missingBytes : Nat) : Job TransferResult :=
  .call (.transferMissingBlobs job offer missingDigests missingBytes) .ofExcept

def applyPlan (job : JobRecord) (offer : SourceOffer) : Job ApplyResult :=
  .call (.applyPlan job offer) .ofExcept

def commitBaseline (job : JobRecord) (offer : SourceOffer) : Job Unit :=
  .call (.commitBaseline job offer) .ofExcept

def JobRecord.cancelRequested (r : JobRecord) : Bool := r.cancelRequestedAtMs.getD 0 != 0

def JobRecord.reached (r : JobRecord) (required : Checkpoint) : Bool :=
  required.index ≤ r.checkpoint.index

def abortRecord (current : JobRecord) (nowMs : Nat) : JobRecord :=
  { current with
    cancelRequestedAtMs := current.cancelRequestedAtMs <|> some nowMs
    abortedAtMs := current.abortedAtMs <|> some nowMs
    status := { current.status with status := .aborted } }

def resolveJobFailureMessage : Failure → String
  | .error (some message) => message
  | _ => "Workspace replication job failed"

def jobNotFound (p : ExecuteParams) : Failure :=
  .error (some ("Workspace replication job not found: " ++ p.jobId))

/-- What `runWorkspaceReplicationJob` writes when the runner or its write fails. -/
def failureRecord (current : JobRecord) (error : Failure) (failedAtMs : Nat) : JobRecord :=
  match error with
  | .cancelRequested =>
      { current with
        updatedAtMs := failedAtMs
        cancelRequestedAtMs := current.cancelRequestedAtMs <|> some failedAtMs
        abortedAtMs := current.abortedAtMs <|> some failedAtMs
        status := { current.status with status := .aborted } }
  | error =>
      { current with
        updatedAtMs := failedAtMs
        failedAtMs := some failedAtMs
        lastErrorMessage := some (resolveJobFailureMessage error)
        status := { current.status with status := .failed } }

def persistNext (p : ExecuteParams) (current : JobRecord) (run : JobRecord → Job JobRecord) :
    Job JobRecord := do
  let next ← run current
  if next.jobId ≠ current.jobId then
    throw (.error (some ("Workspace replication job runner returned mismatched job id: " ++ next.jobId)))
  else
    let persistedAtMs ← resolveNowMs
    writeJob { next with updatedAtMs := persistedAtMs }
    match ← readJob .merged with
    | none =>
        throw (.error (some ("Workspace replication job not found after write: " ++ p.jobId)))
    | some merged => return merged

def runJob (p : ExecuteParams) (run : JobRecord → Job JobRecord) : Job JobRecord := do
  match ← readJob .current with
  | none => throw (jobNotFound p)
  | some current =>
      if current.isTerminal then return current
      else
        tryCatch (persistNext p current run) fun error => do
          let failedAtMs ← resolveNowMs
          writeJob (failureRecord current error failedAtMs)
          throw error

def abortJobAndReturn (p : ExecuteParams) : Job JobRecord := do
  let nowMs ← resolveNowMs
  let record ← runJob p fun record => return abortRecord record nowMs
  removeStagingDirectory
  return record

def abortIfCancellationRequested (p : ExecuteParams) : Job (Option JobRecord) := do
  match ← readJob .cancellation with
  | none => throw (jobNotFound p)
  | some current =>
      if !current.cancelRequested && current.status.status != .aborted then return none
      else return some (← abortJobAndReturn p)

def markJobFailedAndRethrow {α : Type} (p : ExecuteParams) (error : Failure) : Job α := do
  let _ ← (runJob p fun _ => throw error).ensuring removeStagingDirectory
  -- Reached when the job had an outcome already, so that the runner was not run.
  throw (match error with
    | .thrown => .error (some "Workspace replication job failed")
    | error => error)

/-- The `catch` of a callback: a cancelled job is aborted and given back. -/
def abortOrFail (p : ExecuteParams) (error : Failure) : Job JobRecord := do
  if error = .cancelRequested then abortJobAndReturn p
  else
    match ← abortIfCancellationRequested p with
    | some cancelled => return cancelled
    | none => markJobFailedAndRethrow p error

/-- A callback with its `catch`, which may give back a record instead. -/
def orRecord {α : Type} (p : ExecuteParams) (callback : Job α) : Job (JobRecord ⊕ α) :=
  tryCatch (do return .inr (← callback)) fun error => do return .inl (← abortOrFail p error)

/-- `stopIfLeaseLost` and, for the scope's lease once it is acquired,
`stopIfScopeLeaseLost`. -/
def stopIfLeaseLost (p : ExecuteParams) (lease : LeaseOf) : Job (Option JobRecord) := do
  let _ ← resolveNowMs
  let renewed ← tryCatch (renewLease lease) fun error => markJobFailedAndRethrow p error
  if renewed then return none
  else
    match ← readJob .latest with
    | none => throw (jobNotFound p)
    | some latest => return some latest

end DevPilot.Replication
