import DevPilot.Replication.Runner

/-!
`executeWorkspaceReplicationJob`: from the lease of the job over the transfer
of blobs and their application to the commit of the baseline.
-/

namespace DevPilot.Replication

open Programs

/-- How a part of an execution ends: the whole execution returns a record, or
goes on with the record that the store last gave back. -/
inductive Progress
  | returned (record : JobRecord)
  | latest (record : JobRecord)

/-- `const stopped = await …; if (stopped) return stopped;` and what follows it. -/
def stopOr (stopped : Job (Option JobRecord)) (rest : Job Progress) : Job Progress := do
  match ← stopped with
  | some record => return .returned record
  | none => rest

/-- The runners that take the job one step further, unless it is cancelled. -/
def advance (p : ExecuteParams) (f : JobRecord → JobRecord) : Job JobRecord :=
  runJob p fun record => do
    if record.cancelRequested then return abortRecord record (← resolveNowMs)
    else return f record

def JobRecord.inProgress (r : JobRecord) (phase : Phase) (checkpoint : Checkpoint) : JobRecord :=
  { r with status := { r.status with status := .inProgress, phase := phase, checkpoint := checkpoint } }

def JobRecord.awaitRecovery (r : JobRecord) (nowMs : Nat) (lastErrorMessage : String) : JobRecord :=
  { r with
    awaitingRecoveryAtMs := r.awaitingRecoveryAtMs <|> some nowMs
    lastErrorMessage := some lastErrorMessage
    status := { r.status with status := .awaitingRecovery, phase := .planning } }

structure MissingBlobPlan where
  missingBlobs : List OfferBlob := []
  alreadyPresentFileCount : Nat := 0
  alreadyPresentByteCount : Nat := 0

def MissingBlobPlan.plannedFileCount (plan : MissingBlobPlan) : Nat := plan.missingBlobs.length

def MissingBlobPlan.plannedByteCount (plan : MissingBlobPlan) : Nat :=
  (plan.missingBlobs.map OfferBlob.sizeBytes).sum

/-- The loop of `planWorkspaceReplicationMissingBlobs` over the blobs left. -/
def planMissingBlobs : List OfferBlob → List String → MissingBlobPlan → Job MissingBlobPlan
  | [], _, plan => return plan
  | blob :: blobs, seenDigests, plan => do
      if blob.digest ∈ seenDigests then planMissingBlobs blobs seenDigests plan
      else if ← casContains blob.digest then
        planMissingBlobs blobs (blob.digest :: seenDigests) { plan with
          alreadyPresentFileCount := plan.alreadyPresentFileCount + 1
          alreadyPresentByteCount := plan.alreadyPresentByteCount + blob.sizeBytes }
      else
        planMissingBlobs blobs (blob.digest :: seenDigests) { plan with
          missingBlobs := plan.missingBlobs ++ [blob] }

def runSafetyCheckIfNeeded (p : ExecuteParams) (offer : SourceOffer) (job : JobRecord) :
    Job (Option JobRecord) := do
  if !p.assertsSafeToApply then return none
  else
    match ← orRecord p (assertSafeToApply job offer) with
    | .inl record | .inr (.record record) => return some record
    | .inr .null => return none
    | .inr (.report safeCheck) =>
        if safeCheck.blockingDivergenceCandidates = [] then return none
        else
          let nowMs ← resolveNowMs
          let updated ← runJob p fun record =>
            let waiting := record.awaitRecovery nowMs
              ((safeCheck.lastErrorMessage <|> record.lastErrorMessage).getD
                "Target workspace diverged since last baseline")
            return { waiting with
              status := { waiting.status with
                blockingDivergenceCandidates := safeCheck.blockingDivergenceCandidates } }
          removeStagingDirectory
          return some updated

def negotiateMissingDigests (p : ExecuteParams) (missingPlan : MissingBlobPlan) (latest : JobRecord) :
    Job JobRecord :=
  if latest.reached .missingDigestsNegotiated then return latest
  else advance p fun record =>
    let next := record.inProgress .negotiateMissingDigests .missingDigestsNegotiated
    { next with status := { next.status with progressCounters := { next.status.progressCounters with
        plannedFiles := missingPlan.plannedFileCount
        plannedBytes := missingPlan.plannedByteCount } } }

def startTransfer (p : ExecuteParams) (latest : JobRecord) : Job JobRecord :=
  if latest.reached .blobTransferStarted then return latest
  else advance p fun record => record.inProgress .transferMissingBlobsToTargetCas .blobTransferStarted

/-- After the transfer: the leases must still be held, then it is recorded. -/
def completeTransfer (p : ExecuteParams) (result : TransferResult) : Job Progress :=
  stopOr (stopIfLeaseLost p .job) <| stopOr (stopIfLeaseLost p .scope) <| do
    let latest ← advance p fun record =>
      let next := record.inProgress .transferMissingBlobsToTargetCas .blobTransferCompleted
      { next with status := { next.status with progressCounters := { next.status.progressCounters with
          transferredFiles := result.transferredFiles
          transferredBytes := result.transferredBytes } } }
    stopOr (abortIfCancellationRequested p) (return .latest latest)

def transferBlobs (p : ExecuteParams) (offer : SourceOffer) (latest : JobRecord) : Job Progress := do
  if latest.reached .blobTransferCompleted then return .latest latest
  else
    let missingPlan ← planMissingBlobs offer.blobIndex [] {}
    let latest ← negotiateMissingDigests p missingPlan latest
    stopOr (abortIfCancellationRequested p) do
      let latest ← startTransfer p latest
      stopOr (abortIfCancellationRequested p) do
        match ← orRecord p <| transferMissingBlobsToTargetCas latest offer
            (missingPlan.missingBlobs.map OfferBlob.digest) missingPlan.plannedByteCount with
        | .inl record => return .returned record
        | .inr result => completeTransfer p result

def startApply (p : ExecuteParams) (latest : JobRecord) : Job JobRecord :=
  if latest.reached .applyStarted then return latest
  else advance p fun record => record.inProgress .apply .applyStarted

def completeApply (p : ExecuteParams) (result : ApplyResult) : Job Progress :=
  stopOr (stopIfLeaseLost p .job) <| stopOr (stopIfLeaseLost p .scope) <| do
    let latest ← advance p fun record =>
      let next := record.inProgress .apply .applyCompleted
      { next with
        result := some result.targetPath
        status := { next.status with progressCounters := { next.status.progressCounters with
          appliedFiles := result.appliedFiles
          appliedBytes := result.appliedBytes } } }
    stopOr (abortIfCancellationRequested p) (return .latest latest)

/-- The second safety check, then `applyPlan`. The heartbeat that touches the
record while it runs is one of the other writers. -/
def applyPart (p : ExecuteParams) (offer : SourceOffer) (latest : JobRecord) : Job Progress := do
  if latest.reached .applyCompleted then return .latest latest
  else
    stopOr (stopIfLeaseLost p .job) <| stopOr (stopIfLeaseLost p .scope) <|
      stopOr
        (if p.assertsSafeToApply && latest.reached .blobTransferCompleted && !latest.reached .applyStarted
          then runSafetyCheckIfNeeded p offer latest else return none) do
        let latest ← startApply p latest
        stopOr (abortIfCancellationRequested p) do
          match ← orRecord p (applyPlan latest offer) with
          | .inl record => return .returned record
          | .inr result => completeApply p result

/-- After `commitBaseline`: the job is recorded completed, unless it was aborted. -/
def completeJob (p : ExecuteParams) : Job Progress := do
  let afterCommit ← readJob .afterCommit
  stopOr
    (match afterCommit with
      | some record =>
          if record.status.status = .aborted then do
            removeStagingDirectory
            return some record
          else return none
      | none => return none) <|
    stopOr (stopIfLeaseLost p .job) <| stopOr (stopIfLeaseLost p .scope) <| do
      let completedAtMs ← resolveNowMs
      let latest ← runJob p fun record => return { record with
        completedAtMs := some completedAtMs
        status := { record.status with
          status := .completed
          phase := .commitBaseline
          checkpoint := .baselineCommitted } }
      removeStagingDirectory
      return .latest latest

def commitPart (p : ExecuteParams) (offer : SourceOffer) (latest : JobRecord) : Job Progress := do
  if latest.reached .baselineCommitted then return .latest latest
  else
    stopOr (stopIfLeaseLost p .job) <| stopOr (stopIfLeaseLost p .scope) <| do
      let latest ← advance p fun record => record.inProgress .commitBaseline record.checkpoint
      stopOr (abortIfCancellationRequested p) do
        tryCatch (commitBaseline latest offer) fun error => do
          let _ ← abortOrFail p error
        completeJob p

def continueWith (part : Job Progress) (rest : JobRecord → Job Progress) : Job Progress := do
  match ← part with
  | .returned record => return .returned record
  | .latest record => rest record

def resolveRelationship (p : ExecuteParams) (relationshipId : String) (latest : JobRecord) :
    Job JobRecord :=
  if latest.reached .relationshipResolved then return latest
  else advance p fun record =>
    { record.inProgress .planning .relationshipResolved with relationshipId := some relationshipId }

/-- The parts that follow once the relationship and the offer are known. -/
def replicate (p : ExecuteParams) (relationshipId : String) (offer : SourceOffer)
    (current : JobRecord) : Job Progress := do
  let latest ← resolveRelationship p relationshipId current
  stopOr (abortIfCancellationRequested p) <| stopOr (runSafetyCheckIfNeeded p offer latest) <|
    continueWith (transferBlobs p offer latest) fun latest =>
      continueWith (applyPart p offer latest) fun latest => commitPart p offer latest

def isMissing (id : Option String) : Bool := id.getD "" = ""

def missing (what : String) (jobId : String) : Failure :=
  .error (some ("Workspace replication job is missing " ++ what ++ ": " ++ jobId))

def replicateOffer (p : ExecuteParams) (current : JobRecord) : Job JobRecord := do
  if isMissing current.relationshipId then
    markJobFailedAndRethrow p (missing "relationshipId" current.jobId)
  else if isMissing current.offerId then
    markJobFailedAndRethrow p (missing "offerId" current.jobId)
  else
    let relationshipId := current.relationshipId.getD ""
    let relationship ← tryCatch (readRelationship relationshipId) fun error =>
      markJobFailedAndRethrow p error
    match relationship with
    | none =>
        markJobFailedAndRethrow p
          (.error (some ("Workspace replication relationship not found: " ++ relationshipId)))
    | some relationshipId =>
        let offer ← tryCatch (resolveSourceOfferById (current.offerId.getD "")) fun error =>
          markJobFailedAndRethrow p error
        match ← replicate p relationshipId offer current with
        | .returned record => return record
        | .latest record => return record

def warnResumed (record : JobRecord) : JobRecord :=
  { record with status := { record.status with
      warnings := if "resumed_existing_job" ∈ record.status.warnings then record.status.warnings
        else record.status.warnings ++ ["resumed_existing_job"] } }

def noteResumed (p : ExecuteParams) (lease : AcquiredLease) (current : JobRecord) : Job JobRecord := do
  if 1 < lease.attempt then
    let _ ← runJob p fun record => return warnResumed record
    match ← readJob .resumed with
    | none => throw (jobNotFound p)
    | some current => return current
  else return current

def underScopeLease (p : ExecuteParams) (lease : AcquiredLease) (current : JobRecord) :
    Job JobRecord := do
  let current ← noteResumed p lease current
  if current.cancelRequested || current.status.status = .aborted then abortJobAndReturn p
  else replicateOffer p current

def awaitScope (p : ExecuteParams) : Job JobRecord := do
  match ← abortIfCancellationRequested p with
  | some cancelled => return cancelled
  | none =>
      let nowMs ← resolveNowMs
      let updated ← runJob p fun record =>
        return record.awaitRecovery nowMs
          (record.lastErrorMessage.getD "Workspace replication scope is locked by another job")
      removeStagingDirectory
      return updated

def letGo (lease : LeaseOf) : Job Unit := do
  (stopHeartbeat lease).ignoring
  (releaseLease lease).ignoring

def underJobLease (p : ExecuteParams) (lease : AcquiredLease) (current : JobRecord) :
    Job JobRecord := do
  match ← abortIfCancellationRequested p with
  | some cancelled => return cancelled
  | none =>
      let _ ← resolveNowMs
      match ← tryAcquireLease .scope with
      | none => awaitScope p
      | some _ =>
          startHeartbeat .scope
          (underScopeLease p lease current).ensuring (letGo .scope)

def recordAttempt (p : ExecuteParams) (lease : AcquiredLease) : Job JobRecord :=
  runJob p fun record => return { record with
    lastAttempt := some {
      attemptNumber := lease.attempt
      leaseId := lease.leaseId
      ownerId := p.leaseOwnerId
      acquiredAtMs := lease.acquiredAtMs } }

def executeJob (p : ExecuteParams) : Job JobRecord := do
  match ← readJob .start with
  | none => throw (jobNotFound p)
  | some current =>
      if current.status.status ∈ [.completed, .failed, .awaitingRecovery] then return current
      else
        let _ ← resolveNowMs
        match ← tryAcquireLease .job with
        | none => return (← readJob .latest).getD current
        | some lease =>
            startHeartbeat .job
            let current ← recordAttempt p lease
            -- What is thrown up to here leaves the lease and its heartbeat behind.
            if isMissing current.relationshipId || isMissing current.directionId then
              throw (missing "relationship scope" p.jobId)
            else (underJobLease p lease current).ensuring (letGo .job)

/-- An environment in which nothing fails, with what other writers make of the
record on disk while an operation goes on. A recovery takes the lease away. -/
def undisturbed (meanwhile : Op → JobRecord → JobRecord) (disk : JobRecord) (o : Op) :
    o.Answer × JobRecord :=
  let disk := meanwhile o disk
  match o with
  | .now => (.ok 1, disk)
  | .readJob _ | .readExisting => (.ok (some disk), disk)
  | .replaceJob record => (.ok (), record)
  | .tryAcquireLease _ => (.ok (some ⟨"lease_1", 1, 1⟩), disk)
  | .renewLease _ => (.ok (disk.status.status ≠ .awaitingRecovery), disk)
  | .startHeartbeat _ => ((), disk)
  | .releaseLease _ | .stopHeartbeat _ | .removeStagingDirectory | .commitBaseline .. => (.ok (), disk)
  | .readRelationship relationshipId => (.ok (some relationshipId), disk)
  | .resolveSourceOffer offerId => (.ok ⟨offerId, "rel_1", "dir_1", "fp_1", []⟩, disk)
  | .casContains _ => (.ok false, disk)
  | .assertSafeToApply .. => (.ok .null, disk)
  | .transferMissingBlobs .. => (.ok ⟨0, 0⟩, disk)
  | .applyPlan .. => (.ok ⟨0, 0, "/target"⟩, disk)

def localParams : ExecuteParams := ⟨"job_1", "cli-daemon:7", true⟩

def pendingRecord : JobRecord where
  jobId := "job_1"
  createdAtMs := 1
  updatedAtMs := 1
  status := { status := .pending, phase := .planning, checkpoint := .jobCreated }

end DevPilot.Replication
