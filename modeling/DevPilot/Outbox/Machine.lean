import DevPilot.Lib.PathText
import DevPilot.Lib.Runs

/-!
The mutations of the session mutation outbox: which of them stand for the same
thing, how two queues are merged, and which session ends are superseded.
-/

namespace DevPilot.Outbox

/-- The payload of a mutation, as far as the outbox reads it. A time that is not
a finite number is `none`. -/
inductive Payload
  | sessionTurn (turnId : Option String) (isBegin : Bool) (observedAt : Option Int)
  | sessionEnd (sessionId : String) (observedAt : Option Int)
  | transcriptMessageAppend (sessionId localId : String) (sidechainId : Option String)
      (updatedAt : Option Int)
deriving DecidableEq, Repr

structure QueuedSessionMutation where
  mutationId : String
  payload : Payload
  createdAt : Int
  attempts : Nat
  nextAttemptAt : Int
  /-- History: the number of its enqueue. Nothing reads it. -/
  serial : Nat
deriving DecidableEq, Repr

def trimmed (t : String) : String := String.ofList (PathText.trim t.toList)

/-- `resolveTranscriptMessageAppendMutationId`; it throws where one of the two is blank. -/
def transcriptMutationId (sessionId localId : String) : String :=
  "transcript:" ++ trimmed sessionId ++ ":" ++ trimmed localId

namespace QueuedSessionMutation

def isTranscript (m : QueuedSessionMutation) : Bool :=
  match m.payload with
  | .transcriptMessageAppend .. => true
  | _ => false

def isTurn (m : QueuedSessionMutation) : Bool :=
  match m.payload with
  | .sessionTurn .. => true
  | _ => false

def isSessionEnd (m : QueuedSessionMutation) : Bool :=
  match m.payload with
  | .sessionEnd .. => true
  | _ => false

def isTurnBegin (m : QueuedSessionMutation) : Bool :=
  match m.payload with
  | .sessionTurn _ isBegin _ => isBegin
  | _ => false

def readTranscriptSidechain (m : QueuedSessionMutation) : Option (Option String) :=
  match m.payload with
  | .transcriptMessageAppend _ _ sidechainId _ => some sidechainId
  | _ => none

/-- `readQueuedMutationObservedAt`; for a transcript message `readTranscriptUpdatedAt`. -/
def observedAt (m : QueuedSessionMutation) : Int :=
  match m.payload with
  | .sessionTurn _ _ observedAt => observedAt.getD m.createdAt
  | .sessionEnd _ observedAt => observedAt.getD m.createdAt
  | .transcriptMessageAppend _ _ _ updatedAt => updatedAt.getD m.createdAt

def coalesceKey (m : QueuedSessionMutation) : Option String :=
  match m.payload with
  | .transcriptMessageAppend sessionId localId _ _ => some (transcriptMutationId sessionId localId)
  | .sessionEnd sessionId _ => some ("session_end:" ++ sessionId)
  | .sessionTurn .. => none

def coalescesWith (next queued : QueuedSessionMutation) : Bool :=
  match next.coalesceKey with
  | some key => queued.coalesceKey = some key
  | none => queued.mutationId = next.mutationId

end QueuedSessionMutation

open QueuedSessionMutation

abbrev Queue := List QueuedSessionMutation

def shouldReplaceCoalescedMutation (existing next : QueuedSessionMutation) : Bool :=
  if existing.isTranscript && next.isTranscript || existing.isSessionEnd && next.isSessionEnd then
    existing.observedAt ≤ next.observedAt
  else true

/-- A mutation takes the place of one that it coalesces with, or comes last. -/
def putMutation (next : QueuedSessionMutation) : Queue → Queue
  | [] => [next]
  | queued :: rest =>
      if next.coalescesWith queued then
        (if shouldReplaceCoalescedMutation queued next then next else queued) :: rest
      else queued :: putMutation next rest

def mergeQueuedSessionMutations (earlier later : Queue) : Queue :=
  later.foldl (fun merged next => putMutation next merged) earlier

def latestTurnBeginObservedAt (queued : Queue) : Option Int :=
  ((queued.filter isTurnBegin).map QueuedSessionMutation.observedAt).max?

def pruneSessionEndsSupersededByLaterTurnBegins (queued : Queue) : Queue :=
  match latestTurnBeginObservedAt queued with
  | none => queued
  | some latest => queued.filter fun m => !m.isSessionEnd || latest ≤ m.observedAt

def transcriptCoalescingCompatible (next : QueuedSessionMutation) (queued : Queue) : Bool :=
  !next.isTranscript || queued.all fun m =>
    !(m.coalesceKey = next.coalesceKey && m.isTranscript &&
      m.readTranscriptSidechain ≠ next.readTranscriptSidechain)

def turnDependencyKey (m : QueuedSessionMutation) : Option String :=
  match m.payload with
  | .sessionTurn (some turnId) _ _ => if turnId = "" then none else some turnId
  | _ => none

inductive DeadLetterReason
  | invalid
  | retryExhausted
  | blockedByDeadLetteredDependency (dependencyMutationId : String)
deriving DecidableEq, Repr

structure DeadLetter where
  mutation : QueuedSessionMutation
  reason : DeadLetterReason
deriving DecidableEq, Repr

/-- `deadLetterDependentMutations`: the mutations of the same turn right behind a
failed one are blocked by it; the rest is left. -/
def deadLetterDependentMutations (failed : QueuedSessionMutation) (behind : Queue) : List DeadLetter × Queue :=
  match turnDependencyKey failed with
  | none => ([], behind)
  | some key =>
      ((behind.takeWhile fun m => turnDependencyKey m = some key).map fun m =>
          ⟨m, .blockedByDeadLetteredDependency failed.mutationId⟩,
        behind.dropWhile fun m => turnDependencyKey m = some key)

end DevPilot.Outbox

/-!
The session mutation outbox as a machine: what it does between two awaits is one
step. A loop of a flush takes one step for each mutation, so that its runs are
among the runs of the machine.
-/

namespace DevPilot.Outbox

open QueuedSessionMutation

structure Config where
  parses : QueuedSessionMutation → Bool
  maxAttempts : Nat
  maxAgeMs : Int
  transcriptFlushBatchLimit : Nat

inductive DeliveryOutcome
  | delivered
  | ignoredLossy
  | retryable
  | unsupportedCapability
  | permanentInvalidPayload
  | authenticationError
  | exception
deriving DecidableEq, Repr

inductive FlushPhase
  | looping
  /-- `await withSessionMutationDeliverySlot(...)` for the first of the rest -/
  | delivering
  | appending
  | persisting
deriving DecidableEq, Repr

structure Flush where
  isForced : Bool
  now : Int
  rest : Queue
  remaining : Queue
  deadLetters : List DeadLetter
  transcriptDeliveries : Nat
  didChange : Bool
  phase : FlushPhase
deriving DecidableEq, Repr

inductive PersistSource
  | enqueue (mutation : QueuedSessionMutation)
  | flush
  | close
deriving DecidableEq, Repr

structure PersistJob where
  source : PersistSource
  /-- What is being written, once it is the turn of the job. -/
  snapshot : Option Queue
deriving DecidableEq, Repr

structure EnqueueCall where
  mutation : QueuedSessionMutation
  settledBefore : Nat
deriving DecidableEq, Repr

structure Report where
  call : EnqueueCall
  delivered : Bool
deriving DecidableEq, Repr

structure OutboxState where
  closed : Bool
  mutations : Queue
  inFlightMutations : Queue
  flush : Option Flush
  persists : List PersistJob
  loadedMutationsNeedPersist : Bool
  outboxFile : Queue
  deadLetterFile : List DeadLetter
  /-- History: all mutations that were taken in, the last one last. -/
  enqueued : Queue
  /-- History: the enqueues of this process that have not resolved. -/
  calls : List EnqueueCall
  reports : List Report
  /-- History: the mutations whose enqueue returned `persisted: true`. -/
  acked : Queue
  /-- History: the deliveries that were acknowledged, in order. -/
  settled : Queue
  /-- History: what left the queue and did not reach the dead letter file. -/
  lost : Queue

def createOutbox : OutboxState where
  closed := false
  mutations := []
  inFlightMutations := []
  flush := none
  persists := []
  loadedMutationsNeedPersist := false
  outboxFile := []
  deadLetterFile := []
  enqueued := []
  calls := []
  reports := []
  acked := []
  settled := []
  lost := []

inductive Event
  | enqueue (mutationId : String) (payload : Payload) (now : Int)
  | startFlush (isForced : Bool) (now : Int)
  /-- One round of the loop; `retryAt` is `Date.now() + resolveSessionMutationRetryDelayMs(0)`. -/
  | loop (retryAt : Int)
  /-- A delivery ends; `retryAt` is `Date.now() + resolveSessionMutationRetryDelayMs(attempts)`. -/
  | outcome (outcome : DeliveryOutcome) (now retryAt : Int)
  | deadLettersAppended (ok : Bool)
  | startPersist
  | persisted (ok : Bool)
  /-- An enqueue that was persisted resolves, after the flush that it awaits. -/
  | report (index : Nat)
  | close
  | closePersist
  /-- The process dies, and another one loads the file. -/
  | crash (deadLettersAppended : Bool)
deriving DecidableEq, Repr

namespace OutboxState

/-- Whether `createQueued...` makes a mutation of the payload; else it throws. -/
def isCanonical (mutationId : String) : Payload → Bool
  | .transcriptMessageAppend sessionId localId _ _ =>
      trimmed sessionId ≠ "" && trimmed localId ≠ "" && mutationId = transcriptMutationId sessionId localId
  | _ => true

def enqueue (mutationId : String) (payload : Payload) (now : Int) (s : OutboxState) : OutboxState :=
  let mutation : QueuedSessionMutation := {
    mutationId, payload
    createdAt := now
    attempts := 0
    nextAttemptAt := 0
    serial := s.enqueued.length }
  if s.closed || !isCanonical mutationId payload || !transcriptCoalescingCompatible mutation s.mutations ||
      !transcriptCoalescingCompatible mutation s.inFlightMutations then s
  else
    { s with
      mutations := pruneSessionEndsSupersededByLaterTurnBegins (putMutation mutation s.mutations)
      persists := s.persists ++ [⟨.enqueue mutation, none⟩]
      enqueued := s.enqueued ++ [mutation]
      calls := s.calls ++ [⟨mutation, s.settled.length⟩] }

def startFlush (isForced : Bool) (now : Int) (s : OutboxState) : OutboxState :=
  if s.flush.isSome || s.closed && !isForced then s
  else
    let batch := pruneSessionEndsSupersededByLaterTurnBegins s.mutations
    { s with
      mutations := []
      inFlightMutations := batch
      loadedMutationsNeedPersist := false
      flush := some {
        isForced, now
        rest := batch
        remaining := []
        deadLetters := []
        transcriptDeliveries := 0
        didChange := s.loadedMutationsNeedPersist || batch.length ≠ s.mutations.length
        phase := .looping } }

def finishLoop (f : Flush) (remaining : Queue) (s : OutboxState) : OutboxState :=
  { s with
    mutations := mergeQueuedSessionMutations remaining s.mutations
    inFlightMutations := []
    flush :=
      if f.didChange then some { f with rest := [], remaining := [], phase := .appending } else none }

/-- The loop goes on behind a mutation that is retried later, if it is kept. -/
def goOn (f : Flush) (kept : Queue) (rest : Queue) (s : OutboxState) : OutboxState :=
  { s with
    inFlightMutations := mergeQueuedSessionMutations (f.remaining ++ kept) rest
    flush := some { f with rest, remaining := f.remaining ++ kept, phase := .looping } }

def deadLetter (f : Flush) (entry : DeadLetter) (behind : Queue) (s : OutboxState) : OutboxState :=
  let (dependents, rest) := deadLetterDependentMutations entry.mutation behind
  s.goOn { f with deadLetters := f.deadLetters ++ entry :: dependents, didChange := true } [] rest

def loop (config : Config) (retryAt : Int) (s : OutboxState) : OutboxState :=
  match s.flush with
  | none => s
  | some f =>
      if f.phase ≠ .looping then s
      else
        match f.rest with
        | [] => s.finishLoop f f.remaining
        | mutation :: behind =>
            if !f.isForced && f.now < mutation.nextAttemptAt then
              if mutation.isTranscript then s.goOn f [mutation] behind
              else s.finishLoop f (f.remaining ++ mutation :: behind)
            else if !config.parses mutation then s.deadLetter f ⟨mutation, .invalid⟩ behind
            else if !f.isForced && mutation.isTranscript &&
                config.transcriptFlushBatchLimit ≤ f.transcriptDeliveries then
              s.goOn { f with didChange := true }
                [{ mutation with nextAttemptAt := max mutation.nextAttemptAt retryAt }] behind
            else
              { s with
                flush := some {
                  f with
                  transcriptDeliveries := f.transcriptDeliveries + if mutation.isTranscript then 1 else 0
                  phase := .delivering } }

def shouldDeadLetterFailedMutation (config : Config) (mutation : QueuedSessionMutation) (now : Int)
    (outcome : DeliveryOutcome) : Bool :=
  !(outcome = .unsupportedCapability && mutation.isTurn) &&
    (config.maxAttempts ≤ mutation.attempts ||
      0 < config.maxAgeMs && config.maxAgeMs ≤ now - mutation.createdAt)

def outcome (config : Config) (outcome : DeliveryOutcome) (now retryAt : Int) (s : OutboxState) : OutboxState :=
  match s.flush with
  | none => s
  | some f =>
      if f.phase ≠ .delivering then s
      else
        match f.rest with
        | [] => s
        | mutation :: behind =>
            match outcome with
            | .delivered | .ignoredLossy =>
                goOn { f with didChange := true } [] behind { s with settled := s.settled ++ [mutation] }
            | .authenticationError =>
                s.finishLoop { f with didChange := true }
                  (f.remaining ++ { mutation with nextAttemptAt := retryAt } :: behind)
            | _ =>
                let failedMutation :=
                  { mutation with attempts := mutation.attempts + 1, nextAttemptAt := retryAt }
                if shouldDeadLetterFailedMutation config failedMutation now outcome then
                  s.deadLetter f ⟨failedMutation, .retryExhausted⟩ behind
                else
                  s.finishLoop { f with didChange := true } (f.remaining ++ failedMutation :: behind)

/-- The dead letters of a flush reach their file, or the flush fails. -/
def deadLettersAppended (ok : Bool) (s : OutboxState) : OutboxState :=
  match s.flush with
  | none => s
  | some f =>
      if f.phase ≠ .appending then s
      else if ok || f.deadLetters.isEmpty then
        { s with
          deadLetterFile := s.deadLetterFile ++ f.deadLetters
          flush := some { f with deadLetters := [], phase := .persisting }
          persists := s.persists ++ [⟨.flush, none⟩] }
      else { s with flush := none, lost := s.lost ++ f.deadLetters.map DeadLetter.mutation }

def fileContents (s : OutboxState) : Queue :=
  pruneSessionEndsSupersededByLaterTurnBegins (mergeQueuedSessionMutations s.inFlightMutations s.mutations)

def startPersist (s : OutboxState) : OutboxState :=
  match s.persists with
  | ⟨source, none⟩ :: rest => { s with persists := ⟨source, some s.fileContents⟩ :: rest }
  | _ => s

def persisted (ok : Bool) (s : OutboxState) : OutboxState :=
  match s.persists with
  | ⟨source, some contents⟩ :: rest =>
      let s := { s with persists := rest, outboxFile := if ok then contents else s.outboxFile }
      match source with
      | .enqueue mutation => { s with acked := if ok then s.acked ++ [mutation] else s.acked }
      | .flush => { s with flush := none }
      | .close => s
  | _ => s

def hasQueuedMutation (mutationId : String) (s : OutboxState) : Bool :=
  s.mutations.any (·.mutationId = mutationId) || s.inFlightMutations.any (·.mutationId = mutationId)

def report (index : Nat) (s : OutboxState) : OutboxState :=
  match s.calls[index]? with
  | none => s
  | some call =>
      if call.mutation ∈ s.acked then
        { s with
          calls := s.calls.eraseIdx index
          reports := s.reports ++ [⟨call, !s.hasQueuedMutation call.mutation.mutationId⟩] }
      else s

/-- Another process loads the file. Where dead letters of the load cannot be
appended it starts with an empty queue. -/
def reload (config : Config) (deadLettersAppended : Bool) (s : OutboxState) : OutboxState :=
  let loaded := s.outboxFile.filter config.parses
  let invalid := s.outboxFile.filter fun m => !config.parses m
  let s := {
    s with
    closed := false
    inFlightMutations := []
    flush := none
    persists := []
    calls := [] }
  if deadLettersAppended || invalid.isEmpty then
    let mutations := mergeQueuedSessionMutations [] (pruneSessionEndsSupersededByLaterTurnBegins loaded)
    { s with
      mutations
      loadedMutationsNeedPersist := mutations.length ≠ loaded.length
      deadLetterFile := s.deadLetterFile ++ invalid.map fun m => ⟨m, .invalid⟩
      lost := [] }
  else { s with mutations := [], loadedMutationsNeedPersist := false, lost := s.outboxFile }

end OutboxState

open OutboxState

def OutboxState.step (config : Config) (s : OutboxState) : Event → OutboxState
  | .enqueue mutationId payload now => s.enqueue mutationId payload now
  | .startFlush isForced now => s.startFlush isForced now
  | .loop retryAt => s.loop config retryAt
  | .outcome outcome now retryAt => s.outcome config outcome now retryAt
  | .deadLettersAppended ok => s.deadLettersAppended ok
  | .startPersist => s.startPersist
  | .persisted ok => s.persisted ok
  | .report index => s.report index
  | .close => { s with closed := true }
  | .closePersist => { s with persists := s.persists ++ [⟨.close, none⟩] }
  | .crash appended => s.reload config appended

def afterEvents (config : Config) (events : List Event) : OutboxState :=
  Runs.run (OutboxState.step config) createOutbox events

end DevPilot.Outbox
