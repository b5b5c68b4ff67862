import DevPilot.Lib.Runs

/-!
The durable recovery scheduler: its records in memory and in the store, its
timers, and the calls that wait at each `await` while others go on.
-/

namespace DevPilot.Recovery

inductive Status
  | waiting
  | checking
  | cancelled
  | exhausted
deriving DecidableEq, Repr

inductive WakeWriteReason
  | delayed
  | maxAttemptsExhausted
  | success
  | terminal
  | exhausted
  | waiting
deriving DecidableEq, Repr

/-- How terminal records are pruned: not at all, by `store.prune`, or one by one by
`store.remove`. -/
inductive Pruning
  | off
  | byStore
  | byRemove
deriving DecidableEq, Repr

/-- `DurableBackoffRecoverySchedulerDeps`. A time that is no finite number is `none`. -/
structure Deps (Key Intent : Type) where
  hasStore : Bool
  getStatus : Intent → Status
  getNextRetryAtMs : Intent → Option ℤ
  getAttemptCount : Intent → ℤ
  getMaxAttempts : Intent → ℤ
  pruning : Pruning := .off
  terminalRecordRetentionMs : ℕ := 0
  getTerminalPruneReferenceMs : Intent → Option ℤ := fun _ => none
  exhaustOnMaxAttemptOutcome : Bool := true
  markChecking : Intent → ℤ → Intent
  markWaiting : Intent → ℤ → Option String → Intent
  markCancelled : Intent → Intent
  markExhausted : Intent → Option String → Intent
  mergeBeforeWakeWrite : Option (Key → Option Intent → Intent → Intent → WakeWriteReason → Intent) := none
  sanitizeLastError : Option String → Option String := id
  clearOnSuccess : Bool := false
  baseBackoffMs : ℕ := 1000
  maxBackoffMs : ℕ := 60000

inductive Outcome (Intent : Type)
  | success (intent : Option Intent)
  | wait (nextRetryAtMs : Option ℤ) (lastError : Option String) (intent : Option Intent)
  | terminal (lastError : Option String) (intent : Option Intent)
  | exhausted (lastError : Option String) (intent : Option Intent)
  | superseded
  | thrown (message : Option String)

inductive GateResult
  | opened
  | delayed (retryAtMs : ℤ) (reason : Option String)

variable {Key Intent : Type}

namespace Deps

variable (deps : Deps Key Intent)

/-- `schedule` arms a timer for such an intent. -/
def armable (intent : Intent) : Bool :=
  deps.getStatus intent = .checking ||
    (deps.getStatus intent = .waiting && (deps.getNextRetryAtMs intent).isSome)

def shouldPrune (cutoffMs : ℤ) (intent : Intent) : Bool :=
  (deps.getStatus intent = .cancelled || deps.getStatus intent = .exhausted) &&
    (deps.getTerminalPruneReferenceMs intent).any fun referenceMs => referenceMs ≤ cutoffMs

def computeBackoffMs (attemptCount jitterMs : ℤ) : ℤ :=
  (min deps.maxBackoffMs (deps.baseBackoffMs * 2 ^ attemptCount.toNat) : ℕ) + max 0 jitterMs

end Deps

inductive Call
  | onRetry
  | recover
  | onSuccess
deriving DecidableEq, Repr

/-- What a cancellation that has returned promises: that the record is cancelled or absent,
or, where a cancelled record was dropped since, one of these. -/
inductive Standing
  | cancelled
  | cleared
  | dropped
deriving DecidableEq, Repr

/-- What the scheduler and its store have for one key. -/
structure Slot (Intent : Type) where
  memory : Option Intent := none
  stored : Option Intent := none
  timer : Bool := false
  cancellationVersion : ℕ := 0
  /-- The calls that were started, and their number when a cancellation returned that
  stands since. -/
  calls : List Call := []
  standing : Option (Standing × ℕ) := none

structure Attempt (Intent : Type) where
  checking : Intent
  attemptCount : ℤ
  maxAttempts : ℤ
  nowMs : ℤ
  cancellationVersion : ℕ

inductive PruneStage (Key : Type)
  | asking (cutoffMs : ℤ)
  | removing (todo pruned : List Key)
  | pruned (keys : List Key)

inductive WriteStage (Key : Type)
  | pruning (prune : PruneStage Key)
  | storing
  | stored
  | scheduled

inductive Writer (Key Intent : Type)
  | upsert
  | cancel
  | cancelForSession (cancelled : List Key) (rest : List (Key × Intent))
  | delayed
  | maxAttempts
  | checking (attempt : Attempt Intent)
  | success
  | terminal
  | exhausted
  | waiting

inductive Remover
  | clear
  | success
  | superseded

inductive Task (Key Intent : Type)
  | write (key : Key) (intent : Intent) (stage : WriteStage Key) (writer : Writer Key Intent)
  | remove (key : Key) (removed : Bool) (remover : Remover)
  | prune (stage : PruneStage Key)
  | recovering (key : Key) (attempt : Attempt Intent)
  | succeeding (key : Key)

structure State (Key Intent : Type) where
  keys : List Key := []
  slots : Key → Slot Intent
  tasks : List (Task Key Intent) := []
  disposed : Bool := false
  now : ℤ := 0

def Writer.isWake : Writer Key Intent → Bool
  | .upsert | .cancel | .cancelForSession .. => false
  | _ => true

def Remover.isWake : Remover → Bool
  | .clear => false
  | _ => true

def Task.wakes? : Task Key Intent → Option Key
  | .write key _ _ writer => if writer.isWake then some key else none
  | .remove key _ remover => if remover.isWake then some key else none
  | .prune _ => none
  | .recovering key _ => some key
  | .succeeding key => some key

namespace State

variable [DecidableEq Key] (deps : Deps Key Intent) (s : State Key Intent)

def modify (key : Key) (f : Slot Intent → Slot Intent) : State Key Intent :=
  { s with slots := Function.update s.slots key (f (s.slots key)) }

theorem modify_slots (key k : Key) (f : Slot Intent → Slot Intent) :
    (s.modify key f).slots k = if k = key then f (s.slots key) else s.slots k := by
  simp only [modify, Function.update_apply]

@[simp] theorem modify_tasks (key : Key) (f : Slot Intent → Slot Intent) :
    (s.modify key f).tasks = s.tasks := rfl

@[simp] theorem modify_disposed (key : Key) (f : Slot Intent → Slot Intent) :
    (s.modify key f).disposed = s.disposed := rfl

def spawn (task : Task Key Intent) : State Key Intent := { s with tasks := s.tasks ++ [task] }

omit [DecidableEq Key] in
@[simp] theorem spawn_slots (task : Task Key Intent) : (s.spawn task).slots = s.slots := rfl

omit [DecidableEq Key] in
@[simp] theorem spawn_disposed (task : Task Key Intent) : (s.spawn task).disposed = s.disposed := rfl

def current (key : Key) : Option Intent := (s.slots key).stored.or (s.slots key).memory

/-- `wakePromisesByRecoveryKey` has the key. -/
def waking (key : Key) : Bool := s.tasks.any fun task => task.wakes? = some key

def clearTimer (key : Key) : State Key Intent := s.modify key fun slot => { slot with timer := false }

def schedule (key : Key) (intent : Intent) : State Key Intent :=
  s.modify key fun slot => { slot with timer := !s.disposed && deps.armable intent }

def readByKey (key : Key) : State Key Intent :=
  match s.current key with
  | none => s
  | some intent => (s.modify key fun slot => { slot with memory := some intent }).schedule deps key intent

def bumpCancellationVersion (key : Key) : State Key Intent :=
  s.modify key fun slot => { slot with cancellationVersion := slot.cancellationVersion + 1 }

def start (key : Key) (call : Call) : State Key Intent :=
  s.modify key fun slot => { slot with calls := slot.calls ++ [call] }

def drop (key : Key) : State Key Intent :=
  s.modify key fun slot => { slot with
    standing := slot.standing.map fun p => if p.1 = .cancelled then (.dropped, p.2) else p }

def settle (key : Key) (standing : Standing) : State Key Intent :=
  s.modify key fun slot => { slot with standing := some (standing, slot.calls.length) }

def cutoffMs : ℤ := s.now - deps.terminalRecordRetentionMs

/-- The first part of `pruneTerminalRecords`. -/
def beginPrune : PruneStage Key :=
  if deps.hasStore then
    match deps.pruning with
    | .off => .pruned []
    | .byStore => .asking (s.cutoffMs deps)
    | .byRemove =>
      .removing (s.keys.filter fun key => (s.slots key).stored.any (deps.shouldPrune (s.cutoffMs deps))) []
  else .pruned []

def write (key : Key) (intent : Intent) (writer : Writer Key Intent) : State Key Intent :=
  { s with keys := s.keys ++ [key] }.spawn (.write key intent (.pruning (s.beginPrune deps)) writer)

def remove (key : Key) (remover : Remover) : State Key Intent :=
  (s.modify key fun slot => { slot with memory := none }).spawn (.remove key false remover)

def prepareWakeWrite (key : Key) (base next : Intent) (reason : WakeWriteReason) : Intent :=
  match deps.mergeBeforeWakeWrite with
  | none => next
  | some merge => merge key (s.current key) base next reason

def upsert (key : Key) (intent : Intent) : State Key Intent :=
  (s.modify key fun slot => { slot with standing := none }).write deps key intent .upsert

def upsertMerged (key : Key) (intent : Intent) (merge : Option Intent → Intent → Intent) :
    State Key Intent :=
  (s.readByKey deps key).upsert deps key (merge (s.current key) intent)

def cancelByKey (key : Key) : State Key Intent :=
  match s.current key with
  | none => s
  | some intent =>
    ((s.readByKey deps key).bumpCancellationVersion key).write deps key (deps.markCancelled intent) .cancel

def clearByKey (key : Key) : State Key Intent :=
  match s.current key with
  | none => s
  | some _ => (((s.readByKey deps key).bumpCancellationVersion key).drop key).remove key .clear

/-- The loop of `cancelForSession`, where it goes on with `rest`. -/
def cancelEntries (cancelled : List Key) : List (Key × Intent) → State Key Intent
  | [] => cancelled.foldl (fun s key => s.settle key .cancelled) s
  | (key, intent) :: rest =>
    (s.bumpCancellationVersion key).write deps key (deps.markCancelled intent)
      (.cancelForSession (cancelled ++ [key]) rest)

def cancelForSession (keys : List Key) : State Key Intent :=
  s.cancelEntries deps [] (keys.filterMap fun key => (s.current key).map fun intent => (key, intent))

/-- `performWake`, for a key that no wake is in progress for. -/
def performWake (key : Key) (byTimer : Bool) (gate : GateResult) : State Key Intent :=
  if s.disposed then s
  else match s.current key with
    | none => s
    | some intent =>
      let s := s.readByKey deps key
      let early := byTimer && decide (deps.getStatus intent = .waiting) &&
        (deps.getNextRetryAtMs intent).any fun nextRetryAtMs => decide (s.now < nextRetryAtMs)
      if deps.getStatus intent = .cancelled ∨ deps.getStatus intent = .exhausted then s
      else if early then s.schedule deps key intent
      else match gate with
        | .delayed retryAtMs reason =>
          let next := deps.markWaiting intent retryAtMs (deps.sanitizeLastError reason)
          s.write deps key (s.prepareWakeWrite deps key intent next .delayed) .delayed
        | .opened =>
          let attemptCount := deps.getAttemptCount intent + 1
          let checking := deps.markChecking intent attemptCount
          if 0 < deps.getMaxAttempts intent ∧ deps.getMaxAttempts intent ≤ deps.getAttemptCount intent then
            let next := deps.markExhausted checking (some "max_attempts_exhausted")
            s.write deps key (s.prepareWakeWrite deps key intent next .maxAttemptsExhausted) .maxAttempts
          else
            s.write deps key checking (.checking {
              checking := checking
              attemptCount := attemptCount
              maxAttempts := deps.getMaxAttempts intent
              nowMs := s.now
              cancellationVersion := (s.slots key).cancellationVersion })

def wakeByKey (key : Key) (byTimer : Bool) (gate : GateResult) : State Key Intent :=
  if s.waking key then s else s.performWake deps key byTimer gate

def dispose : State Key Intent :=
  { s with disposed := true, slots := fun key => { s.slots key with timer := false } }

def forget (keys : List Key) : State Key Intent :=
  keys.foldl (fun s key => (s.modify key fun slot => { slot with memory := none, timer := false }).drop key) s

def removeStored (key : Key) : State Key Intent :=
  (s.modify key fun slot => { slot with stored := none }).drop key

/-- One await of `pruneTerminalRecords`; the keys are there when it is done. -/
def stepPrune : PruneStage Key → State Key Intent × (PruneStage Key ⊕ List Key)
  | .asking cutoffMs =>
    let keys := s.keys.filter fun key => (s.slots key).stored.any (deps.shouldPrune cutoffMs)
    (keys.foldl removeStored s, .inl (.pruned keys))
  | .removing [] pruned => (s, .inr pruned)
  | .removing (key :: todo) pruned => (s.removeStored key, .inl (.removing todo (pruned ++ [key])))
  | .pruned keys => (s, .inr keys)

def succeed (key : Key) (checking : Intent) (intent : Option Intent) : State Key Intent :=
  let next := intent.getD (if deps.clearOnSuccess then checking else deps.markCancelled checking)
  let succeeded := s.prepareWakeWrite deps key checking next .success
  if deps.clearOnSuccess && deps.getStatus succeeded ≠ .cancelled && deps.getStatus succeeded ≠ .exhausted then
    s.remove key .success
  else s.write deps key succeeded .success

/-- The outcome `exhausted`, and a wait at the ceiling of the attempts. -/
def exhaust (key : Key) (checking : Intent) (lastError : Option String) (intent : Option Intent) :
    State Key Intent :=
  let lastError := (deps.sanitizeLastError lastError).getD "max_attempts_exhausted"
  let next := deps.markExhausted (intent.getD checking) (some lastError)
  s.write deps key (s.prepareWakeWrite deps key checking next .exhausted) .exhausted

def waitAgain (key : Key) (attempt : Attempt Intent) (jitterMs : ℤ) (nextRetryAtMs : Option ℤ)
    (lastError : Option String) (intent : Option Intent) : State Key Intent :=
  let settledAttemptCount := (intent.map deps.getAttemptCount).getD attempt.attemptCount
  if deps.exhaustOnMaxAttemptOutcome ∧ 0 < attempt.maxAttempts ∧ attempt.maxAttempts ≤ settledAttemptCount then
    s.exhaust deps key attempt.checking lastError intent
  else
    let retryAtMs := (nextRetryAtMs.map (max 0)).getD
      (attempt.nowMs + deps.computeBackoffMs attempt.attemptCount jitterMs)
    let next := deps.markWaiting (intent.getD attempt.checking) retryAtMs (deps.sanitizeLastError lastError)
    s.write deps key (s.prepareWakeWrite deps key attempt.checking next .waiting) .waiting

/-- What follows `await this.recover(...)`. -/
def afterRecover (key : Key) (attempt : Attempt Intent) (outcome : Outcome Intent) (jitterMs : ℤ) :
    State Key Intent :=
  let checking := attempt.checking
  if (s.slots key).cancellationVersion ≠ attempt.cancellationVersion then s.clearTimer key
  else
    match outcome with
    | .success intent => s.succeed deps key checking intent
    | .superseded => s.remove key .superseded
    | .terminal _ intent =>
      let next := intent.getD (deps.markCancelled checking)
      s.write deps key (s.prepareWakeWrite deps key checking next .terminal) .terminal
    | .exhausted lastError intent => s.exhaust deps key checking lastError intent
    | .wait nextRetryAtMs lastError intent =>
      s.waitAgain deps key attempt jitterMs nextRetryAtMs lastError intent
    | .thrown message =>
      let lastError := (deps.sanitizeLastError message).getD "recovery_failed"
      s.waitAgain deps key attempt jitterMs none (some lastError) none

def afterWrite (key : Key) : Writer Key Intent → State Key Intent
  | .upsert | .delayed | .waiting => s
  | .cancel => (s.clearTimer key).settle key .cancelled
  | .cancelForSession cancelled rest => (s.clearTimer key).cancelEntries deps cancelled rest
  | .maxAttempts | .terminal | .exhausted => s.clearTimer key
  | .success => ((s.clearTimer key).start key .onSuccess).spawn (.succeeding key)
  | .checking attempt =>
    if (s.slots key).cancellationVersion ≠ attempt.cancellationVersion then s.clearTimer key
    else ((s.start key .onRetry).start key .recover).spawn (.recovering key attempt)

def afterRemove (key : Key) : Remover → State Key Intent
  | .clear => (s.clearTimer key).settle key .cleared
  | .superseded => s.clearTimer key
  | .success => ((s.clearTimer key).start key .onSuccess).spawn (.succeeding key)

def resume (outcome : Outcome Intent) (jitterMs : ℤ) : Task Key Intent → State Key Intent
  | .write key intent (.pruning prune) writer =>
    match s.stepPrune deps prune with
    | (s, .inl prune) => s.spawn (.write key intent (.pruning prune) writer)
    | (s, .inr keys) =>
      ((s.forget keys).modify key fun slot => { slot with memory := some intent }).spawn
        (.write key intent .storing writer)
  | .write key intent .storing writer =>
    (if deps.hasStore then s.modify key fun slot => { slot with stored := some intent } else s).spawn
      (.write key intent .stored writer)
  | .write key intent .stored writer =>
    (s.schedule deps key intent).spawn (.write key intent .scheduled writer)
  | .write key _ .scheduled writer => s.afterWrite deps key writer
  | .remove key false .clear => (s.removeStored key).spawn (.remove key true .clear)
  | .remove key false remover =>
    (s.modify key fun slot => { slot with stored := none }).spawn (.remove key true remover)
  | .remove key true remover => s.afterRemove key remover
  | .prune prune =>
    match s.stepPrune deps prune with
    | (s, .inl prune) => s.spawn (.prune prune)
    | (s, .inr keys) => s.forget keys
  | .recovering key attempt => s.afterRecover deps key attempt outcome jitterMs
  | .succeeding _ => s

end State

inductive Event (Key Intent : Type)
  | clock (nowMs : ℤ)
  | upsert (key : Key) (intent : Intent)
  | upsertMerged (key : Key) (intent : Intent) (merge : Option Intent → Intent → Intent)
  /-- `read`, `readByKey`, and each entry of `readForSession` and `hydrate`. -/
  | read (key : Key)
  | cancel (key : Key)
  | clear (key : Key)
  | cancelForSession (keys : List Key)
  | pruneTerminalRecords
  | wake (key : Key) (gate : GateResult)
  | timer (key : Key) (gate : GateResult)
  | dispose
  /-- What the task at this place waits for is there; an outcome if it is `recover`. -/
  | resume (index : ℕ) (outcome : Outcome Intent) (jitterMs : ℤ)

namespace State

variable [DecidableEq Key]

def step (deps : Deps Key Intent) (s : State Key Intent) : Event Key Intent → State Key Intent
  | .clock nowMs => { s with now := nowMs }
  | .upsert key intent => s.upsert deps key intent
  | .upsertMerged key intent merge => s.upsertMerged deps key intent merge
  | .read key => s.readByKey deps key
  | .cancel key => s.cancelByKey deps key
  | .clear key => s.clearByKey deps key
  | .cancelForSession keys => s.cancelForSession deps keys
  | .pruneTerminalRecords => s.spawn (.prune (s.beginPrune deps))
  | .wake key gate => s.wakeByKey deps key false gate
  | .timer key gate =>
    if (s.slots key).timer then (s.clearTimer key).wakeByKey deps key true gate else s
  | .dispose => s.dispose
  | .resume index outcome jitterMs =>
    match s.tasks[index]? with
    | none => s
    | some task => { s with tasks := s.tasks.eraseIdx index }.resume deps outcome jitterMs task

end State

end DevPilot.Recovery
