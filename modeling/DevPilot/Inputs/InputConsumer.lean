import DevPilot.Lib.PathText
import Mathlib.Tactic
import DevPilot.Lib.Runs

/-!
The queue of user messages: messages wait with their modes, and leave it in batches of one mode.
-/

namespace DevPilot.Inputs

structure QueueItem (Mode Message : Type) where
  serial : ℕ
  message : Message
  mode : Mode
  modeHash : String
  isolate : Bool
  userMessageSeq : Option ℤ
  userMessageLocalIds : List String

structure MessageQueueBatch (Mode Message : Type) where
  message : Message
  mode : Mode
  isolate : Bool
  hash : String
  maxUserMessageSeq : Option ℤ
  userMessageLocalIds : List String
  items : List (QueueItem Mode Message)

structure PutOptions where
  userMessageSeq : Option ℤ := none
  userMessageLocalId : Option String := none
  userMessageLocalIds : List String := []
deriving DecidableEq, Repr

def normalizeUserMessageSeq (value : Option ℤ) : Option ℤ := value.filter (0 ≤ ·)

def normalizeUserMessageLocalIds (input : PutOptions) : List String :=
  let values := (input.userMessageLocalId.filter (· ≠ "")).toList ++ input.userMessageLocalIds
  ((values.map fun t => String.ofList (PathText.trim t.toList)).filter (· ≠ "")).eraseDups

inductive WaitResult
  | pending
  | resolved (hasMessages : Bool)
  | rejected
deriving DecidableEq, Repr

structure MessageQueue2 (Mode Message : Type) where
  queue : List (QueueItem Mode Message) := []
  closed : Bool := false
  waiter : Option ℕ := none
  waits : List WaitResult := []
  puts : ℕ := 0
  /-- The messages that a clearing push or a reset has removed. -/
  cleared : List ℕ := []

namespace MessageQueue2

variable {Mode Message : Type} (modeHasher : Mode → String) (batcher : List Message → Message)
  (q : MessageQueue2 Mode Message)

def item (message : Message) (mode : Mode) (isolate : Bool) (opts : PutOptions) : QueueItem Mode Message :=
  { serial := q.puts
    message := message
    mode := mode
    modeHash := modeHasher mode
    isolate := isolate
    userMessageSeq := normalizeUserMessageSeq opts.userMessageSeq
    userMessageLocalIds := normalizeUserMessageLocalIds opts }

def notify (hasMessages : Bool) : MessageQueue2 Mode Message :=
  match q.waiter with
  | none => q
  | some n => { q with waiter := none, waits := q.waits.set n (.resolved hasMessages) }

def push (message : Message) (mode : Mode) (opts : PutOptions) : MessageQueue2 Mode Message :=
  if q.closed then q
  else notify { q with
    queue := q.queue ++ [q.item modeHasher message mode false opts]
    puts := q.puts + 1 } true

def pushIsolateAndClear (message : Message) (mode : Mode) (opts : PutOptions) : MessageQueue2 Mode Message :=
  if q.closed then q
  else notify { q with
    queue := [q.item modeHasher message mode true opts]
    puts := q.puts + 1
    cleared := q.cleared ++ q.queue.map (·.serial) } true

def unshift (message : Message) (mode : Mode) (opts : PutOptions) : MessageQueue2 Mode Message :=
  if q.closed then q
  else notify { q with
    queue := q.item modeHasher message mode false opts :: q.queue
    puts := q.puts + 1 } true

def reset : MessageQueue2 Mode Message :=
  notify { q with queue := [], closed := false, cleared := q.cleared ++ q.queue.map (·.serial) } false

def close : MessageQueue2 Mode Message := notify { q with closed := true } false

/-- The queue with a new wait, which is the last of `waits`. -/
def waitForMessages (aborted : Bool) : MessageQueue2 Mode Message :=
  if !q.queue.isEmpty then { q with waits := q.waits ++ [WaitResult.resolved true] }
  else if q.closed || aborted then { q with waits := q.waits ++ [WaitResult.resolved false] }
  else if q.waiter.isSome then { q with waits := q.waits ++ [WaitResult.rejected] }
  else { q with waiter := some q.waits.length, waits := q.waits ++ [WaitResult.pending] }

def abortWait (n : ℕ) : MessageQueue2 Mode Message :=
  { q with
    waiter := if q.waiter = some n then none else q.waiter
    waits := if q.waits[n]? = some .pending then q.waits.set n (.resolved false) else q.waits }

def consume (batch : MessageQueueBatch Mode Message) (i : QueueItem Mode Message) :
    MessageQueueBatch Mode Message :=
  { batch with
    maxUserMessageSeq :=
      match i.userMessageSeq with
      | none => batch.maxUserMessageSeq
      | some seq => some (max (batch.maxUserMessageSeq.getD (-1)) seq)
    userMessageLocalIds :=
      batch.userMessageLocalIds ++ i.userMessageLocalIds.filter (· ∉ batch.userMessageLocalIds)
    items := batch.items ++ [i] }

/-- The first messages of one mode, or the first one alone, and what stays in the queue. -/
def collectBatch (queue : List (QueueItem Mode Message)) :
    Option (MessageQueueBatch Mode Message × List (QueueItem Mode Message)) :=
  match queue with
  | [] => none
  | first :: rest =>
    let together (i : QueueItem Mode Message) : Bool := i.modeHash = first.modeHash && !i.isolate
    let items := if first.isolate then [first] else queue.takeWhile together
    let left := if first.isolate then rest else queue.dropWhile together
    let empty : MessageQueueBatch Mode Message :=
      { message := batcher (items.map (·.message))
        mode := first.mode
        isolate := first.isolate
        hash := first.modeHash
        maxUserMessageSeq := none
        userMessageLocalIds := []
        items := [] }
    some (items.foldl consume empty, left)

end MessageQueue2

end DevPilot.Inputs

/-!
The consumer that waits for the next input of a provider: it takes a batch from the queue, or
has pending messages materialized and waits for something to wake it.
-/

namespace DevPilot.Inputs

inductive ReconcileWhenEmpty
  | force
  | throttled
  | skip
deriving DecidableEq, Repr

structure Config (Mode Message : Type) where
  modeHasher : Mode → String
  batcher : List Message → Message
  reconcileWhenEmpty : Option ReconcileWhenEmpty
  idleWakePollIntervalMs : ℤ

/-- Before or after the pending messages were materialized. -/
inductive Site
  | existing
  | materialized
deriving DecidableEq, Repr

/-- Which `await` a call of `waitForNextInput` is at. -/
inductive Stage (Mode Message : Type)
  | idle
  | collected (site : Site) (batch : Option (MessageQueueBatch Mode Message))
  /-- `callMetadataUpdate`, with a batch that was taken. -/
  | updating (batch : MessageQueueBatch Mode Message)
  | materializing (reconcileWhenEmpty : ReconcileWhenEmpty)
  /-- `waitForWakeSignal`, with its wait for messages. -/
  | racing (wait : ℕ)
  | metaFailed
  | metaFailedUpdating
  | metaFailedCollected (batch : Option (MessageQueueBatch Mode Message))
  | fallback
  | queueWonUpdating
  | idleUpdating
  | metaUpdating
  | waiting (wait : ℕ)
  | returning (batch : Option (MessageQueueBatch Mode Message))

/-- How a call of `waitForNextInput` has ended. -/
inductive CallResult (Mode Message : Type)
  | batch (batch : MessageQueueBatch Mode Message)
  | null
  | thrown

structure Consumer (Mode Message : Type) where
  q : MessageQueue2 Mode Message := {}
  stage : Stage Mode Message := .idle
  aborted : Bool := false
  wokeByIdleTimer : Bool := false
  calls : List (CallResult Mode Message) := []

inductive Wake
  | queue
  | metadata (ok : Bool)
  | metadataFails
  | idle
deriving DecidableEq, Repr

inductive Event (Mode Message : Type)
  | push (message : Message) (mode : Mode) (opts : PutOptions)
  | pushIsolateAndClear (message : Message) (mode : Mode) (opts : PutOptions)
  | unshift (message : Message) (mode : Mode) (opts : PutOptions)
  | reset
  | close
  | waitForNextInput (aborted : Bool)
  | abort
  | wake (winner : Wake)
  /-- Another `await` ends. `ok` tells whether a materialization has failed. -/
  | resume (ok : Bool)

namespace Consumer

variable {Mode Message : Type} (config : Config Mode Message) (w : Consumer Mode Message)

def finish (result : CallResult Mode Message) : Consumer Mode Message :=
  { w with stage := .idle, calls := w.calls ++ [result] }

def collectQueuedBatch (stage : Option (MessageQueueBatch Mode Message) → Stage Mode Message) :
    Consumer Mode Message :=
  match MessageQueue2.collectBatch config.batcher w.q.queue with
  | none => { w with stage := stage none }
  | some (batch, left) => { w with q := { w.q with queue := left }, stage := stage (some batch) }

def loop : Consumer Mode Message :=
  if w.aborted then w.finish .null else w.collectQueuedBatch config (.collected .existing)

def materializePendingMessage : Consumer Mode Message :=
  let reconcileWhenEmpty : ReconcileWhenEmpty :=
    if w.wokeByIdleTimer then if config.reconcileWhenEmpty = some .force then .force else .throttled
    else config.reconcileWhenEmpty.getD .skip
  { w with stage := .materializing reconcileWhenEmpty }

def waitForWakeSignal : Consumer Mode Message :=
  { w with q := w.q.waitForMessages w.aborted, stage := .racing w.q.waits.length }

def waitForMessagesAndGetAsString : Consumer Mode Message :=
  if !w.q.queue.isEmpty then w.collectQueuedBatch config .returning
  else if w.q.closed || w.aborted then { w with stage := .returning none }
  else { w with q := w.q.waitForMessages w.aborted, stage := .waiting w.q.waits.length }

/-- The race of `waitForWakeSignal` has a winner. -/
def woken (wait : ℕ) (winner : Wake) : Consumer Mode Message :=
  let aborted := { w with q := w.q.abortWait wait }
  match winner with
  | .queue =>
    match w.q.waits[wait]? with
    | some (.resolved true) => { aborted with stage := .queueWonUpdating }
    | some (.resolved false) => aborted.finish .null
    | some .rejected => w.finish .thrown
    | _ => w
  | .metadata true => { aborted with stage := .metaUpdating }
  | .metadata false => { aborted with stage := .metaFailed }
  | .metadataFails => w.finish .thrown
  | .idle =>
    if 0 < config.idleWakePollIntervalMs then
      { aborted with stage := .idleUpdating, wokeByIdleTimer := true }
    else w

def resume (ok : Bool) : Consumer Mode Message :=
  match w.stage with
  | .idle | .racing _ => w
  | .collected _ (some batch) => { w with stage := .updating batch }
  | .collected .existing none => w.materializePendingMessage config
  | .collected .materialized none => w.waitForWakeSignal
  | .updating batch => if w.aborted then w.finish .null else w.finish (.batch batch)
  | .materializing _ =>
    if ok then collectQueuedBatch config { w with wokeByIdleTimer := false } (.collected .materialized)
    else w.finish .thrown
  | .metaFailed =>
    if w.aborted then w.collectQueuedBatch config .metaFailedCollected
    else { w with stage := .metaFailedUpdating }
  | .metaFailedUpdating => w.collectQueuedBatch config .metaFailedCollected
  | .metaFailedCollected (some batch) => w.finish (.batch batch)
  | .metaFailedCollected none =>
    if config.idleWakePollIntervalMs ≤ 0 then w.finish .null else { w with stage := .fallback }
  | .fallback => if w.aborted then w.finish .null else w.loop config
  | .queueWonUpdating => if w.aborted then w.finish .null else w.waitForMessagesAndGetAsString config
  | .idleUpdating => if w.aborted then w.finish .null else w.loop config
  | .metaUpdating => w.loop config
  | .waiting wait =>
    match w.q.waits[wait]? with
    | some (.resolved true) => w.collectQueuedBatch config .returning
    | some (.resolved false) => { w with stage := .returning none }
    | some .rejected => w.finish .thrown
    | _ => w
  | .returning (some batch) => w.finish (.batch batch)
  | .returning none => w.finish .null

/-- The signal of the current call is aborted, and with it a wait for messages. -/
def abort : Consumer Mode Message :=
  match w.stage with
  | .idle => w
  | .racing wait | .waiting wait => { w with aborted := true, q := w.q.abortWait wait }
  | _ => { w with aborted := true }

def step (config : Config Mode Message) (w : Consumer Mode Message) :
    Event Mode Message → Consumer Mode Message
  | .push message mode opts => { w with q := w.q.push config.modeHasher message mode opts }
  | .pushIsolateAndClear message mode opts =>
    { w with q := w.q.pushIsolateAndClear config.modeHasher message mode opts }
  | .unshift message mode opts => { w with q := w.q.unshift config.modeHasher message mode opts }
  | .reset => { w with q := w.q.reset }
  | .close => { w with q := w.q.close }
  | .waitForNextInput aborted =>
    match w.stage with
    | .idle => loop config { w with aborted := aborted, wokeByIdleTimer := false }
    | _ => w
  | .abort => w.abort
  | .wake winner =>
    match w.stage with
    | .racing wait => w.woken config wait winner
    | _ => w
  | .resume ok => w.resume config ok

end Consumer

end DevPilot.Inputs
