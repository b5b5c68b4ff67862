import DevPilot.Lib.OrderedMap
import DevPilot.Lib.PathText
import DevPilot.Lib.Runs

/-!
The outbox of quota snapshots: one pending delivery for each slot, and the flushes
that walk over a copy of the pending deliveries, one delivery at a time.
-/

namespace DevPilot.Quotas

open OrderedMaps

/-- A number that is absent or not finite is `none`. -/
structure DeliveryInput where
  sessionId : String
  serviceId : String
  profileId : String
  activeAccountId : Option String := none
  groupId : Option String := none
  groupGeneration : Option ℚ := none

inductive DropReason
  | failed
  | overflow
  | expired
deriving DecidableEq, Repr

inductive DeliveryResult
  | other
  | record (error : Option String) (ok success : Option Bool) (errorCode message : Option String)
deriving DecidableEq, Repr

inductive DeliveryOutcome
  | returned (result : DeliveryResult)
  | thrown (message : String)
deriving DecidableEq, Repr

structure SlotKey where
  sessionId : String
  serviceId : String
  profileId : String
  groupId : Option String
  activeAccountId : Option String
  groupGeneration : Option ℕ
deriving DecidableEq, Repr

/-- `serial` numbers the snapshots as they come. A record that replaces another one in
the map has a new `record`. -/
structure PendingDelivery where
  input : DeliveryInput
  serial : ℕ
  record : ℕ
  firstQueuedAtMs : ℤ
  attempts : ℕ

structure Params where
  maxAttempts : Option ℚ := none
  maxPendingEntries : Option ℚ := none
  maxPendingPayloadAgeMs : Option ℚ := none
  retryDelayMs : Option ℚ := none

def trim (t : String) : String := String.ofList (PathText.trim t.toList)

def normalizeString (value : Option String) : Option String :=
  value.bind fun value => if trim value = "" then none else some (trim value)

def normalizePositiveInt (value : Option ℚ) (fallback : ℕ) : ℕ :=
  match value with
  | none => fallback
  | some value => max 1 value.floor.toNat

def normalizeNonNegativeInt (value : Option ℚ) : Option ℕ :=
  value.bind fun value => if value < 0 then none else some value.floor.toNat

def readDeliveryError : DeliveryResult → Option String
  | .other => none
  | .record error ok success errorCode message =>
    match normalizeString error with
    | some error => some error
    | none =>
      if ok = some false ∨ success = some false then
        match normalizeString errorCode with
        | some errorCode => some errorCode
        | none =>
          match normalizeString message with
          | some message => some message
          | none => some "daemon_quota_snapshot_delivery_failed"
      else none

def DeliveryOutcome.failed : DeliveryOutcome → Bool
  | returned result => (readDeliveryError result).isSome
  | thrown _ => true

def slotKey (input : DeliveryInput) : SlotKey where
  sessionId := input.sessionId
  serviceId := input.serviceId
  profileId := input.profileId
  groupId := normalizeString input.groupId
  activeAccountId := normalizeString input.activeAccountId
  groupGeneration := normalizeNonNegativeInt input.groupGeneration

namespace Params

def attemptLimit (params : Params) : ℕ := normalizePositiveInt params.maxAttempts 5

def entryLimit (params : Params) : ℕ := normalizePositiveInt params.maxPendingEntries 256

def ageLimit (params : Params) : ℕ := normalizePositiveInt params.maxPendingPayloadAgeMs (5 * 60000)

end Params

structure FlushResult where
  attempted : ℕ
  delivered : ℕ
  pending : ℕ
  dropped : ℕ
deriving DecidableEq, Repr

structure Flush where
  sessionId : Option String
  key : SlotKey
  entry : PendingDelivery
  todo : List (SlotKey × PendingDelivery)
  attempted : ℕ
  delivered : ℕ
  dropped : ℕ

inductive Entry
  | started (key : SlotKey) (serial : ℕ)
  | failed (serial : ℕ)
  | dropped (serial : ℕ) (reason : DropReason)
  /-- The session was cleared: of the snapshots that had come till then, none is left. -/
  | cleared (sessionId : String) (serials : ℕ)
  | returned (result : FlushResult)
deriving DecidableEq, Repr

structure Outbox where
  pending : OrderedMap SlotKey PendingDelivery := OrderedMap.empty
  retryTimer : Bool := false
  flushes : List Flush := []
  nextSerial : ℕ := 0
  nextRecord : ℕ := 0
  log : List Entry := []

inductive Event
  | enqueue (input : DeliveryInput) (now : ℤ)
  | enqueueAndFlush (input : DeliveryInput) (now pruneNow : ℤ)
  | flushPending (sessionId : Option String) (now : ℤ)
  | retry (now : ℤ)
  | delivered (flush : ℕ) (outcome : DeliveryOutcome)
  | clearSession (sessionId : String)

def selects (sessionId : Option String) (e : SlotKey × PendingDelivery) : Bool :=
  match sessionId with
  | none => true
  | some id => id = "" || e.2.input.sessionId = id

namespace Outbox

variable (params : Params) (o : Outbox)

def record (entries : List Entry) : Outbox := { o with log := o.log ++ entries }

def expired (now : ℤ) (e : SlotKey × PendingDelivery) : Bool :=
  !decide (now - e.2.firstQueuedAtMs ≤ params.ageLimit)

def pruneExpired (now : ℤ) : Outbox :=
  record { o with pending := o.pending.filter fun e => !expired params now e }
    ((o.pending.entries.filter (expired params now)).map fun e => .dropped e.2.serial .expired)

/-- `enforceMaxPendingEntries`, which drops the oldest entries. -/
def enforceMaxPendingEntries : Outbox :=
  let excess := o.pending.size - params.entryLimit
  record { o with pending := o.pending.dropFirst excess }
    ((o.pending.entries.take excess).map fun e => .dropped e.2.serial .overflow)

def scheduleRetry : Outbox :=
  if params.retryDelayMs = none ∨ o.pending.size = 0 ∨ o.retryTimer then o
  else { o with retryTimer := true }

def enqueue (input : DeliveryInput) (now : ℤ) : Outbox :=
  let key := slotKey input
  enforceMaxPendingEntries params { o with
    pending := o.pending.set key {
      input := input
      serial := o.nextSerial
      record := o.nextRecord
      firstQueuedAtMs := now
      attempts := ((o.pending.get key).map (·.attempts)).getD 0 }
    nextSerial := o.nextSerial + 1
    nextRecord := o.nextRecord + 1 }

/-- The loop of `flushPending` where it goes on with `todo`, up to its next await. -/
def continueFlush (sessionId : Option String) (attempted delivered dropped : ℕ)
    (todo : List (SlotKey × PendingDelivery)) : Outbox :=
  match todo.dropWhile fun e => !selects sessionId e with
  | [] =>
    let o := if 0 < o.pending.size then o.scheduleRetry params else { o with retryTimer := false }
    o.record [.returned ⟨attempted, delivered, o.pending.size, dropped⟩]
  | (key, entry) :: rest =>
    record { o with
      flushes := o.flushes ++ [⟨sessionId, key, entry, rest, attempted + 1, delivered, dropped⟩] }
      [.started key entry.serial]

def flushPending (sessionId : Option String) (now : ℤ) : Outbox :=
  let pruned := pruneExpired params { o with retryTimer := false } now
  pruned.continueFlush params sessionId 0 0 (o.pending.size - pruned.pending.size) pruned.pending.entries

def isCurrent (key : SlotKey) (entry : PendingDelivery) : Bool :=
  (o.pending.get key).any fun current => current.record = entry.record

def fail (flush : Flush) : Outbox × ℕ :=
  let o := o.record [.failed flush.entry.serial]
  if o.isCurrent flush.key flush.entry then
    if params.attemptLimit ≤ flush.entry.attempts + 1 then
      (record { o with pending := o.pending.delete flush.key } [.dropped flush.entry.serial .failed],
        flush.dropped + 1)
    else
      ({ o with
        pending := o.pending.set flush.key
          { flush.entry with attempts := flush.entry.attempts + 1, record := o.nextRecord }
        nextRecord := o.nextRecord + 1 }, flush.dropped)
  else (o, flush.dropped)

def delivered (flush : ℕ) (outcome : DeliveryOutcome) : Outbox :=
  match o.flushes[flush]? with
  | none => o
  | some f =>
    let o := { o with flushes := o.flushes.eraseIdx flush }
    if outcome.failed then
      let (o, dropped) := o.fail params f
      o.continueFlush params f.sessionId f.attempted f.delivered dropped f.todo
    else
      let o := if o.isCurrent f.key f.entry then { o with pending := o.pending.delete f.key } else o
      o.continueFlush params f.sessionId f.attempted (f.delivered + 1) f.dropped f.todo

def clearSession (sessionId : String) : Outbox :=
  let kept := o.pending.filter fun e => e.2.input.sessionId ≠ sessionId
  record { o with
    pending := kept
    retryTimer := if kept.size = 0 then false else o.retryTimer }
    [.cleared sessionId o.nextSerial]

def step (params : Params) (o : Outbox) : Event → Outbox
  | .enqueue input now => o.enqueue params input now
  | .enqueueAndFlush input now pruneNow =>
    (o.enqueue params input now).flushPending params (some input.sessionId) pruneNow
  | .flushPending sessionId now => o.flushPending params sessionId now
  | .retry now =>
    if o.retryTimer then flushPending params { o with retryTimer := false } none now else o
  | .delivered flush outcome => o.delivered params flush outcome
  | .clearSession sessionId => o.clearSession sessionId

end Outbox

end DevPilot.Quotas
