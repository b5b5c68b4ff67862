import DevPilot.Lib.PathText
import DevPilot.Lib.Runs
import DevPilot.Lib.Tables

/-!
The queue of account switches that wait for a turn boundary: the pending switch of
each session, its timer, and the runs of `runSwitch` that are under way.
-/

namespace DevPilot.Switching

open Tables

inductive DeferralPolicy
  | deferUntilTurnBoundary
  | deferUntilIdle
deriving DecidableEq, Repr

inductive SwitchSource
  | manual
  | automatic
deriving DecidableEq, Repr

/-- A generation that is no finite number is `none`. -/
structure SwitchTarget where
  serviceId : String
  profileId : String
  groupId : String
  generation : Option ℚ

structure NormalTarget where
  serviceId : String
  profileId : String
  groupId : String
  generation : ℕ
deriving DecidableEq, Repr

inductive TurnLifecycleEvent
  | promptOrSteer
  | taskStarted
  | assistantMessageEnd
  | turnCancelled
deriving DecidableEq, Repr

inductive CancelReason
  | sessionTerminated
  | sessionRestarting
deriving DecidableEq, Repr

/-- A call of `requestSwitch`. Its `runSwitch` goes by the number of the call. -/
structure SwitchRequest where
  sessionId : String
  policy : DeferralPolicy
  source : SwitchSource
  target : SwitchTarget

def trim (t : String) : String := String.ofList (PathText.trim t.toList)

def normalizeTarget (target : SwitchTarget) : NormalTarget where
  serviceId := trim target.serviceId
  profileId := trim target.profileId
  groupId := trim target.groupId
  generation := (target.generation.map fun generation => generation.floor.toNat).getD 0

def isSameTarget (a b : NormalTarget) : Bool :=
  a.serviceId = b.serviceId && a.profileId = b.profileId && a.groupId = b.groupId &&
    a.generation = b.generation

def isOlderGeneration (pending next : NormalTarget) : Bool :=
  if pending.serviceId ≠ next.serviceId then false
  else if pending.groupId ≠ next.groupId then false
  else next.generation < pending.generation

def shouldReplacePending (pendingSource nextSource : SwitchSource) : Bool :=
  !(pendingSource = .manual && nextSource ≠ .manual)

/-- The switch goes by the number of the request that has brought its `runSwitch`. -/
structure PendingSwitch where
  sessionId : String
  source : SwitchSource
  target : NormalTarget
  timer : Bool
  requests : List ℕ
  settled : Bool
deriving DecidableEq, Repr

structure SessionTurnState where
  inFlight : Bool := false
  lastEvent : Option TurnLifecycleEvent := none
  hasProviderActivityThisTurn : Bool := false
deriving DecidableEq, Repr

/-- A call of `runSwitch` that has not ended. -/
inductive SwitchRun
  | immediate (request : ℕ)
  | pending (switch : ℕ)
deriving DecidableEq, Repr

inductive Entry
  | joined (request switch : ℕ)
  | unnamed (request : ℕ)
  | started (switch : ℕ) (timedOut inFlight : Bool)
  | ran (switch : ℕ)
  | superseded (switch : ℕ)
  | cancelled (switch : ℕ)
  | restarting (switch : ℕ)
  | settled (request : ℕ) (fulfilled : Bool)
deriving DecidableEq, Repr

structure Queue where
  turnStateBySessionId : Table SessionTurnState := Table.empty
  pendingBySessionId : Table ℕ := Table.empty
  switches : ℕ → Option PendingSwitch := fun _ => none
  runs : List SwitchRun := []
  nextRequest : ℕ := 0
  log : List Entry := []

inductive Event
  | requestSwitch (input : SwitchRequest)
  | recordTurnLifecycleEvent (sessionId : String) (event : TurnLifecycleEvent)
  | timeout (switch : ℕ)
  | runEnds (run : ℕ) (ok : Bool)
  | cancelSession (sessionId : String) (reason : CancelReason)
  | cancelAll

namespace Queue

variable (q : Queue)

def record (entries : List Entry) : Queue := { q with log := q.log ++ entries }

def setPending (switch : ℕ) (pending : PendingSwitch) : Queue :=
  { q with switches := Function.update q.switches switch (some pending) }

/-- `readTurnState`, which puts an idle state in place of an absent one. -/
def readTurnState (sessionId : String) : SessionTurnState × Queue :=
  match q.turnStateBySessionId.get sessionId with
  | some state => (state, q)
  | none => ({}, { q with turnStateBySessionId := q.turnStateBySessionId.set sessionId {} })

def isTurnInFlight (sessionId : String) : Bool :=
  (q.turnStateBySessionId.get sessionId).any (·.inFlight)

def settlePending (switch : ℕ) (pending : PendingSwitch) (resolve : Bool) : Queue :=
  if pending.settled then q
  else ({ q with pendingBySessionId := q.pendingBySessionId.delete pending.sessionId }.setPending switch
    { pending with settled := true, timer := false, requests := [] }).record
      (pending.requests.map (Entry.settled · resolve))

def executePendingSwitch (switch : ℕ) (pending : PendingSwitch) (timedOut : Bool) : Queue :=
  if pending.settled then q
  else { (q.setPending switch { pending with timer := false }).record
    [.started switch timedOut (q.isTurnInFlight pending.sessionId)] with
      runs := q.runs ++ [SwitchRun.pending switch] }

def rejectPending (switch : ℕ) (pending : PendingSwitch) : Queue :=
  if pending.settled then q
  else (q.record [.cancelled switch]).settlePending switch pending false

def rejectSupersededPending (switch : ℕ) (pending : PendingSwitch) : Queue :=
  if pending.settled then q
  else (q.record [.superseded switch]).settlePending switch pending false

/-- What is done with the pending switch of a session, where it has one. -/
def withPending (sessionId : String) (f : ℕ → PendingSwitch → Queue) : Queue :=
  match q.pendingBySessionId.get sessionId with
  | none => q
  | some switch =>
    match q.switches switch with
    | none => q
    | some pending => f switch pending

def shouldRunImmediately (disableDeferral : Bool) (input : SwitchRequest) : Bool × Queue :=
  if disableDeferral then (true, q)
  else
    let (state, q) := q.readTurnState input.sessionId
    match input.policy with
    | .deferUntilIdle => (state.inFlight ≠ true, q)
    | .deferUntilTurnBoundary => (state.inFlight ≠ true, q)

def answer (entries : List Entry) (fulfilled : Bool) : Queue :=
  { q.record (entries ++ [Entry.settled q.nextRequest fulfilled]) with nextRequest := q.nextRequest + 1 }

def runNow (sessionId : String) : Queue :=
  { q.record [.joined q.nextRequest q.nextRequest,
      .started q.nextRequest false (q.isTurnInFlight sessionId)] with
    runs := q.runs ++ [SwitchRun.immediate q.nextRequest]
    nextRequest := q.nextRequest + 1 }

def defer (sessionId : String) (input : SwitchRequest) : Queue :=
  { (q.setPending q.nextRequest {
      sessionId := sessionId
      source := input.source
      target := normalizeTarget input.target
      timer := true
      requests := [q.nextRequest]
      settled := false }).record [.joined q.nextRequest q.nextRequest] with
    pendingBySessionId := q.pendingBySessionId.set sessionId q.nextRequest
    nextRequest := q.nextRequest + 1 }

def join (switch : ℕ) (pending : PendingSwitch) : Queue :=
  { (q.setPending switch { pending with requests := pending.requests ++ [q.nextRequest] }).record
      [.joined q.nextRequest switch] with
    nextRequest := q.nextRequest + 1 }

/-- `requestSwitch` where it does not run at once. -/
def deferRequest (sessionId : String) (input : SwitchRequest) : Queue :=
  let target := normalizeTarget input.target
  match q.pendingBySessionId.get sessionId with
  | none => q.defer sessionId input
  | some switch =>
    match q.switches switch with
    | none => q
    | some pending =>
      if isSameTarget pending.target target then q.join switch pending
      else if isOlderGeneration pending.target target then q.answer [] false
      else if !shouldReplacePending pending.source input.source then q.join switch pending
      else (q.rejectSupersededPending switch pending).defer sessionId input

def requestSwitch (disableDeferral : Bool) (input : SwitchRequest) : Queue :=
  let sessionId := trim input.sessionId
  if sessionId = "" then q.answer [.unnamed q.nextRequest] true
  else
    let (now, q) := q.shouldRunImmediately disableDeferral input
    if now then q.runNow sessionId
    else q.deferRequest sessionId input

def recordTurnLifecycleEvent (sessionId : String) (event : TurnLifecycleEvent) : Queue :=
  let sessionId := trim sessionId
  if sessionId = "" then q
  else
    let (state, q) := q.readTurnState sessionId
    let set (state : SessionTurnState) : Queue :=
      { q with turnStateBySessionId := q.turnStateBySessionId.set sessionId state }
    let state := { state with lastEvent := some event }
    match event with
    | .promptOrSteer => set { state with inFlight := true, hasProviderActivityThisTurn := false }
    | .taskStarted => set { state with inFlight := true, hasProviderActivityThisTurn := true }
    | .assistantMessageEnd | .turnCancelled =>
      let q := set { state with inFlight := false }
      q.withPending sessionId fun switch pending => q.executePendingSwitch switch pending false

def timeout (switch : ℕ) : Queue :=
  match q.switches switch with
  | none => q
  | some pending => if pending.timer then q.executePendingSwitch switch pending true else q

/-- What follows the await of `runSwitch`. -/
def runEnds (run : ℕ) (ok : Bool) : Queue :=
  match q.runs[run]? with
  | none => q
  | some (.immediate request) =>
    { q.record ((if ok then [Entry.ran request] else []) ++ [Entry.settled request ok]) with
      runs := q.runs.eraseIdx run }
  | some (.pending switch) =>
    let q := { q.record (if ok then [.ran switch] else []) with runs := q.runs.eraseIdx run }
    match q.switches switch with
    | none => q
    | some pending => q.settlePending switch pending ok

def cancelSession (sessionId : String) (reason : CancelReason) : Queue :=
  let sessionId := trim sessionId
  if sessionId = "" then q
  else
    let q := { q with turnStateBySessionId := q.turnStateBySessionId.delete sessionId }
    q.withPending sessionId fun switch pending =>
      match reason with
      | .sessionRestarting => (q.record [.restarting switch]).settlePending switch pending true
      | .sessionTerminated => q.rejectPending switch pending

def cancelEntry (switch : ℕ) : Queue :=
  match q.switches switch with
  | none => q
  | some pending => q.rejectPending switch pending

def cancelAll : Queue :=
  q.pendingBySessionId.values.foldl cancelEntry
    { q with turnStateBySessionId := Table.empty }

def step (disableDeferral : Bool) (q : Queue) : Event → Queue
  | .requestSwitch input => q.requestSwitch disableDeferral input
  | .recordTurnLifecycleEvent sessionId event => q.recordTurnLifecycleEvent sessionId event
  | .timeout switch => q.timeout switch
  | .runEnds run ok => q.runEnds run ok
  | .cancelSession sessionId reason => q.cancelSession sessionId reason
  | .cancelAll => q.cancelAll

end Queue

end DevPilot.Switching
