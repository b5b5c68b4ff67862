import DevPilot.Lib.Runs
import DevPilot.Supervisor.Policy

/-!
The managed connection supervisor: what each of its calls, its listeners and its
suspended computations does up to the next `await`.
-/

namespace DevPilot

structure ConnectionConfig where
  policy : ManagedConnectionTimingPolicy
  probeBeforeInitialConnect : Bool

/-- A transport, with what its listeners hold of the `establishConnection` that
created it. -/
structure Transport where
  id : Nat
  generation : Nat
  initial : Bool
  attempt : Nat
  deriving DecidableEq

/-- What is left to do after `await cleanupTransport()`. -/
inductive AfterCleanup
  | establish (initial : Bool) (attempt generation : Nat)
  | apply (probe : ProbeFailure) (generation : Nat)
  | stop

inductive Suspension
  /-- Nothing, as there was no transport to clean up. -/
  | noTransport (rest : AfterCleanup)
  | disconnecting (transport : Nat) (rest : AfterCleanup)
  | destroying (transport : Nat) (rest : AfterCleanup)
  | initialProbe (attempt generation : Nat)
  | connecting (generation : Nat)
  | retryProbe (attempt generation : Nat)
  | beforeReconnect (attempt generation : Nat)
  | onAuthFailed
  | onDisconnected (intentional : Bool) (attempt generation : Nat)

/-- A suspended computation, and the `start()` that awaits it. -/
structure Task where
  start : Option Nat
  suspension : Suspension

structure ConnectionSupervisor where
  state : ManagedConnectionState := .initial
  currentTransport : Option Transport := none
  /-- The attempt that the callback of the timer holds. -/
  retryTimer : Option Nat := none
  isStarted : Bool := false
  isStopped : Bool := false
  reconnectAttempt : Nat := 0
  generation : Nat := 0
  startInFlight : Option Nat := none
  listening : List Transport := []
  tasks : List Task := []
  starts : Nat := 0
  alive : List Nat := []
  created : Nat := 0
  /-- The transports on which `connect()` has been called, and whether the
  supervisor was stopped by then. -/
  connects : List (Nat × Bool) := []

/-- How a promise is settled. An error comes with what the classifier of the
configuration makes of it. -/
inductive Settlement
  | resolved
  | probed (probe : ReadinessProbeResult)
  | rejected (message : String) (classified : Option ProbeFailure)

inductive ConnectionEvent
  | start
  | startSettled
  | stop
  | reportProbeResult (probe : ProbeFailure)
  | connected (transport : Nat)
  | disconnected (transport : Nat) (intentional : Bool) (error : Option String)
  | error (transport : Nat) (message : String) (classified : Option ProbeFailure)
      (isConnected : Bool)
  | timer
  | settled (i : Nat) (settlement : Settlement)

/-- A step takes place at a moment. `onStateChange` may call `stop()` while it is
told of an attempt to connect or of a retry. -/
structure Circumstances extends Moment where
  observerStops : Bool

namespace ConnectionSupervisor

variable (config : ConnectionConfig) (c : Circumstances)

def publish (s : ConnectionSupervisor) (next : ManagedConnectionState) : ConnectionSupervisor :=
  { s with state := next }

def clearRetryTimer (s : ConnectionSupervisor) : ConnectionSupervisor := { s with retryTimer := none }

def await (s : ConnectionSupervisor) (start : Option Nat) (suspension : Suspension) :
    ConnectionSupervisor :=
  { s with tasks := s.tasks ++ [⟨start, suspension⟩] }

def cleanupTransport (s : ConnectionSupervisor) (start : Option Nat) (rest : AfterCleanup) :
    ConnectionSupervisor :=
  match s.currentTransport with
  | none => s.await start (.noTransport rest)
  | some transport =>
      { s with
        currentTransport := none
        listening := s.listening.filter (·.id != transport.id) }.await start
          (.disconnecting transport.id rest)

def shutDown (s : ConnectionSupervisor) : ConnectionSupervisor :=
  { s with isStopped := true, startInFlight := none }.clearRetryTimer.publish
    { s.state with
      phase := .shuttingDown
      reason := some .intentionalShutdown
      nextRetryAt := none }

def stop (s : ConnectionSupervisor) : ConnectionSupervisor :=
  if s.isStopped then s else s.shutDown.cleanupTransport none .stop

def observed (s : ConnectionSupervisor) : ConnectionSupervisor :=
  if c.observerStops then s.stop else s

def setRetryTimer (s : ConnectionSupervisor) (attempt : Nat) : ConnectionSupervisor :=
  { s with retryTimer := some attempt }

def scheduleReconnect (s : ConnectionSupervisor) (attempt : Nat) (delayMs : Int)
    (probe : Option ProbeFailure) : ConnectionSupervisor :=
  if s.isStopped then s
  else
    ((s.clearRetryTimer.publish
      { s.state with
        phase := .offline
        reason := some (probeReason probe)
        attempt
        nextRetryAt := some (c.now + delayMs)
        lastErrorMessage := probeMessage probe s.state.lastErrorMessage }).observed c).setRetryTimer
          attempt

def publishAuthFailed (s : ConnectionSupervisor) (attempt : Nat) (probe : ProbeFailure) :
    ConnectionSupervisor :=
  s.publish { s.state with
    phase := .authFailed
    reason := some probe.reason
    attempt
    nextRetryAt := none
    lastErrorMessage := probe.messageOr s.state.lastErrorMessage }

def createTransport (s : ConnectionSupervisor) (initial : Bool) (attempt generation : Nat) :
    ConnectionSupervisor :=
  { s with
    currentTransport := some ⟨s.created, generation, initial, attempt⟩
    listening := s.listening ++ [⟨s.created, generation, initial, attempt⟩]
    alive := s.alive ++ [s.created]
    created := s.created + 1 }

def publishConnecting (s : ConnectionSupervisor) (initial : Bool) (attempt : Nat) :
    ConnectionSupervisor :=
  s.publish { s.state with
    phase := .connecting
    reason := if initial then some .initialConnect else s.state.reason
    attempt
    nextRetryAt := none
    lastErrorMessage := none }

def connect (s : ConnectionSupervisor) (transport : Nat) : ConnectionSupervisor :=
  { s with connects := s.connects ++ [(transport, s.isStopped)] }

/-- The end of `establishConnection`, from `createTransport()` on. -/
def connectTransport (s : ConnectionSupervisor) (start : Option Nat) (initial : Bool)
    (attempt generation : Nat) : ConnectionSupervisor :=
  ((((s.createTransport initial attempt generation).publishConnecting initial attempt).observed
    c).connect s.created).await start (.connecting generation)

/-- `establishConnection` behind its cleanup. -/
def establishCleaned (s : ConnectionSupervisor) (start : Option Nat) (initial : Bool)
    (attempt generation : Nat) : ConnectionSupervisor :=
  if s.isStopped then s
  else if initial && config.probeBeforeInitialConnect then
    s.await start (.initialProbe attempt generation)
  else s.connectTransport c start initial attempt generation

/-- A new generation begins. No retry is left from the one before. -/
def nextGeneration (s : ConnectionSupervisor) : ConnectionSupervisor :=
  { s with generation := s.generation + 1 }.clearRetryTimer

def establishConnection (s : ConnectionSupervisor) (start : Option Nat) (initial : Bool)
    (attempt : Nat) : ConnectionSupervisor :=
  if s.currentTransport.isSome then
    s.nextGeneration.cleanupTransport start (.establish initial attempt (s.generation + 1))
  else s.nextGeneration.establishCleaned config c start initial attempt (s.generation + 1)

def initialProbed (s : ConnectionSupervisor) (start : Option Nat) (attempt generation : Nat)
    (probe : ReadinessProbeResult) : ConnectionSupervisor :=
  if generation ≠ s.generation ∨ s.isStopped then s
  else
    let initialProbeAttempt := max 1 (attempt + 1)
    match probe with
    | .ready => s.connectTransport c start true attempt generation
    | .failed probe =>
        if probe.isAuthFailed then
          (s.publishAuthFailed initialProbeAttempt probe).await start .onAuthFailed
        else s.scheduleReconnect c initialProbeAttempt
          (probe.delayMs (config.policy.computeBackoffMs c.toMoment initialProbeAttempt)) (some probe)

def applyProbe (s : ConnectionSupervisor) (start : Option Nat) (probe : ProbeFailure) :
    ConnectionSupervisor :=
  if s.isStopped then s
  else if s.state.phase ≠ .online ∧ s.state.phase ≠ .connecting ∧ s.state.phase ≠ .offline then s
  else s.nextGeneration.cleanupTransport start (.apply probe (s.generation + 1))

def probeApplied (s : ConnectionSupervisor) (probe : ProbeFailure) (generation : Nat) :
    ConnectionSupervisor :=
  if s.isStopped ∨ generation ≠ s.generation then s
  else if probe.isAuthFailed then s.publishAuthFailed s.state.attempt probe
  else
    let nextAttempt := max 1 (s.state.attempt + 1)
    s.scheduleReconnect c nextAttempt
      (probe.delayMs (config.policy.fastRetryDelayMs c.toMoment nextAttempt)) (some probe)

/-- `runProbeAndReconnect`, up to the probe. -/
def runProbeAndReconnect (s : ConnectionSupervisor) (attempt : Nat) : ConnectionSupervisor :=
  if s.isStopped then s else s.await none (.retryProbe attempt s.generation)

def retryProbed (s : ConnectionSupervisor) (attempt generation : Nat)
    (probe : ReadinessProbeResult) : ConnectionSupervisor :=
  if s.isStopped ∨ generation ≠ s.generation then s
  else match probe with
    | .ready => s.await none (.beforeReconnect attempt generation)
    | .failed probe =>
        if probe.isAuthFailed then (s.publishAuthFailed attempt probe).await none .onAuthFailed
        else s.scheduleReconnect c (attempt + 1)
          (probe.delayMs (config.policy.computeBackoffMs c.toMoment (attempt + 1))) (some probe)

def reconnect (s : ConnectionSupervisor) (attempt generation : Nat) : ConnectionSupervisor :=
  if s.isStopped ∨ generation ≠ s.generation then s
  else s.establishConnection config c none false attempt

/-- `handleDisconnect`, up to `onDisconnected`. -/
def handleDisconnect (s : ConnectionSupervisor) (intentional : Bool) (error : Option String) :
    ConnectionSupervisor :=
  let attempt := s.reconnectAttempt + 1
  ({ s with reconnectAttempt := attempt }.publish
    { s.state with
      phase := .offline
      reason := some (if intentional then .manualDisconnect else .transportDisconnect)
      attempt
      nextRetryAt := none
      lastDisconnectedAt := some c.now
      lastErrorMessage := error }).await none (.onDisconnected intentional attempt s.generation)

def disconnectHandled (s : ConnectionSupervisor) (intentional : Bool) (attempt generation : Nat) :
    ConnectionSupervisor :=
  if intentional ∨ s.isStopped ∨ generation ≠ s.generation ∨ s.state.phase = .authFailed then s
  else s.scheduleReconnect c attempt (config.policy.fastRetryDelayMs c.toMoment attempt) none

/-- The transport whose listeners an event reaches, unless they are out of date. -/
def honoured (s : ConnectionSupervisor) (transport : Nat) : Option Transport :=
  (s.listening.find? (·.id = transport)).filter fun t =>
    t.generation = s.generation ∧ s.isStopped = false

def onConnected (s : ConnectionSupervisor) (t : Transport) : ConnectionSupervisor :=
  { s with reconnectAttempt := t.attempt }.clearRetryTimer.publish
    { s.state with
      phase := .online
      reason := if t.initial then some .initialConnect else s.state.reason
      attempt := t.attempt
      nextRetryAt := none
      lastConnectedAt := some c.now
      lastErrorMessage := none }

def onError (s : ConnectionSupervisor) (t : Transport) (message : String)
    (classified : Option ProbeFailure) (isConnected : Bool) : ConnectionSupervisor :=
  if s.state.phase = .connecting ∧ s.currentTransport = some t ∧ isConnected = false then
    match classified with
    | some probe => s.applyProbe none probe
    | none =>
        let nextAttempt := max 1 (s.state.attempt + 1)
        s.scheduleReconnect c nextAttempt (config.policy.fastRetryDelayMs c.toMoment nextAttempt)
          (some (.serverUnreachable (some message)))
  else s.publish { s.state with lastErrorMessage := some message }

def afterCleanup (s : ConnectionSupervisor) (start : Option Nat) : AfterCleanup → ConnectionSupervisor
  | .establish initial attempt generation =>
      s.establishCleaned config c start initial attempt generation
  | .apply probe generation => s.probeApplied config c probe generation
  | .stop => s

def proceed (s : ConnectionSupervisor) (start : Option Nat) : Suspension → Settlement →
    ConnectionSupervisor
  | .noTransport rest, _ => s.afterCleanup config c start rest
  | .disconnecting transport rest, _ => s.await start (.destroying transport rest)
  | .destroying transport rest, _ =>
      { s with alive := s.alive.erase transport }.afterCleanup config c start rest
  | .initialProbe attempt generation, .probed probe =>
      s.initialProbed config c start attempt generation probe
  | .initialProbe attempt generation, .rejected message _ =>
      s.initialProbed config c start attempt generation (.failed (.serverUnreachable (some message)))
  | .connecting generation, .rejected message classified =>
      if generation ≠ s.generation ∨ s.isStopped then s
      else s.applyProbe start (classified.getD (.serverUnreachable (some message)))
  | .retryProbe attempt generation, .probed probe => s.retryProbed config c attempt generation probe
  | .retryProbe attempt generation, .rejected message _ =>
      s.retryProbed config c attempt generation (.failed (.serverUnreachable (some message)))
  | .beforeReconnect attempt generation, .resolved => s.reconnect config c attempt generation
  | .onDisconnected intentional attempt generation, .resolved =>
      s.disconnectHandled config c intentional attempt generation
  | _, _ => s

def startRun (s : ConnectionSupervisor) : ConnectionSupervisor :=
  if s.isStarted ∧ s.isStopped = false then
    if s.state.phase = .online ∨ s.state.phase = .connecting then s
    else { s with reconnectAttempt := 0 }.establishConnection config c (some s.starts)
      config.probeBeforeInitialConnect 0
  else { s with isStarted := true, isStopped := false, reconnectAttempt := 0 }.establishConnection
    config c (some s.starts) true 0

def start (s : ConnectionSupervisor) : ConnectionSupervisor :=
  if s.startInFlight.isSome ∧ s.isStopped = false then s
  else { s.startRun config c with startInFlight := some s.starts, starts := s.starts + 1 }

/-- The promise of the `start()` in flight is settled, if nothing is left to wait
for. -/
def startSettled (s : ConnectionSupervisor) : ConnectionSupervisor :=
  if s.startInFlight.isSome ∧ ∀ t ∈ s.tasks, t.start ≠ s.startInFlight then
    { s with startInFlight := none }
  else s

def timer (s : ConnectionSupervisor) : ConnectionSupervisor :=
  match s.retryTimer with
  | none => s
  | some attempt => { s with retryTimer := none }.runProbeAndReconnect attempt

def taken (s : ConnectionSupervisor) (i : Nat) : ConnectionSupervisor :=
  { s with tasks := s.tasks.eraseIdx i }

def step (s : ConnectionSupervisor) (e : Circumstances × ConnectionEvent) : ConnectionSupervisor :=
  match e.2 with
  | .start => s.start config e.1
  | .startSettled => s.startSettled
  | .stop => s.stop
  | .reportProbeResult probe => s.applyProbe none probe
  | .connected transport => (s.honoured transport).elim s (s.onConnected e.1)
  | .disconnected transport intentional error =>
      (s.honoured transport).elim s fun _ => s.handleDisconnect e.1 intentional error
  | .error transport message classified isConnected =>
      (s.honoured transport).elim s fun t => s.onError config e.1 t message classified isConnected
  | .timer => s.timer
  | .settled i settlement => match s.tasks[i]? with
      | none => s
      | some task => (s.taken i).proceed config e.1 task.start task.suspension settlement

end ConnectionSupervisor

end DevPilot
