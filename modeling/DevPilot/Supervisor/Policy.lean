import Mathlib.Tactic

/-!
What the connection and the endpoint supervisor share: the state they publish,
the results of readiness probes, and the delays before a retry.
-/

namespace DevPilot

inductive ManagedConnectionPhase
  | idle | connecting | online | offline | authFailed | shuttingDown
  deriving DecidableEq

inductive ManagedConnectionReason
  | initialConnect | transportDisconnect | serverUnreachable | authInvalid | intentionalShutdown
  | probeFailed | manualDisconnect
  deriving DecidableEq

structure ManagedConnectionState where
  phase : ManagedConnectionPhase
  reason : Option ManagedConnectionReason
  attempt : Nat
  nextRetryAt : Option Int
  lastConnectedAt : Option Int
  lastDisconnectedAt : Option Int
  lastErrorMessage : Option String
  deriving DecidableEq

def ManagedConnectionState.initial : ManagedConnectionState where
  phase := .idle
  reason := none
  attempt := 0
  nextRetryAt := none
  lastConnectedAt := none
  lastDisconnectedAt := none
  lastErrorMessage := none

/-- A readiness probe that is not ready. A `retryAfterMs` that is no finite
number counts as missing. -/
inductive ProbeFailure
  | serverUnreachable (errorMessage : Option String)
  | authFailed (errorMessage : Option String)
  | retryLater (retryAfterMs : Option Int) (errorMessage : Option String)
  deriving DecidableEq

inductive ReadinessProbeResult
  | ready
  | failed (failure : ProbeFailure)
  deriving DecidableEq

namespace ProbeFailure

def errorMessage : ProbeFailure → Option String
  | .serverUnreachable message => message
  | .authFailed message => message
  | .retryLater _ message => message

def retryAfterMs : ProbeFailure → Option Int
  | .retryLater ms _ => ms
  | _ => none

def isAuthFailed : ProbeFailure → Bool
  | .authFailed _ => true
  | _ => false

def reason : ProbeFailure → ManagedConnectionReason
  | .authFailed _ => .authInvalid
  | .serverUnreachable _ => .serverUnreachable
  | .retryLater _ _ => .probeFailed

def messageOr (failure : ProbeFailure) (fallback : Option String) : Option String :=
  failure.errorMessage.orElse fun _ => fallback

def delayMs (failure : ProbeFailure) (otherwise : Int) : Int :=
  (failure.retryAfterMs.map (max 1)).getD otherwise

end ProbeFailure

def probeReason (probe : Option ProbeFailure) : ManagedConnectionReason :=
  (probe.map (·.reason)).getD .transportDisconnect

def probeMessage (probe : Option ProbeFailure) (fallback : Option String) : Option String :=
  probe.elim fallback (·.messageOr fallback)

structure ManagedConnectionTimingPolicy where
  initialFastRetryDelayMs : Int
  maxFastRetries : Int
  backoffMinMs : Int
  backoffMaxMs : Int
  jitters : Bool

/-- The time of a step, and what its draw of `Math.random()` makes of a base
delay. -/
structure Moment where
  now : Int
  jittered : Int → Int

namespace ManagedConnectionTimingPolicy

def computeBackoffMs (policy : ManagedConnectionTimingPolicy) (m : Moment) (attempt : Nat) : Int :=
  let minMs := max 1 policy.backoffMinMs
  let maxMs := max minMs policy.backoffMaxMs
  let baseMs := min maxMs (minMs * 2 ^ (max 1 attempt - 1))
  if policy.jitters then max 1 (m.jittered baseMs) else baseMs

def fastRetryDelayMs (policy : ManagedConnectionTimingPolicy) (m : Moment) (attempt : Nat) : Int :=
  if attempt ≤ max 0 policy.maxFastRetries then max 0 policy.initialFastRetryDelayMs
  else policy.computeBackoffMs m attempt

end ManagedConnectionTimingPolicy

end DevPilot
