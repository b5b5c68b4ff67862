import DevPilot.Lib.Runs
import DevPilot.Lib.Slices
import DevPilot.Supervisor.Policy

/-!
The managed endpoint supervisor, which probes an endpoint until it is online, and
why it never gets stuck.
-/

namespace DevPilot

open Runs

structure EndpointState extends ManagedConnectionState where
  lastProbe : Option ReadinessProbeResult

def EndpointState.initial : EndpointState := { ManagedConnectionState.initial with lastProbe := none }

/-- A `runProbe` that waits for its probe, and the `start()` that awaits it. -/
structure EndpointProbe where
  attempt : Nat
  initial : Bool
  generation : Nat
  start : Option Nat

structure EndpointSupervisor where
  state : EndpointState := .initial
  /-- The attempt that the callback of the timer holds. -/
  retryTimer : Option Nat := none
  isStarted : Bool := false
  isStopped : Bool := false
  generation : Nat := 0
  pendingInvalidate : Bool := false
  startInFlight : Option Nat := none
  probes : List EndpointProbe := []
  starts : Nat := 0

inductive EndpointEvent
  | start
  | startSettled
  | stop
  | invalidate
  | reportFailure (errorMessage : Option String)
  | reportProbeResult (probe : ProbeFailure)
  | timer
  | probed (i : Nat) (result : Except String ReadinessProbeResult)

def toProbeResultFromError : Except String ReadinessProbeResult → ReadinessProbeResult
  | .ok probe => probe
  | .error message => .failed (.serverUnreachable (some message))

namespace EndpointSupervisor

variable (policy : ManagedConnectionTimingPolicy) (m : Moment)

def publish (s : EndpointSupervisor) (next : EndpointState) : EndpointSupervisor :=
  { s with state := next }

def clearRetryTimer (s : EndpointSupervisor) : EndpointSupervisor := { s with retryTimer := none }

def scheduleProbe (s : EndpointSupervisor) (attempt : Nat) (delayMs : Int) (probe : ProbeFailure) :
    EndpointSupervisor :=
  if s.isStopped then s
  else
    { s.clearRetryTimer.publish
      { s.state with
        phase := .offline
        reason := some probe.reason
        attempt
        nextRetryAt := some (m.now + delayMs)
        lastDisconnectedAt := some m.now
        lastErrorMessage := probe.messageOr s.state.lastErrorMessage
        lastProbe := some (.failed probe) } with retryTimer := some attempt }

def nextGeneration (s : EndpointSupervisor) : EndpointSupervisor :=
  { s with generation := s.generation + 1 }

/-- `runProbe`, up to the probe. -/
def runProbe (s : EndpointSupervisor) (start : Option Nat) (attempt : Nat) (initial : Bool) :
    EndpointSupervisor :=
  if s.isStopped then s.nextGeneration.clearRetryTimer
  else
    { s.nextGeneration.clearRetryTimer.publish
      { s.state with
        phase := .connecting
        reason := if initial then some .initialConnect else s.state.reason
        attempt
        nextRetryAt := none
        lastErrorMessage := none } with
      probes := s.probes ++ [⟨attempt, initial, s.generation + 1, start⟩] }

def publishAuthFailed (s : EndpointSupervisor) (attempt : Nat) (probe : ProbeFailure) :
    EndpointSupervisor :=
  s.publish { s.state with
    phase := .authFailed
    reason := some probe.reason
    attempt
    nextRetryAt := none
    lastErrorMessage := probe.messageOr s.state.lastErrorMessage
    lastProbe := some (.failed probe) }

def publishOnline (s : EndpointSupervisor) (attempt : Nat) (initial : Bool) : EndpointSupervisor :=
  s.publish { s.state with
    phase := .online
    reason := if initial then some .initialConnect else s.state.reason
    attempt
    nextRetryAt := none
    lastConnectedAt := some m.now
    lastErrorMessage := none
    lastProbe := some .ready }

/-- `runProbe` behind its probe. -/
def probed (s : EndpointSupervisor) (p : EndpointProbe) (probe : ReadinessProbeResult) :
    EndpointSupervisor :=
  if s.isStopped ∨ p.generation ≠ s.generation then s
  else match probe with
    | .failed probe =>
        if probe.isAuthFailed then s.publishAuthFailed p.attempt probe
        else s.scheduleProbe m (p.attempt + 1)
          (probe.delayMs (policy.fastRetryDelayMs m (p.attempt + 1))) probe
    | .ready =>
        if s.pendingInvalidate then
          { s.publishOnline m p.attempt p.initial with pendingInvalidate := false }.runProbe none
            p.attempt false
        else s.publishOnline m p.attempt p.initial

def invalidate (s : EndpointSupervisor) : EndpointSupervisor :=
  if s.isStopped then s
  else if s.state.phase = .connecting then { s with pendingInvalidate := true }
  else { s with pendingInvalidate := false }.runProbe none s.state.attempt false

def reportFailure (s : EndpointSupervisor) (errorMessage : Option String) : EndpointSupervisor :=
  if s.isStopped then s
  else if s.state.phase ≠ .online ∧ s.state.phase ≠ .connecting then s
  else s.nextGeneration.scheduleProbe m (max 1 (s.state.attempt + 1))
    (policy.fastRetryDelayMs m (max 1 (s.state.attempt + 1))) (.serverUnreachable errorMessage)

def reportProbeResult (s : EndpointSupervisor) (probe : ProbeFailure) : EndpointSupervisor :=
  if s.isStopped then s
  else if s.state.phase ≠ .online ∧ s.state.phase ≠ .connecting ∧ s.state.phase ≠ .offline then s
  else if probe.isAuthFailed then
    { s.nextGeneration.clearRetryTimer with pendingInvalidate := false }.publishAuthFailed
      s.state.attempt probe
  else
    { s.nextGeneration.clearRetryTimer with pendingInvalidate := false }.scheduleProbe m
      (max 1 (s.state.attempt + 1))
      (probe.delayMs (policy.fastRetryDelayMs m (max 1 (s.state.attempt + 1)))) probe

def startRun (s : EndpointSupervisor) : EndpointSupervisor :=
  if s.isStarted ∧ s.isStopped = false then
    if s.state.phase = .online ∨ s.state.phase = .connecting then s
    else { s with pendingInvalidate := false }.runProbe (some s.starts) 0 false
  else { s with isStarted := true, isStopped := false, pendingInvalidate := false }.runProbe
    (some s.starts) 0 true

def start (s : EndpointSupervisor) : EndpointSupervisor :=
  if s.startInFlight.isSome ∧ s.isStopped = false then s
  else { s.startRun with startInFlight := some s.starts, starts := s.starts + 1 }

/-- The promise of the `start()` in flight is settled, if its probe is over. -/
def startSettled (s : EndpointSupervisor) : EndpointSupervisor :=
  if s.startInFlight.isSome ∧ ∀ p ∈ s.probes, p.start ≠ s.startInFlight then
    { s with startInFlight := none }
  else s

def stop (s : EndpointSupervisor) : EndpointSupervisor :=
  if s.isStopped then s
  else
    { s with isStopped := true, startInFlight := none, pendingInvalidate := false
      }.clearRetryTimer.publish
        { s.state with
          phase := .shuttingDown
          reason := some .intentionalShutdown
          nextRetryAt := none }

def timer (s : EndpointSupervisor) : EndpointSupervisor :=
  match s.retryTimer with
  | none => s
  | some attempt => { s with retryTimer := none }.runProbe none attempt false

def taken (s : EndpointSupervisor) (i : Nat) : EndpointSupervisor :=
  { s with probes := s.probes.eraseIdx i }

def step (s : EndpointSupervisor) (e : Moment × EndpointEvent) : EndpointSupervisor :=
  match e.2 with
  | .start => s.start
  | .startSettled => s.startSettled
  | .stop => s.stop
  | .invalidate => s.invalidate
  | .reportFailure errorMessage => s.reportFailure policy e.1 errorMessage
  | .reportProbeResult probe => s.reportProbeResult policy e.1 probe
  | .timer => s.timer
  | .probed i result => match s.probes[i]? with
      | none => s
      | some p => (s.taken i).probed policy e.1 p (toProbeResultFromError result)

def probesOf (probes : List EndpointProbe) (generation : Nat) : Nat :=
  probes.countP (·.generation = generation)

def inFlight (s : EndpointSupervisor) : Nat := probesOf s.probes s.generation

/-- Something will happen: a retry, the result of a probe, or nothing is due. -/
structure NeverStuck (s : EndpointSupervisor) : Prop where
  phase : s.state.phase = .connecting ∨ s.state.phase = .online ∨ s.state.phase = .offline ∨
    s.state.phase = .authFailed
  offline : s.state.phase = .offline ↔ s.retryTimer.isSome = true ∧ s.state.nextRetryAt.isSome = true
  armed : s.retryTimer.isSome = s.state.nextRetryAt.isSome
  connecting : s.state.phase = .connecting ↔ s.inFlight = 1
  settled : s.state.phase = .online ∨ s.state.phase = .authFailed →
    s.retryTimer = none ∧ s.inFlight = 0

structure Inv (s : EndpointSupervisor) : Prop where
  bounded : ∀ p ∈ s.probes, p.generation ≤ s.generation
  armed : s.retryTimer.isSome = true ↔ s.state.phase = .offline
  retry : s.state.nextRetryAt.isSome = true ↔ s.state.phase = .offline
  shut : s.isStopped = true ↔ s.state.phase = .shuttingDown
  started : s.isStarted = true → s.state.phase ≠ .idle
  probing : s.isStopped = false → s.inFlight = if s.state.phase = .connecting then 1 else 0

variable {policy : ManagedConnectionTimingPolicy} {m : Moment} {s : EndpointSupervisor}

theorem Inv.neverStuck (h : s.Inv) (hstarted : s.isStarted = true) (hlive : s.isStopped = false) :
    s.NeverStuck where
  phase := by
    have hidle := h.started hstarted
    have hshut : ¬s.state.phase = .shuttingDown := fun hshut => by simp [h.shut.mpr hshut] at hlive
    cases hphase : s.state.phase <;> simp_all
  offline := by rw [h.armed, h.retry, and_self]
  armed := Bool.eq_iff_iff.mpr (h.armed.trans h.retry.symm)
  connecting := by
    rw [h.probing hlive]
    split_ifs with hconnecting <;> simp [hconnecting]
  settled hsettled := by
    have hprobing := h.probing hlive
    have harmed := h.armed
    rcases hsettled with hphase | hphase <;> simp_all

theorem probesOf_eq_zero {probes : List EndpointProbe} {generation : Nat}
    (h : ∀ p ∈ probes, p.generation < generation) : probesOf probes generation = 0 := by
  rw [probesOf, List.countP_eq_zero]
  intro p hp
  have hlt := h p hp
  simp only [decide_eq_true_eq]
  omega

theorem bounded_nextGeneration (h : ∀ p ∈ s.probes, p.generation ≤ s.generation) :
    ∀ p ∈ s.probes, p.generation < s.generation + 1 := fun p hp => Nat.lt_succ_of_le (h p hp)

theorem runProbe_inv (hbounded : ∀ p ∈ s.probes, p.generation ≤ s.generation)
    (hlive : s.isStopped = false) (start : Option Nat) (attempt : Nat) (initial : Bool) :
    (s.runProbe start attempt initial).Inv := by
  have hnext := bounded_nextGeneration hbounded
  rw [runProbe, hlive, if_neg (by simp)]
  refine ⟨?_, by simp [publish, clearRetryTimer], by simp [publish], ?_, by simp [publish], fun _ => ?_⟩
  · intro p hp
    rcases List.mem_append.mp hp with hp | hp
    · exact (hnext p hp).le
    · cases List.mem_singleton.mp hp
      exact le_rfl
  · simpa [publish, clearRetryTimer, nextGeneration] using hlive
  · show probesOf (s.probes ++ [_]) (s.generation + 1) = 1
    rw [probesOf, List.countP_append]
    have hold := probesOf_eq_zero hnext
    rw [probesOf] at hold
    simp [hold]

theorem scheduleProbe_inv (hbounded : ∀ p ∈ s.probes, p.generation ≤ s.generation)
    (hlive : s.isStopped = false) (hnone : s.inFlight = 0) (attempt : Nat) (delayMs : Int)
    (probe : ProbeFailure) : (s.scheduleProbe m attempt delayMs probe).Inv := by
  rw [scheduleProbe, hlive, if_neg (by simp)]
  refine ⟨hbounded, by simp [publish], by simp [publish], ?_, by simp [publish], fun _ => ?_⟩
  · simpa [publish, clearRetryTimer] using hlive
  · exact hnone

theorem publishAuthFailed_inv (hbounded : ∀ p ∈ s.probes, p.generation ≤ s.generation)
    (hlive : s.isStopped = false) (hnone : s.inFlight = 0) (htimer : s.retryTimer = none)
    (attempt : Nat) (probe : ProbeFailure) : (s.publishAuthFailed attempt probe).Inv := by
  rw [publishAuthFailed]
  refine ⟨hbounded, by simp [publish, htimer], by simp [publish], ?_, by simp [publish], fun _ => ?_⟩
  · simpa [publish] using hlive
  · exact hnone

theorem probesOf_eraseIdx {probes : List EndpointProbe} {i : Nat} {p : EndpointProbe}
    (hp : probes[i]? = some p) (generation : Nat) : probesOf probes generation =
      probesOf (probes.eraseIdx i) generation + if p.generation = generation then 1 else 0 := by
  obtain ⟨before, behind, hprobes, herased⟩ := Slices.exists_append_of_getElem? hp
  rw [herased, hprobes]
  simp only [probesOf, List.countP_append, List.countP_cons, decide_eq_true_eq]
  omega

theorem Inv.counts (h : s.Inv) (hlive : s.isStopped = false) {i : Nat} {p : EndpointProbe}
    (hp : s.probes[i]? = some p) (hgeneration : p.generation = s.generation) :
    s.state.phase = .connecting ∧ (s.taken i).inFlight = 0 ∧ s.retryTimer = none := by
  have hprobing := h.probing hlive
  have hcount : s.inFlight = (s.taken i).inFlight + 1 := by
    have herased := probesOf_eraseIdx hp s.generation
    rwa [if_pos hgeneration] at herased
  have hconnecting : s.state.phase = .connecting := by
    by_contra hother
    rw [if_neg hother] at hprobing
    omega
  rw [if_pos hconnecting] at hprobing
  refine ⟨hconnecting, by omega, ?_⟩
  cases htimer : s.retryTimer with
  | none => rfl
  | some attempt =>
      have hoffline := h.armed.mp (by rw [htimer]; rfl)
      rw [hconnecting] at hoffline
      cases hoffline

theorem Inv.taken (h : s.Inv) {i : Nat} {p : EndpointProbe} (hp : s.probes[i]? = some p)
    (hstale : s.isStopped = true ∨ p.generation ≠ s.generation) : (s.taken i).Inv := by
  refine ⟨fun q hq => h.bounded q (List.mem_of_mem_eraseIdx hq), h.armed, h.retry, h.shut,
    h.started, fun hlive => ?_⟩
  have hlive : s.isStopped = false := hlive
  have hother : p.generation ≠ s.generation := hstale.resolve_left (by simp [hlive])
  have herased := probesOf_eraseIdx hp s.generation
  rw [if_neg hother] at herased
  exact herased.symm.trans (h.probing hlive)

theorem publishOnline_inv (hbounded : ∀ p ∈ s.probes, p.generation ≤ s.generation)
    (hlive : s.isStopped = false) (hnone : s.inFlight = 0) (htimer : s.retryTimer = none)
    (attempt : Nat) (initial : Bool) : (s.publishOnline m attempt initial).Inv := by
  rw [publishOnline]
  refine ⟨hbounded, by simp [publish, htimer], by simp [publish], ?_, by simp [publish], fun _ => ?_⟩
  · simpa [publish] using hlive
  · exact hnone

theorem Inv.probed (h : s.Inv) {i : Nat} {p : EndpointProbe} (hp : s.probes[i]? = some p)
    (probe : ReadinessProbeResult) : ((s.taken i).probed policy m p probe).Inv := by
  by_cases hstale : s.isStopped = true ∨ p.generation ≠ s.generation
  · rw [EndpointSupervisor.probed.eq_def]
    split
    · exact h.taken hp hstale
    · contradiction
  · have hbounded : ∀ q ∈ (s.taken i).probes, q.generation ≤ s.generation :=
      fun q hq => h.bounded q (List.mem_of_mem_eraseIdx hq)
    obtain ⟨hlive, hgeneration⟩ : s.isStopped = false ∧ p.generation = s.generation := by
      simpa using hstale
    obtain ⟨hconnecting, hnone, htimer⟩ := h.counts hlive hp hgeneration
    cases probe with
    | failed probe =>
        rw [EndpointSupervisor.probed]
        split_ifs
        · contradiction
        · exact publishAuthFailed_inv hbounded hlive hnone htimer _ _
        · exact scheduleProbe_inv hbounded hlive hnone _ _ _
    | ready =>
        rw [EndpointSupervisor.probed]
        split_ifs
        · contradiction
        · refine runProbe_inv ?_ ?_ _ _ _
          · exact hbounded
          · exact hlive
        · exact publishOnline_inv hbounded hlive hnone htimer _ _

theorem Inv.invalidate (h : s.Inv) : s.invalidate.Inv := by
  rw [EndpointSupervisor.invalidate]
  split_ifs with hstopped hconnecting
  · exact h
  · exact ⟨h.bounded, h.armed, h.retry, h.shut, h.started, h.probing⟩
  · refine runProbe_inv ?_ ?_ _ _ _
    · exact h.bounded
    · simpa using hstopped

theorem Inv.reportFailure (h : s.Inv) (errorMessage : Option String) :
    (s.reportFailure policy m errorMessage).Inv := by
  rw [EndpointSupervisor.reportFailure]
  split_ifs with hstopped hphase
  · exact h
  · exact h
  · have hnext := bounded_nextGeneration h.bounded
    refine scheduleProbe_inv ?_ ?_ ?_ _ _ _
    · exact fun p hp => (hnext p hp).le
    · exact Bool.eq_false_of_not_eq_true hstopped
    · exact probesOf_eq_zero hnext

theorem Inv.reportProbeResult (h : s.Inv) (probe : ProbeFailure) :
    (s.reportProbeResult policy m probe).Inv := by
  have hnext := bounded_nextGeneration h.bounded
  rw [EndpointSupervisor.reportProbeResult]
  split_ifs with hstopped hphase hauth
  · exact h
  · exact h
  · refine publishAuthFailed_inv ?_ ?_ ?_ rfl _ _
    · exact fun p hp => (hnext p hp).le
    · exact Bool.eq_false_of_not_eq_true hstopped
    · exact probesOf_eq_zero hnext
  · refine scheduleProbe_inv ?_ ?_ ?_ _ _ _
    · exact fun p hp => (hnext p hp).le
    · exact Bool.eq_false_of_not_eq_true hstopped
    · exact probesOf_eq_zero hnext

theorem Inv.start (h : s.Inv) : s.start.Inv := by
  rw [EndpointSupervisor.start]
  split_ifs
  · exact h
  · have hrun : s.startRun.Inv := by
      rw [startRun]
      split_ifs with hstarted
      · exact h
      · refine runProbe_inv ?_ ?_ _ _ _
        · exact h.bounded
        · exact hstarted.2
      · refine runProbe_inv ?_ rfl _ _ _
        exact h.bounded
    exact ⟨hrun.bounded, hrun.armed, hrun.retry, hrun.shut, hrun.started, hrun.probing⟩

theorem Inv.startSettled (h : s.Inv) : s.startSettled.Inv := by
  rw [EndpointSupervisor.startSettled]
  split_ifs
  · exact ⟨h.bounded, h.armed, h.retry, h.shut, h.started, h.probing⟩
  · exact h

theorem Inv.stop (h : s.Inv) : s.stop.Inv := by
  rw [EndpointSupervisor.stop]
  split_ifs
  · exact h
  · exact ⟨h.bounded, by simp [publish, clearRetryTimer], by simp [publish],
      by simp [publish, clearRetryTimer], by simp [publish], fun hlive => by cases hlive⟩

theorem Inv.timer (h : s.Inv) : s.timer.Inv := by
  rw [EndpointSupervisor.timer]
  cases htimer : s.retryTimer with
  | none => exact h
  | some attempt =>
      have hoffline : s.state.phase = .offline := h.armed.mp (by rw [htimer]; rfl)
      have hlive : s.isStopped = false := by
        by_contra hstopped
        have hshut := h.shut.mp (by simpa using hstopped)
        rw [hoffline] at hshut
        cases hshut
      refine runProbe_inv ?_ ?_ _ _ _
      · exact h.bounded
      · exact hlive

theorem Inv.step (h : s.Inv) (e : Moment × EndpointEvent) : (s.step policy e).Inv := by
  obtain ⟨m, e⟩ := e
  rw [EndpointSupervisor.step.eq_def]
  cases e with
  | start => exact h.start
  | startSettled => exact h.startSettled
  | stop => exact h.stop
  | invalidate => exact h.invalidate
  | reportFailure errorMessage => exact h.reportFailure errorMessage
  | reportProbeResult probe => exact h.reportProbeResult probe
  | timer => exact h.timer
  | probed i result =>
      cases hp : s.probes[i]? with
      | none => simpa [hp] using h
      | some p => simpa [hp] using h.probed hp (toProbeResultFromError result)

theorem Inv.initial : Inv ({} : EndpointSupervisor) := by
  constructor <;> decide

end EndpointSupervisor

end DevPilot
