import DevPilot.Supervisor.Transports

/-!
What a stopped connection supervisor does until it is started again, and which
observers of its state can spoil this.
-/

namespace DevPilot

open Runs

namespace ConnectionSupervisor

/-- The step leaves a stopped supervisor alone, and stops it for good: there is no
retry, no current transport and no call of `connect()`. -/
structure StopsAt (config : ConnectionConfig) (s : ConnectionSupervisor)
    (e : Circumstances × ConnectionEvent) : Prop where
  idle : s.isStopped = true → e.2 ≠ .start → (s.step config e).isStopped = true ∧
    (s.step config e).created = s.created ∧ (s.step config e).connects = s.connects
  shut : (s.step config e).isStopped = true → (s.step config e).state.phase = .shuttingDown ∧
    (s.step config e).retryTimer = none ∧ (s.step config e).currentTransport = none
  tornDown : (s.step config e).isStopped = true → ∀ t ∈ s.currentTransport,
    t.id ∈ tornDown (s.step config e).tasks
  connects : ∀ p ∈ (s.step config e).connects, p.2 = false

/-- The supervisor is not stopped, and has not connected while it was. -/
structure Live (s : ConnectionSupervisor) : Prop where
  live : s.isStopped = false
  connects : ∀ p ∈ s.connects, p.2 = false

structure Frozen (s s' : ConnectionSupervisor) : Prop where
  isStopped : s'.isStopped = s.isStopped
  state : s'.state = s.state
  retryTimer : s'.retryTimer = s.retryTimer
  currentTransport : s'.currentTransport = s.currentTransport
  created : s'.created = s.created
  connects : s'.connects = s.connects

structure StopInv (s : ConnectionSupervisor) : Prop where
  shut : s.isStopped = true → s.state.phase = .shuttingDown ∧ s.retryTimer = none ∧
    s.currentTransport = none
  connects : ∀ p ∈ s.connects, p.2 = false

variable {config : ConnectionConfig} {c : Circumstances} {s s' : ConnectionSupervisor}

section Live

variable (hc : c.observerStops = false)

include hc

theorem observed_eq_self (s : ConnectionSupervisor) : s.observed c = s := by
  rw [observed, hc]
  rfl

theorem Live.scheduleReconnect (h : s.Live) (attempt : Nat) (delayMs : Int)
    (probe : Option ProbeFailure) : (s.scheduleReconnect c attempt delayMs probe).Live := by
  rw [ConnectionSupervisor.scheduleReconnect, observed_eq_self hc]
  split_ifs
  · exact h
  · exact ⟨h.live, h.connects⟩

theorem Live.connectTransport (h : s.Live) (start : Option Nat) (initial : Bool)
    (attempt generation : Nat) :
    (s.connectTransport c start initial attempt generation).Live := by
  rw [ConnectionSupervisor.connectTransport, observed_eq_self hc]
  refine ⟨h.live, fun p hp => ?_⟩
  rcases List.mem_append.mp hp with hp | hp
  · exact h.connects p hp
  · cases List.mem_singleton.mp hp
    exact h.live

omit hc in
theorem Live.cleanupTransport (h : s.Live) (start : Option Nat) (rest : AfterCleanup) :
    (s.cleanupTransport start rest).Live := by
  rw [ConnectionSupervisor.cleanupTransport]
  cases s.currentTransport with
  | none => exact ⟨h.live, h.connects⟩
  | some t => exact ⟨h.live, h.connects⟩

theorem Live.establishCleaned (h : s.Live) (start : Option Nat) (initial : Bool)
    (attempt generation : Nat) :
    (s.establishCleaned config c start initial attempt generation).Live := by
  rw [ConnectionSupervisor.establishCleaned]
  split_ifs
  · exact h
  · exact ⟨h.live, h.connects⟩
  · exact h.connectTransport hc start initial attempt generation

theorem Live.establishConnection (h : s.Live) (start : Option Nat) (initial : Bool)
    (attempt : Nat) : (s.establishConnection config c start initial attempt).Live := by
  have hnext : s.nextGeneration.Live := ⟨h.live, h.connects⟩
  rw [ConnectionSupervisor.establishConnection]
  split_ifs
  · exact hnext.cleanupTransport _ _
  · exact hnext.establishCleaned hc _ _ _ _

theorem Live.initialProbed (h : s.Live) (start : Option Nat) (attempt generation : Nat)
    (probe : ReadinessProbeResult) :
    (s.initialProbed config c start attempt generation probe).Live := by
  rw [ConnectionSupervisor.initialProbed]
  split_ifs
  · exact h
  · cases probe with
    | ready => exact h.connectTransport hc _ _ _ _
    | failed probe =>
        dsimp only
        split_ifs
        · exact ⟨h.live, h.connects⟩
        · exact h.scheduleReconnect hc _ _ _

omit hc in
theorem Live.applyProbe (h : s.Live) (start : Option Nat) (probe : ProbeFailure) :
    (s.applyProbe start probe).Live := by
  have hnext : s.nextGeneration.Live := ⟨h.live, h.connects⟩
  rw [ConnectionSupervisor.applyProbe]
  split_ifs
  · exact h
  · exact h
  · exact hnext.cleanupTransport _ _

theorem Live.probeApplied (h : s.Live) (probe : ProbeFailure) (generation : Nat) :
    (s.probeApplied config c probe generation).Live := by
  rw [ConnectionSupervisor.probeApplied]
  split_ifs
  · exact h
  · exact ⟨h.live, h.connects⟩
  · exact h.scheduleReconnect hc _ _ _

theorem Live.retryProbed (h : s.Live) (attempt generation : Nat) (probe : ReadinessProbeResult) :
    (s.retryProbed config c attempt generation probe).Live := by
  cases probe with
  | ready =>
      rw [ConnectionSupervisor.retryProbed]
      split_ifs
      · exact h
      · exact ⟨h.live, h.connects⟩
  | failed probe =>
      rw [ConnectionSupervisor.retryProbed]
      split_ifs
      · exact h
      · exact ⟨h.live, h.connects⟩
      · exact h.scheduleReconnect hc _ _ _

theorem Live.reconnect (h : s.Live) (attempt generation : Nat) :
    (s.reconnect config c attempt generation).Live := by
  rw [ConnectionSupervisor.reconnect]
  split_ifs
  · exact h
  · exact h.establishConnection hc _ _ _

theorem Live.disconnectHandled (h : s.Live) (intentional : Bool) (attempt generation : Nat) :
    (s.disconnectHandled config c intentional attempt generation).Live := by
  rw [ConnectionSupervisor.disconnectHandled]
  split_ifs
  · exact h
  · exact h.scheduleReconnect hc _ _ _

theorem Live.onError (h : s.Live) (t : Transport) (message : String)
    (classified : Option ProbeFailure) (isConnected : Bool) :
    (s.onError config c t message classified isConnected).Live := by
  rw [ConnectionSupervisor.onError.eq_def]
  split_ifs
  · cases classified with
    | none => exact h.scheduleReconnect hc _ _ _
    | some probe => exact h.applyProbe none probe
  · exact ⟨h.live, h.connects⟩

theorem Live.afterCleanup (h : s.Live) (start : Option Nat) (rest : AfterCleanup) :
    (s.afterCleanup config c start rest).Live := by
  cases rest with
  | establish initial attempt generation => exact h.establishCleaned hc _ _ _ _
  | apply probe generation => exact h.probeApplied hc _ _
  | stop => exact h

theorem Live.proceed (h : s.Live) (start : Option Nat) (suspension : Suspension)
    (settlement : Settlement) : (s.proceed config c start suspension settlement).Live := by
  rw [ConnectionSupervisor.proceed.eq_def]
  split
  · exact h.afterCleanup hc _ _
  · exact ⟨h.live, h.connects⟩
  · refine Live.afterCleanup hc ?_ _ _
    exact ⟨h.live, h.connects⟩
  · exact h.initialProbed hc _ _ _ _
  · exact h.initialProbed hc _ _ _ _
  · split_ifs
    · exact h
    · exact h.applyProbe _ _
  · exact h.retryProbed hc _ _ _
  · exact h.retryProbed hc _ _ _
  · exact h.reconnect hc _ _
  · exact h.disconnectHandled hc _ _ _
  · exact h

theorem Live.startRun (h : s.isStarted = true ∧ s.isStopped = false → s.Live)
    (hconnects : ∀ p ∈ s.connects, p.2 = false) : (s.startRun config c).Live := by
  rw [ConnectionSupervisor.startRun]
  split_ifs with hstarted hconnected
  · exact h hstarted
  · refine Live.establishConnection hc ?_ _ _ _
    exact ⟨(h hstarted).live, hconnects⟩
  · refine Live.establishConnection hc ?_ _ _ _
    exact ⟨rfl, hconnects⟩

theorem StopInv.start (h : s.StopInv) : (s.start config c).Live := by
  rw [ConnectionSupervisor.start]
  split_ifs with hinFlight
  · exact ⟨hinFlight.2, h.connects⟩
  · have hrun : (s.startRun config c).Live :=
      Live.startRun hc (fun hstarted => ⟨hstarted.2, h.connects⟩) h.connects
    exact ⟨hrun.live, hrun.connects⟩

theorem Live.step (h : s.Live) (e : ConnectionEvent) (hstop : e ≠ .stop) :
    (s.step config (c, e)).Live := by
  rw [ConnectionSupervisor.step.eq_def]
  cases e with
  | start => exact StopInv.start hc ⟨fun hstopped => absurd (h.live ▸ hstopped) (by simp), h.connects⟩
  | startSettled =>
      dsimp only
      rw [ConnectionSupervisor.startSettled]
      split_ifs
      · exact ⟨h.live, h.connects⟩
      · exact h
  | stop => exact absurd rfl hstop
  | reportProbeResult probe => exact h.applyProbe none probe
  | connected transport =>
      cases ht : s.honoured transport with
      | none => simpa [ht] using h
      | some t =>
          have hconnected : (s.onConnected c t).Live := ⟨h.live, h.connects⟩
          simpa [ht] using hconnected
  | disconnected transport intentional error =>
      cases ht : s.honoured transport with
      | none => simpa [ht] using h
      | some t =>
          have hdisconnected : (s.handleDisconnect c intentional error).Live := ⟨h.live, h.connects⟩
          simpa [ht] using hdisconnected
  | error transport message classified isConnected =>
      cases ht : s.honoured transport with
      | none => simpa [ht] using h
      | some t => simpa [ht] using h.onError hc t message classified isConnected
  | timer =>
      dsimp only
      rw [ConnectionSupervisor.timer]
      cases s.retryTimer with
      | none => exact h
      | some attempt =>
          dsimp only
          rw [ConnectionSupervisor.runProbeAndReconnect]
          split_ifs
          · exact ⟨h.live, h.connects⟩
          · exact ⟨h.live, h.connects⟩
  | settled i settlement =>
      cases hi : s.tasks[i]? with
      | none => simpa [hi] using h
      | some task =>
          have htaken : (s.taken i).Live := ⟨h.live, h.connects⟩
          simpa [hi] using htaken.proceed hc task.start task.suspension settlement

end Live

theorem Frozen.refl (s : ConnectionSupervisor) : Frozen s s := ⟨rfl, rfl, rfl, rfl, rfl, rfl⟩

theorem frozen_afterCleanup (hstopped : s.isStopped = true) (start : Option Nat)
    (rest : AfterCleanup) : Frozen s (s.afterCleanup config c start rest) := by
  cases rest with
  | establish initial attempt generation =>
      rw [afterCleanup, establishCleaned, if_pos hstopped]
      exact Frozen.refl s
  | apply probe generation =>
      rw [afterCleanup, probeApplied, if_pos (.inl hstopped)]
      exact Frozen.refl s
  | stop => exact Frozen.refl s

theorem frozen_proceed (hstopped : s.isStopped = true) (start : Option Nat)
    (suspension : Suspension) (settlement : Settlement) :
    Frozen s (s.proceed config c start suspension settlement) := by
  have hinitial : ∀ attempt generation probe,
      Frozen s (s.initialProbed config c start attempt generation probe) := by
    intro attempt generation probe
    rw [initialProbed, if_pos (.inr hstopped)]
    exact Frozen.refl s
  have hretry : ∀ attempt generation probe,
      Frozen s (s.retryProbed config c attempt generation probe) := by
    intro attempt generation probe
    rw [retryProbed.eq_def, if_pos (.inl hstopped)]
    exact Frozen.refl s
  rw [proceed.eq_def]
  split
  · exact frozen_afterCleanup hstopped _ _
  · exact ⟨rfl, rfl, rfl, rfl, rfl, rfl⟩
  · next transport rest =>
      have hcleaned : Frozen { s with alive := s.alive.erase transport }
          ({ s with alive := s.alive.erase transport }.afterCleanup config c start rest) :=
        frozen_afterCleanup (s := { s with alive := s.alive.erase transport }) hstopped start rest
      exact ⟨hcleaned.isStopped, hcleaned.state, hcleaned.retryTimer, hcleaned.currentTransport,
        hcleaned.created, hcleaned.connects⟩
  · exact hinitial _ _ _
  · exact hinitial _ _ _
  · rw [if_pos (.inr hstopped)]
    exact Frozen.refl s
  · exact hretry _ _ _
  · exact hretry _ _ _
  · rw [reconnect, if_pos (.inl hstopped)]
    exact Frozen.refl s
  · rw [disconnectHandled, if_pos (.inr (.inl hstopped))]
    exact Frozen.refl s
  · exact Frozen.refl s

theorem honoured_eq_none (hstopped : s.isStopped = true) (transport : Nat) :
    s.honoured transport = none := by
  rw [honoured, hstopped]
  simp

theorem StopInv.frozen (h : s.StopInv) (hstopped : s.isStopped = true) {e : ConnectionEvent}
    (hstart : e ≠ .start) : Frozen s (s.step config (c, e)) := by
  rw [ConnectionSupervisor.step.eq_def]
  cases e with
  | start => exact absurd rfl hstart
  | startSettled =>
      dsimp only
      rw [startSettled]
      split_ifs <;> exact ⟨rfl, rfl, rfl, rfl, rfl, rfl⟩
  | stop =>
      dsimp only
      rw [stop, if_pos hstopped]
      exact Frozen.refl s
  | reportProbeResult probe =>
      dsimp only
      rw [applyProbe, if_pos hstopped]
      exact Frozen.refl s
  | connected transport | disconnected transport | error transport =>
      dsimp only
      rw [honoured_eq_none hstopped]
      exact Frozen.refl s
  | timer =>
      dsimp only
      rw [timer, (h.shut hstopped).2.1]
      exact Frozen.refl s
  | settled i settlement =>
      cases hi : s.tasks[i]? with
      | none => simpa [hi] using Frozen.refl s
      | some task =>
          have hproceeds : Frozen (s.taken i)
              ((s.taken i).proceed config c task.start task.suspension settlement) :=
            frozen_proceed (s := s.taken i) hstopped task.start task.suspension settlement
          have hfrozen : Frozen s
              ((s.taken i).proceed config c task.start task.suspension settlement) :=
            ⟨hproceeds.isStopped, hproceeds.state, hproceeds.retryTimer,
              hproceeds.currentTransport, hproceeds.created, hproceeds.connects⟩
          simpa [hi] using hfrozen

theorem Live.stopsAt {e : Circumstances × ConnectionEvent} (h : (s.step config e).Live)
    (hstart : s.isStopped = true → e.2 = .start) : s.StopsAt config e := by
  have hlive : (s.step config e).isStopped ≠ true := by simp [h.live]
  exact ⟨fun hstopped hne => absurd (hstart hstopped) hne, fun hstopped => absurd hstopped hlive,
    fun hstopped => absurd hstopped hlive, h.connects⟩

theorem StopInv.stopsAt_frozen (h : s.StopInv) (hstopped : s.isStopped = true)
    {e : Circumstances × ConnectionEvent} (hfrozen : Frozen s (s.step config e)) :
    s.StopsAt config e := by
  obtain ⟨hphase, htimer, hcurrent⟩ := h.shut hstopped
  constructor
  · exact fun _ _ => ⟨hfrozen.isStopped.trans hstopped, hfrozen.created, hfrozen.connects⟩
  · rw [hfrozen.state, hfrozen.retryTimer, hfrozen.currentTransport]
    exact fun _ => ⟨hphase, htimer, hcurrent⟩
  · simp [hcurrent]
  · rw [hfrozen.connects]
    exact h.connects

theorem Live.stopsAt_stop (h : s.Live) : s.StopsAt config (c, .stop) := by
  have hlive : ¬s.isStopped = true := by simp [h.live]
  have hstep : s.step config (c, .stop) = s.shutDown.cleanupTransport none .stop := by
    rw [step.eq_def]
    dsimp only
    rw [stop, if_neg hlive]
  have hcurrent : s.shutDown.currentTransport = s.currentTransport := rfl
  constructor
  · exact fun hstopped => absurd hstopped hlive
  · rw [hstep, ConnectionSupervisor.cleanupTransport, hcurrent]
    cases ht : s.currentTransport with
    | none => exact fun _ => ⟨rfl, rfl, ht⟩
    | some t => exact fun _ => ⟨rfl, rfl, rfl⟩
  · rw [hstep, ConnectionSupervisor.cleanupTransport, hcurrent]
    cases ht : s.currentTransport with
    | none => simp
    | some t =>
        simp only [await, tornDown_append]
        simp [Suspension.tornDown]
  · rw [hstep, ConnectionSupervisor.cleanupTransport, hcurrent]
    cases s.currentTransport <;> exact h.connects

theorem StopInv.stopsAt (h : s.StopInv) {e : Circumstances × ConnectionEvent}
    (hc : e.1.observerStops = false) : s.StopsAt config e := by
  obtain ⟨c, e⟩ := e
  by_cases hstart : e = .start
  · subst hstart
    exact Live.stopsAt (StopInv.start hc h) fun _ => rfl
  · cases hstopped : s.isStopped with
    | true => exact h.stopsAt_frozen hstopped (h.frozen hstopped hstart)
    | false =>
        have hlive : s.Live := ⟨hstopped, h.connects⟩
        by_cases hstop : e = .stop
        · subst hstop
          exact hlive.stopsAt_stop
        · exact Live.stopsAt (hlive.step hc e hstop) fun h => absurd (hstopped ▸ h) (by simp)

/-- In every run in which `onStateChange` does not stop the supervisor in the
middle of a connect or of a retry, `stop()` lasts until the next `start()`. -/
theorem stop_lasts (config : ConnectionConfig) (events : List (Circumstances × ConnectionEvent))
    (hobserver : ∀ e ∈ events, e.1.observerStops = false) :
    Along (step config) (StopsAt config) {} events := by
  have hinv : StopInv ({} : ConnectionSupervisor) := ⟨fun hstopped => absurd hstopped (by simp), by simp⟩
  exact along_of_along (I := StopInv) (fun s e h hc => StopInv.stopsAt h hc)
    (fun s e h hc => ⟨(StopInv.stopsAt h hc).shut, (StopInv.stopsAt h hc).connects⟩) hinv
    (along_iff_forall_mem.mpr hobserver)

def givenUp : List (Circumstances × ConnectionEvent) :=
  undisturbed [.start, .connected 0, .settled 0 .resolved, .startSettled, .disconnected 0 false none]
    ++ [({ now := 0, jittered := id, observerStops := true }, .settled 0 .resolved)]

theorem retry_outlives_stop : ¬ ∀ config events, Along (step config) (StopsAt config) {} events := by
  intro h
  have hlast := (along_append_singleton (h connectsAtOnce givenUp)).shut (by decide)
  revert hlast
  decide

theorem stop_lasts_connecting :
    Along (step connectsAtOnce) (StopsAt connectsAtOnce) {}
      (undisturbed [.start, .stop, .connected 0, .settled 0 .resolved, .timer]) :=
  stop_lasts connectsAtOnce _ (by decide)

end ConnectionSupervisor

end DevPilot
