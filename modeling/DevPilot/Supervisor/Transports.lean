import DevPilot.Lib.Slices
import DevPilot.Supervisor.Connection

/-!
The connection supervisor has one transport at a time, whose events it honours:
which runs keep this.
-/

namespace DevPilot

open Runs

def Suspension.tornDown : Suspension → Option Nat
  | .disconnecting transport _ => some transport
  | .destroying transport _ => some transport
  | _ => none

def tornDown (tasks : List Task) : List Nat := tasks.filterMap (·.suspension.tornDown)

/-- A suspended `establishConnection` whose cleanup is over: its kind and its
generation. -/
def Suspension.establishes : Suspension → Option (Bool × Nat)
  | .noTransport (.establish initial _ generation) => some (initial, generation)
  | .destroying _ (.establish initial _ generation) => some (initial, generation)
  | _ => none

/-- The generation of a suspended `establishConnection` that has yet to create
its transport. -/
def Suspension.pending : Suspension → Option Nat
  | .disconnecting _ (.establish _ _ generation) => some generation
  | .destroying _ (.establish _ _ generation) => some generation
  | .noTransport (.establish _ _ generation) => some generation
  | .initialProbe _ generation => some generation
  | _ => none

def pending (tasks : List Task) : List Nat := tasks.filterMap (·.suspension.pending)

namespace ConnectionSupervisor

/-- There is at most one transport. Unless it is being torn down, it is the
current one, and its events are honoured. -/
structure SingleTransport (s : ConnectionSupervisor) : Prop where
  single : s.alive.length ≤ 1
  current : ∀ x ∈ s.alive, x ∈ tornDown s.tasks ∨
    ∃ t, s.currentTransport = some t ∧ t.id = x ∧ s.honoured x = some t

/-- The event lets `establishConnection` go on to create a transport. -/
def creates (config : ConnectionConfig) (s : ConnectionSupervisor) : ConnectionEvent → Bool
  | .start => (s.startInFlight.isNone || s.isStopped) && s.currentTransport.isNone &&
      !config.probeBeforeInitialConnect && !(s.isStarted && !s.isStopped &&
        (s.state.phase = .online || s.state.phase = .connecting))
  | .settled i settlement => match (s.tasks[i]?).map Task.suspension, settlement with
      | some (.initialProbe _ generation), .probed .ready => generation = s.generation && !s.isStopped
      | some (.beforeReconnect _ generation), .resolved =>
          generation = s.generation && !s.isStopped && s.currentTransport.isNone
      | some suspension, _ => suspension.establishes.any fun p =>
          !s.isStopped && !(p.1 && config.probeBeforeInitialConnect)
      | none, _ => false
  | _ => false

def remaining (s : ConnectionSupervisor) : ConnectionEvent → List Task
  | .settled i _ => s.tasks.eraseIdx i
  | _ => s.tasks

/-- No generation has begun since an `establishConnection` that goes on. -/
def upToDate (s : ConnectionSupervisor) : ConnectionEvent → Bool
  | .settled i _ => ((s.tasks[i]?).bind (·.suspension.establishes)).all (·.2 = s.generation)
  | _ => true

/-- No transport is created while another one is being torn down, or for a
generation that is over. -/
def FitsAt (config : ConnectionConfig) (s : ConnectionSupervisor)
    (e : Circumstances × ConnectionEvent) : Prop :=
  s.creates config e.2 = true → tornDown (s.remaining e.2) = [] ∧ s.upToDate e.2 = true

instance (config : ConnectionConfig) (s : ConnectionSupervisor)
    (e : Circumstances × ConnectionEvent) : Decidable (s.FitsAt config e) :=
  inferInstanceAs (Decidable (_ → _))

/-- The transports are the current one and those that are torn down. An
`establishConnection` that waits for a cleanup has a transport to clean up. -/
structure Counted (s : ConnectionSupervisor) : Prop where
  alive : s.alive = (s.currentTransport.map (·.id)).toList ++ tornDown s.tasks
  single : s.alive.length ≤ 1
  listening : s.listening = s.currentTransport.toList
  cleaning : ∀ task ∈ s.tasks, task.suspension.tornDown = none → task.suspension.establishes = none
  pending : (pending s.tasks).Nodup
  bounded : ∀ generation ∈ DevPilot.pending s.tasks, generation ≤ s.generation

structure Inv (s : ConnectionSupervisor) : Prop extends s.Counted where
  honoured : ∀ t ∈ s.currentTransport, t.generation = s.generation ∧ s.isStopped = false
  idle : s.currentTransport = none ∨ s.generation ∉ DevPilot.pending s.tasks

variable {config : ConnectionConfig} {c : Circumstances} {s : ConnectionSupervisor}

theorem Inv.singleTransport (h : s.Inv) : s.SingleTransport where
  single := h.single
  current x hx := by
    rw [h.alive] at hx
    rcases List.mem_append.mp hx with hx | hx
    · obtain ⟨t, ht, rfl⟩ := Option.map_eq_some_iff.mp (Option.mem_toList.mp hx)
      obtain ⟨hgeneration, hstopped⟩ := h.honoured t ht
      refine .inr ⟨t, ht, rfl, ?_⟩
      rw [ConnectionSupervisor.honoured, h.listening, ht]
      simp [hgeneration, hstopped]
    · exact .inl hx

theorem tornDown_append (tasks : List Task) (task : Task) : tornDown (tasks ++ [task]) =
    tornDown tasks ++ task.suspension.tornDown.toList := by
  rw [tornDown, List.filterMap_append]
  cases hx : task.suspension.tornDown <;> simp [tornDown, hx]

theorem pending_append (tasks : List Task) (task : Task) : DevPilot.pending (tasks ++ [task]) =
    DevPilot.pending tasks ++ task.suspension.pending.toList := by
  rw [DevPilot.pending, List.filterMap_append]
  cases hx : task.suspension.pending <;> simp [DevPilot.pending, hx]

theorem Counted.tasks_append (h : s.Counted) (task : Task)
    (hcleaning : task.suspension.tornDown = none → task.suspension.establishes = none)
    (hpending : ∀ generation ∈ task.suspension.pending,
      generation ∉ DevPilot.pending s.tasks ∧ generation ≤ s.generation) :
    (∀ t ∈ s.tasks ++ [task], t.suspension.tornDown = none → t.suspension.establishes = none) ∧
      (DevPilot.pending (s.tasks ++ [task])).Nodup ∧
      ∀ generation ∈ DevPilot.pending (s.tasks ++ [task]), generation ≤ s.generation := by
  refine ⟨fun t ht => ?_, ?_, fun generation hgeneration => ?_⟩
  · rcases List.mem_append.mp ht with ht | ht
    · exact h.cleaning t ht
    · cases List.mem_singleton.mp ht
      exact hcleaning
  · rw [pending_append]
    cases hgeneration : task.suspension.pending with
    | none => simpa using h.pending
    | some generation =>
        have hnew := (hpending generation hgeneration).1
        simpa [List.nodup_append, h.pending] using fun g hg (heq : g = generation) => hnew (heq ▸ hg)
  · rw [pending_append] at hgeneration
    rcases List.mem_append.mp hgeneration with hold | hnew
    · exact h.bounded generation hold
    · exact (hpending generation (Option.mem_toList.mp hnew)).2

theorem Inv.frame (h : s.Inv) (state : ManagedConnectionState) (retryTimer : Option Nat)
    (isStarted : Bool) (reconnectAttempt : Nat) (startInFlight : Option Nat) (starts created : Nat)
    (connects : List (Nat × Bool)) : Inv { s with
      state, retryTimer, isStarted, reconnectAttempt, startInFlight, starts, created, connects } :=
  ⟨⟨h.alive, h.single, h.listening, h.cleaning, h.pending, h.bounded⟩, h.honoured, h.idle⟩

theorem Inv.await (h : s.Inv) (start : Option Nat) {suspension : Suspension}
    (hnone : suspension.tornDown = none) (hestablishes : suspension.establishes = none)
    (hpending : suspension.pending = none) : (s.await start suspension).Inv := by
  obtain ⟨hcleaning, hnodup, hbounded⟩ := h.tasks_append ⟨start, suspension⟩
    (fun _ => hestablishes) (by simp [hpending])
  refine ⟨⟨?_, h.single, h.listening, hcleaning, hnodup, hbounded⟩, h.honoured, ?_⟩
  · rw [ConnectionSupervisor.await, tornDown_append]
    simpa [hnone] using h.alive
  · rw [ConnectionSupervisor.await, pending_append]
    simpa [hpending] using h.idle

theorem Inv.publish (h : s.Inv) (next : ManagedConnectionState) : (s.publish next).Inv := h.frame ..

theorem Inv.clearRetryTimer (h : s.Inv) : s.clearRetryTimer.Inv := h.frame ..

theorem Inv.setRetryTimer (h : s.Inv) (attempt : Nat) : (s.setRetryTimer attempt).Inv := h.frame ..

theorem Inv.connect (h : s.Inv) (transport : Nat) : (s.connect transport).Inv := h.frame ..

theorem Counted.cleanupTransport (h : s.Counted) (start : Option Nat) {rest : AfterCleanup}
    (hrest : s.currentTransport = none → (Suspension.noTransport rest).establishes = none)
    (hpending : ∀ generation ∈ (Suspension.noTransport rest).pending,
      generation ∉ DevPilot.pending s.tasks ∧ generation ≤ s.generation) :
    (s.cleanupTransport start rest).Inv := by
  rw [ConnectionSupervisor.cleanupTransport]
  cases ht : s.currentTransport with
  | none =>
      obtain ⟨hcleaning, hnodup, hbounded⟩ := h.tasks_append ⟨start, .noTransport rest⟩
        (fun _ => hrest ht) hpending
      have halive := h.alive
      have hlistening := h.listening
      rw [ht] at halive hlistening
      refine ⟨⟨?_, h.single, ?_, hcleaning, hnodup, hbounded⟩, ?_, .inl ht⟩
      · simp only [ConnectionSupervisor.await, tornDown_append, ht]
        simpa [Suspension.tornDown] using halive
      · simpa [ConnectionSupervisor.await, ht] using hlistening
      · simp [ConnectionSupervisor.await, ht]
  | some t =>
      have hsingle := h.single
      rw [h.alive, ht] at hsingle
      have hnone : tornDown s.tasks = [] := by simpa using hsingle
      obtain ⟨hcleaning, hnodup, hbounded⟩ := h.tasks_append ⟨start, .disconnecting t.id rest⟩
        (fun hnone => by cases hnone) (by cases rest <;> exact hpending)
      refine ⟨⟨?_, h.single, ?_, hcleaning, hnodup, hbounded⟩, ?_, .inl rfl⟩
      · simp only [ConnectionSupervisor.await, tornDown_append, hnone]
        simpa [ht, hnone, Suspension.tornDown] using h.alive
      · simp [ConnectionSupervisor.await, h.listening, ht]
      · simp [ConnectionSupervisor.await]

theorem Counted.nextGeneration (h : s.Counted) : s.nextGeneration.Counted :=
  ⟨h.alive, h.single, h.listening, h.cleaning, h.pending,
    fun generation hgeneration => (h.bounded generation hgeneration).trans (Nat.le_succ _)⟩

theorem Counted.not_pending (h : s.Counted) : s.generation + 1 ∉ DevPilot.pending s.tasks :=
  fun hpending => absurd (h.bounded _ hpending) (by omega)

theorem Counted.shutDown (h : s.Counted) : s.shutDown.Counted :=
  ⟨h.alive, h.single, h.listening, h.cleaning, h.pending, h.bounded⟩

theorem Inv.stop (h : s.Inv) : s.stop.Inv := by
  rw [ConnectionSupervisor.stop]
  split_ifs
  · exact h
  · exact h.shutDown.cleanupTransport _ (fun _ => rfl) (by simp [Suspension.pending])

theorem Inv.observed (h : s.Inv) : (s.observed c).Inv := by
  rw [ConnectionSupervisor.observed]
  split_ifs
  · exact h.stop
  · exact h

theorem Inv.scheduleReconnect (h : s.Inv) (attempt : Nat) (delayMs : Int)
    (probe : Option ProbeFailure) : (s.scheduleReconnect c attempt delayMs probe).Inv := by
  rw [ConnectionSupervisor.scheduleReconnect]
  split_ifs
  · exact h
  · exact ((h.clearRetryTimer.publish _).observed).setRetryTimer attempt

theorem Inv.publishAuthFailed (h : s.Inv) (attempt : Nat) (probe : ProbeFailure) :
    (s.publishAuthFailed attempt probe).Inv := h.publish _

theorem Inv.connectTransport (h : s.Inv) (hcurrent : s.currentTransport = none)
    (htorn : tornDown s.tasks = []) (hlive : s.isStopped = false)
    (hpending : s.generation ∉ DevPilot.pending s.tasks) (start : Option Nat) (initial : Bool)
    (attempt : Nat) : (s.connectTransport c start initial attempt s.generation).Inv := by
  have halive : s.alive = [] := by
    rw [h.alive, hcurrent, htorn]
    rfl
  have hlistening : s.listening = [] := by
    rw [h.listening, hcurrent]
    rfl
  have hcreated : (s.createTransport initial attempt s.generation).Inv := by
    refine ⟨⟨?_, ?_, ?_, h.cleaning, h.pending, h.bounded⟩, ?_, .inr hpending⟩
    · simp [ConnectionSupervisor.createTransport, halive, htorn]
    · simp [ConnectionSupervisor.createTransport, halive]
    · simp [ConnectionSupervisor.createTransport, hlistening]
    · simpa [ConnectionSupervisor.createTransport] using hlive
  exact ((hcreated.publish _).observed.connect s.created).await start rfl rfl rfl

theorem Inv.establishCleaned (h : s.Inv) (hcurrent : s.currentTransport = none) {generation : Nat}
    (hpending : generation ∉ DevPilot.pending s.tasks) (hbounded : generation ≤ s.generation)
    (start : Option Nat) (initial : Bool) (attempt : Nat) (hfits : s.isStopped = false →
      (initial && config.probeBeforeInitialConnect) = false →
        tornDown s.tasks = [] ∧ generation = s.generation) :
    (s.establishCleaned config c start initial attempt generation).Inv := by
  rw [ConnectionSupervisor.establishCleaned]
  split_ifs with hstopped hprobes
  · exact h
  · obtain ⟨hcleaning, hnodup, hbounded⟩ := h.tasks_append
      ⟨start, .initialProbe attempt generation⟩ (fun _ => rfl)
      (by simp [Suspension.pending, hpending, hbounded])
    refine ⟨⟨?_, h.single, h.listening, hcleaning, hnodup, hbounded⟩, h.honoured, .inl hcurrent⟩
    rw [ConnectionSupervisor.await, tornDown_append]
    simpa [Suspension.tornDown] using h.alive
  · have hlive : s.isStopped = false := by simpa using hstopped
    obtain ⟨htorn, rfl⟩ := hfits hlive (by simpa using hprobes)
    exact h.connectTransport hcurrent htorn hlive hpending start initial attempt

theorem Inv.establishConnection (h : s.Inv) (start : Option Nat) (initial : Bool) (attempt : Nat)
    (hfits : s.currentTransport = none → (initial && config.probeBeforeInitialConnect) = false →
      tornDown s.tasks = []) :
    (s.establishConnection config c start initial attempt).Inv := by
  rw [ConnectionSupervisor.establishConnection]
  split_ifs with hcurrent
  · refine h.nextGeneration.cleanupTransport _ (fun hnone => ?_) ?_
    · rw [show s.currentTransport = none from hnone] at hcurrent
      cases hcurrent
    · simpa [Suspension.pending] using ⟨h.not_pending, Nat.lt_succ_self _⟩
  · have hcurrent : s.currentTransport = none := by simpa using hcurrent
    have hnext : s.nextGeneration.Inv := by
      refine ⟨h.nextGeneration, fun t ht => ?_, .inl hcurrent⟩
      rw [show s.nextGeneration.currentTransport = none from hcurrent] at ht
      cases ht
    exact hnext.establishCleaned hcurrent h.not_pending le_rfl _ _ _
      fun _ hprobes => ⟨hfits hcurrent hprobes, rfl⟩

theorem Inv.initialProbed (h : s.Inv) (start : Option Nat) (attempt generation : Nat)
    (probe : ReadinessProbeResult) (hfits : probe = .ready → generation = s.generation →
      s.isStopped = false → s.currentTransport = none ∧ tornDown s.tasks = [] ∧
        s.generation ∉ DevPilot.pending s.tasks) :
    (s.initialProbed config c start attempt generation probe).Inv := by
  rw [ConnectionSupervisor.initialProbed]
  split_ifs with hstale
  · exact h
  · obtain ⟨rfl, hlive⟩ : generation = s.generation ∧ s.isStopped = false := by simpa using hstale
    cases probe with
    | ready =>
        obtain ⟨hcurrent, htorn, hpending⟩ := hfits rfl rfl hlive
        exact h.connectTransport hcurrent htorn hlive hpending start true attempt
    | failed probe =>
        dsimp only
        split_ifs
        · exact (h.publishAuthFailed _ _).await _ rfl rfl rfl
        · exact h.scheduleReconnect _ _ _

theorem Inv.applyProbe (h : s.Inv) (start : Option Nat) (probe : ProbeFailure) :
    (s.applyProbe start probe).Inv := by
  rw [ConnectionSupervisor.applyProbe]
  split_ifs
  · exact h
  · exact h
  · exact h.nextGeneration.cleanupTransport _ (fun _ => rfl) (by simp [Suspension.pending])

theorem Inv.probeApplied (h : s.Inv) (probe : ProbeFailure) (generation : Nat) :
    (s.probeApplied config c probe generation).Inv := by
  rw [ConnectionSupervisor.probeApplied]
  split_ifs
  · exact h
  · exact h.publishAuthFailed _ _
  · exact h.scheduleReconnect _ _ _

theorem Inv.retryProbed (h : s.Inv) (attempt generation : Nat) (probe : ReadinessProbeResult) :
    (s.retryProbed config c attempt generation probe).Inv := by
  cases probe with
  | ready =>
      rw [ConnectionSupervisor.retryProbed]
      split_ifs
      · exact h
      · exact h.await _ rfl rfl rfl
  | failed probe =>
      rw [ConnectionSupervisor.retryProbed]
      split_ifs
      · exact h
      · exact (h.publishAuthFailed _ _).await _ rfl rfl rfl
      · exact h.scheduleReconnect _ _ _

theorem Inv.reconnect (h : s.Inv) (attempt generation : Nat)
    (hfits : generation = s.generation → s.isStopped = false → s.currentTransport = none →
      tornDown s.tasks = []) : (s.reconnect config c attempt generation).Inv := by
  rw [ConnectionSupervisor.reconnect]
  split_ifs with hstale
  · exact h
  · obtain ⟨hlive, hgeneration⟩ : s.isStopped = false ∧ generation = s.generation := by
      simpa using hstale
    exact h.establishConnection _ _ _ fun hcurrent _ => hfits hgeneration hlive hcurrent

theorem Inv.disconnectHandled (h : s.Inv) (intentional : Bool) (attempt generation : Nat) :
    (s.disconnectHandled config c intentional attempt generation).Inv := by
  rw [ConnectionSupervisor.disconnectHandled]
  split_ifs
  · exact h
  · exact h.scheduleReconnect _ _ _

theorem Inv.afterCleanup (h : s.Inv) (start : Option Nat) (rest : AfterCleanup)
    (hfits : ∀ initial attempt generation, rest = .establish initial attempt generation →
      s.currentTransport = none ∧ generation ∉ DevPilot.pending s.tasks ∧
        generation ≤ s.generation ∧ (s.isStopped = false →
          (initial && config.probeBeforeInitialConnect) = false →
            tornDown s.tasks = [] ∧ generation = s.generation)) :
    (s.afterCleanup config c start rest).Inv := by
  cases rest with
  | establish initial attempt generation =>
      obtain ⟨hcurrent, hpending, hbounded, hfits⟩ := hfits _ _ _ rfl
      exact h.establishCleaned hcurrent hpending hbounded start initial attempt hfits
  | apply probe generation => exact h.probeApplied probe generation
  | stop => exact h

theorem Inv.handleDisconnect (h : s.Inv) (intentional : Bool) (error : Option String) :
    (s.handleDisconnect c intentional error).Inv := by
  rw [ConnectionSupervisor.handleDisconnect]
  refine Inv.await (Inv.publish ?_ _) _ rfl rfl rfl
  exact h.frame ..

theorem Inv.onConnected (h : s.Inv) (t : Transport) : (s.onConnected c t).Inv := h.frame ..

theorem Inv.onError (h : s.Inv) (t : Transport) (message : String) (classified : Option ProbeFailure)
    (isConnected : Bool) : (s.onError config c t message classified isConnected).Inv := by
  rw [ConnectionSupervisor.onError.eq_def]
  split_ifs
  · cases classified with
    | none => exact h.scheduleReconnect _ _ _
    | some probe => exact h.applyProbe none probe
  · exact h.publish _

theorem Inv.startRun (h : s.Inv) (hfits : s.currentTransport = none →
    config.probeBeforeInitialConnect = false → (s.isStarted && !s.isStopped &&
      (s.state.phase = .online || s.state.phase = .connecting)) = false → tornDown s.tasks = []) :
    (s.startRun config c).Inv := by
  rw [ConnectionSupervisor.startRun]
  split_ifs with hstarted hconnected
  · exact h
  · refine Inv.establishConnection (h.frame ..) _ _ _ fun hcurrent hprobes => hfits hcurrent ?_ ?_
    · simpa using hprobes
    · simpa [hstarted] using hconnected
  · refine Inv.establishConnection ?_ _ _ _ fun hcurrent hprobes => hfits hcurrent ?_ ?_
    · exact ⟨⟨h.alive, h.single, h.listening, h.cleaning, h.pending, h.bounded⟩,
        fun t ht => ⟨(h.honoured t ht).1, rfl⟩, h.idle⟩
    · simpa using hprobes
    · have hnot : (s.isStarted && !s.isStopped) = false := by simpa using hstarted
      rw [hnot, Bool.false_and]

theorem Inv.start (h : s.Inv) (hfits : s.creates config .start = true → tornDown s.tasks = []) :
    (s.start config c).Inv := by
  rw [ConnectionSupervisor.start]
  split_ifs with hinFlight
  · exact h
  · have hrun : (s.startRun config c).Inv := by
      refine h.startRun fun hcurrent hprobes hconnected => hfits ?_
      have hsettled : (s.startInFlight.isNone || s.isStopped) = true := by
        cases hstart : s.startInFlight <;> simp_all
      rw [creates, hsettled, hcurrent, hprobes, hconnected]
      rfl
    exact hrun.frame ..

theorem Inv.startSettled (h : s.Inv) : s.startSettled.Inv := by
  rw [ConnectionSupervisor.startSettled]
  split_ifs
  · exact h.frame ..
  · exact h

theorem Inv.timer (h : s.Inv) : s.timer.Inv := by
  rw [ConnectionSupervisor.timer]
  cases s.retryTimer with
  | none => exact h
  | some attempt =>
      dsimp only
      rw [ConnectionSupervisor.runProbeAndReconnect]
      split_ifs
      · exact h.frame ..
      · exact Inv.await (h.frame ..) _ rfl rfl rfl

variable {i : Nat} {task : Task}

theorem filterMap_of_getElem? {α : Type} (f : Task → Option α) {tasks : List Task}
    (hi : tasks[i]? = some task) : ∃ before behind,
      tasks.filterMap f = before ++ ((f task).toList ++ behind) ∧
        (tasks.eraseIdx i).filterMap f = before ++ behind := by
  obtain ⟨before, behind, htasks, herased⟩ := Slices.exists_append_of_getElem? hi
  refine ⟨before.filterMap f, behind.filterMap f, ?_, ?_⟩
  · rw [htasks, List.filterMap_append]
    cases hx : f task <;> simp [hx]
  · rw [herased, List.filterMap_append]

theorem pending_taken_subset (s : ConnectionSupervisor) (i : Nat) :
    ∀ generation ∈ DevPilot.pending (s.taken i).tasks, generation ∈ DevPilot.pending s.tasks :=
  fun _ h => (List.Sublist.filterMap _ (List.eraseIdx_sublist s.tasks i)).subset h

theorem Counted.not_pending_taken (h : s.Counted) (hi : s.tasks[i]? = some task) {generation : Nat}
    (hpending : task.suspension.pending = some generation) :
    generation ∉ DevPilot.pending (s.taken i).tasks ∧ generation ∈ DevPilot.pending s.tasks := by
  obtain ⟨before, behind, hbefore, hafter⟩ := filterMap_of_getElem? (·.suspension.pending) hi
  have hnodup : (s.tasks.filterMap (·.suspension.pending)).Nodup := h.pending
  rw [hbefore, hpending] at hnodup
  constructor
  · show generation ∉ (s.tasks.eraseIdx i).filterMap (·.suspension.pending)
    rw [hafter]
    exact (List.nodup_middle.mp hnodup).notMem
  · show generation ∈ s.tasks.filterMap (·.suspension.pending)
    rw [hbefore, hpending]
    simp

theorem Counted.taken (h : s.Counted) (i : Nat) : (DevPilot.pending (s.taken i).tasks).Nodup ∧
    (∀ generation ∈ DevPilot.pending (s.taken i).tasks, generation ≤ s.generation) ∧
    ∀ t ∈ (s.taken i).tasks, t.suspension.tornDown = none → t.suspension.establishes = none :=
  ⟨h.pending.sublist (List.Sublist.filterMap _ (List.eraseIdx_sublist s.tasks i)),
    fun _ hg => h.bounded _ (pending_taken_subset s i _ hg),
    fun t ht => h.cleaning t (List.mem_of_mem_eraseIdx ht)⟩

theorem Inv.taken (h : s.Inv) (hi : s.tasks[i]? = some task)
    (hnone : task.suspension.tornDown = none) : (s.taken i).Inv := by
  obtain ⟨before, behind, hbefore, hafter⟩ := filterMap_of_getElem? (·.suspension.tornDown) hi
  obtain ⟨hnodup, hbounded, hcleaning⟩ := h.toCounted.taken i
  refine ⟨⟨?_, h.single, h.listening, hcleaning, hnodup, hbounded⟩, h.honoured,
    h.idle.imp_right fun hnot hpending => hnot (pending_taken_subset s i _ hpending)⟩
  rw [hnone] at hbefore
  show s.alive = _ ++ (s.tasks.eraseIdx i).filterMap (·.suspension.tornDown)
  rw [hafter, h.alive, tornDown, hbefore]
  rfl

theorem Inv.only (h : s.Inv) (hi : s.tasks[i]? = some task) {transport : Nat}
    (htorn : task.suspension.tornDown = some transport) :
    s.alive = [transport] ∧ s.currentTransport = none ∧ tornDown (s.taken i).tasks = [] := by
  obtain ⟨before, behind, hbefore, hafter⟩ := filterMap_of_getElem? (·.suspension.tornDown) hi
  have halive := h.alive
  have hsingle := h.single
  rw [tornDown, hbefore, htorn] at halive
  rw [halive] at hsingle
  simp only [Option.toList_some, List.length_append, List.length_cons, List.length_nil] at hsingle
  obtain ⟨hcurrent, rfl, rfl⟩ : (s.currentTransport.map (·.id)).toList.length = 0 ∧ before = [] ∧
      behind = [] := by
    simp only [← List.length_eq_zero_iff]
    omega
  have hcurrent : s.currentTransport = none := by
    cases ht : s.currentTransport <;> simp_all
  exact ⟨by simpa [hcurrent] using halive, hcurrent, hafter⟩

theorem Inv.destroyed (h : s.Inv) (hi : s.tasks[i]? = some task) {transport : Nat}
    (htorn : task.suspension.tornDown = some transport) :
    Inv { s.taken i with alive := s.alive.erase transport } := by
  obtain ⟨halive, hcurrent, hnone⟩ := h.only hi htorn
  obtain ⟨hnodup, hbounded, hcleaning⟩ := h.toCounted.taken i
  refine ⟨⟨?_, ?_, h.listening, hcleaning, hnodup, hbounded⟩, h.honoured, .inl hcurrent⟩
  · show s.alive.erase transport = (s.currentTransport.map (·.id)).toList ++ tornDown (s.taken i).tasks
    simp [halive, hcurrent, hnone]
  · simp [halive]

theorem Inv.disconnected (h : s.Inv) {start : Option Nat} {transport : Nat} {rest : AfterCleanup}
    (hi : s.tasks[i]? = some ⟨start, .disconnecting transport rest⟩) :
    ((s.taken i).await start (.destroying transport rest)).Inv := by
  obtain ⟨halive, hcurrent, hnone⟩ := h.only hi rfl
  have hdestroyed := h.destroyed hi rfl
  obtain ⟨hcleaning, hnodup, hbounded⟩ := hdestroyed.tasks_append
    ⟨start, .destroying transport rest⟩ (fun hnone => by cases hnone) (by
      intro generation hgeneration
      have hpending : (Suspension.disconnecting transport rest).pending = some generation := by
        cases rest <;> exact hgeneration
      obtain ⟨hnew, hold⟩ := h.not_pending_taken hi hpending
      exact ⟨hnew, h.bounded _ hold⟩)
  refine ⟨⟨?_, h.single, h.listening, hcleaning, hnodup, hbounded⟩, h.honoured, .inl hcurrent⟩
  show s.alive = (s.currentTransport.map (·.id)).toList ++ tornDown ((s.taken i).tasks ++ [_])
  rw [tornDown_append, hnone, halive, hcurrent]
  rfl

theorem Inv.proceed (h : s.Inv) (hi : s.tasks[i]? = some task) (settlement : Settlement)
    (hfits : s.FitsAt config (c, .settled i settlement)) :
    ((s.taken i).proceed config c task.start task.suspension settlement).Inv := by
  have hcreates : s.creates config (.settled i settlement) = true →
      tornDown (s.taken i).tasks = [] ∧
        (task.suspension.establishes).all (·.2 = s.generation) = true := by
    intro hcreates
    obtain ⟨htorn, hdate⟩ := hfits hcreates
    exact ⟨htorn, by simpa [upToDate, hi] using hdate⟩
  simp only [creates, hi, Option.map_some] at hcreates
  have hcleaning := h.cleaning task (List.mem_of_getElem? hi)
  obtain ⟨start, suspension⟩ := task
  cases suspension with
  | noTransport rest =>
      refine (h.taken hi rfl).afterCleanup _ _ ?_
      rintro initial attempt generation rfl
      cases hcleaning rfl
  | disconnecting transport rest => exact h.disconnected hi
  | destroying transport rest =>
      obtain ⟨-, hcurrent, hnone⟩ := h.only hi rfl
      refine (h.destroyed hi rfl).afterCleanup _ _ ?_
      rintro initial attempt generation rfl
      obtain ⟨hnew, hold⟩ := h.not_pending_taken hi rfl
      refine ⟨hcurrent, hnew, h.bounded _ hold, fun hlive hprobes => ?_⟩
      have hlive : s.isStopped = false := hlive
      obtain ⟨-, hdate⟩ := hcreates (by
        simp only [Suspension.establishes, Option.any_some, hlive, hprobes]
        rfl)
      have hdate : generation = s.generation := by simpa [Suspension.establishes] using hdate
      exact ⟨hnone, hdate⟩
  | initialProbe attempt generation =>
      have htaken := h.taken hi rfl
      cases settlement with
      | resolved => exact htaken
      | rejected message classified =>
          exact htaken.initialProbed start attempt generation (.failed (.serverUnreachable (some message)))
            fun hready => by cases hready
      | probed probe =>
          refine htaken.initialProbed _ _ _ _ ?_
          rintro rfl rfl hlive
          have hlive : s.isStopped = false := hlive
          obtain ⟨hnew, hold⟩ := h.not_pending_taken hi rfl
          obtain ⟨hnone, -⟩ := hcreates (by simp [hlive, ConnectionSupervisor.taken])
          exact ⟨h.idle.resolve_right (not_not_intro hold), hnone, hnew⟩
  | connecting generation =>
      have htaken := h.taken hi rfl
      cases settlement with
      | rejected message classified =>
          dsimp only [ConnectionSupervisor.proceed]
          split_ifs
          · exact htaken
          · exact htaken.applyProbe _ _
      | _ => exact htaken
  | retryProbe attempt generation =>
      have htaken := h.taken hi rfl
      cases settlement with
      | resolved => exact htaken
      | probed probe => exact htaken.retryProbed _ _ _
      | rejected message classified =>
          exact htaken.retryProbed attempt generation (.failed (.serverUnreachable (some message)))
  | beforeReconnect attempt generation =>
      have htaken := h.taken hi rfl
      cases settlement with
      | resolved =>
          refine htaken.reconnect _ _ fun hgeneration hlive hcurrent => ?_
          have hlive : s.isStopped = false := hlive
          have hcurrent : s.currentTransport = none := hcurrent
          have hgeneration : generation = s.generation := hgeneration
          exact (hcreates (by simp [hlive, hcurrent, hgeneration])).1
      | _ => exact htaken
  | onAuthFailed => exact h.taken hi rfl
  | onDisconnected intentional attempt generation =>
      have htaken := h.taken hi rfl
      cases settlement with
      | resolved => exact htaken.disconnectHandled _ _ _
      | _ => exact htaken

theorem Inv.step (h : s.Inv) (e : Circumstances × ConnectionEvent) (hfits : s.FitsAt config e) :
    (s.step config e).Inv := by
  obtain ⟨c, e⟩ := e
  rw [ConnectionSupervisor.step.eq_def]
  cases e with
  | start => exact h.start fun hcreates => (hfits hcreates).1
  | startSettled => exact h.startSettled
  | stop => exact h.stop
  | reportProbeResult probe => exact h.applyProbe none probe
  | connected transport =>
      cases ht : s.honoured transport with
      | none => simpa [ht] using h
      | some t => simpa [ht] using h.onConnected t
  | disconnected transport intentional error =>
      cases ht : s.honoured transport with
      | none => simpa [ht] using h
      | some t => simpa [ht] using h.handleDisconnect intentional error
  | error transport message classified isConnected =>
      cases ht : s.honoured transport with
      | none => simpa [ht] using h
      | some t => simpa [ht] using h.onError t message classified isConnected
  | timer => exact h.timer
  | settled i settlement =>
      cases hi : s.tasks[i]? with
      | none => simpa [hi] using h
      | some task => simpa [hi] using h.proceed hi settlement hfits

theorem Inv.initial : Inv {} where
  alive := rfl
  single := by simp
  listening := rfl
  cleaning := by simp
  pending := List.nodup_nil
  bounded := by simp [DevPilot.pending]
  honoured := by simp
  idle := .inl rfl

/-- In every run in which no transport is created while another one is being torn
down, or for a generation that is over, there is one transport at most. -/
theorem single_transport (config : ConnectionConfig)
    (events : List (Circumstances × ConnectionEvent))
    (hfits : Along (step config) (FitsAt config) {} events) :
    (run (step config) {} events).SingleTransport :=
  (run_invariant_along (fun _ e h hfits => h.step e hfits) Inv.initial hfits).singleTransport

section Overtaken

def connectsAtOnce : ConnectionConfig :=
  { policy := ⟨500, 3, 1000, 30000, false⟩, probeBeforeInitialConnect := false }

def reconnecting : List ConnectionEvent :=
  [.start, .connected 0, .settled 0 .resolved, .startSettled, .disconnected 0 false none,
    .settled 0 .resolved, .timer, .settled 0 (.probed .ready), .settled 0 .resolved]

def undisturbed (events : List ConnectionEvent) : List (Circumstances × ConnectionEvent) :=
  events.map ({ now := 0, jittered := id, observerStops := false }, ·)

theorem single_transport_reconnect :
    let s := run (step connectsAtOnce) {}
      (undisturbed (reconnecting ++ [ConnectionEvent.settled 0 .resolved, .settled 0 .resolved, .connected 1]))
    s.SingleTransport ∧ s.alive = [1] ∧ s.state.phase = .online :=
  ⟨single_transport connectsAtOnce _ (by decide), by decide, by decide⟩

/-- A `start()` that comes while the old transport is cleaned up connects at once,
and so does the retry afterwards. -/
theorem start_overtakes_reconnect : ¬ ∀ config events,
    (run (step config) {} events).SingleTransport := by
  intro h
  have hsingle := (h connectsAtOnce
    (undisturbed (reconnecting ++ [ConnectionEvent.start, .settled 0 .resolved, .settled 1 .resolved]))).single
  revert hsingle
  decide

end Overtaken

end ConnectionSupervisor

end DevPilot
