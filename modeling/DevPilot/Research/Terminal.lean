import DevPilot.Lib.Runs
import DevPilot.Research.Reducer

/-!
What an ended research run absorbs: which events leave its status and that of its
coordinator as they are.
-/

namespace DevPilot

open PyJson Runs

variable {F : Type}

def RunStatus.isTerminal : RunStatus → Bool
  | .completed | .failed | .cancelled => true
  | _ => false

namespace DevPilotEvent

def ends (e : DevPilotEvent F) : Bool :=
  match e.type with
  | .sessionEnded | .runCancelled | .runFailed => true
  | _ => false

def revives (e : DevPilotEvent F) : Bool :=
  match e.type with
  | .sessionStarted | .userAwait | .userInput => true
  | _ => false

/-- The event reports an activity of the coordinator. A hypothesis, an executor or
a resolved permission must be named, and a requested permission be new. -/
def reportsActivity (host : ResearchHost F) (state : ResearchRunState F) (e : DevPilotEvent F) :
    Bool :=
  match e.type with
  | .cycleStarted | .cycleCompleted | .coordinatorProgress => true
  | .hypothesisCreated | .hypothesisUpdated => (e.hypothesisKey host).any (· ≠ "")
  | .executorStarted | .executorProgress | .executorCompleted | .executorFailed =>
      (e.executorKey host).any (· ≠ "")
  | .permissionRequested =>
      !state.approvals.any (·.id = e.permissionKey host state.approvals.length)
  | .permissionResolved => (e.text host ["permission_id", "id"]).any (· ≠ "")
  | _ => false

end DevPilotEvent

namespace ResearchRunState

structure Ended (state : ResearchRunState F) : Prop where
  terminal : state.status.isTerminal = true
  agrees : state.coordinator.status = state.status

variable {host : ResearchHost F} {state : ResearchRunState F} {e : DevPilotEvent F}

theorem exitStatus_isTerminal (exitReason : String) :
    (DevPilotEvent.exitStatus exitReason).isTerminal = true := by
  rw [DevPilotEvent.exitStatus]
  split_ifs <;> rfl

theorem ended_of_ends (host : ResearchHost F) (state : ResearchRunState F) (h : e.ends = true) :
    (reduceResearchRun host state e).Ended := by
  rw [DevPilotEvent.ends] at h
  rw [reduceResearchRun]
  cases htype : e.type <;> rw [htype] at h <;> try cases h
  · exact ⟨exitStatus_isTerminal _, rfl⟩
  · exact ⟨rfl, rfl⟩
  · exact ⟨rfl, rfl⟩

structure Reports (state next : ResearchRunState F) (activity : Bool) : Prop where
  status : next.status = state.status
  silent : activity = false → next.coordinator.status = state.coordinator.status
  active : activity = true → next.coordinator.status = .running ∨
    next.coordinator.status = .awaitingInput

theorem reports_running {next : ResearchRunState F} (hstatus : next.status = state.status)
    (hrunning : next.coordinator.status = .running) : Reports state next true :=
  ⟨hstatus, fun h => absurd h (by simp), fun _ => .inl hrunning⟩

theorem reports_silent {next : ResearchRunState F} (hstatus : next.status = state.status)
    (hcoordinator : next.coordinator.status = state.coordinator.status) :
    Reports state next false :=
  ⟨hstatus, fun _ => hcoordinator, fun h => absurd h (by simp)⟩

theorem reports_updateHypothesis (host : ResearchHost F) (state : ResearchRunState F)
    (e : DevPilotEvent F) : Reports state (state.updateHypothesis host e)
      ((e.hypothesisKey host).any (· ≠ "")) := by
  rw [updateHypothesis.eq_def]
  split
  · next hkey =>
      rw [hkey]
      exact reports_silent rfl rfl
  · next hkey =>
      rw [hkey]
      exact reports_silent rfl rfl
  · next id hid hkey =>
      rw [hkey]
      refine ⟨rfl, fun hsilent => absurd hsilent (by simpa using hid), fun _ => ?_⟩
      dsimp only
      split_ifs
      · exact .inr rfl
      · exact .inl rfl

theorem reports_updateExecutor (host : ResearchHost F) (state : ResearchRunState F)
    (e : DevPilotEvent F) : Reports state (state.updateExecutor host e)
      ((e.executorKey host).any (· ≠ "")) := by
  rw [updateExecutor.eq_def]
  split
  · next hkey =>
      rw [hkey]
      exact reports_silent rfl rfl
  · next hkey =>
      rw [hkey]
      exact reports_silent rfl rfl
  · next id hid hkey =>
      rw [hkey]
      exact ⟨rfl, fun hsilent => absurd hsilent (by simpa using hid), fun _ => .inl rfl⟩

theorem reports_resolvePermission (host : ResearchHost F) (state : ResearchRunState F)
    (e : DevPilotEvent F) : Reports state (state.resolvePermission host e)
      ((e.text host ["permission_id", "id"]).any (· ≠ "")) := by
  rw [resolvePermission.eq_def]
  split
  · next hkey =>
      rw [hkey]
      exact reports_silent rfl rfl
  · next hkey =>
      rw [hkey]
      exact reports_silent rfl rfl
  · next id hid hkey =>
      rw [hkey]
      exact ⟨rfl, fun hsilent => absurd hsilent (by simpa using hid), fun _ => .inl rfl⟩

theorem reports_requestPermission (host : ResearchHost F) (state : ResearchRunState F)
    (e : DevPilotEvent F) : Reports state (state.requestPermission host e)
      (!state.approvals.any (·.id = e.permissionKey host state.approvals.length)) := by
  rw [requestPermission]
  dsimp only
  split_ifs with hknown
  · rw [hknown]
    exact reports_silent rfl rfl
  · exact ⟨rfl, fun hsilent => absurd hsilent (by simpa using hknown), fun _ => .inr rfl⟩

theorem reports_useTool (host : ResearchHost F) (state : ResearchRunState F)
    (e : DevPilotEvent F) : Reports state (state.useTool host e) false := by
  rw [useTool.eq_def]
  split <;> exact reports_silent rfl rfl

theorem reports_addEvidence (host : ResearchHost F) (state : ResearchRunState F)
    (e : DevPilotEvent F) : Reports state (state.addEvidence host e) false := by
  rw [addEvidence]
  dsimp only
  split_ifs <;> exact reports_silent rfl rfl

theorem reports_addArtifact (host : ResearchHost F) (state : ResearchRunState F)
    (e : DevPilotEvent F) : Reports state (state.addArtifact host e) false := by
  rw [addArtifact]
  dsimp only
  split_ifs <;> exact reports_silent rfl rfl

theorem reports_reduce (host : ResearchHost F) (state : ResearchRunState F) {e : DevPilotEvent F}
    (hends : e.ends = false) (hrevives : e.revives = false) :
    Reports state (reduceResearchRun host state e) (e.reportsActivity host state) := by
  rw [DevPilotEvent.ends] at hends
  rw [DevPilotEvent.revives] at hrevives
  rw [reduceResearchRun, DevPilotEvent.reportsActivity]
  cases htype : e.type <;> rw [htype] at hends hrevives
  case sessionStarted | userAwait | userInput => cases hrevives
  case sessionEnded | runCancelled | runFailed => cases hends
  case cycleStarted | cycleCompleted | coordinatorProgress => exact reports_running rfl rfl
  case hypothesisCreated | hypothesisUpdated => exact reports_updateHypothesis host state e
  case executorStarted | executorProgress | executorCompleted | executorFailed =>
    exact reports_updateExecutor host state e
  case toolCalled | toolCompleted | toolFailed => exact reports_useTool host state e
  case evidenceCreated => exact reports_addEvidence host state e
  case reportGenerated | artifactCreated | memoryCreated | auditCompleted =>
    exact reports_addArtifact host state e
  case permissionRequested => exact reports_requestPermission host state e
  case permissionResolved => exact reports_resolvePermission host state e
  case usageUpdated | fileChanged => exact reports_silent rfl rfl

theorem status_of_revives (host : ResearchHost F) (state : ResearchRunState F)
    (h : e.revives = true) :
    (reduceResearchRun host state e).status.isTerminal = false := by
  rw [DevPilotEvent.revives] at h
  rw [reduceResearchRun]
  cases htype : e.type <;> rw [htype] at h <;> first | rfl | cases h

theorem not_reportsActivity_of_ends (host : ResearchHost F) (state : ResearchRunState F)
    (h : e.ends = true) : e.reportsActivity host state = false := by
  rw [DevPilotEvent.ends] at h
  rw [DevPilotEvent.reportsActivity]
  cases htype : e.type <;> rw [htype] at h <;> first | rfl | cases h

theorem isTerminal_step_iff (host : ResearchHost F) (e : DevPilotEvent F)
    (h : state.status.isTerminal = true) :
    (reduceResearchRun host state e).status.isTerminal = true ↔ e.revives = false := by
  cases hrevives : e.revives
  · cases hends : e.ends
    · rw [(reports_reduce host state hends hrevives).status]
      simp [h]
    · simp [(ended_of_ends host state hends).terminal]
  · simp [status_of_revives host state hrevives]

theorem Ended.step_iff (h : state.Ended) (host : ResearchHost F) (e : DevPilotEvent F) :
    (reduceResearchRun host state e).Ended ↔
      e.revives = false ∧ e.reportsActivity host state = false := by
  cases hrevives : e.revives
  · cases hends : e.ends
    · have hstep := reports_reduce host state hends hrevives
      cases hactivity : e.reportsActivity host state
      · refine ⟨fun _ => ⟨rfl, rfl⟩, fun _ => ⟨?_, ?_⟩⟩
        · rw [hstep.status]
          exact h.terminal
        · rw [hstep.silent hactivity, hstep.status]
          exact h.agrees
      · refine ⟨fun hended => ?_, fun hquiet => absurd hquiet.2 (by simp)⟩
        -- an active coordinator agrees with no terminal status
        have hterminal := hended.terminal
        rw [← hended.agrees] at hterminal
        obtain hactive | hactive := hstep.active hactivity <;> rw [hactive] at hterminal <;>
          cases hterminal
    · simp [ended_of_ends host state hends, not_reportsActivity_of_ends host state hends]
  · refine ⟨fun hended => ?_, fun hquiet => absurd hquiet.1 (by simp)⟩
    have hterminal := hended.terminal
    rw [status_of_revives host state hrevives] at hterminal
    cases hterminal

/-- Once a run has ended, it stays so, and its coordinator agrees, exactly as long as
no event revives it or reports an activity. Its status stays terminal exactly as long
as no event revives it. -/
theorem ended_absorbs (host : ResearchHost F) (state : ResearchRunState F) (e : DevPilotEvent F)
    (h : e.ends = true) (later : List (DevPilotEvent F)) :
    (Along (reduceResearchRun host) (fun state e =>
        (reduceResearchRun host state e).status.isTerminal = true)
      (reduceResearchRun host state e) later ↔ ∀ x ∈ later, x.revives = false) ∧
    (Along (reduceResearchRun host) (fun state e => (reduceResearchRun host state e).Ended)
      (reduceResearchRun host state e) later ↔
      Along (reduceResearchRun host) (fun state e => e.revives = false ∧
        e.reportsActivity host state = false) (reduceResearchRun host state e) later) := by
  have hended := ended_of_ends host state h
  have hstep (state : ResearchRunState F) (e : DevPilotEvent F)
      (hterminal : state.status.isTerminal = true) := isTerminal_step_iff host e hterminal
  constructor
  · exact (along_iff hstep (fun state e hterminal => (hstep state e hterminal).mpr)
      hended.terminal later).trans along_iff_forall_mem
  · exact along_iff (fun _ e hended => hended.step_iff host e)
      (fun _ e hended => (hended.step_iff host e).mpr) hended later

def bareEvent (type : DevPilotEventType) (originalType : String) : DevPilotEvent FloatText where
  type
  originalType
  timestamp := none
  runId := none
  sessionId := none
  cycleId := none
  hypothesisId := none
  executorId := none
  toolName := none
  status := none
  summary := none
  data := []

theorem ended_absorbs_end :
    Along (reduceResearchRun literalResearch) (fun state e =>
        (reduceResearchRun literalResearch state e).status.isTerminal = true)
      (reduceResearchRun literalResearch (createInitialResearchRunState "run")
        (bareEvent .runCancelled "run.cancelled"))
      [bareEvent .sessionEnded "session.end", bareEvent .executorFailed "executor.failed"] :=
  (ended_absorbs literalResearch (createInitialResearchRunState "run")
    (bareEvent .runCancelled "run.cancelled") rfl
    [bareEvent .sessionEnded "session.end", bareEvent .executorFailed "executor.failed"]).1.mpr
    (by simp [DevPilotEvent.revives, bareEvent])

/-- The input of a user revives a run that has ended, and the start of a cycle sets
its coordinator alone. -/
theorem ended_revives :
    (¬ ∀ (state : ResearchRunState FloatText) (e x : DevPilotEvent FloatText), e.ends = true →
      x.type ≠ .sessionStarted → (reduceResearchRun literalResearch
        (reduceResearchRun literalResearch state e) x).status.isTerminal = true) ∧
    ¬ ∀ (state : ResearchRunState FloatText) (e x : DevPilotEvent FloatText), e.ends = true →
      x.type ≠ .sessionStarted → (reduceResearchRun literalResearch
        (reduceResearchRun literalResearch state e) x).coordinator.status =
      (reduceResearchRun literalResearch (reduceResearchRun literalResearch state e) x).status := by
  constructor
  · intro h
    exact absurd (h (createInitialResearchRunState "run") (bareEvent .sessionEnded "session.end")
      (bareEvent .userInput "user.input_received") rfl (by decide)) (by decide)
  · intro h
    exact absurd (h (createInitialResearchRunState "run") (bareEvent .sessionEnded "session.end")
      (bareEvent .cycleStarted "cycle.start") rfl (by decide)) (by decide)

end ResearchRunState

end DevPilot
