import DevPilot.Transcript.Reducer

/-!
A call of the reducer as a run of steps: each step handles one message, one
content of a message or one request.
-/

namespace DevPilot.Transcript

open Tables

variable {F : Type}

inductive Step (F : Type)
  | convert (msg : NormalizedMessage F) (event : AgentEvent F)
  | request (entry : String × PermissionRequest F)
  | completed (requests : List (String × PermissionRequest F)) (incomingToolIds : List String)
      (entry : String × CompletedRequest F)
  | text (msg : NormalizedMessage F)
  | toolCall (msg : NormalizedMessage F) (content : AgentContent F × Nat)
  | toolResult (msg : NormalizedMessage F) (content : AgentContent F × Nat)
  | sidechain (msg : NormalizedMessage F)
  | event (msg : NormalizedMessage F)
  | ready (readyAt : Int)

variable [DecidableEq F] (host : ReducerHost) (now : Int)

def Step.apply (p : TextPass F) : Step F → TextPass F
  | .convert msg content => p.update (·.addEvent msg content)
  | .request entry => p.update (·.processRequest host now entry)
  | .completed requests ids entry => p.update (·.processCompleted host now requests ids entry)
  | .text msg => p.addMessage host msg
  | .toolCall msg content => p.update (·.processToolCallContent host msg content)
  | .toolResult msg content => p.update (·.processToolResultContent now msg content)
  | .sidechain msg => p.update (·.processSidechainMessage msg)
  | .event msg => p.update (·.processEvent msg)
  | .ready readyAt => p.update (·.markRunningToolsUnavailable readyAt)

omit [DecidableEq F]

/-- What phase 0.5 makes of the main messages that are traced. -/
def converted (traced : List (NormalizedMessage F)) (s : ReducerState F) : Conversion F :=
  (traced.filter isMain).foldl Conversion.add ⟨s, [], [], none⟩

def permissionSteps (agentState : Option (AgentState F)) (incomingToolIds : List String) : List (Step F) :=
  match agentState with
  | none => []
  | some agentState =>
      let pending := agentState.requests.filter fun entry =>
        (agentState.completedRequests.lookup entry.1).all (pendingWins entry.2)
      let completed := agentState.completedRequests.filter fun entry =>
        !(agentState.requests.lookup entry.1).any (pendingWins · entry.2)
      pending.map .request ++ completed.map (.completed agentState.requests incomingToolIds)

def contentSteps (step : NormalizedMessage F → AgentContent F × Nat → Step F)
    (messages : List (NormalizedMessage F)) : List (Step F) :=
  messages.flatMap fun msg => msg.content.zipIdx.map (step msg)

def isSidechain (msg : NormalizedMessage F) : Bool := (msg.sidechainId.bind nonEmpty?).isSome

/-- The steps of a call over the messages that the tracer has let through. -/
def steps (call : ReducerCall F) (traced : List (NormalizedMessage F)) (s : ReducerState F) :
    List (Step F) :=
  let c := converted traced s
  c.convertedEvents.map (fun p => .convert p.1 p.2) ++
    permissionSteps call.agentState (incomingToolIds c.messagesToProcess) ++
    c.messagesToProcess.map .text ++
    contentSteps .toolCall c.messagesToProcess ++
    contentSteps .toolResult c.messagesToProcess ++
    (traced.filter isSidechain).map .sidechain ++
    c.messagesToProcess.map .event ++
    c.readyAt.toList.map .ready

def startPass (traced : List (NormalizedMessage F)) (s : ReducerState F) : TextPass F :=
  ⟨(converted traced s).state, s.lastMainThinkingMessageId, s.streamMergeCursor⟩

variable [DecidableEq F]

theorem run_map_update {α : Type} {c : α → Step F} {f : ReducerState F → α → ReducerState F}
    (h : ∀ p a, Step.apply host now p (c a) = p.update (f · a)) (l : List α) (p : TextPass F) :
    Runs.run (Step.apply host now) p (l.map c) = p.update fun s => l.foldl f s := by
  induction l generalizing p with
  | nil => rfl
  | cons a l ih =>
      rw [List.map_cons, Runs.run_cons, h, ih]
      rfl

theorem run_contentSteps {step : NormalizedMessage F → AgentContent F × Nat → Step F}
    {f : NormalizedMessage F → ReducerState F → AgentContent F × Nat → ReducerState F}
    (h : ∀ p msg c, Step.apply host now p (step msg c) = p.update (f msg · c))
    (messages : List (NormalizedMessage F)) (p : TextPass F) :
    Runs.run (Step.apply host now) p (contentSteps step messages) =
      p.update fun s => messages.foldl (fun s msg => msg.content.zipIdx.foldl (f msg) s) s := by
  induction messages generalizing p with
  | nil => rfl
  | cons msg messages ih =>
      have hrun := run_map_update host now (fun p c => h p msg c) msg.content.zipIdx p
      rw [contentSteps, List.flatMap_cons, Runs.run_append, hrun, ← contentSteps, ih]
      rfl

theorem run_permissionSteps (agentState : Option (AgentState F)) (ids : List String) (p : TextPass F) :
    Runs.run (Step.apply host now) p (permissionSteps agentState ids) =
      p.update (·.runAgentStatePermissionsPhase host now agentState ids) := by
  cases agentState with
  | none => rfl
  | some agentState =>
      rw [permissionSteps, Runs.run_append, run_map_update host now fun _ _ => rfl,
        run_map_update host now fun _ _ => rfl]
      rfl

theorem run_text (messages : List (NormalizedMessage F)) (p : TextPass F) :
    Runs.run (Step.apply host now) p (messages.map .text) = messages.foldl (TextPass.addMessage host) p := by
  rw [Runs.run, List.foldl_map]
  rfl

theorem run_convert (events : List (NormalizedMessage F × AgentEvent F)) (p : TextPass F) :
    Runs.run (Step.apply host now) p (events.map fun e => .convert e.1 e.2) =
      p.update fun s => events.foldl (fun s e => s.addEvent e.1 e.2) s :=
  run_map_update host now (fun _ _ => rfl) events p

theorem run_sidechain (messages : List (NormalizedMessage F)) (p : TextPass F) :
    Runs.run (Step.apply host now) p (messages.map .sidechain) = p.update (·.runSidechainsPhase messages) :=
  run_map_update host now (fun _ _ => rfl) messages p

theorem run_event (messages : List (NormalizedMessage F)) (p : TextPass F) :
    Runs.run (Step.apply host now) p (messages.map .event) = p.update (runModeSwitchEventsPhase messages) :=
  run_map_update host now (fun _ _ => rfl) messages p

theorem run_toolCalls (messages : List (NormalizedMessage F)) (p : TextPass F) :
    Runs.run (Step.apply host now) p (contentSteps .toolCall messages) =
      p.update (·.runToolCallsPhase host messages) :=
  run_contentSteps host now (fun _ _ _ => rfl) messages p

theorem run_toolResults (messages : List (NormalizedMessage F)) (p : TextPass F) :
    Runs.run (Step.apply host now) p (contentSteps .toolResult messages) =
      p.update (·.runToolResultsPhase now messages) :=
  run_contentSteps host now (fun _ _ _ => rfl) messages p

theorem run_ready (readyAt : Option Int) (p : TextPass F) :
    Runs.run (Step.apply host now) p (readyAt.toList.map .ready) =
      p.update fun s =>
        match readyAt with
        | some readyAt => s.markRunningToolsUnavailable readyAt
        | none => s := by
  cases readyAt with
  | none => rfl
  | some readyAt => rfl

theorem runPhases_eq_run (call : ReducerCall F) (traced : List (NormalizedMessage F)) (s : ReducerState F) :
    runPhases host call traced s =
      (Runs.run (Step.apply host call.now) (startPass traced s) (steps call traced s)).state := by
  simp only [steps, Runs.run_append, run_convert, run_permissionSteps, run_text, run_toolCalls,
    run_toolResults, run_sidechain, run_event, run_ready]
  rfl

end DevPilot.Transcript
