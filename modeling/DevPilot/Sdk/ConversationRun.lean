import DevPilot.Lib.Runs
import DevPilot.Sdk.RecordFile

/-!
A conversation in the process that holds it: its handle, its run task and its file, under
every operation and wherever that fails.
-/

namespace DevPilot.Sdk

open PyJson TextLines

variable {F : Type}

/-- The keyword arguments of `_update_record`. -/
structure RecordUpdate where
  title : Option String := none
  state : Option ConversationState := none
  pinned : Option Bool := none
  archived : Option Bool := none
  activeRunId : Option (Option String) := none
  lastError : Option (Option String) := none

def RecordUpdate.apply (u : RecordUpdate) (now : F) (r : ConversationRecord F) :
    ConversationRecord F :=
  { r with
    title := u.title.getD r.title
    state := u.state.getD r.state
    updatedAt := .float now
    pinned := u.pinned.getD r.pinned
    archived := u.archived.getD r.archived
    activeRunId := u.activeRunId.getD r.activeRunId
    lastError := u.lastError.getD r.lastError }

def titleFromPrompt (prompt : String) : String :=
  let compact := [' '].intercalate (words prompt.toList)
  String.ofList (compact.take 72) ++ if 72 < compact.length then "…" else ""

def safeError (error : String) : String :=
  let message := (stripText error).toList.map fun c => if c = '\n' then ' ' else c
  if message.isEmpty then "DevPilot could not complete this run."
  else String.ofList (message.take 500)

inductive RunTask
  | idle
  | created (runId : String) (resume : Bool)
  | working (runId : String)
  deriving DecidableEq

structure DevPilotConversation (F : Type) where
  record : ConversationRecord F
  task : RunTask
  file : Json F

namespace DevPilotConversation

def running (c : DevPilotConversation F) : Bool := c.task ≠ .idle

inductive Effect (F : Type)
  | assign (updates : RecordUpdate) (now : F)
  | write
  | append
  | emit (name : String)
  | call

def apply (c : DevPilotConversation F) : Effect F → DevPilotConversation F
  | .assign updates now => { c with record := updates.apply now c.record }
  | .write => { c with file := recordPayload c.record }
  | _ => c

def applyAll (c : DevPilotConversation F) (effects : List (Effect F)) : DevPilotConversation F :=
  effects.foldl apply c

def updateRecord (updates : RecordUpdate) (now : F) : List (Effect F) :=
  [.assign updates now, .write, .emit "conversation.updated"]

def appendMessage : List (Effect F) := [.append, .emit "conversation.updated"]

/-- A body that fails before its `k`-th effect, or does not fail. -/
def upTo (c : DevPilotConversation F) (body : List (Effect F)) (k : Nat) : DevPilotConversation F :=
  c.applyAll (body.take k)

def titleUpdate (title : String) : RecordUpdate where
  title := some title

def titleEffects (record : ConversationRecord F) (prompt : String) (now : F) : List (Effect F) :=
  if record.title = "New conversation" then
    updateRecord (titleUpdate (titleFromPrompt prompt)) now
  else []

def startUpdate (runId : String) (resume : Bool) : RecordUpdate where
  state := some (if resume then .resuming else .starting)
  activeRunId := some (some runId)
  lastError := some none

def startEffects (runId : String) (resume : Bool) (now : F) : List (Effect F) :=
  updateRecord (startUpdate runId resume) now ++ [Effect.emit "run.started"]

def sendEffects (record : ConversationRecord F) (prompt runId : String) (resume : Bool)
    (now : Nat → F) : List (Effect F) :=
  titleEffects record prompt (now 0) ++ appendMessage ++ startEffects runId resume (now 1)

def send (c : DevPilotConversation F) (text uuid : String) (hasContext : Bool) (now : Nat → F)
    (k : Nat) : DevPilotConversation F :=
  let prompt := stripText text
  if prompt.isEmpty || c.running then c
  else
    let runId := "run-" ++ uuid
    let effects := sendEffects c.record prompt runId hasContext now
    { c.upTo effects k with
      task := if k < effects.length then c.task else .created runId hasContext }

def cancelUpdate : RecordUpdate where
  state := some .cancelling

def cancel (c : DevPilotConversation F) (now : F) (k : Nat) : DevPilotConversation F :=
  match c.task with
  | .working _ => c.upTo (updateRecord cancelUpdate now ++ [Effect.emit "run.status", .call]) k
  | _ => c

def rename (c : DevPilotConversation F) (title : String) (now : F) (k : Nat) :
    DevPilotConversation F :=
  if (stripText title).isEmpty then c
  else c.upTo (updateRecord (titleUpdate (stripText title)) now ++ [Effect.emit "conversation.renamed"]) k

def pinUpdate (pinned : Bool) : RecordUpdate where
  pinned := some pinned

def pin (c : DevPilotConversation F) (pinned : Bool) (now : F) (k : Nat) : DevPilotConversation F :=
  c.upTo (updateRecord (pinUpdate pinned) now ++ [Effect.emit "conversation.pinned"]) k

def archiveUpdate (archived : Bool) : RecordUpdate where
  archived := some archived

def archive (c : DevPilotConversation F) (archived : Bool) (now : F) (k : Nat) :
    DevPilotConversation F :=
  c.upTo (updateRecord (archiveUpdate archived) now ++ [Effect.emit "conversation.updated"]) k

def failUpdate (error : String) : RecordUpdate where
  state := some .failed
  activeRunId := some none
  lastError := some (some (safeError error))

/-- `except Exception`. -/
def failEffects (error : String) (now : F) : List (Effect F) :=
  updateRecord (failUpdate error) now ++ [Effect.emit "run.failed"]

def cancelledUpdate : RecordUpdate where
  state := some .cancelled
  activeRunId := some none

/-- `except asyncio.CancelledError`. -/
def cancelledEffects (now : F) : List (Effect F) :=
  updateRecord cancelledUpdate now ++ [Effect.emit "run.cancelled"]

/-- A part of the `try` block that fails before its `j`-th effect, with an error whose
handler fails before its `k`-th, or does not fail and leaves the task as it is given. -/
def guarded (c : DevPilotConversation F) (body : List (Effect F)) (error : String) (now : F)
    (j k : Nat) (task : RunTask) : DevPilotConversation F :=
  if j < body.length then { (c.upTo body j).upTo (failEffects error now) k with task := .idle }
  else { c.applyAll body with task }

def workUpdate : RecordUpdate where
  state := some .working

/-- What precedes the runtime's run: the checkpoint of a run that resumes, the session, and
the call of the run. -/
def beginEffects (resume : Bool) (now : F) : List (Effect F) :=
  (if resume then [.call, .call] else [.call]) ++ updateRecord workUpdate now ++
    [.emit "coordinator.started", .call]

def begin (c : DevPilotConversation F) (error : String) (now : Nat → F) (j k : Nat) :
    DevPilotConversation F :=
  match c.task with
  | .created runId resume =>
      c.guarded (beginEffects resume (now 0)) error (now 1) j k (.working runId)
  | _ => c

inductive Outcome
  | returned
  | raised (error : String)
  | cancelled

def completeUpdate : RecordUpdate where
  state := some .completed
  activeRunId := some none
  lastError := some none

def completeEffects (now : F) : List (Effect F) :=
  appendMessage ++ updateRecord completeUpdate now ++
    [.emit "assistant.message", .emit "run.completed"]

def finish (c : DevPilotConversation F) (outcome : Outcome) (error : String) (now : Nat → F)
    (j k : Nat) : DevPilotConversation F :=
  match c.task with
  | .working _ => match outcome with
    | .returned => c.guarded (completeEffects (now 0)) error (now 1) j k .idle
    | .raised error => { c.upTo (failEffects error (now 0)) k with task := .idle }
    | .cancelled => { c.upTo (cancelledEffects (now 0)) k with task := .idle }
  | _ => c

end DevPilotConversation

/-- A conversation by its file, and by its handle where the store holds one. -/
inductive Conversation (F : Type)
  | closed (file : Json F)
  | live (conversation : DevPilotConversation F)

namespace Conversation

def file : Conversation F → Json F
  | .closed file => file
  | .live c => c.file

def withFile (c : Conversation F) (file : Json F) : Conversation F :=
  match c with
  | .closed _ => .closed file
  | .live c => .live { c with file }

def running : Conversation F → Bool
  | .closed _ => false
  | .live c => c.running

variable (host : SdkHost F) (projectId : String)

/-- `_load_record`, of a conversation of the project. -/
def load (now : F) (c : Conversation F) : Option (ConversationRecord F) :=
  (loadRecord host now c.file).filter (·.projectId = projectId)

/-- `ConversationStore.list`, and the record it reports. Where an interrupted record cannot
be written, it raises. -/
def list (now : F) (written : Bool) (c : Conversation F) :
    Conversation F × Option (ConversationRecord F) :=
  match c.load host projectId now with
  | none => (c, none)
  | some record =>
      let interrupt :=
        if written then (c.withFile (recordPayload (interruptedRecord now record)),
          some (interruptedRecord now record))
        else (c, none)
      if record.state.isActive then match c with
        | .live h => if h.running then (c, some h.record) else interrupt
        | .closed _ => interrupt
      else (c, some record)

/-- `ConversationStore.open`, and the record of the handle it returns. -/
def openConversation (now : F) (written : Bool) (c : Conversation F) :
    Conversation F × Option (ConversationRecord F) :=
  match c with
  | .live h => (c, some h.record)
  | .closed _ => match c.load host projectId now with
    | none => (c, none)
    | some record =>
        let record := if record.state.isActive then interruptedRecord now record else record
        if written then (.live ⟨record, .idle, recordPayload record⟩, some record) else (c, none)

inductive Operation (F : Type)
  | send (text uuid : String) (hasContext : Bool) (now : Nat → F) (k : Nat)
  | cancel (now : F) (k : Nat)
  | rename (title : String) (now : F) (k : Nat)
  | pin (pinned : Bool) (now : F) (k : Nat)
  | archive (archived : Bool) (now : F) (k : Nat)
  /-- The run task takes its first step. -/
  | begin (error : String) (now : Nat → F) (j k : Nat)
  | finish (outcome : DevPilotConversation.Outcome) (error : String) (now : Nat → F) (j k : Nat)
  | list (now : F) (written : Bool)
  | openConversation (now : F) (written : Bool)
  | restart

def onHandle (h : DevPilotConversation F) : Operation F → DevPilotConversation F
  | .send text uuid hasContext now k => h.send text uuid hasContext now k
  | .cancel now k => h.cancel now k
  | .rename title now k => h.rename title now k
  | .pin pinned now k => h.pin pinned now k
  | .archive archived now k => h.archive archived now k
  | .begin error now j k => h.begin error now j k
  | .finish outcome error now j k => h.finish outcome error now j k
  | _ => h

def step (c : Conversation F) (op : Operation F) : Conversation F :=
  match op with
  | .list now written => (c.list host projectId now written).1
  | .openConversation now written => (c.openConversation host projectId now written).1
  | .restart => .closed c.file
  | op => match c with
    | .closed _ => c
    | .live h => .live (onHandle h op)

/-- A conversation as `create` registers it. -/
def created (record : ConversationRecord F) : Conversation F :=
  .live ⟨record, .idle, recordPayload record⟩

def Paired (r : ConversationRecord F) : Prop := r.activeRunId.isSome = r.state.isActive

structure Coherent (c : Conversation F) : Prop where
  loads : ∀ now r, c.load host projectId now = some r → Paired r
  handle : ∀ h, c = .live h → Paired h.record
  persisted : ∀ h, c = .live h → ∀ now, c.load host projectId now = some h.record
  reports : c.running = false → ∀ now now', ∃ state : ConversationState, state.isActive = false ∧
    (c.list host projectId now true).2.map (·.state) = some state ∧
    (c.openConversation host projectId now' true).2.map (·.state) = some state

end Conversation

end DevPilot.Sdk
