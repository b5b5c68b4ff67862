import DevPilot.Coordinator.TreeShape
import DevPilot.Sdk.LegacyImport

/-!
The record of a conversation as `conversation.json` holds it, and the records that new
conversations begin with.
-/

namespace DevPilot.Sdk

open PyJson TextLines

variable {F : Type}

def ConversationState.text : ConversationState → String
  | .idle => "idle"
  | .starting => "starting"
  | .resuming => "resuming"
  | .working => "working"
  | .cancelling => "cancelling"
  | .completed => "completed"
  | .cancelled => "cancelled"
  | .failed => "failed"
  | .interrupted => "interrupted"

def ConversationState.ofText? : String → Option ConversationState
  | "idle" => some .idle
  | "starting" => some .starting
  | "resuming" => some .resuming
  | "working" => some .working
  | "cancelling" => some .cancelling
  | "completed" => some .completed
  | "cancelled" => some .cancelled
  | "failed" => some .failed
  | "interrupted" => some .interrupted
  | _ => none

def ConversationState.isActive : ConversationState → Bool
  | .starting | .working | .cancelling | .resuming => true
  | _ => false

def Sandbox.text : Sandbox → String
  | .readOnly => "read-only"
  | .workspaceWrite => "workspace-write"
  | .fullAccess => "full-access"

def Sandbox.ofText? : String → Option Sandbox
  | "read-only" => some .readOnly
  | "workspace-write" => some .workspaceWrite
  | "full-access" => some .fullAccess
  | _ => none

def textOrNull (text : Option String) : Json F := (text.map .str).getD .null

def ConversationRecord.asProtocol (r : ConversationRecord F) : Members F :=
  [("conversationId", .str r.id), ("projectId", .str r.projectId), ("title", .str r.title),
    ("state", .str r.state.text), ("createdAt", r.createdAt), ("updatedAt", r.updatedAt),
    ("provider", .str r.provider), ("model", .str r.model),
    ("reasoningEffort", .str r.reasoningEffort), ("sandbox", .str r.sandbox.text),
    ("pinned", .bool r.pinned), ("archived", .bool r.archived),
    ("activeRunId", textOrNull r.activeRunId), ("lastError", textOrNull r.lastError)]

def recordPayload (r : ConversationRecord F) : Json F :=
  .obj [("schemaVersion", .int 1), ("conversation", .obj r.asProtocol)]

variable (host : SdkHost F)

/-- `str(value or "") or None`. -/
def textOrNone (value : Option (Json F)) : Option String :=
  let text := textOr host value ""
  if text.isEmpty then none else some text

/-- `_load_record`, of the value that the file holds. -/
def loadRecord (now : F) (raw : Json F) : Option (ConversationRecord F) :=
  match raw.get? "conversation" with
  | some (.obj value) =>
      let id := stripText (textOr host (value.lookup "conversationId") "")
      let projectId := stripText (textOr host (value.lookup "projectId") "")
      if id.isEmpty || projectId.isEmpty then none
      else do
        let state ← ConversationState.ofText? (textOr host (value.lookup "state") "idle")
        let sandbox ← Sandbox.ofText? (textOr host (value.lookup "sandbox") "workspace-write")
        some {
          id
          projectId
          title := textOr host (value.lookup "title") "New conversation"
          state
          createdAt := number (value.lookup "createdAt") (.float now)
          updatedAt := number (value.lookup "updatedAt") (.float now)
          provider := textOr host (value.lookup "provider") "codex"
          model := textOr host (value.lookup "model") ""
          reasoningEffort := textOr host (value.lookup "reasoningEffort") "high"
          sandbox
          pinned := (value.lookup "pinned").any host.isTrue
          archived := (value.lookup "archived").any host.isTrue
          activeRunId := textOrNone host (value.lookup "activeRunId")
          lastError := textOrNone host (value.lookup "lastError") }
  | _ => none

def interruptedRecord (now : F) (r : ConversationRecord F) : ConversationRecord F :=
  { r with state := .interrupted, activeRunId := none, updatedAt := .float now }

def IsNumber (time : Json F) : Prop := number (some time) .null = time ∧ time ≠ .null

/-- A record that its file gives back. -/
structure ConversationRecord.Storable (r : ConversationRecord F) : Prop where
  id : stripText r.id = r.id ∧ r.id ≠ ""
  projectId : stripText r.projectId = r.projectId ∧ r.projectId ≠ ""
  title : r.title ≠ ""
  createdAt : IsNumber r.createdAt
  updatedAt : IsNumber r.updatedAt
  provider : r.provider ≠ ""
  reasoningEffort : r.reasoningEffort ≠ ""
  activeRunId : r.activeRunId ≠ some ""
  lastError : r.lastError ≠ some ""

theorem isNumber_float (x : F) : IsNumber (.float x) := ⟨rfl, nofun⟩

theorem IsNumber.number_eq {time : Json F} (h : IsNumber time) (fallback : Json F) :
    number (some time) fallback = time := by
  obtain ⟨hsame, hnull⟩ := h
  cases time with
  | int n => rfl
  | float x => rfl
  | bool b => cases hsame
  | _ => exact absurd hsame.symm hnull

theorem isNumber_number (value : Option (Json F)) {fallback : Json F} (h : IsNumber fallback) :
    IsNumber (number value fallback) := by
  rw [number.eq_def]
  split
  · exact ⟨rfl, nofun⟩
  · exact ⟨rfl, nofun⟩
  · exact ⟨rfl, nofun⟩
  · exact h

variable {host}

theorem ConversationState.ofText?_text (s : ConversationState) : ofText? s.text = some s := by
  cases s <;> rfl

theorem ConversationState.text_ne_empty (s : ConversationState) : s.text ≠ "" := by
  cases s <;> decide

theorem Sandbox.ofText?_text (s : Sandbox) : ofText? s.text = some s := by
  cases s <;> rfl

theorem Sandbox.text_ne_empty (s : Sandbox) : s.text ≠ "" := by
  cases s <;> decide

theorem textOr_str {s fallback : String} (h : s ≠ "") :
    textOr host (some (.str s)) fallback = s := by
  simp [textOr, Runtime.isTrue, truthy, textOf, h]

theorem textOr_str_empty (s : String) : textOr host (some (.str s)) "" = s := by
  by_cases h : s = ""
  · subst h
    simp [textOr, Runtime.isTrue, truthy]
  · exact textOr_str h

theorem textOrNone_textOrNull {text : Option String} (h : text ≠ some "") :
    textOrNone host (some (textOrNull text)) = text := by
  cases text with
  | none => simp [textOrNone, textOrNull, textOr, Runtime.isTrue, truthy]
  | some s => simp_all [textOrNone, textOrNull, textOr_str_empty]

theorem isTrue_bool (b : Bool) : host.isTrue (.bool b) = b := rfl

theorem loadRecord_recordPayload {r : ConversationRecord F} (h : r.Storable) (now : F) :
    loadRecord host now (recordPayload r) = some r := by
  obtain ⟨⟨hid, hid'⟩, ⟨hproject, hproject'⟩, htitle, hcreated, hupdated, hprovider, heffort, hrun,
    herror⟩ := h
  have hlookup : (recordPayload r).get? "conversation" = some (.obj r.asProtocol) := rfl
  rw [loadRecord, hlookup]
  simp [ConversationRecord.asProtocol, Members.lookup_cons, textOr_str_empty, textOr_str, *,
    ConversationState.ofText?_text, ConversationState.text_ne_empty, Sandbox.ofText?_text,
    Sandbox.text_ne_empty, hcreated.number_eq, hupdated.number_eq, textOrNone_textOrNull,
    isTrue_bool]

variable (host)

/-- `ConversationStore.create`, up to the record it makes. -/
def createRecord (n : Nat) (now : F) (cwd title provider model reasoningEffort sandbox : String) :
    Except String (ConversationRecord F) :=
  if provider != "codex" then
    .error "DevPilot desktop currently supports the Codex provider only."
  else match Sandbox.ofText? sandbox with
    | none => .error "Sandbox must be read-only, workspace-write, or full-access."
    | some sandbox =>
        if (stripText model).isEmpty || (stripText reasoningEffort).isEmpty then
          .error "A Codex model and reasoning effort are required."
        else match host.folder cwd with
          | none => .error "The selected project folder is unavailable."
          | some path => .ok {
              id := conversationId host n
              projectId := host.projectId path
              title := if (stripText title).isEmpty then "New conversation" else stripText title
              state := .idle
              createdAt := .float now
              updatedAt := .float now
              provider
              model := stripText model
              reasoningEffort := stripText reasoningEffort
              sandbox }

/-- The ids that are drawn are texts without blanks, and times are numbers. -/
structure SdkHost.Regular : Prop where
  uuid : ∀ n i, ∀ c ∈ (host.uuid n i).toList, isSpace c = false
  projectId : ∀ path, host.projectId path ≠ "" ∧
    ∀ c ∈ (host.projectId path).toList, isSpace c = false
  now : ∀ n i, IsNumber (host.now n i)

/-- A record that no run has touched. -/
structure ConversationRecord.Fresh (r : ConversationRecord F) : Prop extends r.Storable where
  inactive : r.state.isActive = false
  noRun : r.activeRunId = none

variable {host}

theorem stripText_of_forall {s : String} (h : ∀ c ∈ s.toList, isSpace c = false) :
    stripText s = s := by
  rw [stripText, strip_eq_self, String.ofList_toList]
  · exact fun c hc => h c (List.mem_of_mem_head? hc)
  · exact fun c hc => h c (List.mem_of_mem_getLast? hc)

theorem isSpace_of_all {s : String} (h : s.toList.all (fun c => !isSpace c) = true) :
    ∀ c ∈ s.toList, isSpace c = false := by
  intro c hc
  simpa using List.all_eq_true.mp h c hc

theorem SdkHost.Regular.conversationId (h : host.Regular) (n : Nat) :
    stripText (conversationId host n) = conversationId host n ∧ conversationId host n ≠ "" := by
  constructor
  · apply stripText_of_forall
    intro c hc
    rw [Sdk.conversationId, String.toList_append, List.mem_append] at hc
    rcases hc with hc | hc
    · exact isSpace_of_all (by decide) c hc
    · exact h.uuid n 0 c hc
  · simp [Sdk.conversationId]

theorem SdkHost.Regular.project (h : host.Regular) (path : String) :
    stripText (host.projectId path) = host.projectId path ∧ host.projectId path ≠ "" :=
  ⟨stripText_of_forall (h.projectId path).2, (h.projectId path).1⟩

theorem orElse_ne_empty {s fallback : String} (h : fallback ≠ "") :
    (if s.isEmpty then fallback else s) ≠ "" := by
  split_ifs with hs
  · exact h
  · simpa using hs

theorem fresh_createRecord (h : host.Regular) {n : Nat} {now : F}
    {cwd title provider model reasoningEffort sandbox : String} {r : ConversationRecord F}
    (hr : createRecord host n now cwd title provider model reasoningEffort sandbox = .ok r) :
    r.Fresh := by
  rw [createRecord] at hr
  split at hr
  · cases hr
  rename_i hprovider
  split at hr
  · cases hr
  split at hr
  · cases hr
  rename_i hempty
  split at hr
  · cases hr
  obtain rfl := Except.ok.inj hr
  simp only [Bool.or_eq_true, String.isEmpty_iff, not_or] at hempty
  exact {
    id := h.conversationId n
    projectId := h.project _
    title := by
      dsimp only
      exact orElse_ne_empty (by decide)
    createdAt := isNumber_float now
    updatedAt := isNumber_float now
    provider := by
      rintro rfl
      exact hprovider (by decide)
    reasoningEffort := hempty.2
    activeRunId := nofun
    lastError := nofun
    inactive := rfl
    noRun := rfl }

theorem isActive_legacyState (status : String) : (legacyState status).isActive = false := by
  rw [legacyState.eq_def]
  split <;> rfl

theorem fresh_legacyRecord (h : host.Regular) (fallbackModel path : String) (n : Nat)
    (task : Members F) : (legacyRecord host fallbackModel path n task).Fresh := by
  dsimp only [legacyRecord]
  exact {
    id := h.conversationId n
    projectId := h.project path
    title := by
      dsimp only
      exact orElse_ne_empty (by decide)
    createdAt := isNumber_number _ (h.now n 0)
    updatedAt := isNumber_number _ (isNumber_number _ (h.now n 0))
    provider := show "codex" ≠ "" by decide
    reasoningEffort := by
      dsimp only
      exact orElse_ne_empty (by decide)
    activeRunId := nofun
    lastError := by
      dsimp only
      split_ifs <;> decide
    inactive := isActive_legacyState _
    noRun := rfl }

/-- The records of new conversations: a client makes them, or the import of old tasks does. -/
inductive NewRecord (host : SdkHost F) : ConversationRecord F → Prop
  | created {n : Nat} {now : F} {cwd title provider model reasoningEffort sandbox : String}
      {r : ConversationRecord F}
      (h : createRecord host n now cwd title provider model reasoningEffort sandbox = .ok r) :
      NewRecord host r
  | migrated (fallbackModel path : String) (n : Nat) (task : Members F) :
      NewRecord host (legacyRecord host fallbackModel path n task)

/-- No run is under way in a new conversation, whatever its task has said, and its record is
read back as it was written. -/
theorem newRecord_reloads (h : host.Regular) {r : ConversationRecord F} (hr : NewRecord host r)
    (later : F) :
    r.state.isActive = false ∧ r.activeRunId = none ∧
      loadRecord host later (recordPayload r) = some r := by
  have hfresh : r.Fresh := by
    cases hr with
    | created hr => exact fresh_createRecord h hr
    | migrated fallbackModel path n task => exact fresh_legacyRecord h fallbackModel path n task
  exact ⟨hfresh.inactive, hfresh.noRun, loadRecord_recordPayload hfresh.toStorable later⟩

def regularSdk : SdkHost FloatText where
  toRuntime := literalRuntime
  folder := some
  projectId := fun _ => "project-1"
  uuid := fun _ _ => "1"
  now := fun _ _ => .int 0

theorem regular_regularSdk : regularSdk.Regular where
  uuid := fun _ _ => isSpace_of_all (show "1".toList.all (fun c => !isSpace c) = true by decide)
  projectId := fun _ => ⟨show "project-1" ≠ "" by decide,
    isSpace_of_all (show "project-1".toList.all (fun c => !isSpace c) = true by decide)⟩
  now := fun _ _ => ⟨rfl, fun h => by cases h⟩

theorem newRecord_reloads_review :
    let r := legacyRecord regularSdk "gpt" "/work" 0
      [("status", .str "waiting_for_review"), ("title", .str " Fix it ")]
    r.state.isActive = false ∧ r.activeRunId = none ∧
      loadRecord regularSdk .nan (recordPayload r) = some r :=
  newRecord_reloads regular_regularSdk (.migrated _ _ _ _) _

end DevPilot.Sdk
