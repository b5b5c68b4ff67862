import DevPilot.Coordinator.IdeaTree
import DevPilot.Lib.Runs

/-!
The conversations of a project as the SDK keeps them on disk.
-/

namespace DevPilot.Sdk

open PyJson

variable {F : Type}

/-- What the SDK asks of its host: the folder that a path resolves to, the stable id of a
project, and the uuids and times that are drawn for the `n`-th conversation directory. -/
structure SdkHost (F : Type) extends Runtime F where
  folder : String → Option String
  projectId : String → String
  uuid : Nat → Nat → String
  now : Nat → Nat → Json F

inductive ConversationState
  | idle | starting | resuming | working | cancelling
  | completed | cancelled | failed | interrupted
  deriving DecidableEq

inductive Sandbox
  | readOnly | workspaceWrite | fullAccess
  deriving DecidableEq

structure ConversationRecord (F : Type) where
  id : String
  projectId : String
  title : String
  state : ConversationState
  createdAt : Json F
  updatedAt : Json F
  provider : String
  model : String
  reasoningEffort : String
  sandbox : Sandbox
  pinned : Bool := false
  archived : Bool := false
  activeRunId : Option String := none
  lastError : Option String := none

inductive Role
  | user | assistant | system
  deriving DecidableEq

inductive MessageKind
  | message | thinking
  deriving DecidableEq

structure ConversationMessage (F : Type) where
  id : String
  turnId : String
  role : Role
  text : String
  createdAt : Json F
  kind : MessageKind := .message

def number (value : Option (Json F)) (fallback : Json F) : Json F :=
  match value with
  | some (.int n) => .int n
  | some (.float x) => .float x
  | some (.bool b) => .int (if b then 1 else 0)
  | _ => fallback

/-- `str(value or fallback)`. -/
def textOr (host : SdkHost F) (value : Option (Json F)) (fallback : String) : String :=
  match value with
  | some v => if host.isTrue v then textOf host.toHost v else fallback
  | none => fallback

end DevPilot.Sdk

/-!
The import of the tasks of the old desktop as conversations, effect by effect, and what
is left of it when it fails.
-/

namespace DevPilot.Sdk

open PyJson Runs

variable {F : Type}

structure LegacyTask (F : Type) where
  id : String
  raw : Members F

structure LegacyProject (F : Type) where
  path : String
  tasks : List (LegacyTask F)

def listOf (value : Option (Json F)) : List (Json F) :=
  match value with
  | some (.arr items) => items
  | _ => []

variable (host : SdkHost F)

def legacyTask (raw : Json F) : Option (LegacyTask F) :=
  match raw with
  | .obj ms =>
      let id := stripText (textOr host (ms.lookup "id") "")
      if id.isEmpty then none else some ⟨id, ms⟩
  | _ => none

def legacyProject (raw : Json F) : Option (LegacyProject F) :=
  match raw with
  | .obj ms => match ms.lookup "path" with
    | some (.str path) => if (stripText path).isEmpty then none
        else (host.folder path).map fun folder =>
          ⟨folder, (listOf (ms.lookup "tasks")).filterMap (legacyTask host)⟩
    | _ => none
  | _ => none

def legacyProjects (workspace : Members F) : List (LegacyProject F) :=
  (listOf (workspace.lookup "projects")).filterMap (legacyProject host)

def conversationId (n : Nat) : String := "conversation-" ++ host.uuid n 0

def legacyState (status : String) : ConversationState :=
  match status with
  | "draft" => .idle
  | "completed" => .completed
  | "failed" => .failed
  | "cancelled" => .cancelled
  | _ => .interrupted

def legacyRecord (fallbackModel path : String) (n : Nat) (task : Members F) :
    ConversationRecord F :=
  let createdAt := number (task.lookup "createdAt") (host.now n 0)
  let state := legacyState (textOr host (task.lookup "status") "interrupted")
  let title := stripText (textOr host (task.lookup "title") "New conversation")
  let configuredModel := stripText (textOr host (task.lookup "model") "")
  let effort := stripText (textOr host (task.lookup "reasoningEffort") "high")
  { id := conversationId host n
    projectId := host.projectId path
    title := if title.isEmpty then "New conversation" else title
    state
    createdAt
    updatedAt := number (task.lookup "updatedAt") createdAt
    provider := "codex"
    model := if configuredModel.isEmpty || configuredModel == "default" then fallbackModel
      else configuredModel
    reasoningEffort := if effort.isEmpty then "high" else effort
    sandbox := .workspaceWrite
    lastError := if state = .interrupted then
        some "Interrupted while migrating the previous desktop runtime."
      else none }

def legacyRole (role : String) : Role :=
  match role with
  | "user" => .user
  | "assistant" => .assistant
  | _ => .system

/-- `_legacy_message`, for the `i`-th message of a task. -/
def legacyMessage (n i : Nat) (raw : Json F) : Option (ConversationMessage F) :=
  match raw with
  | .obj ms => match ms.lookup "text" with
    | some (.str text) => if (stripText text).isEmpty then none
        else some {
          id := "message-" ++ host.uuid n (i + 1)
          turnId := "legacy-" ++ conversationId host n
          role := legacyRole (textOr host (ms.lookup "role") "system")
          text := stripText text
          createdAt := number (ms.lookup "createdAt") (host.now n (i + 1))
          kind := if (ms.lookup "kind").bind Json.str? = some "thinking" then .thinking
            else .message }
    | _ => none
  | _ => none

def legacyMessages (n : Nat) (task : Members F) : List (ConversationMessage F) :=
  (listOf (task.lookup "messages")).zipIdx.filterMap fun m => legacyMessage host n m.2 m.1

/-- A conversation directory, named by its draw, and the legacy task it is made for. -/
structure Session (F : Type) where
  draw : Nat
  origin : Option String
  record : Option (ConversationRecord F)
  transcript : List (ConversationMessage F)

structure ProjectFolder (F : Type) where
  sessions : List (Session F)
  /-- `workspace-v1.json`, and its object unless that cannot be read. -/
  marker : Option (Option (Members F))

/-- The folders by path. A directory is named by a uuid that was not drawn before. -/
structure Disk (F : Type) where
  folder : String → ProjectFolder F
  drawn : Nat
  fresh : ∀ path, ∀ s ∈ (folder path).sessions, s.draw < drawn

inductive ImportEffect (F : Type)
  /-- `ProjectRegistry.open`, which leaves conversations alone. -/
  | openProject (path : String)
  | makeDirectory (path taskId : String)
  | writeRecord (path : String) (n : Nat) (record : ConversationRecord F)
  | appendMessage (path : String) (n : Nat) (message : ConversationMessage F)
  | writeMarker (path : String) (taskMap : Members F)

namespace Disk

def makeDirectory (d : Disk F) (path taskId : String) : Disk F where
  folder := Function.update d.folder path { d.folder path with
    sessions := (d.folder path).sessions ++ [⟨d.drawn, some taskId, none, []⟩] }
  drawn := d.drawn + 1
  fresh := by
    intro path' s hs
    rw [Function.update_apply] at hs
    split_ifs at hs with hpath
    · rcases List.mem_append.mp hs with hs | hs
      · exact (d.fresh path s hs).trans (Nat.lt_succ_self _)
      · rw [List.mem_singleton.mp hs]
        exact Nat.lt_succ_self _
    · exact (d.fresh path' s hs).trans (Nat.lt_succ_self _)

/-- The directory of the `n`-th draw is given new contents. -/
def fill (d : Disk F) (path : String) (n : Nat) (record : Session F → Option (ConversationRecord F))
    (transcript : Session F → List (ConversationMessage F)) : Disk F where
  folder := Function.update d.folder path { d.folder path with
    sessions := (d.folder path).sessions.map fun s =>
      if s.draw = n then { s with record := record s, transcript := transcript s } else s }
  drawn := d.drawn
  fresh := by
    intro path' s hs
    rw [Function.update_apply] at hs
    split_ifs at hs with hpath
    · obtain ⟨s', hs', rfl⟩ := List.mem_map.mp hs
      split_ifs <;> exact d.fresh path s' hs'
    · exact d.fresh path' s hs

def writeMarker (d : Disk F) (path : String) (taskMap : Members F) : Disk F where
  folder := Function.update d.folder path { d.folder path with
    marker := some (some [("schemaVersion", .int 1), ("source", .str "devpilot-workspace.json"),
      ("taskMap", .obj taskMap), ("migratedAt", host.now d.drawn 0)]) }
  drawn := d.drawn
  fresh := by
    intro path' s hs
    rw [Function.update_apply] at hs
    split_ifs at hs with hpath
    · exact d.fresh path s hs
    · exact d.fresh path' s hs

def apply (d : Disk F) : ImportEffect F → Disk F
  | .openProject _ => d
  | .makeDirectory path taskId => d.makeDirectory path taskId
  | .writeRecord path n record => d.fill path n (fun _ => some record) (·.transcript)
  | .appendMessage path n message => d.fill path n (·.record) (·.transcript ++ [message])
  | .writeMarker path taskMap => d.writeMarker host path taskMap

def applyAll (d : Disk F) (effects : List (ImportEffect F)) : Disk F := effects.foldl (apply host) d

def taskMap (d : Disk F) (path : String) : Members F :=
  match (d.folder path).marker with
  | some (some ms) => match ms.lookup "taskMap" with
    | some (.obj taskMap) => taskMap
    | _ => []
  | _ => []

end Disk

def isMapped (taskMap : Members F) (taskId : String) : Bool :=
  ((taskMap.lookup taskId).bind Json.str?).any (!·.isEmpty)

variable (fallbackModel : String)

def taskEffects (path : String) (n : Nat) (task : LegacyTask F) : List (ImportEffect F) :=
  .makeDirectory path task.id ::
    .writeRecord path n (legacyRecord host fallbackModel path n task.raw) ::
    (legacyMessages host n task.raw).map (.appendMessage path n)

/-- The effects of the tasks that are not mapped yet, and the map they leave. -/
def tasksEffects (path : String) :
    Members F → Nat → List (LegacyTask F) → List (ImportEffect F) × Members F
  | taskMap, _, [] => ([], taskMap)
  | taskMap, n, task :: tasks =>
      if isMapped taskMap task.id then tasksEffects path taskMap n tasks
      else
        let r := tasksEffects path
          (Members.insert task.id (.str (conversationId host n)) taskMap) (n + 1) tasks
        (taskEffects host fallbackModel path n task ++ r.1, r.2)

def projectEffects (d : Disk F) (project : LegacyProject F) : List (ImportEffect F) :=
  let r := tasksEffects host fallbackModel project.path (d.taskMap project.path) d.drawn
    project.tasks
  .openProject project.path :: r.1 ++
    if !r.1.isEmpty || (d.folder project.path).marker.isNone then
      [.writeMarker project.path r.2]
    else []

def importEffects : Disk F → List (LegacyProject F) → List (ImportEffect F)
  | _, [] => []
  | d, project :: projects =>
      let effects := projectEffects host fallbackModel d project
      effects ++ importEffects (d.applyAll host effects) projects

/-- An attempt that fails behind its `k`-th effect. -/
def attempt (projects : List (LegacyProject F)) (d : Disk F) (k : Nat) : Disk F :=
  d.applyAll host ((importEffects host fallbackModel d projects).take k)

def succeed (projects : List (LegacyProject F)) (d : Disk F) : Disk F :=
  d.applyAll host (importEffects host fallbackModel d projects)

def settling (settled : Bool) : ImportEffect F → Bool
  | .makeDirectory _ _ => false
  | .writeMarker _ _ => true
  | _ => settled

/-- No directory has been made since the last marker. -/
def settled (effects : List (ImportEffect F)) : Bool := effects.foldl settling true

def firstTask (projects : List (LegacyProject F)) (path taskId : String) : Option (LegacyTask F) :=
  (projects.filter (·.path = path)).findSome? fun project => project.tasks.find? (·.id = taskId)

def Disk.stemming (d : Disk F) (path taskId : String) : List (Session F) :=
  (d.folder path).sessions.filter (·.origin = some taskId)

def legacySession (path : String) (n : Nat) (task : LegacyTask F) : Session F where
  draw := n
  origin := some task.id
  record := some (legacyRecord host fallbackModel path n task.raw)
  transcript := legacyMessages host n task.raw

/-- There is exactly one conversation for each task, and it holds what the task held. -/
def Imported (projects : List (LegacyProject F)) (d : Disk F) : Prop :=
  ∀ path taskId, match firstTask projects path taskId with
    | some task => ∃ n, d.stemming path taskId = [legacySession host fallbackModel path n task]
    | none => d.stemming path taskId = []

def Disk.Unmigrated (d : Disk F) : Prop :=
  ∀ path taskId, isMapped (d.taskMap path) taskId = false ∧ d.stemming path taskId = []

namespace Disk

variable {host fallbackModel} {d : Disk F} {path : String} {n : Nat}

@[simp] theorem applyAll_nil (d : Disk F) : d.applyAll host [] = d := rfl

@[simp] theorem applyAll_cons (d : Disk F) (e : ImportEffect F) (es : List (ImportEffect F)) :
    d.applyAll host (e :: es) = (d.apply host e).applyAll host es := rfl

theorem applyAll_append (d : Disk F) (es es' : List (ImportEffect F)) :
    d.applyAll host (es ++ es') = (d.applyAll host es).applyAll host es' := List.foldl_append

theorem folder_appendMessages (host : SdkHost F) (d : Disk F) (path : String) (n : Nat)
    (messages : List (ConversationMessage F)) :
    (d.applyAll host (messages.map (.appendMessage path n))).folder =
      (d.fill path n (·.record) (·.transcript ++ messages)).folder ∧
    (d.applyAll host (messages.map (.appendMessage path n))).drawn = d.drawn := by
  induction messages generalizing d with
  | nil =>
      refine ⟨?_, rfl⟩
      funext path'
      simp only [List.map_nil, applyAll_nil, fill, List.append_nil, Function.update_apply]
      split_ifs with hpath
      · simp [hpath]
      · rfl
  | cons message messages ih =>
      obtain ⟨hfolder, hdrawn⟩ := ih (d.fill path n (·.record) (·.transcript ++ [message]))
      rw [List.map_cons, applyAll_cons, apply]
      refine ⟨hfolder.trans ?_, hdrawn⟩
      funext path'
      simp only [fill, Function.update_apply]
      split_ifs
      · dsimp only
        rw [List.map_map]
        congr 1
        apply List.map_congr_left
        intro s _
        simp only [Function.comp_apply]
        split_ifs <;> simp
      · rfl

theorem folder_taskEffects (host : SdkHost F) (fallbackModel : String) (d : Disk F)
    (path : String) (task : LegacyTask F) :
    (d.applyAll host (taskEffects host fallbackModel path d.drawn task)).folder =
      Function.update d.folder path { d.folder path with
        sessions := (d.folder path).sessions ++
          [legacySession host fallbackModel path d.drawn task] } ∧
    (d.applyAll host (taskEffects host fallbackModel path d.drawn task)).drawn = d.drawn + 1 := by
  rw [taskEffects, applyAll_cons, applyAll_cons]
  obtain ⟨hfolder, hdrawn⟩ := folder_appendMessages host
    (((d.apply host (.makeDirectory path task.id)).apply host (.writeRecord path d.drawn
      (legacyRecord host fallbackModel path d.drawn task.raw)))) path d.drawn
    (legacyMessages host d.drawn task.raw)
  refine ⟨hfolder.trans ?_, hdrawn⟩
  funext path'
  simp only [apply, fill, makeDirectory, Function.update_apply]
  split_ifs
  · dsimp only
    rw [List.map_map, List.map_append]
    congr 2
    · nth_rewrite 2 [← List.map_id (d.folder path).sessions]
      apply List.map_congr_left
      intro s hs
      have hne : s.draw ≠ d.drawn := (d.fresh path s hs).ne
      simp [hne]
    · simp [legacySession]
  · rfl

end Disk

end DevPilot.Sdk
