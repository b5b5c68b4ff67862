import Mathlib.Data.List.Sort
import Mathlib.Data.Rat.Floor
import DevPilot.Lib.PathText

/-!
The changes of the account feed, how a change is classified for the cursor, and
the plan that a page of changes makes.
-/

namespace DevPilot.CatchUp

inductive ChangeKind
  | account
  | automation
  | artifact
  | feed
  | friends
  | friend_request
  | friend_accepted
  | kv
  | machine
  | pet
  | session
  | share
deriving DecidableEq, Repr

def ChangeKind.options : List (String × ChangeKind) :=
  [("account", .account), ("automation", .automation), ("artifact", .artifact), ("feed", .feed),
    ("friends", .friends), ("friend_request", .friend_request), ("friend_accepted", .friend_accepted),
    ("kv", .kv), ("machine", .machine), ("pet", .pet), ("session", .session), ("share", .share)]

def knownChangeKind? (kind : String) : Option ChangeKind := ChangeKind.options.lookup kind

/-- A field of a hint that is read as a number. -/
inductive HintNumber
  | missing
  | number (value : ℚ)
  | other
deriving DecidableEq, Repr

def HintNumber.isNumber : HintNumber → Bool
  | .number _ => true
  | _ => false

/-- What the client reads of a hint that is an object: flags by `=== true`, texts
where the field is a text, the entries of arrays where the field is an array, and
there `none` for an entry that is no text. -/
structure Hint where
  sessionFolderAssignment : Bool := false
  sessionFolderAssignments : Bool := false
  folderId : Option String := none
  folderIds : Option (List (Option String)) := none
  pendingVersion : HintNumber := .missing
  pendingCount : HintNumber := .missing
  lastMessageSeq : HintNumber := .missing
  targetMessageSeq : HintNumber := .missing
  full : Bool := false
  keys : Option (List (Option String)) := none
deriving DecidableEq, Repr

/-- `ChangeEntry`; the hint is `none` where `isRecord` says no. -/
structure ChangeEntry where
  cursor : ℕ
  kind : String
  entityId : String
  hint : Option Hint := none
deriving DecidableEq, Repr

namespace ChangeEntry

variable (change : ChangeEntry)

def hasPendingHint : Bool :=
  change.hint.any fun hint => hint.pendingVersion.isNumber || hint.pendingCount.isNumber

def isSessionFolderAssignmentHint : Bool := change.hint.any (·.sessionFolderAssignment)

def isBulkSessionFolderAssignmentsHint : Bool := change.hint.any (·.sessionFolderAssignments)

end ChangeEntry

def trimText (t : String) : String := String.ofList (PathText.trim t.toList)

/-- The UTF-16 code units of a text, by which `sort` compares texts. -/
def codeUnits (t : String) : List ℕ :=
  t.toList.flatMap fun c =>
    if c.toNat < 65536 then [c.toNat]
    else [55296 + (c.toNat - 65536) / 1024, 56320 + (c.toNat - 65536) % 1024]

/-- `Array.from(ids).sort()` -/
def sortIds (ids : List String) : List String := ids.insertionSort fun a b => codeUnits a ≤ codeUnits b

@[simp] theorem mem_sortIds {id : String} {ids : List String} : id ∈ sortIds ids ↔ id ∈ ids :=
  List.mem_insertionSort _

def readHintFolderId (change : ChangeEntry) : Option String :=
  (change.hint.bind (·.folderId)).bind fun id => if trimText id = "" then none else some (trimText id)

def readHintFolderIds (change : ChangeEntry) : List String :=
  sortIds
    ((((change.hint.bind (·.folderIds)).getD []).filterMap id).filter (trimText · ≠ "") |>.map trimText).dedup

def getChangeTargetMessageSeq (change : ChangeEntry) : Option ℕ :=
  change.hint.bind fun hint =>
    -- `??` goes on to the second field only where the first is missing
    match hint.lastMessageSeq, hint.targetMessageSeq with
    | .number n, _ => if n < 0 then none else some ⌊n⌋.toNat
    | .missing, .number n => if n < 0 then none else some ⌊n⌋.toNat
    | _, _ => none

inductive SnapshotDomain
  | accountSettingsProfile
  | automations
  | artifacts
  | feed
  | friends
  | todos
  | machines
  | accountPets
  | sessionsAndSessionMessages
  | sessions
  | sessionFolderAssignments
deriving DecidableEq, Repr

inductive MaterializationProof
  | domain (snapshotDomain : SnapshotDomain)
  | pendingQueueConvergence
  | sessionOpenCatchUp
deriving DecidableEq, Repr

inductive ChangeCheckpointDecision
  | critical
  | intentionallySkippedByExplicitPolicy
  | unsupported
deriving DecidableEq, Repr

inductive ChangeCheckpointBlockedReason
  | unsupportedKind
  | partialMaterialization
  | pendingNotConverged
deriving DecidableEq, Repr

structure ChangeCheckpointClassification where
  kind : String
  cursor : ℕ
  entityId : String
  decision : ChangeCheckpointDecision
  plannerOwner : String
  snapshotDomain : Option SnapshotDomain
  materializationProof : Option MaterializationProof
  blockedReason : Option ChangeCheckpointBlockedReason := none
deriving DecidableEq, Repr

def changeCheckpointCoverage : ChangeKind → String × SnapshotDomain
  | .account => ("account", .accountSettingsProfile)
  | .automation => ("automations", .automations)
  | .artifact => ("artifacts", .artifacts)
  | .feed => ("feed", .feed)
  | .friends => ("friends", .friends)
  | .friend_request => ("friends", .friends)
  | .friend_accepted => ("friends", .friends)
  | .kv => ("kv", .todos)
  | .machine => ("machines", .machines)
  | .pet => ("pets", .accountPets)
  | .session => ("sessions", .sessionsAndSessionMessages)
  | .share => ("sessions", .sessions)

def classifyChangeForCheckpoint (change : ChangeEntry) (isSessionMessagesLoaded : String → Bool) :
    ChangeCheckpointClassification :=
  match knownChangeKind? change.kind with
  | none => {
      kind := change.kind
      cursor := change.cursor
      entityId := change.entityId
      decision := .unsupported
      plannerOwner := "unsupported"
      snapshotDomain := none
      materializationProof := none
      blockedReason := some .unsupportedKind }
  | some kind =>
    let coverage := changeCheckpointCoverage kind
    let critical : ChangeCheckpointClassification := {
      kind := change.kind
      cursor := change.cursor
      entityId := change.entityId
      decision := .critical
      plannerOwner := coverage.1
      snapshotDomain := some coverage.2
      materializationProof := some (.domain coverage.2) }
    if kind = .session ∨ kind = .share then
      if kind = .session ∧ change.isSessionFolderAssignmentHint then
        { critical with
          plannerOwner := "session-folders"
          snapshotDomain := some .sessionFolderAssignments
          materializationProof := some (.domain .sessionFolderAssignments) }
      else if change.hasPendingHint then
        { critical with materializationProof := some .pendingQueueConvergence }
      else if !isSessionMessagesLoaded change.entityId then
        { critical with
          decision := .intentionallySkippedByExplicitPolicy
          materializationProof := some .sessionOpenCatchUp }
      else critical
    else critical

/-- What the plan can invalidate; `friendRequests` and `todos` are refreshed with
`friends` and by the plan for `kv`. -/
inductive RefreshDomain
  | settings
  | profile
  | machines
  | artifacts
  | friends
  | friendRequests
  | feed
  | automations
  | pets
  | sessions
  | todos
deriving DecidableEq, Repr

inductive PlannedKvAction
  | none
  | refreshFeature
  | bulkKeys (keys : List String)
deriving DecidableEq, Repr

inductive PlannedSessionFolderAssignmentsAction
  | none
  | sessions (sessionIds folderIds : List String)
  | folders (folderIds : List String)
deriving DecidableEq, Repr

structure UnsupportedChangeMarker where
  cursor : ℕ
  kind : String
  entityId : String
deriving DecidableEq, Repr

structure PlannedChangeActions where
  changes : List ChangeEntry
  sessionIdsToCatchUp : List String
  unsupportedChanges : List UnsupportedChangeMarker
  invalidate : RefreshDomain → Bool
  kv : PlannedKvAction
  sessionFolderAssignments : PlannedSessionFolderAssignmentsAction

/-- The local variables of `planSyncActionsFromChanges`. -/
structure Planning where
  sessionIds : List String := []
  unsupportedChanges : List UnsupportedChangeMarker := []
  invalidate : RefreshDomain → Bool := fun _ => false
  assignmentSessionIds : List String := []
  assignmentFolderIds : List String := []
  assignmentFolderMode : Bool := false
  kvFull : Bool := false
  kvKeys : List String := []

namespace Planning

def invalidating (p : Planning) (domains : List RefreshDomain) : Planning :=
  { p with invalidate := fun domain => p.invalidate domain || decide (domain ∈ domains) }

/-- A `Set` of texts as the list of its entries. -/
def addNonEmpty (ids : List String) (id : String) : List String := if id = "" then ids else ids.insert id

@[simp] theorem mem_addNonEmpty {ids : List String} {id x : String} :
    x ∈ addNonEmpty ids id ↔ x ∈ ids ∨ x = id ∧ id ≠ "" := by
  unfold addNonEmpty
  split
  · simp_all
  · rw [List.mem_insert_iff]; tauto

def addChange (p : Planning) (change : ChangeEntry) : Planning :=
  match knownChangeKind? change.kind with
  | none =>
    { p with unsupportedChanges := p.unsupportedChanges ++ [⟨change.cursor, change.kind, change.entityId⟩] }
  | some kind =>
    if kind = .session ∧ change.isSessionFolderAssignmentHint then
      { p with
        assignmentSessionIds := addNonEmpty p.assignmentSessionIds change.entityId
        assignmentFolderIds := p.assignmentFolderIds ∪ (readHintFolderId change).toList }
    else if kind = .account ∧ change.isBulkSessionFolderAssignmentsHint then
      { p with
        assignmentFolderMode := true
        assignmentFolderIds := p.assignmentFolderIds ∪ readHintFolderIds change }
    else match kind with
      | .session | .share =>
        { p.invalidating [.sessions] with sessionIds := addNonEmpty p.sessionIds change.entityId }
      | .account => p.invalidating [.settings, .profile]
      | .machine => p.invalidating [.machines]
      | .artifact => p.invalidating [.artifacts]
      | .friends | .friend_request | .friend_accepted => p.invalidating [.friends]
      | .feed => p.invalidating [.feed]
      | .automation => p.invalidating [.automations]
      | .pet => p.invalidating [.pets]
      | .kv =>
        match change.hint with
        | none => { p with kvFull := true }
        | some hint =>
          if hint.full then { p with kvFull := true }
          else match hint.keys with
            | some keys => { p with kvKeys := (keys.filterMap id).foldl addNonEmpty p.kvKeys }
            | none => { p with kvFull := true }

end Planning

def planSyncActionsFromChanges (changes : List ChangeEntry) : PlannedChangeActions :=
  let p := changes.foldl Planning.addChange {}
  { changes := changes
    sessionIdsToCatchUp := sortIds p.sessionIds
    unsupportedChanges := p.unsupportedChanges
    invalidate := p.invalidate
    kv :=
      if p.kvFull then .refreshFeature
      else if p.kvKeys ≠ [] then .bulkKeys (sortIds p.kvKeys)
      else .none
    sessionFolderAssignments :=
      if p.assignmentFolderMode then .folders (sortIds p.assignmentFolderIds)
      else if p.assignmentSessionIds ≠ [] then
        .sessions (sortIds p.assignmentSessionIds) (sortIds p.assignmentFolderIds)
      else .none }

end DevPilot.CatchUp
