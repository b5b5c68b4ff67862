import DevPilot.CatchUp.Applier

/-!
Which changes the cursor may pass: what brings the effect of a change in, and
when a page is passed only as far as that was done.
-/

namespace DevPilot.CatchUp

namespace ChangeEntry

variable (change : ChangeEntry)

def ofSession : Bool :=
  knownChangeKind? change.kind = some .session || knownChangeKind? change.kind = some .share

def assignsFolder : Bool :=
  knownChangeKind? change.kind = some .session && change.isSessionFolderAssignmentHint

def assignsFolders : Bool :=
  knownChangeKind? change.kind = some .account && change.isBulkSessionFolderAssignmentsHint

def listsSession : Bool := change.ofSession && !change.assignsFolder

/-- The keys a change of the key-value store names; none where all of them count. -/
def kvKeys : Option (List String) :=
  match change.hint with
  | none => none
  | some hint => if hint.full then none else hint.keys.map fun keys => (keys.filterMap id).filter (· ≠ "")

def isKv : Bool := knownChangeKind? change.kind = some .kv

def domains : List RefreshDomain :=
  match knownChangeKind? change.kind with
  | some .account => if change.assignsFolders then [] else [.settings, .profile]
  | some .automation => [.automations]
  | some .artifact => [.artifacts]
  | some .feed => [.feed]
  | some .friends | some .friend_request | some .friend_accepted => [.friends, .friendRequests]
  | some .machine => [.machines]
  | some .pet => [.pets]
  | _ => []

end ChangeEntry

def Task.succeeds (host : Host) (planned : PlannedChangeActions) : Task → Bool
  | .refresh domain => host.refreshes domain
  | .sessions => host.refreshes .sessions
  | .folderAssignments => host.refreshSessionFolderAssignments = some true
  | .messages sessionId =>
    -- it waits for the session list
    (!planned.invalidate .sessions || host.refreshes .sessions) && host.invalidateMessagesForSession sessionId
  | .pending sessionId => host.convergePendingForSession.any (· sessionId)
  | .kv keys => kvResolves host keys

def Task.Completed (host : Host) (planned : PlannedChangeActions) (task : Task) : Prop :=
  task ∈ plannedTasks host planned ∧ task.succeeds host planned

/-- The app answers a plan for folders with the assignments of every session it has,
and a plan for sessions with those of these sessions. -/
def PlannedSessionFolderAssignmentsAction.covers (sessionId : String) :
    PlannedSessionFolderAssignmentsAction → Prop
  | .none => False
  | .sessions sessionIds _ => sessionId ∈ sessionIds
  | .folders _ => True

def PlannedSessionFolderAssignmentsAction.coversAll : PlannedSessionFolderAssignmentsAction → Prop
  | .folders _ => True
  | _ => False

def PlannedKvAction.covers (keys : Option (List String)) : PlannedKvAction → Prop
  | .none => False
  | .refreshFeature => True
  | .bulkKeys planned => ∃ named, keys = some named ∧ ∀ key ∈ named, key ∈ planned

def Materialized (host : Host) (change : ChangeEntry) : Prop :=
  ∀ targetSeq, getChangeTargetMessageSeq change = some targetSeq →
    ∃ materialized, host.getSessionMaterializedMaxSeq = some materialized ∧
      targetSeq ≤ materialized change.entityId

def MessagesBroughtIn (host : Host) (planned : PlannedChangeActions) (change : ChangeEntry) : Prop :=
  (Task.messages change.entityId).Completed host planned ∧ Materialized host change

/-- The planned action that owns the change is done, or the change is one of a session
whose messages are not loaded. -/
def Covered (host : Host) (planned : PlannedChangeActions) (change : ChangeEntry) : Prop :=
  if change.assignsFolder then
    planned.sessionFolderAssignments.covers change.entityId ∧ Task.folderAssignments.Completed host planned
  else if change.assignsFolders then
    planned.sessionFolderAssignments.coversAll ∧ Task.folderAssignments.Completed host planned
  else if change.ofSession then
    if change.hasPendingHint then (Task.pending change.entityId).Completed host planned
    else MessagesBroughtIn host planned change ∨ !host.loadedAfter change.entityId
  else if change.isKv then
    planned.kv.covers change.kvKeys ∧ ∀ task ∈ kvTasks planned.kv, task.Completed host planned
  else change.domains ≠ [] ∧ ∀ domain ∈ change.domains, (Task.refresh domain).Completed host planned

/-- Besides, whatever else the hint of a session announces is done: its pending queue and
its messages. -/
def CoveredWhole (host : Host) (planned : PlannedChangeActions) (change : ChangeEntry) : Prop :=
  Covered host planned change ∧
    (change.ofSession → change.hasPendingHint → (Task.pending change.entityId).Completed host planned) ∧
    (change.ofSession → (getChangeTargetMessageSeq change).isSome →
      MessagesBroughtIn host planned change ∨ !host.loadedAfter change.entityId)

/-- The reported cursor is that of the last change passed, and each change passed was
brought in. -/
def CursorSafe (broughtIn : ChangeEntry → Prop) (changes : List ChangeEntry)
    (result : PlannedChangesApplyResult) : Prop :=
  result.safeAdvanceCursor = (changes.take result.processedChanges).getLast?.map (·.cursor) ∧
    ∀ change ∈ changes.take result.processedChanges, broughtIn change

section Conditions

variable (host : Host) (changes : List ChangeEntry)

def SessionListFails : Prop := (∃ d ∈ changes, d.listsSession) ∧ host.refreshes .sessions = false

def FolderAssignmentsFail : Prop :=
  (∃ d ∈ changes, d.assignsFolders ∨ d.assignsFolder ∧ d.entityId ≠ "") ∧
    host.refreshSessionFolderAssignments ≠ some true

def PendingConverges (sessionId : String) : Prop :=
  (∃ d ∈ changes, d.listsSession ∧ d.hasPendingHint ∧ d.entityId = sessionId) ∧
    host.convergePendingForSession.any (· sessionId)

def CatchesUp (change : ChangeEntry) : Prop :=
  change.entityId ≠ "" ∧ (∃ d ∈ changes, d.listsSession ∧ d.entityId = change.entityId) ∧
    host.loadedBefore change.entityId ∧ host.refreshes .sessions ∧
    host.invalidateMessagesForSession change.entityId ∧ Materialized host change

def Waits (change : ChangeEntry) : Prop :=
  knownChangeKind? change.kind = none ∨
    change.ofSession ∧
      if change.assignsFolder then SessionListFails host changes ∨ FolderAssignmentsFail host changes
      else if change.hasPendingHint then
        SessionListFails host changes ∨ ¬ PendingConverges host changes change.entityId
      else host.loadedAfter change.entityId ∧ ¬ CatchesUp host changes change

/-- The cursor does not wait at this change for what it needs. -/
inductive Lost (change : ChangeEntry) : Prop
  | folderAssignmentsFail (h : change.assignsFolders)
      (hrefresh : host.refreshSessionFolderAssignments ≠ some true)
  | noSession (h : change.assignsFolder) (hid : change.entityId = "")
      (hpage : ∀ d ∈ changes, d.assignsFolders = false)
  | noKeys (h : change.isKv) (hpage : ∀ d ∈ changes, d.isKv → d.kvKeys = some [])

/-- A second hint of the change is not waited for. -/
inductive LostHint (change : ChangeEntry) : Prop
  | pending (h : change.assignsFolder) (hhint : change.hasPendingHint)
      (hconverge : ¬ PendingConverges host changes change.entityId)
  | messages (h : change.ofSession) (howner : change.assignsFolder ∨ change.hasPendingHint)
      (htarget : (getChangeTargetMessageSeq change).isSome) (hloaded : host.loadedAfter change.entityId)
      (hcatchUp : ¬ CatchesUp host changes change)

/-- Every such change stands behind one that the cursor waits at, or is one. -/
def NonePassed (lost : ChangeEntry → Prop) : Prop :=
  ∀ before change after, changes = before ++ change :: after → lost change →
    ∃ d ∈ before ++ [change], Waits host changes d

end Conditions

namespace Planning

theorem foldl_iff {holds : Planning → Prop} {adds : ChangeEntry → Prop}
    (hstep : ∀ p change, holds (addChange p change) ↔ holds p ∨ adds change) (changes : List ChangeEntry)
    (p : Planning) : holds (changes.foldl addChange p) ↔ holds p ∨ ∃ change ∈ changes, adds change := by
  induction changes generalizing p with
  | nil => simp
  | cons change changes ih => rw [List.foldl_cons, ih, hstep]; simp [or_assoc]

theorem mem_foldl_addNonEmpty {ids named : List String} {x : String} :
    x ∈ named.foldl addNonEmpty ids ↔ x ∈ ids ∨ x ∈ named ∧ x ≠ "" := by
  induction named generalizing ids with
  | nil => simp
  | cons name named ih => rw [List.foldl_cons, ih, mem_addNonEmpty]; grind

variable (p : Planning) (change : ChangeEntry)

theorem invalidate_addChange (domain : RefreshDomain) :
    (p.addChange change).invalidate domain ↔
      p.invalidate domain ∨
        (domain ∈ change.domains ∧ domain ≠ .friendRequests ∨ domain = .sessions ∧ change.listsSession) := by
  unfold addChange ChangeEntry.domains ChangeEntry.listsSession ChangeEntry.ofSession
    ChangeEntry.assignsFolder ChangeEntry.assignsFolders
  cases hkind : knownChangeKind? change.kind with
  | none => simp
  | some kind => cases kind <;> cases domain <;> simp <;> grind [invalidating]

theorem mem_sessionIds_addChange (id : String) :
    id ∈ (p.addChange change).sessionIds ↔
      id ∈ p.sessionIds ∨ change.listsSession ∧ change.entityId = id ∧ id ≠ "" := by
  unfold addChange ChangeEntry.listsSession ChangeEntry.ofSession ChangeEntry.assignsFolder
  cases hkind : knownChangeKind? change.kind with
  | none => simp
  | some kind => cases kind <;> simp <;> grind [invalidating, mem_addNonEmpty]

theorem mem_assignmentSessionIds_addChange (id : String) :
    id ∈ (p.addChange change).assignmentSessionIds ↔
      id ∈ p.assignmentSessionIds ∨ change.assignsFolder ∧ change.entityId = id ∧ id ≠ "" := by
  unfold addChange ChangeEntry.assignsFolder
  cases hkind : knownChangeKind? change.kind with
  | none => simp
  | some kind => cases kind <;> simp <;> grind [invalidating, mem_addNonEmpty]

theorem assignmentFolderMode_addChange :
    (p.addChange change).assignmentFolderMode ↔ p.assignmentFolderMode ∨ change.assignsFolders := by
  unfold addChange ChangeEntry.assignsFolders
  cases hkind : knownChangeKind? change.kind with
  | none => simp
  | some kind => cases kind <;> simp <;> grind [invalidating]

theorem kvFull_addChange :
    (p.addChange change).kvFull ↔ p.kvFull ∨ change.isKv ∧ change.kvKeys = none := by
  unfold addChange ChangeEntry.isKv ChangeEntry.kvKeys
  cases hkind : knownChangeKind? change.kind with
  | none => simp
  | some kind => cases kind <;> simp <;> grind [invalidating]

theorem mem_kvKeys_addChange (key : String) :
    key ∈ (p.addChange change).kvKeys ↔
      key ∈ p.kvKeys ∨ change.isKv ∧ ∃ named, change.kvKeys = some named ∧ key ∈ named := by
  unfold addChange ChangeEntry.isKv ChangeEntry.kvKeys
  cases hkind : knownChangeKind? change.kind with
  | none => simp
  | some kind => cases kind <;> simp <;> grind [invalidating, mem_foldl_addNonEmpty]

end Planning

open Planning

section Plan

variable (changes : List ChangeEntry)

@[simp] theorem planned_changes : (planSyncActionsFromChanges changes).changes = changes := rfl

theorem invalidate_planned (domain : RefreshDomain) :
    (planSyncActionsFromChanges changes).invalidate domain ↔
      ∃ d ∈ changes, domain ∈ d.domains ∧ domain ≠ .friendRequests ∨ domain = .sessions ∧ d.listsSession := by
  have h := @foldl_iff (fun p => p.invalidate domain) _
    (fun p change => invalidate_addChange p change domain) changes {}
  simpa [planSyncActionsFromChanges] using h

theorem mem_sessionIdsToCatchUp (id : String) :
    id ∈ (planSyncActionsFromChanges changes).sessionIdsToCatchUp ↔
      id ≠ "" ∧ ∃ d ∈ changes, d.listsSession ∧ d.entityId = id := by
  have h := @foldl_iff (fun p => id ∈ p.sessionIds) _
    (fun p change => mem_sessionIds_addChange p change id) changes {}
  rw [planSyncActionsFromChanges, mem_sortIds, h]
  simp only [List.not_mem_nil, false_or]
  constructor
  · rintro ⟨d, hd, hlists, hid, hne⟩
    exact ⟨hne, d, hd, hlists, hid⟩
  · rintro ⟨hne, d, hd, hlists, hid⟩
    exact ⟨d, hd, hlists, hid, hne⟩

theorem foldl_assignmentFolderMode :
    (changes.foldl addChange {}).assignmentFolderMode ↔ ∃ d ∈ changes, d.assignsFolders := by
  have h := @foldl_iff (fun p => p.assignmentFolderMode) _ assignmentFolderMode_addChange changes {}
  simpa using h

theorem mem_foldl_assignmentSessionIds (id : String) :
    id ∈ (changes.foldl addChange {}).assignmentSessionIds ↔
      ∃ d ∈ changes, d.assignsFolder ∧ d.entityId = id ∧ id ≠ "" := by
  have h := @foldl_iff (fun p => id ∈ p.assignmentSessionIds) _
    (fun p change => mem_assignmentSessionIds_addChange p change id) changes {}
  simpa using h

theorem sessionFolderAssignments_ne_none :
    (planSyncActionsFromChanges changes).sessionFolderAssignments ≠ .none ↔
      ∃ d ∈ changes, d.assignsFolders ∨ d.assignsFolder ∧ d.entityId ≠ "" := by
  have hmode := foldl_assignmentFolderMode changes
  have hids := mem_foldl_assignmentSessionIds changes
  have hne : (changes.foldl addChange {}).assignmentSessionIds ≠ [] ↔
      ∃ d ∈ changes, d.assignsFolder ∧ d.entityId ≠ "" := by
    rw [Ne, List.eq_nil_iff_forall_not_mem, not_forall_not]
    constructor
    · rintro ⟨id, hid⟩
      obtain ⟨d, hd, hassigns, rfl, hne⟩ := (hids id).mp hid
      exact ⟨d, hd, hassigns, hne⟩
    · rintro ⟨d, hd, hassigns, hne⟩
      exact ⟨d.entityId, (hids _).mpr ⟨d, hd, hassigns, rfl, hne⟩⟩
  simp only [planSyncActionsFromChanges]
  split
  · next h =>
    obtain ⟨d, hd, hfolders⟩ := hmode.mp h
    simpa using ⟨d, hd, Or.inl hfolders⟩
  · next h =>
    have hnone : ∀ d ∈ changes, ¬ d.assignsFolders := fun d hd hfolders => h (hmode.mpr ⟨d, hd, hfolders⟩)
    have hdrop : (∃ d ∈ changes, d.assignsFolders ∨ d.assignsFolder ∧ d.entityId ≠ "") ↔
        ∃ d ∈ changes, d.assignsFolder ∧ d.entityId ≠ "" :=
      exists_congr fun d => and_congr_right fun hd => or_iff_right (hnone d hd)
    rw [hdrop, ← hne]
    split <;> simp_all

theorem coversAll_planned :
    (planSyncActionsFromChanges changes).sessionFolderAssignments.coversAll ↔
      ∃ d ∈ changes, d.assignsFolders := by
  rw [← foldl_assignmentFolderMode]
  simp only [planSyncActionsFromChanges]
  split
  · next h => simpa [PlannedSessionFolderAssignmentsAction.coversAll] using h
  · next h => split <;> simpa [PlannedSessionFolderAssignmentsAction.coversAll] using h

theorem covers_planned (id : String) :
    (planSyncActionsFromChanges changes).sessionFolderAssignments.covers id ↔
      (∃ d ∈ changes, d.assignsFolders) ∨ ∃ d ∈ changes, d.assignsFolder ∧ d.entityId = id ∧ id ≠ "" := by
  rw [← foldl_assignmentFolderMode, ← mem_foldl_assignmentSessionIds]
  simp only [planSyncActionsFromChanges]
  split
  · next h => simp [PlannedSessionFolderAssignmentsAction.covers, h]
  · next h =>
    split
    · simp [PlannedSessionFolderAssignmentsAction.covers, h]
    · next hnil => simp_all [PlannedSessionFolderAssignmentsAction.covers]

theorem foldl_kvFull :
    (changes.foldl addChange {}).kvFull ↔ ∃ d ∈ changes, d.isKv ∧ d.kvKeys = none := by
  have h := @foldl_iff (fun p => p.kvFull) _ kvFull_addChange changes {}
  simpa using h

theorem mem_foldl_kvKeys (key : String) :
    key ∈ (changes.foldl addChange {}).kvKeys ↔
      ∃ d ∈ changes, d.isKv ∧ ∃ named, d.kvKeys = some named ∧ key ∈ named := by
  have h := @foldl_iff (fun p => key ∈ p.kvKeys) _
    (fun p change => mem_kvKeys_addChange p change key) changes {}
  simpa using h

theorem kv_covers_planned {change : ChangeEntry} (hmem : change ∈ changes) (hkv : change.isKv) :
    (planSyncActionsFromChanges changes).kv.covers change.kvKeys ↔
      ¬ ∀ d ∈ changes, d.isKv → d.kvKeys = some [] := by
  have hfull := foldl_kvFull changes
  have hkeys := mem_foldl_kvKeys changes
  simp only [planSyncActionsFromChanges]
  split
  · next h =>
    obtain ⟨d, hd, hdkv, hnone⟩ := hfull.mp h
    simp only [PlannedKvAction.covers, true_iff]
    intro hall
    rw [hall d hd hdkv] at hnone
    cases hnone
  · next h =>
    have hsome : ∀ d ∈ changes, d.isKv → ∃ named, d.kvKeys = some named := fun d hd hdkv =>
      Option.ne_none_iff_exists'.mp fun hnone => h (hfull.mpr ⟨d, hd, hdkv, hnone⟩)
    split
    · next hne =>
      obtain ⟨named, hnamed⟩ := hsome change hmem hkv
      have hcovers : ∀ key ∈ named, key ∈ sortIds (changes.foldl addChange {}).kvKeys := fun key hkey =>
        mem_sortIds.mpr ((hkeys key).mpr ⟨change, hmem, hkv, named, hnamed, hkey⟩)
      obtain ⟨key, hkey⟩ := List.exists_mem_of_ne_nil _ hne
      obtain ⟨d, hd, hdkv, names, hnames, hmemNames⟩ := (hkeys key).mp hkey
      simp only [PlannedKvAction.covers, hnamed, Option.some.injEq, exists_eq_left']
      refine iff_of_true hcovers fun hall => ?_
      rw [hall d hd hdkv] at hnames
      cases hnames
      cases hmemNames
    · next hnil =>
      simp only [PlannedKvAction.covers, false_iff, not_not]
      intro d hd hdkv
      obtain ⟨named, hnamed⟩ := hsome d hd hdkv
      rw [hnamed, Option.some.injEq, List.eq_nil_iff_forall_not_mem]
      intro key hkey
      have hmemKeys := (hkeys key).mpr ⟨d, hd, hdkv, named, hnamed, hkey⟩
      rw [not_not.mp hnil] at hmemKeys
      cases hmemKeys

end Plan

structure Ran (host : Host) (tasks : List Task) (log log' : TaskLog) : Prop where
  resolved : ∀ task ∈ tasks, (∀ domain, task = .refresh domain → host.refreshes domain) ∧
    ∀ keys, task = .kv keys → kvResolves host keys
  sessionsInvalidationFailed : log'.sessionsInvalidationFailed ↔
    log.sessionsInvalidationFailed ∨ Task.sessions ∈ tasks ∧ host.refreshes .sessions = false
  folderAssignmentsFailed : log'.sessionFolderAssignmentsRefreshFailed ↔
    log.sessionFolderAssignmentsRefreshFailed ∨
      Task.folderAssignments ∈ tasks ∧ host.refreshSessionFolderAssignments ≠ some true
  completedPending : ∀ id, id ∈ log'.completedPendingSessionIds ↔
    id ∈ log.completedPendingSessionIds ∨ Task.pending id ∈ tasks ∧ host.convergePendingForSession.any (· id)
  failedPending : ∀ id, id ∈ log'.failedPendingSessionIds ↔
    id ∈ log.failedPendingSessionIds ∨
      Task.pending id ∈ tasks ∧ host.convergePendingForSession.any (· id) = false

structure RanMessages (host : Host) (tasks : List Task) (log log' : TaskLog) : Prop where
  completed : ∀ id, id ∈ log'.completedMessageCatchUpSessionIds ↔
    id ∈ log.completedMessageCatchUpSessionIds ∨
      Task.messages id ∈ tasks ∧ log.sessionsInvalidationFailed = false ∧ host.invalidateMessagesForSession id
  failed : ∀ id, id ∈ log'.failedMessageCatchUpSessionIds ↔
    id ∈ log.failedMessageCatchUpSessionIds ∨
      Task.messages id ∈ tasks ∧
        (log.sessionsInvalidationFailed = false → host.invalidateMessagesForSession id = false)

theorem ran_of_runTasks {host : Host} {tasks : List Task} {log log' : TaskLog}
    (h : runTasks host tasks log = some log') : Ran host tasks log log' := by
  induction tasks generalizing log with
  | nil =>
      cases h
      constructor <;> simp
  | cons task tasks ih =>
      obtain ⟨mid, hmid, hrest⟩ := Option.bind_eq_some_iff.mp h
      obtain ⟨hresolved, hlist, hfolders, hdone, hfailed⟩ := ih hrest
      cases task <;> simp only [runTask] at hmid <;> split at hmid <;> cases hmid <;>
        constructor <;> grind

theorem ranMessages_of_runTasks {host : Host} {tasks : List Task} {log log' : TaskLog}
    (hsessions : Task.sessions ∉ tasks ∨ ∀ id, Task.messages id ∉ tasks)
    (h : runTasks host tasks log = some log') : RanMessages host tasks log log' := by
  induction tasks generalizing log with
  | nil =>
      cases h
      constructor <;> simp
  | cons task tasks ih =>
      obtain ⟨mid, hmid, hrest⟩ := Option.bind_eq_some_iff.mp h
      have hsessions' : Task.sessions ∉ tasks ∨ ∀ id, Task.messages id ∉ tasks :=
        hsessions.imp (fun hno hmem => hno (List.mem_cons_of_mem _ hmem))
          fun hno id hmem => hno id (List.mem_cons_of_mem _ hmem)
      obtain ⟨hdone, hfailed⟩ := ih hsessions' hrest
      cases task <;> simp only [runTask] at hmid <;> split at hmid <;> cases hmid <;>
        constructor <;> grind

section Tasks

variable (host : Host) (changes : List ChangeEntry)

theorem proof_eq_pending_iff (change : ChangeEntry) (loaded : String → Bool) :
    (classifyChangeForCheckpoint change loaded).materializationProof = some .pendingQueueConvergence ↔
      change.listsSession ∧ change.hasPendingHint := by
  unfold classifyChangeForCheckpoint ChangeEntry.listsSession ChangeEntry.ofSession ChangeEntry.assignsFolder
  cases hkind : knownChangeKind? change.kind with
  | none => simp
  | some kind => cases kind <;> simp <;> grind

@[simp] theorem classify_entityId (change : ChangeEntry) (loaded : String → Bool) :
    (classifyChangeForCheckpoint change loaded).entityId = change.entityId := by
  unfold classifyChangeForCheckpoint
  grind

theorem mem_pendingSessionIds (id : String) :
    id ∈ pendingSessionIds host changes ↔
      ∃ d ∈ changes, d.listsSession ∧ d.hasPendingHint ∧ d.entityId = id := by
  simp only [pendingSessionIds, List.mem_dedup, List.mem_map, List.mem_filter, decide_eq_true_eq]
  constructor
  · rintro ⟨_, ⟨⟨d, hd, rfl⟩, hproof⟩, rfl⟩
    obtain ⟨hlists, hhint⟩ := (proof_eq_pending_iff d host.loadedBefore).mp hproof
    exact ⟨d, hd, hlists, hhint, (classify_entityId d host.loadedBefore).symm⟩
  · rintro ⟨d, hd, hlists, hhint, rfl⟩
    exact ⟨_, ⟨⟨d, hd, rfl⟩, (proof_eq_pending_iff d host.loadedBefore).mpr ⟨hlists, hhint⟩⟩, classify_entityId ..⟩

theorem messages_mem_tasks (id : String) :
    Task.messages id ∈ plannedTasks host (planSyncActionsFromChanges changes) ↔
      (id ≠ "" ∧ ∃ d ∈ changes, d.listsSession ∧ d.entityId = id) ∧ host.loadedBefore id := by
  rw [← mem_sessionIdsToCatchUp]
  cases hkv : (planSyncActionsFromChanges changes).kv <;>
    simp [plannedTasks, invalidationTasks, catchUpTasks, domainTasks, kvTasks, hkv]

theorem pending_mem_tasks (id : String) :
    Task.pending id ∈ plannedTasks host (planSyncActionsFromChanges changes) ↔
      ∃ d ∈ changes, d.listsSession ∧ d.hasPendingHint ∧ d.entityId = id := by
  rw [← mem_pendingSessionIds host]
  cases hkv : (planSyncActionsFromChanges changes).kv <;>
    simp [plannedTasks, invalidationTasks, catchUpTasks, domainTasks, kvTasks, hkv]

theorem folderAssignments_mem_tasks :
    Task.folderAssignments ∈ plannedTasks host (planSyncActionsFromChanges changes) ↔
      ∃ d ∈ changes, d.assignsFolders ∨ d.assignsFolder ∧ d.entityId ≠ "" := by
  rw [← sessionFolderAssignments_ne_none]
  cases hkv : (planSyncActionsFromChanges changes).kv <;>
    simp [plannedTasks, invalidationTasks, catchUpTasks, domainTasks, kvTasks, hkv]

theorem sessions_mem_tasks :
    Task.sessions ∈ plannedTasks host (planSyncActionsFromChanges changes) ↔
      ∃ d ∈ changes, d.listsSession := by
  have hinvalidate : (planSyncActionsFromChanges changes).invalidate .sessions ↔
      ∃ d ∈ changes, d.listsSession := by
    rw [invalidate_planned]
    refine exists_congr fun d => and_congr_right fun _ => ?_
    unfold ChangeEntry.domains
    grind
  rw [← hinvalidate]
  cases hkv : (planSyncActionsFromChanges changes).kv <;>
    simp [plannedTasks, invalidationTasks, catchUpTasks, domainTasks, kvTasks, hkv]

theorem refresh_mem_tasks {change : ChangeEntry} (hmem : change ∈ changes) {domain : RefreshDomain}
    (hdomain : domain ∈ change.domains) :
    Task.refresh domain ∈ plannedTasks host (planSyncActionsFromChanges changes) := by
  have hplanned : ∀ d, d ∈ change.domains → d ≠ .friendRequests →
      (planSyncActionsFromChanges changes).invalidate d := fun d hd hne =>
    (invalidate_planned changes d).mpr ⟨change, hmem, Or.inl ⟨hd, hne⟩⟩
  have hfriends : domain = .friendRequests → RefreshDomain.friends ∈ change.domains := by
    unfold ChangeEntry.domains at hdomain ⊢
    grind
  have hnot : domain ≠ .sessions ∧ domain ≠ .todos := by
    unfold ChangeEntry.domains at hdomain
    grind
  refine List.mem_append_left _ (List.mem_append_left _ (List.mem_append_left _ ?_))
  by_cases hrequests : domain = .friendRequests
  · have h := hplanned .friends (hfriends hrequests) (by simp)
    simp [domainTasks, hrequests, h]
  · have h := hplanned domain hdomain hrequests
    cases domain <;> simp_all [domainTasks]

structure LogOf (log : TaskLog) : Prop where
  sessionsInvalidationFailed : log.sessionsInvalidationFailed ↔ SessionListFails host changes
  folderAssignmentsFailed : log.sessionFolderAssignmentsRefreshFailed ↔ FolderAssignmentsFail host changes
  pending : ∀ id, (id ∉ log.completedPendingSessionIds ∨ id ∈ log.failedPendingSessionIds) ↔
    ¬ PendingConverges host changes id
  messages : ∀ change ∈ changes, change.listsSession →
    ((change.entityId ∉ log.completedMessageCatchUpSessionIds ∨
        change.entityId ∈ log.failedMessageCatchUpSessionIds) ↔
      ¬ (Task.messages change.entityId).Completed host (planSyncActionsFromChanges changes))

theorem completed_messages_iff {change : ChangeEntry} (hmem : change ∈ changes) (hlists : change.listsSession) :
    (Task.messages change.entityId).Completed host (planSyncActionsFromChanges changes) ↔
      change.entityId ≠ "" ∧ host.loadedBefore change.entityId ∧ host.refreshes .sessions ∧
        host.invalidateMessagesForSession change.entityId := by
  have hsessions : (planSyncActionsFromChanges changes).invalidate .sessions :=
    (invalidate_planned changes _).mpr ⟨change, hmem, Or.inr ⟨rfl, hlists⟩⟩
  simp only [Task.Completed, messages_mem_tasks, Task.succeeds, hsessions, Bool.not_true, Bool.false_or,
    Bool.and_eq_true]
  constructor
  · rintro ⟨⟨⟨hne, -⟩, hloaded⟩, hrefresh, hmessages⟩
    exact ⟨hne, hloaded, hrefresh, hmessages⟩
  · rintro ⟨hne, hloaded, hrefresh, hmessages⟩
    exact ⟨⟨⟨hne, change, hmem, hlists, rfl⟩, hloaded⟩, hrefresh, hmessages⟩

theorem logOf_runTasks {log : TaskLog}
    (h : runTasks host (plannedTasks host (planSyncActionsFromChanges changes)) {} = some log) :
    LogOf host changes log := by
  have hran := ran_of_runTasks h
  refine ⟨?_, ?_, fun id => ?_, fun change hmem hlists => ?_⟩
  · rw [hran.sessionsInvalidationFailed, sessions_mem_tasks]
    simp [SessionListFails]
  · rw [hran.folderAssignmentsFailed, folderAssignments_mem_tasks]
    simp [FolderAssignmentsFail]
  · rw [hran.completedPending, hran.failedPending, pending_mem_tasks]
    simp only [List.not_mem_nil, false_or, PendingConverges]
    by_cases hconverge : host.convergePendingForSession.any (· id) = true <;> simp [hconverge]
  · rw [completed_messages_iff host changes hmem hlists]
    -- the tasks of the messages stand behind the task of the session list
    have hearly : ∀ id, Task.messages id ∉ invalidationTasks (planSyncActionsFromChanges changes) := by
      simp [invalidationTasks, domainTasks]
    have hlate : Task.sessions ∉ catchUpTasks host (planSyncActionsFromChanges changes) := by
      cases hkv : (planSyncActionsFromChanges changes).kv <;> simp [catchUpTasks, kvTasks, hkv]
    rw [plannedTasks, runTasks, List.foldlM_append] at h
    obtain ⟨mid, hmid, hrest⟩ := Option.bind_eq_some_iff.mp h
    have hbefore := ranMessages_of_runTasks (Or.inr hearly) hmid
    have hafter := ranMessages_of_runTasks (Or.inl hlate) hrest
    have hlist := (ran_of_runTasks hmid).sessionsInvalidationFailed
    have hsessions : Task.sessions ∈ invalidationTasks (planSyncActionsFromChanges changes) :=
      (List.mem_append.mp ((sessions_mem_tasks host changes).mpr ⟨change, hmem, hlists⟩)).resolve_right hlate
    have hmessages : Task.messages change.entityId ∈ catchUpTasks host (planSyncActionsFromChanges changes) ↔
        change.entityId ≠ "" ∧ host.loadedBefore change.entityId := by
      have hiff := messages_mem_tasks host changes change.entityId
      rw [plannedTasks, List.mem_append, or_iff_right (hearly _)] at hiff
      have hlisted : ∃ d ∈ changes, d.listsSession ∧ d.entityId = change.entityId := ⟨change, hmem, hlists, rfl⟩
      rw [hiff, and_iff_left hlisted]
    rw [hafter.completed, hafter.failed, hbefore.completed, hbefore.failed, hmessages]
    simp only [List.not_mem_nil, hearly, false_and, or_false, false_or, hsessions, true_and] at hlist ⊢
    cases hfailed : mid.sessionsInvalidationFailed <;> grind

theorem completed_folderAssignments_iff :
    Task.folderAssignments.Completed host (planSyncActionsFromChanges changes) ↔
      (∃ d ∈ changes, d.assignsFolders ∨ d.assignsFolder ∧ d.entityId ≠ "") ∧
        host.refreshSessionFolderAssignments = some true := by
  rw [Task.Completed, folderAssignments_mem_tasks]
  simp [Task.succeeds]

theorem completed_pending_iff (id : String) :
    (Task.pending id).Completed host (planSyncActionsFromChanges changes) ↔
      PendingConverges host changes id := by
  rw [Task.Completed, pending_mem_tasks, PendingConverges, Task.succeeds]

theorem messagesBroughtIn_iff (change : ChangeEntry) :
    MessagesBroughtIn host (planSyncActionsFromChanges changes) change ↔ CatchesUp host changes change := by
  have hsessions : (∃ d ∈ changes, d.listsSession ∧ d.entityId = change.entityId) →
      (planSyncActionsFromChanges changes).invalidate .sessions = true := fun ⟨d, hd, hlists, _⟩ =>
    (invalidate_planned changes _).mpr ⟨d, hd, Or.inr ⟨rfl, hlists⟩⟩
  rw [MessagesBroughtIn, Task.Completed, messages_mem_tasks, CatchesUp, Task.succeeds]
  constructor
  · rintro ⟨⟨⟨⟨hne, hlisted⟩, hloaded⟩, hok⟩, htarget⟩
    simp only [hsessions hlisted, Bool.not_true, Bool.false_or, Bool.and_eq_true] at hok
    exact ⟨hne, hlisted, hloaded, hok.1, hok.2, htarget⟩
  · rintro ⟨hne, hlisted, hloaded, hrefresh, hmessages, htarget⟩
    exact ⟨⟨⟨⟨hne, hlisted⟩, hloaded⟩, by simp [hrefresh, hmessages]⟩, htarget⟩

end Tasks

theorem mem_options {name : String} {kind : ChangeKind} (h : knownChangeKind? name = some kind) :
    (name, kind) ∈ ChangeKind.options := by
  obtain ⟨before, after, heq, -⟩ := List.lookup_eq_some_iff.mp h
  rw [heq]
  simp

theorem knownChangeKind?_iff (name : String) :
    (knownChangeKind? name = some .session ↔ name = "session") ∧
      (knownChangeKind? name = some .share ↔ name = "share") := by
  constructor
  · exact ⟨fun h => by simpa [ChangeKind.options] using mem_options h, fun h => by subst h; decide⟩
  · exact ⟨fun h => by simpa [ChangeKind.options] using mem_options h, fun h => by subst h; decide⟩

namespace ChangeEntry

variable (change : ChangeEntry)

theorem ofSession_iff : change.ofSession ↔ change.kind = "session" ∨ change.kind = "share" := by
  have h := knownChangeKind?_iff change.kind
  simp [ofSession, h.1, h.2]

theorem kinds_disjoint :
    (change.assignsFolder → change.ofSession) ∧
      (change.ofSession → change.assignsFolders = false ∧ change.isKv = false) ∧
      (change.isKv → change.assignsFolders = false) := by
  unfold assignsFolder ofSession assignsFolders isKv
  grind

theorem domains_ne_nil (hkind : knownChangeKind? change.kind ≠ none) (hsession : change.ofSession = false)
    (hfolders : change.assignsFolders = false) (hkv : change.isKv = false) : change.domains ≠ [] := by
  unfold domains ofSession isKv at *
  cases hk : knownChangeKind? change.kind with
  | none => exact absurd hk hkind
  | some kind => cases kind <;> simp_all

end ChangeEntry

section Classification

variable (change : ChangeEntry) (loaded : String → Bool)

theorem unsupported_iff :
    (classifyChangeForCheckpoint change loaded).decision = .unsupported ↔
      knownChangeKind? change.kind = none := by
  unfold classifyChangeForCheckpoint
  cases hkind : knownChangeKind? change.kind with
  | none => simp
  | some kind => simp; grind

theorem skipped_iff :
    (classifyChangeForCheckpoint change loaded).decision = .intentionallySkippedByExplicitPolicy ↔
      change.listsSession ∧ change.hasPendingHint = false ∧ loaded change.entityId = false := by
  unfold classifyChangeForCheckpoint ChangeEntry.listsSession ChangeEntry.ofSession ChangeEntry.assignsFolder
  cases hkind : knownChangeKind? change.kind with
  | none => simp
  | some kind => cases kind <;> simp <;> grind

theorem proof_eq_folders_iff :
    (classifyChangeForCheckpoint change loaded).materializationProof =
        some (.domain .sessionFolderAssignments) ↔ change.assignsFolder := by
  unfold classifyChangeForCheckpoint ChangeEntry.assignsFolder
  cases hkind : knownChangeKind? change.kind with
  | none => simp
  | some kind => cases kind <;> simp [changeCheckpointCoverage] <;> grind

end Classification

theorem materialized_iff (host : Host) (change : ChangeEntry) :
    (match getChangeTargetMessageSeq change with
      | none => none
      | some targetSeq =>
        match host.getSessionMaterializedMaxSeq with
        | none => some ChangeCheckpointBlockedReason.partialMaterialization
        | some materialized =>
          if materialized change.entityId < targetSeq then some .partialMaterialization else none) = none ↔
      Materialized host change := by
  unfold Materialized
  cases getChangeTargetMessageSeq change <;> cases host.getSessionMaterializedMaxSeq <;> simp

theorem passes_iff {host : Host} {changes : List ChangeEntry} {log : TaskLog}
    (hlog : LogOf host changes log) {change : ChangeEntry} (hmem : change ∈ changes) :
    blockedBy host log change = none ↔ ¬ Waits host changes change := by
  classical
  have hdisjoint := change.kinds_disjoint
  unfold blockedBy Waits
  simp only [unsupported_iff, skipped_iff, proof_eq_pending_iff, proof_eq_folders_iff, ← change.ofSession_iff,
    hlog.sessionsInvalidationFailed, hlog.folderAssignmentsFailed, hlog.pending]
  by_cases hunknown : knownChangeKind? change.kind = none
  · simp [hunknown]
  simp only [hunknown, if_false, false_or]
  cases hsession : change.ofSession with
  | false =>
      have hfolder : change.assignsFolder = false := by
        by_contra h
        simp [hdisjoint.1 (by simpa using h)] at hsession
      simp [ChangeEntry.listsSession, hsession, hfolder]
  | true =>
      cases hfolder : change.assignsFolder with
      | true =>
          simp [ChangeEntry.listsSession, hsession, hfolder]
          grind
      | false =>
          have hlists : change.listsSession := by simp [ChangeEntry.listsSession, hsession, hfolder]
          cases hpending : change.hasPendingHint with
          | true =>
              simp [hlists]
              grind
          | false =>
              rw [← messagesBroughtIn_iff, MessagesBroughtIn, ← materialized_iff]
              have hmessages := hlog.messages change hmem hlists
              -- a session list that failed has failed the messages too
              have hlistFails : SessionListFails host changes →
                  ¬ (Task.messages change.entityId).Completed host (planSyncActionsFromChanges changes) := by
                rintro ⟨-, hfails⟩ hdone
                simp [((completed_messages_iff host changes hmem hlists).mp hdone).2.2.1] at hfails
              cases hloaded : host.loadedAfter change.entityId with
              | false => simp [hlists]
              | true =>
                  simp [hlists]
                  grind

section Passed

variable {host : Host} {changes : List ChangeEntry} {change : ChangeEntry}

theorem covered_iff (hmem : change ∈ changes) (hpass : ¬ Waits host changes change)
    (hran : ∀ task ∈ plannedTasks host (planSyncActionsFromChanges changes),
      (∀ domain, task = .refresh domain → host.refreshes domain) ∧
        ∀ keys, task = .kv keys → kvResolves host keys) :
    Covered host (planSyncActionsFromChanges changes) change ↔ ¬ Lost host changes change := by
  obtain ⟨hfolderSession, hsessionOther, hkvOther⟩ := change.kinds_disjoint
  have hknown : knownChangeKind? change.kind ≠ none := fun h => hpass (Or.inl h)
  have hwaits := fun h => hpass (Or.inr h)
  unfold Covered
  split
  · next hfolder =>
    have hsession := hfolderSession hfolder
    obtain ⟨hfolders, hkv⟩ := hsessionOther hsession
    rw [covers_planned, completed_folderAssignments_iff]
    have hfails : ¬ FolderAssignmentsFail host changes := fun h =>
      hwaits ⟨hsession, by rw [if_pos hfolder]; exact Or.inr h⟩
    constructor
    · rintro ⟨hcovers, -⟩ hlost
      cases hlost with
      | folderAssignmentsFail h => simp [hfolders] at h
      | noKeys h => simp [hkv] at h
      | noSession _ hid hpage =>
          rcases hcovers with ⟨d, hd, hall⟩ | ⟨d, _, _, hsame, hne⟩
          · simp [hpage d hd] at hall
          · exact hne (hid ▸ rfl)
    · intro hlost
      have hplanned : (∃ d ∈ changes, d.assignsFolders) ∨ change.entityId ≠ "" := by
        by_contra hno
        obtain ⟨hnone, hid⟩ := not_or.mp hno
        exact hlost (.noSession hfolder (not_not.mp hid) fun d hd => by
          by_contra hall
          exact hnone ⟨d, hd, by simpa using hall⟩)
      have hsome : ∃ d ∈ changes, d.assignsFolders ∨ d.assignsFolder ∧ d.entityId ≠ "" := by
        rcases hplanned with ⟨d, hd, hall⟩ | hne
        · exact ⟨d, hd, Or.inl hall⟩
        · exact ⟨change, hmem, Or.inr ⟨hfolder, hne⟩⟩
      refine ⟨hplanned.imp_right fun hne => ⟨change, hmem, hfolder, rfl, hne⟩, hsome, ?_⟩
      by_contra hrefresh
      exact hfails ⟨hsome, hrefresh⟩
  · next hfolder =>
    split
    · next hfolders =>
      have hkv : change.isKv = false := by
        by_contra h
        simp [hkvOther (by simpa using h)] at hfolders
      rw [coversAll_planned, completed_folderAssignments_iff]
      constructor
      · rintro ⟨-, -, hrefresh⟩ hlost
        cases hlost with
        | folderAssignmentsFail _ h => exact h hrefresh
        | noSession h => exact hfolder h
        | noKeys h => simp [hkv] at h
      · intro hlost
        refine ⟨⟨change, hmem, hfolders⟩, ⟨change, hmem, Or.inl hfolders⟩, ?_⟩
        by_contra hrefresh
        exact hlost (.folderAssignmentsFail hfolders hrefresh)
    · next hfolders =>
      split
      · next hsession =>
        have hnotLost : ¬ Lost host changes change := by
          intro hlost
          cases hlost with
          | folderAssignmentsFail h => exact hfolders h
          | noSession h => exact hfolder h
          | noKeys h => simp [(hsessionOther hsession).2] at h
        refine iff_of_true ?_ hnotLost
        have hrest := fun h => hwaits ⟨hsession, by rw [if_neg hfolder]; exact h⟩
        split
        · next hpending =>
          rw [completed_pending_iff]
          by_contra hconverge
          exact hrest (by rw [if_pos hpending]; exact Or.inr hconverge)
        · next hpending =>
          rw [messagesBroughtIn_iff]
          by_contra hno
          obtain ⟨hcatchUp, hloaded⟩ := not_or.mp hno
          exact hrest (by rw [if_neg hpending]; exact ⟨by simpa using hloaded, hcatchUp⟩)
      · next hsession =>
        split
        · next hkv =>
          rw [kv_covers_planned changes hmem hkv]
          constructor
          · rintro ⟨hkeys, -⟩ hlost
            cases hlost with
            | folderAssignmentsFail h => exact hfolders h
            | noSession h => exact hfolder h
            | noKeys _ hpage => exact hkeys hpage
          · intro hlost
            refine ⟨fun hpage => hlost (.noKeys hkv hpage), fun task htask => ?_⟩
            have hplanned : task ∈ plannedTasks host (planSyncActionsFromChanges changes) :=
              List.mem_append_right _ (List.mem_append_right _ htask)
            refine ⟨hplanned, ?_⟩
            obtain ⟨hrefresh, hkeys⟩ := hran task hplanned
            unfold kvTasks at htask
            split at htask <;> simp only [List.not_mem_nil, List.mem_singleton] at htask
            · exact htask ▸ hrefresh .todos htask
            · next keys _ => exact htask ▸ hkeys keys htask
        · next hkv =>
          have hnotLost : ¬ Lost host changes change := by
            intro hlost
            cases hlost with
            | folderAssignmentsFail h => exact hfolders h
            | noSession h => exact hfolder h
            | noKeys h => exact hkv h
          refine iff_of_true ⟨change.domains_ne_nil hknown (by simpa using hsession) (by simpa using hfolders)
            (by simpa using hkv), fun domain hdomain => ?_⟩ hnotLost
          have hplanned := refresh_mem_tasks host changes hmem hdomain
          exact ⟨hplanned, (hran _ hplanned).1 domain rfl⟩

theorem coveredWhole_iff (hpass : ¬ Waits host changes change) :
    CoveredWhole host (planSyncActionsFromChanges changes) change ↔
      Covered host (planSyncActionsFromChanges changes) change ∧ ¬ LostHint host changes change := by
  unfold CoveredWhole
  refine and_congr_right fun _ => ?_
  rw [completed_pending_iff, messagesBroughtIn_iff]
  have hwaits := fun h => hpass (Or.inr h)
  constructor
  · rintro ⟨hpending, hmessages⟩ hlost
    cases hlost with
    | pending h hhint hconverge => exact hconverge (hpending (change.kinds_disjoint.1 h) hhint)
    | messages h _ htarget hloaded hcatchUp =>
        rcases hmessages h htarget with hdone | hnot
        · exact hcatchUp hdone
        · simp [hloaded] at hnot
  · intro hlost
    refine ⟨fun hsession hhint => ?_, fun hsession htarget => ?_⟩
    · by_contra hconverge
      by_cases hfolder : change.assignsFolder = true
      · exact hlost (.pending hfolder hhint hconverge)
      · exact hwaits ⟨hsession, by rw [if_neg hfolder, if_pos hhint]; exact Or.inr hconverge⟩
    · by_contra hno
      obtain ⟨hcatchUp, hloaded⟩ := not_or.mp hno
      have hloaded : host.loadedAfter change.entityId = true := by simpa using hloaded
      by_cases howner : change.assignsFolder ∨ change.hasPendingHint
      · exact hlost (.messages hsession howner htarget hloaded hcatchUp)
      · obtain ⟨hfolder, hpending⟩ := not_or.mp howner
        exact hwaits ⟨hsession, by rw [if_neg hfolder, if_neg hpending]; exact ⟨hloaded, hcatchUp⟩⟩

end Passed

theorem advance_passes (host : Host) (log : TaskLog) (total : ℕ) (changes : List ChangeEntry)
    (cursor : Option ℕ) (processed : ℕ) :
    ∃ passed rest, changes = passed ++ rest ∧ (∀ c ∈ passed, blockedBy host log c = none) ∧
      (∀ c, rest.head? = some c → blockedBy host log c ≠ none) ∧
      (advance host log total changes cursor processed).processedChanges = processed + passed.length ∧
      (advance host log total changes cursor processed).safeAdvanceCursor =
        (passed.getLast?.map (·.cursor)).or cursor := by
  induction changes generalizing cursor processed with
  | nil => exact ⟨[], [], rfl, by simp, by simp, rfl, rfl⟩
  | cons change rest ih =>
      cases hblocked : blockedBy host log change with
      | some reason =>
          refine ⟨[], change :: rest, rfl, by simp, by simp [hblocked], ?_, ?_⟩
          · simp [advance, hblocked, PlannedChangesApplyResult.processedChanges]
          · simp [advance, hblocked, PlannedChangesApplyResult.safeAdvanceCursor]
      | none =>
          obtain ⟨passed, behind, hsplit, hpassed, hhead, hprocessed, hcursor⟩ :=
            ih (some change.cursor) (processed + 1)
          refine ⟨change :: passed, behind, by rw [hsplit]; rfl, ?_, hhead, ?_, ?_⟩
          · simpa [hblocked] using hpassed
          · simp only [advance, hblocked, hprocessed, List.length_cons]
            omega
          · simp only [advance, hblocked, hcursor, List.getLast?_cons]
            cases passed.getLast? <;> rfl

theorem cursorSafe_iff {host : Host} {changes : List ChangeEntry} {log : TaskLog}
    (hlog : LogOf host changes log) (broughtIn lost : ChangeEntry → Prop)
    (hiff : ∀ c ∈ changes, ¬ Waits host changes c → (broughtIn c ↔ ¬ lost c)) :
    CursorSafe broughtIn changes (advance host log changes.length changes none 0) ↔
      NonePassed host changes lost := by
  obtain ⟨passed, rest, hsplit, hpassed, hhead, hprocessed, hcursor⟩ :=
    advance_passes host log changes.length changes none 0
  have hwaits : ∀ c ∈ changes, (blockedBy host log c = none ↔ ¬ Waits host changes c) := fun c hc =>
    passes_iff hlog hc
  have htake : changes.take (advance host log changes.length changes none 0).processedChanges = passed := by
    rw [hprocessed, Nat.zero_add, hsplit, List.take_left]
  have hmem : ∀ c ∈ passed, c ∈ changes := fun c hc => hsplit ▸ List.mem_append_left _ hc
  rw [CursorSafe, htake, hcursor, Option.or_none, eq_self_iff_true, true_and]
  constructor
  · rintro hall before change after hpage hlost
    by_contra hno
    push Not at hno
    have hfree : ∀ c ∈ before ++ [change], blockedBy host log c = none := fun c hc =>
      (hwaits c (hpage ▸ by simp at hc ⊢; tauto)).mpr (hno c hc)
    -- nothing blocks up to the change, so it is passed
    have hchange : change ∈ passed := by
      have hstarts : (before ++ [change]) <+: passed ∨ passed <+: (before ++ [change]) :=
        List.prefix_or_prefix_of_prefix ⟨after, by rw [hpage]; simp⟩ ⟨rest, hsplit.symm⟩
      rcases hstarts with hin | ⟨more, hmore⟩
      · exact hin.subset (by simp)
      · cases more with
        | nil => rw [List.append_nil] at hmore; rw [hmore]; simp
        | cons c more =>
            refine absurd (hfree c (hmore ▸ by simp)) (hhead c ?_)
            have heq : passed ++ rest = passed ++ (c :: more ++ after) := by
              rw [← hsplit, hpage, ← List.append_assoc, hmore]
              simp
            rw [List.append_cancel_left heq]
            rfl
    exact (hiff change (hmem change hchange) (hno change (by simp))).mp (hall change hchange) hlost
  · intro hnone change hchange
    have hpass := (hwaits change (hmem change hchange)).mp (hpassed change hchange)
    refine (hiff change (hmem change hchange) hpass).mpr fun hlost => ?_
    obtain ⟨before, after, hin⟩ := List.append_of_mem hchange
    obtain ⟨d, hd, hdwaits⟩ := hnone before change (after ++ rest) (by rw [hsplit, hin]; simp) hlost
    have hdpassed : d ∈ passed := by
      rw [hin]
      simp at hd ⊢
      tauto
    exact (hwaits d (hmem d hdpassed)).mp (hpassed d hdpassed) hdwaits

/-- The cursor that is reported passes only changes that a completed action covers if
and only if no lost change is passed, and only changes all of whose hints are done if
and only if no change with a second, unfinished hint is passed either. -/
theorem cursor_safe_iff (host : Host) (changes : List ChangeEntry) (result : PlannedChangesApplyResult)
    (h : applyPlannedChangeActions host (planSyncActionsFromChanges changes) = some result) :
    (CursorSafe (Covered host (planSyncActionsFromChanges changes)) changes result ↔
      NonePassed host changes (Lost host changes)) ∧
    (CursorSafe (CoveredWhole host (planSyncActionsFromChanges changes)) changes result ↔
      NonePassed host changes fun change => Lost host changes change ∨ LostHint host changes change) := by
  obtain ⟨log, hrun, rfl⟩ := Option.map_eq_some_iff.mp h
  have hlog := logOf_runTasks host changes hrun
  have hran := (ran_of_runTasks hrun).resolved
  refine ⟨cursorSafe_iff hlog _ _ fun c hc hpass => covered_iff hc hpass hran,
    cursorSafe_iff hlog _ _ fun c hc hpass => ?_⟩
  rw [coveredWhole_iff hpass, covered_iff hc hpass hran, not_or]

def oneSession : List ChangeEntry :=
  [{ cursor := 1, kind := "session", entityId := "s1", hint := some { lastMessageSeq := .number 120 } }]

def caughtUp : Host :=
  { loadedBefore := fun _ => true, loadedAfter := fun _ => true
    getSessionMaterializedMaxSeq := some fun _ => 120 }

theorem cursor_safe_one_session :
    CursorSafe (Covered caughtUp (planSyncActionsFromChanges oneSession)) oneSession (.complete (some 1) 1) := by
  refine (cursor_safe_iff _ _ _ (by decide)).1.mpr fun before change after hpage hlost => ?_
  have hmem : change ∈ oneSession := by
    rw [hpage]
    simp
  rw [List.mem_singleton.mp hmem] at hlost
  cases hlost with
  | folderAssignmentsFail h => exact absurd h (by decide)
  | noSession h => exact absurd h (by decide)
  | noKeys h => exact absurd h (by decide)

/-- The folders of many sessions have changed and their refresh fails; the cursor goes on. -/
theorem cursor_not_safe :
    ∃ (host : Host) (changes : List ChangeEntry) (result : PlannedChangesApplyResult),
      (∀ change ∈ changes, knownChangeKind? change.kind ≠ none) ∧
      applyPlannedChangeActions host (planSyncActionsFromChanges changes) = some result ∧
      ¬ CursorSafe (Covered host (planSyncActionsFromChanges changes)) changes result := by
  let page : List ChangeEntry := [
    { cursor := 7, kind := "account", entityId := "session-folder-assignments"
      hint := some { sessionFolderAssignments := true, folderIds := some [some "folder-a"] } }]
  let offline : Host :=
    { loadedBefore := fun _ => false, loadedAfter := fun _ => false
      refreshSessionFolderAssignments := some false }
  refine ⟨offline, page, .complete (some 7) 1, by decide, by decide, ?_⟩
  rintro ⟨-, hcovered⟩
  have h := hcovered _ (List.mem_cons_self ..)
  rw [Covered, if_neg (by decide), if_pos (by decide)] at h
  exact absurd h.2.2 (by decide)

end DevPilot.CatchUp
