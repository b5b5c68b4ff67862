import DevPilot.CatchUp.Applier
import DevPilot.Lib.Runs

/-!
The catch-up after a reconnect: pages of changes, snapshots where pages do not
do, and the cursors that are persisted and returned, while the server appends
to its log.
-/

namespace DevPilot.CatchUp

structure CatchUpParams where
  hasCredentials : Bool := true
  hasAccountId : Bool := true
  afterCursor : Option ℕ
  changesPageLimit : ℕ
  maxChangesPagesPerResume : Option ℚ := none
  forceSnapshotRefresh : Bool := false
  fetchCurrentCursor : Bool := true
  checkpointCursor : Bool := true

/-- `Math.trunc` -/
def truncate (x : ℚ) : ℤ := if 0 ≤ x then ⌊x⌋ else ⌈x⌉

def CatchUpParams.maxPages (params : CatchUpParams) : ℕ :=
  (max 1 (truncate (params.maxChangesPagesPerResume.getD 5))).toNat

/-- What `applyPlanned` resolves to. -/
inductive ApplyResult
  | void
  | complete (safeAdvanceCursor : Option ℕ)
  | partially (safeAdvanceCursor : Option ℕ)
deriving DecidableEq, Repr

def normalizeApplySafeCursor (result : ApplyResult) (pageNextCursor : ℕ) : Option ℕ :=
  match result with
  | .void => some pageNextCursor
  | .complete safeAdvanceCursor => some (safeAdvanceCursor.getD pageNextCursor)
  | .partially safeAdvanceCursor => safeAdvanceCursor

inductive SnapshotRefreshResult
  | complete
  | partially
  | error
deriving DecidableEq, Repr

inductive CheckpointReason
  | changesPage
  | snapshotBase
deriving DecidableEq, Repr

inductive SnapshotTrigger
  | cursorGone
  | forcedSnapshot
  | pageBudget
deriving DecidableEq, Repr

inductive CatchUpResult
  | fallback
  | ok (nextCursor : ℕ) (shouldPersistCursor : Bool)
  | rejected
deriving DecidableEq, Repr

inductive Phase
  | fetching
  | readingCurrentCursor (fallbackCursor : ℕ) (trigger : SnapshotTrigger)
  /-- `snapshotRefresh`, begun when the server was at `begun`. -/
  | refreshing (base begun : ℕ) (trigger : SnapshotTrigger)
  | persistingBase (base : ℕ) (trigger : SnapshotTrigger)
  | applying (changes : List ChangeEntry) (nextCursor : ℕ)
  | persistingPart (safeAdvanceCursor : ℕ)
  | persistingLast (nextCursor : ℕ)
  | persistingPage (nextCursor : ℕ)
  | finished (result : CatchUpResult)
deriving DecidableEq, Repr

inductive FetchResult
  | ok (changes : List ChangeEntry) (nextCursor : ℕ)
  | cursorGone (currentCursor : ℕ)
  | error
deriving DecidableEq, Repr

inductive Event
  | append (change : ChangeEntry)
  | fetched (result : FetchResult)
  /-- `none` where it rejects or has another status. -/
  | currentCursor (cursor : Option ℕ)
  | refreshed (result : Option SnapshotRefreshResult)
  /-- With the cursors of the changes whose effect was brought in or may be skipped. -/
  | applied (result : ApplyResult) (broughtIn : List ℕ)
  | checkpointed (done : Bool)
  | rejected
deriving DecidableEq, Repr

/-- The log of the server, and what was done about it. -/
structure Ledger where
  log : List ChangeEntry
  current : ℕ
  broughtIn : List ℕ := []
  /-- Where the server was when the complete snapshots began. -/
  snapshots : List ℕ := []
deriving DecidableEq, Repr

structure CatchUpState extends Ledger where
  afterCursor : ℕ
  pageIndex : ℕ := 0
  forceSnapshotRefresh : Bool
  snapshotCursorAwaitingFinalPersist : Option ℕ := none
  phase : Phase
  fetches : ℕ := 0
  calls : ℕ := 0
  checkpoints : List (ℕ × CheckpointReason) := []
deriving DecidableEq, Repr

namespace CatchUpState

variable (params : CatchUpParams) (s : CatchUpState)

def call (phase : Phase) : CatchUpState := { s with phase := phase, calls := s.calls + 1 }

def finish (result : CatchUpResult) : CatchUpState := { s with phase := .finished result }

def refresh (base : ℕ) (trigger : SnapshotTrigger) : CatchUpState :=
  s.call (.refreshing base s.current trigger)

def runSnapshotRepair (fallbackCursor : ℕ) (trigger : SnapshotTrigger) : CatchUpState :=
  if params.fetchCurrentCursor then s.call (.readingCurrentCursor fallbackCursor trigger)
  else s.refresh fallbackCursor trigger

def fetch : CatchUpState := { s.call .fetching with fetches := s.fetches + 1 }

def nextPage : CatchUpState :=
  if s.pageIndex + 1 < params.maxPages then { s with pageIndex := s.pageIndex + 1 }.fetch
  else { s with pageIndex := s.pageIndex + 1 }.runSnapshotRepair params s.afterCursor .pageBudget

def repaired (base : ℕ) (checkpointPersisted : Bool) : SnapshotTrigger → CatchUpState
  | .pageBudget => s.finish (.ok base !checkpointPersisted)
  | _ =>
    { s with
      afterCursor := base
      forceSnapshotRefresh := false
      snapshotCursorAwaitingFinalPersist := if checkpointPersisted then none else some base }.nextPage params

/-- `checkpointCursor`, where it is given. -/
def checkpoint (cursor : ℕ) (reason : CheckpointReason) (phase : Phase) : CatchUpState :=
  { s.call phase with checkpoints := s.checkpoints ++ [(cursor, reason)] }

def afterApply (changes : List ChangeEntry) (nextCursor : ℕ) (result : ApplyResult) : CatchUpState :=
  let safeAdvanceCursor := normalizeApplySafeCursor result nextCursor
  if safeAdvanceCursor ≠ some nextCursor then
    match safeAdvanceCursor with
    | none => s.finish (.ok s.afterCursor false)
    | some cursor =>
      if cursor = s.afterCursor then s.finish (.ok cursor false)
      else if params.checkpointCursor then s.checkpoint cursor .changesPage (.persistingPart cursor)
      else s.finish (.ok cursor true)
  else if changes.length < params.changesPageLimit then
    if nextCursor = s.afterCursor then s.finish (.ok nextCursor false)
    else if params.checkpointCursor then s.checkpoint nextCursor .changesPage (.persistingLast nextCursor)
    else s.finish (.ok nextCursor true)
  else
    if nextCursor = s.afterCursor then { s with afterCursor := nextCursor }.nextPage params
    else if params.checkpointCursor then s.checkpoint nextCursor .changesPage (.persistingPage nextCursor)
    else { s with afterCursor := nextCursor }.nextPage params

def afterFetch : FetchResult → CatchUpState
  | .cursorGone currentCursor => s.runSnapshotRepair params currentCursor .cursorGone
  | .error => s.finish .fallback
  | .ok changes nextCursor =>
    if s.forceSnapshotRefresh then s.runSnapshotRepair params nextCursor .forcedSnapshot
    else if changes.length = 0 then
      s.finish (.ok nextCursor
        (s.snapshotCursorAwaitingFinalPersist.isSome || decide (nextCursor ≠ s.afterCursor)))
    else s.call (.applying changes nextCursor)

/-- What a server may answer: a page holds what its log has up to the next cursor. -/
def Answers : FetchResult → Prop
  | .ok changes nextCursor =>
    nextCursor ≤ s.current ∧ (∀ change ∈ changes, change ∈ s.log ∧ change.cursor ≤ nextCursor) ∧
      ∀ change ∈ s.log, s.afterCursor < change.cursor → change.cursor ≤ nextCursor → change ∈ changes
  | .cursorGone currentCursor => currentCursor ≤ s.current
  | .error => True

instance : ∀ result, Decidable (s.Answers result)
  | .ok .. => inferInstanceAs (Decidable (_ ∧ _ ∧ _))
  | .cursorGone _ => inferInstanceAs (Decidable (_ ≤ _))
  | .error => inferInstanceAs (Decidable True)

end CatchUpState

/-- A result of `applyPlanned` is safe: up to the cursor it reports, and on all of the
page where it reports none or says complete, the changes were brought in. -/
def ApplyResult.Safe (changes : List ChangeEntry) (broughtIn : List ℕ) : ApplyResult → Prop
  | .void => ∀ change ∈ changes, change.cursor ∈ broughtIn
  | .complete none => ∀ change ∈ changes, change.cursor ∈ broughtIn
  | .complete (some cursor) =>
    (∃ change ∈ changes, change.cursor = cursor) ∧ ∀ change ∈ changes, change.cursor ∈ broughtIn
  | .partially none => True
  | .partially (some cursor) =>
    (∃ change ∈ changes, change.cursor = cursor) ∧
      ∀ change ∈ changes, change.cursor ≤ cursor → change.cursor ∈ broughtIn

instance (changes : List ChangeEntry) (broughtIn : List ℕ) :
    ∀ result, Decidable (ApplyResult.Safe changes broughtIn result)
  | .void => inferInstanceAs (Decidable (∀ change ∈ changes, change.cursor ∈ broughtIn))
  | .complete none => inferInstanceAs (Decidable (∀ change ∈ changes, change.cursor ∈ broughtIn))
  | .complete (some _) => inferInstanceAs (Decidable (_ ∧ _))
  | .partially none => inferInstanceAs (Decidable True)
  | .partially (some _) => inferInstanceAs (Decidable (_ ∧ _))

namespace CatchUpState

/-- What the server and the callbacks may do; an answer that nothing waits for has no
effect. -/
def Admits (s : CatchUpState) (e : Event) : Prop :=
  match e, s.phase with
  | .append change, _ => s.current < change.cursor
  | .fetched result, .fetching => s.Answers result
  | .currentCursor (some cursor), .readingCurrentCursor _ _ => cursor ≤ s.current
  | .applied result broughtIn, .applying changes _ =>
    (∀ cursor ∈ broughtIn, ∃ change ∈ changes, change.cursor = cursor) ∧ result.Safe changes broughtIn
  | _, _ => True

instance (s : CatchUpState) (e : Event) : Decidable (s.Admits e) := by
  unfold Admits
  split <;> infer_instance

def step (params : CatchUpParams) (s : CatchUpState) (e : Event) : CatchUpState :=
  match e, s.phase with
  | .append change, _ => { s with log := s.log ++ [change], current := change.cursor }
  | .fetched result, .fetching => s.afterFetch params result
  | .currentCursor cursor, .readingCurrentCursor _ trigger =>
    match cursor with
    | none => s.finish .fallback
    | some base => s.refresh base trigger
  | .refreshed result, .refreshing base begun trigger =>
    if result.any (· ≠ .complete) then s.finish .fallback
    else
      let s := { s with snapshots := s.snapshots ++ [begun] }
      if params.checkpointCursor then s.checkpoint base .snapshotBase (.persistingBase base trigger)
      else s.repaired params base false trigger
  | .applied result broughtIn, .applying changes nextCursor =>
    { s with broughtIn := s.broughtIn ++ broughtIn }.afterApply params changes nextCursor result
  | .checkpointed done, .persistingBase base trigger =>
    if done then s.repaired params base true trigger else s.finish .fallback
  | .checkpointed done, .persistingPart cursor => s.finish (.ok cursor !done)
  | .checkpointed done, .persistingLast cursor => s.finish (.ok cursor !done)
  | .checkpointed done, .persistingPage cursor =>
    if done then { s with afterCursor := cursor }.nextPage params else s.finish .fallback
  | .rejected, .finished _ => s
  | .rejected, .readingCurrentCursor _ _ => s.finish .fallback
  | .rejected, _ => s.finish .rejected
  | _, _ => s

end CatchUpState

/-- The call of `runSocketReconnectCatchUpViaChanges` while the log of the server is `log`. -/
def CatchUpState.begin (params : CatchUpParams) (log : List ChangeEntry) (current : ℕ) : CatchUpState :=
  let s : CatchUpState := {
    log := log
    current := current
    afterCursor := params.afterCursor.getD 0
    forceSnapshotRefresh := params.forceSnapshotRefresh
    phase := .finished .fallback }
  if params.hasCredentials && params.hasAccountId then s.fetch else s

end DevPilot.CatchUp
