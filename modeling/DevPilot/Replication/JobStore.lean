import DevPilot.Replication.JobRecord
import DevPilot.Lib.Runs

/-!
The file of one job under any number of concurrent calls of the job store. A
call reads in steps of its own and replaces the file in its last step.
-/

namespace DevPilot.Replication

open Runs

inductive StoreCall
  | writing (record : JobRecord)
  /-- `update(jobId, updater)` before its first read. Where the updater throws
  or its record is invalid there is none. -/
  | updating (updater : JobRecord → Option JobRecord)
  /-- `update` before its second read. -/
  | applying (next : JobRecord)
  /-- A call that has read `existing` and merges `incoming` into it. -/
  | merging (existing : Option JobRecord) (incoming : JobRecord)
  | done

/-- The record on disk, if there is one, and the calls made so far. -/
structure JobFile where
  disk : Option JobRecord
  calls : List StoreCall

inductive StoreEvent
  | write (record : JobRecord)
  | update (updater : JobRecord → Option JobRecord)
  | advance (i : Nat)

namespace JobFile

def stepCall (disk : Option JobRecord) : StoreCall → Option JobRecord × StoreCall
  | .writing record => (disk, .merging disk record)
  | .updating updater =>
      (disk, match disk.bind updater with
        | none => .done
        | some next => .applying next)
  | .applying next => (disk, .merging disk next)
  | .merging existing incoming => (some (mergeJobRecordsForWrite existing incoming), .done)
  | .done => (disk, .done)

def step (s : JobFile) : StoreEvent → JobFile
  | .write record => { s with calls := s.calls ++ [StoreCall.writing record] }
  | .update updater => { s with calls := s.calls ++ [StoreCall.updating updater] }
  | .advance i =>
      match s.calls[i]? with
      | none => s
      | some c => ⟨(stepCall s.disk c).1, s.calls.set i (stepCall s.disk c).2⟩

def Follows (disk disk' : Option JobRecord) : Prop :=
  ∀ r ∈ disk, ∃ r' ∈ disk', r.Keeps r'

/-- A call that is about to write has read a record with the terminality, the
checkpoint and the cancellation of the one on disk. -/
def ReadsCurrent (s : JobFile) : StoreEvent → Prop
  | .write _ | .update _ => True
  | .advance i =>
      ∀ existing incoming, s.calls[i]? = some (.merging existing incoming) →
        s.disk.map JobRecord.guards = existing.map JobRecord.guards

namespace Follows

protected theorem refl (disk : Option JobRecord) : Follows disk disk := fun r hr => ⟨r, hr, .refl r⟩

protected theorem trans {d₁ d₂ d₃ : Option JobRecord} (h : Follows d₁ d₂) (h' : Follows d₂ d₃) :
    Follows d₁ d₃ := by
  intro r hr
  obtain ⟨r', hr', hk⟩ := h r hr
  obtain ⟨r'', hr'', hk'⟩ := h' r' hr'
  exact ⟨r'', hr'', hk.trans hk'⟩

end Follows

theorem follows_merge {disk existing : Option JobRecord}
    (h : disk.map JobRecord.guards = existing.map JobRecord.guards) (incoming : JobRecord) :
    Follows disk (some (mergeJobRecordsForWrite existing incoming)) := by
  intro r hr
  obtain rfl := Option.mem_def.mp hr
  refine ⟨_, rfl, ?_⟩
  cases existing with
  | none => cases h
  | some existing =>
      have hguards : existing.guards = r.guards := (Option.some.inj h).symm
      exact JobRecord.keeps_congr hguards (keeps_mergeJobRecordsForWrite existing incoming)

theorem follows_step (s : JobFile) (e : StoreEvent) (h : ReadsCurrent s e) :
    Follows s.disk (s.step e).disk := by
  cases e with
  | write record => exact .refl s.disk
  | update updater => exact .refl s.disk
  | advance i =>
      rw [step]
      split
      · exact .refl s.disk
      · rename_i c hc
        cases c with
        | merging existing incoming => exact follows_merge (h existing incoming hc) incoming
        | _ => exact .refl s.disk

theorem follows_run (s : JobFile) (events : List StoreEvent) (h : Along step ReadsCurrent s events) :
    Follows s.disk (run step s events).disk :=
  run_invariant_along (I := fun s' => Follows s.disk s'.disk)
    (fun s' e hs he => hs.trans (follows_step s' e he)) (.refl s.disk) h

/-- In every run in which no call writes over a record that says other than the
one it read, whatever is on disk keeps what was on disk before. -/
theorem disk_follows {disk : Option JobRecord} (events : List StoreEvent)
    (h : Along step ReadsCurrent ⟨disk, []⟩ events) (before between after : List StoreEvent)
    (hevents : events = before ++ between ++ after) :
    Follows (run step ⟨disk, []⟩ before).disk (run step ⟨disk, []⟩ (before ++ between)).disk := by
  rw [hevents] at h
  have hbetween := (along_append_iff.mp (along_append_iff.mp h).1).2
  rw [run_append]
  exact follows_run _ between hbetween

def runningRecord : JobRecord where
  jobId := "job_1"
  createdAtMs := 1
  updatedAtMs := 1
  status := { status := .inProgress, phase := .planning, checkpoint := .relationshipResolved }

theorem disk_follows_abort :
    Follows (some runningRecord)
      (run step ⟨some runningRecord, []⟩
        ([StoreEvent.write { runningRecord with updatedAtMs := 2 }, .advance 0, .advance 0] ++
          [.update fun r => some { r with cancelRequestedAtMs := some 3 }, .advance 1, .advance 1,
            .advance 1])).disk :=
  disk_follows
    [.write { runningRecord with updatedAtMs := 2 }, .advance 0, .advance 0,
      .update fun r => some { r with cancelRequestedAtMs := some 3 }, .advance 1, .advance 1, .advance 1]
    (by
      refine ⟨trivial, ?_, ?_, trivial, ?_, ?_, ?_, trivial⟩
      all_goals
        intro existing incoming hcall
        cases hcall
      all_goals rfl)
    [] _ [] rfl

def negotiatedRecord : JobRecord := { runningRecord with
  updatedAtMs := 2
  status := { runningRecord.status with
    phase := .negotiateMissingDigests
    checkpoint := .missingDigestsNegotiated } }

/-- A heartbeat reads the record, the runner passes a checkpoint and the user
aborts. The heartbeat's write then undoes the checkpoint, the outcome and the
request to cancel. -/
theorem heartbeat_undoes_abort :
    ∃ aborted overwritten : JobRecord,
      let before : List StoreEvent :=
        [.write { runningRecord with updatedAtMs := 4 }, .advance 0,
          .write negotiatedRecord, .advance 1, .advance 1,
          .write { negotiatedRecord with
            updatedAtMs := 3
            cancelRequestedAtMs := some 3
            abortedAtMs := some 3
            status := { negotiatedRecord.status with status := .aborted } }, .advance 2, .advance 2]
      (run step ⟨some runningRecord, []⟩ before).disk = some aborted ∧
        (run step ⟨some runningRecord, []⟩ (before ++ [StoreEvent.advance 0])).disk = some overwritten ∧
        aborted.isTerminal = true ∧ overwritten.isTerminal = false ∧
        overwritten.checkpoint.index < aborted.checkpoint.index ∧
        aborted.cancelRequestedAtMs = some 3 ∧ overwritten.cancelRequestedAtMs = none :=
  ⟨_, _, rfl, rfl, by decide, by decide, by decide, rfl, rfl⟩

end JobFile

end DevPilot.Replication
