import DevPilot.Replication.JobRecord
import DevPilot.Lib.Runs

/-!
The record of one job over a sequence of writes that do not overlap: what of it lasts,
and which writes it takes that something does not.
-/

namespace DevPilot.Replication

open Runs

structure ProgressCounters.Grows (a b : ProgressCounters) : Prop where
  plannedFiles : a.plannedFiles ≤ b.plannedFiles
  plannedBytes : a.plannedBytes ≤ b.plannedBytes
  transferredFiles : a.transferredFiles ≤ b.transferredFiles
  transferredBytes : a.transferredBytes ≤ b.transferredBytes
  appliedFiles : a.appliedFiles ≤ b.appliedFiles
  appliedBytes : a.appliedBytes ≤ b.appliedBytes

structure JobRecord.Identified (r r' : JobRecord) : Prop where
  createdAtMs : r'.createdAtMs = r.createdAtMs
  lastAttempt : r.lastAttempt.isSome → r'.lastAttempt.isSome
  correlationId : r.correlationId.isSome → r'.correlationId.isSome
  relationshipId : r.relationshipId.isSome → r'.relationshipId.isSome
  directionId : r.directionId.isSome → r'.directionId.isSome
  offerId : r.offerId.isSome → r'.offerId.isSome
  mode : r.mode.isSome → r'.mode.isSome

structure JobRecord.Lasts (r r' : JobRecord) : Prop where
  counters : r.status.progressCounters.Grows r'.status.progressCounters
  warnings : r.status.warnings ⊆ r'.status.warnings
  identified : r.Identified r'

structure JobRecord.Stamped (r : JobRecord) : Prop where
  completed : r.completedAtMs.isSome → r.status.status = .completed
  aborted : r.abortedAtMs.isSome → r.status.status = .aborted
  failed : r.failedAtMs.isSome → r.status.status = .failed
  awaitingRecovery : r.awaitingRecoveryAtMs.isSome → r.status.status = .awaitingRecovery

structure JobRecord.Unstamped (r : JobRecord) : Prop where
  completed : r.completedAtMs = none
  aborted : r.abortedAtMs = none
  failed : r.failedAtMs = none
  awaitingRecovery : r.awaitingRecoveryAtMs = none

def writeRecord (disk : Option JobRecord) (incoming : JobRecord) : Option JobRecord :=
  some (mergeJobRecordsForWrite disk incoming)

/-- A write of a record that is merged without loss: one of a checkpoint that has been passed carries
timestamps with an outcome that stops the runner only; the others carry the warnings on
disk, and, where they go on to another checkpoint, no smaller counters. -/
def MergesWell (disk : Option JobRecord) (incoming : JobRecord) : Prop :=
  match disk with
  | none => incoming.Stamped
  | some existing =>
      existing.isTerminal = true ∨ existing.isTerminal = false ∧
        if incoming.status.checkpoint.index < existing.status.checkpoint.index then
          if incoming.status.status ∈ [.aborted, .failed, .awaitingRecovery] then incoming.Stamped
          else incoming.Unstamped
        else incoming.Stamped ∧ existing.status.warnings ⊆ incoming.status.warnings ∧
          (existing.status.checkpoint ≠ incoming.status.checkpoint →
            existing.status.progressCounters.Grows incoming.status.progressCounters)

namespace ProgressCounters.Grows

protected theorem refl (a : ProgressCounters) : a.Grows a :=
  ⟨le_rfl, le_rfl, le_rfl, le_rfl, le_rfl, le_rfl⟩

protected theorem trans {a b c : ProgressCounters} (h : a.Grows b) (h' : b.Grows c) : a.Grows c :=
  ⟨h.plannedFiles.trans h'.plannedFiles, h.plannedBytes.trans h'.plannedBytes,
    h.transferredFiles.trans h'.transferredFiles, h.transferredBytes.trans h'.transferredBytes,
    h.appliedFiles.trans h'.appliedFiles, h.appliedBytes.trans h'.appliedBytes⟩

theorem merge (a b : ProgressCounters) : a.Grows (mergeProgressCounters a b) :=
  ⟨le_max_left _ _, le_max_left _ _, le_max_left _ _, le_max_left _ _, le_max_left _ _, le_max_left _ _⟩

end ProgressCounters.Grows

namespace JobRecord

protected theorem Identified.refl (r : JobRecord) : r.Identified r :=
  ⟨rfl, id, id, id, id, id, id⟩

theorem Identified.trans {r₁ r₂ r₃ : JobRecord} (h : r₁.Identified r₂) (h' : r₂.Identified r₃) :
    r₁.Identified r₃ :=
  ⟨h'.createdAtMs.trans h.createdAtMs, h'.lastAttempt ∘ h.lastAttempt,
    h'.correlationId ∘ h.correlationId, h'.relationshipId ∘ h.relationshipId,
    h'.directionId ∘ h.directionId, h'.offerId ∘ h.offerId, h'.mode ∘ h.mode⟩

protected theorem Lasts.refl (r : JobRecord) : r.Lasts r := ⟨.refl _, List.Subset.refl _, .refl r⟩

theorem Lasts.trans {r₁ r₂ r₃ : JobRecord} (h : r₁.Lasts r₂) (h' : r₂.Lasts r₃) : r₁.Lasts r₃ :=
  ⟨h.counters.trans h'.counters, List.Subset.trans h.warnings h'.warnings,
    h.identified.trans h'.identified⟩

theorem Stamped.unstamped {r : JobRecord} (h : r.Stamped) (hopen : r.isTerminal = false) : r.Unstamped := by
  have hnone : ∀ {t : Option Nat} {state : JobState}, (t.isSome → r.status.status = state) →
      state.isTerminal = true → t = none := by
    intro t state ht hstate
    cases t with
    | none => rfl
    | some at' =>
        rw [isTerminal, ht rfl, hstate] at hopen
        cases hopen
  exact ⟨hnone h.completed rfl, hnone h.aborted rfl, hnone h.failed rfl, hnone h.awaitingRecovery rfl⟩

theorem Unstamped.stamped {r : JobRecord} (h : r.Unstamped) : r.Stamped :=
  ⟨by simp [h.completed], by simp [h.aborted], by simp [h.failed], by simp [h.awaitingRecovery]⟩

end JobRecord

theorem subset_mergeWarnings (a b : List String) : a ⊆ mergeWarnings a b := by
  have hfold : ∀ (l merged : List String), merged ⊆
      l.foldl (fun merged warning => if warning ∈ merged then merged else merged ++ [warning]) merged := by
    intro l
    induction l with
    | nil => exact List.Subset.refl
    | cons w l ih =>
        intro merged
        refine List.Subset.trans ?_ (ih _)
        dsimp only
        split_ifs
        · exact List.Subset.refl _
        · exact List.subset_append_left ..
  rw [mergeWarnings]
  split_ifs with hb ha
  · exact List.Subset.refl _
  · rw [List.isEmpty_iff.mp ha]
    exact List.nil_subset _
  · exact hfold b a

section Merge

variable {existing incoming : JobRecord}

theorem identified_merge : existing.Identified (mergeJobRecordsForWrite (some existing) incoming) := by
  rw [mergeJobRecordsForWrite]
  split_ifs
  · exact .refl existing
  · refine ⟨rfl, fun h => ?_, ?_, ?_, ?_, ?_, ?_⟩
    · dsimp only
      cases hexisting : existing.lastAttempt with
      | none => simp [hexisting] at h
      | some attempt =>
          cases incoming.lastAttempt with
          | none => rfl
          | some next =>
              rw [mergeLastAttempt]
              split_ifs <;> rfl
    · cases incoming.correlationId <;> simp
    · cases incoming.relationshipId <;> simp
    · cases incoming.directionId <;> simp
    · cases incoming.offerId <;> simp
    · cases incoming.mode <;> simp

theorem stamped_merge_iff (hopen : existing.isTerminal = false) (hnone : existing.Unstamped) :
    (mergeJobRecordsForWrite (some existing) incoming).Stamped ↔
      { incoming with status := mergeStatus existing.status incoming.status }.Stamped := by
  rw [mergeJobRecordsForWrite, if_neg (by simp [hopen])]
  have hor : ∀ t : Option Nat, (t <|> none) = t := fun t => by cases t <;> rfl
  constructor
  · rintro ⟨hcompleted, haborted, hfailed, hawaiting⟩
    simp only [hnone.completed, hnone.aborted, hnone.failed, hnone.awaitingRecovery, hor] at *
    exact ⟨hcompleted, haborted, hfailed, hawaiting⟩
  · rintro ⟨hcompleted, haborted, hfailed, hawaiting⟩
    refine ⟨?_, ?_, ?_, ?_⟩
    all_goals
      dsimp only
      simp only [hnone.completed, hnone.aborted, hnone.failed, hnone.awaitingRecovery, hor]
      assumption

theorem lasts_merge_iff (hopen : existing.isTerminal = false) :
    existing.Lasts (mergeJobRecordsForWrite (some existing) incoming) ↔
      existing.status.progressCounters.Grows (mergeStatus existing.status incoming.status).progressCounters ∧
        existing.status.warnings ⊆ (mergeStatus existing.status incoming.status).warnings := by
  have hstatus : (mergeJobRecordsForWrite (some existing) incoming).status =
      mergeStatus existing.status incoming.status := by
    rw [mergeJobRecordsForWrite, if_neg (by simp [hopen])]
  rw [← hstatus]
  exact ⟨fun h => ⟨h.counters, h.warnings⟩, fun h => ⟨h.1, h.2, identified_merge⟩⟩

theorem merge_iff (hstamped : existing.Stamped) :
    (existing.Lasts (mergeJobRecordsForWrite (some existing) incoming) ∧
      (mergeJobRecordsForWrite (some existing) incoming).Stamped) ↔ MergesWell (some existing) incoming := by
  rw [MergesWell]
  cases hopen : existing.isTerminal with
  | true =>
      have hkept : mergeJobRecordsForWrite (some existing) incoming = existing := by
        rw [mergeJobRecordsForWrite, if_pos hopen]
      rw [hkept]
      exact iff_of_true ⟨.refl existing, hstamped⟩ (.inl rfl)
  | false =>
      rw [or_iff_right Bool.false_ne_true, and_iff_right rfl, lasts_merge_iff hopen,
        stamped_merge_iff hopen (hstamped.unstamped hopen)]
      by_cases hback : incoming.status.checkpoint.index < existing.status.checkpoint.index
      · rw [if_pos hback, mergeStatus, if_pos hback]
        by_cases hstops : incoming.status.status ∈ [.aborted, .failed, .awaitingRecovery]
        · rw [if_pos hstops, if_pos hstops]
          constructor
          · rintro ⟨-, hcompleted, haborted, hfailed, hawaiting⟩
            exact ⟨hcompleted, haborted, hfailed, hawaiting⟩
          · rintro ⟨hcompleted, haborted, hfailed, hawaiting⟩
            exact ⟨⟨.merge _ _, subset_mergeWarnings _ _⟩, hcompleted, haborted, hfailed, hawaiting⟩
        · rw [if_neg hstops, if_neg hstops]
          constructor
          · rintro ⟨-, hmerged⟩
            obtain ⟨hcompleted, haborted, hfailed, hawaiting⟩ := hmerged.unstamped hopen
            exact ⟨hcompleted, haborted, hfailed, hawaiting⟩
          · rintro ⟨hcompleted, haborted, hfailed, hawaiting⟩
            refine ⟨⟨.refl _, List.Subset.refl _⟩, JobRecord.Unstamped.stamped ?_⟩
            exact ⟨hcompleted, haborted, hfailed, hawaiting⟩
      · rw [if_neg hback, mergeStatus, if_neg hback]
        by_cases hsame : existing.status.checkpoint = incoming.status.checkpoint
        · rw [if_pos hsame]
          constructor
          · rintro ⟨⟨-, hwarnings⟩, hcompleted, haborted, hfailed, hawaiting⟩
            exact ⟨⟨hcompleted, haborted, hfailed, hawaiting⟩, hwarnings, fun hne => absurd hsame hne⟩
          · rintro ⟨⟨hcompleted, haborted, hfailed, hawaiting⟩, hwarnings, -⟩
            exact ⟨⟨.merge _ _, hwarnings⟩, hcompleted, haborted, hfailed, hawaiting⟩
        · rw [if_neg hsame]
          constructor
          · rintro ⟨⟨hcounters, hwarnings⟩, hmerged⟩
            exact ⟨hmerged, hwarnings, fun _ => hcounters⟩
          · rintro ⟨hincoming, hwarnings, hcounters⟩
            exact ⟨⟨hcounters hsame, hwarnings⟩, hincoming⟩

end Merge

/-- What is on disk stands with its timestamps, and lasts over the writes in between. -/
def Lasting (writes : List JobRecord) : Prop :=
  ∀ before between after, writes = before ++ between ++ after →
    (∀ r ∈ run writeRecord none before, r.Stamped) ∧
      ∀ r ∈ run writeRecord none before, ∃ r' ∈ run writeRecord none (before ++ between), r.Lasts r'

theorem run_snoc (disk : Option JobRecord) (writes : List JobRecord) (incoming : JobRecord) :
    run writeRecord disk (writes ++ [incoming]) =
      some (mergeJobRecordsForWrite (run writeRecord disk writes) incoming) := by
  rw [run_append]
  rfl

theorem stamped_writeRecord {disk : Option JobRecord} {incoming : JobRecord}
    (h : ∀ r ∈ disk, r.Stamped) (hwell : MergesWell disk incoming) :
    ∀ r ∈ writeRecord disk incoming, r.Stamped := by
  rintro r hr
  obtain rfl := Option.some.inj hr
  cases disk with
  | none => exact hwell
  | some existing => exact ((merge_iff (h existing rfl)).mpr hwell).2

theorem lasts_run {disk : Option JobRecord} {writes : List JobRecord} (hstamped : ∀ r ∈ disk, r.Stamped)
    (h : Along writeRecord MergesWell disk writes) :
    (∀ r ∈ run writeRecord disk writes, r.Stamped) ∧
      ∀ r ∈ disk, ∃ r' ∈ run writeRecord disk writes, r.Lasts r' := by
  refine run_invariant_along
    (I := fun now => (∀ r ∈ now, r.Stamped) ∧ ∀ r ∈ disk, ∃ r' ∈ now, r.Lasts r')
    (fun now incoming hnow hwell => ?_) ⟨hstamped, fun r hr => ⟨r, hr, .refl r⟩⟩ h
  · refine ⟨stamped_writeRecord hnow.1 hwell, fun r hr => ?_⟩
    obtain ⟨existing, hexisting, hlasts⟩ := hnow.2 r hr
    obtain rfl := Option.mem_def.mp hexisting
    have hnext := ((merge_iff (hnow.1 existing rfl)).mpr hwell).1
    exact ⟨_, rfl, hlasts.trans hnext⟩

/-- The counters, the warnings, the identity fields and the timestamps of a job's record are
what they should be over a sequence of writes exactly if every write merges well into what is
then on disk. -/
theorem lasting_iff (writes : List JobRecord) :
    Lasting writes ↔ Along writeRecord MergesWell none writes := by
  constructor
  · intro h
    induction writes using List.reverseRecOn with
    | nil => trivial
    | append_singleton writes incoming ih =>
        have hbefore : Lasting writes := fun before between after heq =>
          h before between (after ++ [incoming]) (by rw [heq, List.append_assoc])
        refine along_append_iff.mpr ⟨ih hbefore, ?_, trivial⟩
        obtain ⟨hstamped, hlasts⟩ := h writes [incoming] [] (by simp)
        have hlast := (h (writes ++ [incoming]) [] [] (by simp)).1
        rw [run_snoc] at hlast
        rw [run_snoc] at hlasts
        have hnext := hlast _ (Option.mem_some_self _)
        generalize run writeRecord none writes = disk at *
        cases disk with
        | none => exact hnext
        | some existing =>
            obtain ⟨r', hr', hexisting⟩ := hlasts existing (Option.mem_some_self _)
            rw [Option.mem_def, Option.some_inj] at hr'
            subst hr'
            exact (merge_iff (hstamped existing (Option.mem_some_self _))).mp ⟨hexisting, hnext⟩
  · intro h before between after heq
    rw [heq] at h
    have hfirst := (along_append_iff.mp h).1
    obtain ⟨hbefore, hbetween⟩ := along_append_iff.mp hfirst
    have hstart : ∀ r ∈ (none : Option JobRecord), r.Stamped := fun r hr =>
      absurd hr (Option.not_mem_none r)
    have hstamped := (lasts_run hstart hbefore).1
    rw [run_append]
    exact ⟨hstamped, (lasts_run hstamped hbetween).2⟩

def warnedRecord : JobRecord where
  jobId := "job_1"
  createdAtMs := 1
  updatedAtMs := 1
  status := { status := .inProgress, phase := .planning, checkpoint := .relationshipResolved,
              warnings := ["skipped a file"] }

theorem warning_lost :
    ¬Lasting [warnedRecord, { warnedRecord with
      updatedAtMs := 2
      status := { status := .inProgress, phase := .apply, checkpoint := .applyStarted } }] := by
  intro h
  obtain ⟨-, hlasts⟩ := h [warnedRecord] [_] [] rfl
  obtain ⟨r', hr', hwarned⟩ := hlasts warnedRecord rfl
  obtain rfl := Option.some.inj hr'
  exact absurd (hwarned.warnings (List.mem_singleton_self _)) List.not_mem_nil

end DevPilot.Replication
