import DevPilot.Replication.ExecuteLeases

/-!
The gates of an execution: when a plan may be applied, a baseline committed and
a job recorded completed.
-/

namespace DevPilot.Replication

open Programs Program Contract Runs

structure Course where
  /-- A safety check has passed since the last transfer. -/
  checked : Bool := false
  /-- No record has been given back since the last transfer. -/
  transferring : Bool := false
  /-- The record given back after a transfer was at another checkpoint than the
  one that the next safety check asks for. -/
  strayed : Bool := false
  committed : Bool := false
  commitFailed : Bool := false
  /-- A record has been given back since the baseline failed to be committed. -/
  abandoned : Bool := false

structure Gates where
  course : Course := {}
  /-- The record found by the last read of the store. -/
  lastRead : Option JobRecord := none
  /-- The record found by the write that is under way. -/
  existing : Option JobRecord := none

/-- Nothing has ended the job and nobody has asked to cancel it. -/
def JobRecord.Open (r : JobRecord) : Prop := r.isTerminal = false ∧ r.cancelRequestedAtMs = none

instance (r : JobRecord) : Decidable r.Open := inferInstanceAs (Decidable (_ ∧ _))

def SafetyResult.passes : SafetyResult → Bool
  | .null => true
  | .record _ => false
  | .report r => r.blockingDivergenceCandidates = []

/-- A record from which an execution goes on to the second safety check, or past
the plan. -/
def JobRecord.endsTransfer (r : JobRecord) : Bool :=
  r.checkpoint = .blobTransferCompleted || r.reached .applyCompleted

def Course.note (c : Course) : Event Op Op.Answer → Course
  | ⟨.readJob site, .ok (some r)⟩ =>
      if site.gives r then { c with
        transferring := false
        strayed := c.strayed || (c.transferring && !r.endsTransfer)
        abandoned := c.abandoned || c.commitFailed }
      else c
  | ⟨.assertSafeToApply .., .ok result⟩ => { c with checked := c.checked || result.passes }
  | ⟨.transferMissingBlobs .., _⟩ => { c with checked := false, transferring := true }
  | ⟨.commitBaseline .., .ok _⟩ => { c with committed := true }
  | ⟨.commitBaseline .., .error _⟩ => { c with commitFailed := true }
  | _ => c

namespace Gates

def observe (s : Gates) (e : Event Op Op.Answer) : Gates where
  course := s.course.note e
  lastRead := match e with
    | ⟨.readJob _, r⟩ => r.toOption.join
    | _ => s.lastRead
  existing := match e with
    | ⟨.readExisting, r⟩ => r.toOption.join
    | _ => s.existing

/-- A plan is applied after a safety check that no transfer followed; the plan
and the baseline meet an open record; and the job is recorded completed only
once the baseline is committed. -/
def Allowed (s : Gates) : Event Op Op.Answer → Prop
  | ⟨.applyPlan .., _⟩ => s.course.checked = true ∧ ∃ r ∈ s.lastRead, r.Open
  | ⟨.commitBaseline .., _⟩ => ∃ r ∈ s.lastRead, r.Open
  | ⟨.replaceJob record, _⟩ =>
      record.status.status = .completed →
        s.course.committed = true ∨ ∃ r ∈ s.existing, r.status.status = .completed
  | _ => True

/-- The record read last is not one of those that the gates let through: an
outcome other than an abort, or a request to cancel at time 0. -/
def PassesRightly (s : Gates) : Prop :=
  ∀ r ∈ s.lastRead, r.status.status ∉ [.completed, .failed, .awaitingRecovery] ∧
    r.cancelRequestedAtMs ≠ some 0

/-- What other writers are expected not to interfere with: the gates, the
record that ends a transfer and the outcome of a failed commit. -/
def Expected (s : Gates) : Event Op Op.Answer → Prop
  | ⟨.applyPlan .., _⟩ => s.PassesRightly ∧ s.course.strayed = false
  | ⟨.commitBaseline .., _⟩ => s.PassesRightly
  | ⟨.readJob .current, .ok (some r)⟩ => s.course.abandoned = true → r.isTerminal = true
  | _ => True

end Gates

def gates : Contract Op Op.Answer Gates where
  observe := Gates.observe
  Expected := Gates.Expected
  Allowed := Gates.Allowed

/-- `c'` is at the same point as `c`, but for records given back in between. -/
structure Course.Frame (c c' : Course) : Prop where
  checked : c'.checked = c.checked
  committed : c'.committed = c.committed
  commitFailed : c'.commitFailed = c.commitFailed
  strayed : c.strayed = true → c'.strayed = true
  abandoned : c.abandoned = true → c'.abandoned = true

namespace Course.Frame

protected theorem refl (c : Course) : c.Frame c := ⟨rfl, rfl, rfl, id, id⟩

protected theorem trans {c₁ c₂ c₃ : Course} (h : c₁.Frame c₂) (h' : c₂.Frame c₃) : c₁.Frame c₃ :=
  ⟨h'.checked.trans h.checked, h'.committed.trans h.committed, h'.commitFailed.trans h.commitFailed,
    h'.strayed ∘ h.strayed, h'.abandoned ∘ h.abandoned⟩

end Course.Frame

/-- The course after a record has been given back. -/
structure Course.Given (c c' : Course) (r : JobRecord) : Prop where
  frame : c.Frame c'
  abandoned : c.commitFailed = true → c'.abandoned = true
  transferred : c.transferring = true → r.endsTransfer = true ∨ c'.strayed = true

variable {α β : Type} {s : Gates}

/-- `q` does what is allowed and frames the course. -/
def Keeps (s : Gates) (q : Job α) (Q : Gates → α → Prop) : Prop :=
  gates.Safe s q (fun s' a => s.course.Frame s'.course ∧ Q s' a) fun s' _ => s.course.Frame s'.course

namespace Keeps

theorem mono {q : Job α} {Q Q' : Gates → α → Prop} (h : Keeps s q Q) (hQ : ∀ s' a, Q s' a → Q' s' a) :
    Keeps s q Q' :=
  Safe.mono h (fun s' a ha => ⟨ha.1, hQ s' a ha.2⟩) fun _ _ => id

theorem pure {a : α} {Q : Gates → α → Prop} (h : Q s a) : Keeps s (Pure.pure a) Q := ⟨.refl _, h⟩

theorem throw (e : Failure) {Q : Gates → α → Prop} : Keeps s (throw e : Job α) Q := Course.Frame.refl _

theorem bind {q : Job α} {f : α → Job β} {Q : Gates → α → Prop} {R : Gates → β → Prop}
    (hq : Keeps s q Q) (hf : ∀ s' a, s.course.Frame s'.course → Q s' a → Keeps s' (f a) R) :
    Keeps s (q >>= f) R :=
  (safe_bind q f).mpr <| Safe.mono hq (fun s' a ha =>
    Safe.mono (hf s' a ha.1 ha.2) (fun _ _ hb => ⟨ha.1.trans hb.1, hb.2⟩) fun _ _ => ha.1.trans)
    fun _ _ => id

theorem tryCatch {q : Job α} {handle : Failure → Job α} {Q : Gates → α → Prop} (hq : Keeps s q Q)
    (hhandle : ∀ s' e, s.course.Frame s'.course → Keeps s' (handle e) Q) :
    Keeps s (tryCatch q handle) Q :=
  (safe_tryCatch q handle).mpr <| Safe.mono hq (fun _ _ => id) fun s' e he =>
    Safe.mono (hhandle s' e he) (fun _ _ hb => ⟨he.trans hb.1, hb.2⟩) fun _ _ => he.trans

theorem ensuring {q : Job α} {cleanup : Job Unit} {Q : Gates → α → Prop}
    (hq : Keeps s q Q) (hcleanup : ∀ s', Keeps s' cleanup fun _ _ => True) :
    Keeps s (q.ensuring cleanup) fun _ _ => True :=
  (safe_ensuring q cleanup).mpr <| Safe.mono hq
    (fun s' _ ha => Safe.mono (hcleanup s') (fun _ _ hb => ⟨ha.1.trans hb.1, trivial⟩)
      fun _ _ => ha.1.trans)
    fun s' _ ha => Safe.mono (hcleanup s') (fun _ _ hb => ha.trans hb.1) fun _ _ => ha.trans

theorem ite {b : Prop} [Decidable b] {q q' : Job α} {Q : Gates → α → Prop} (h : b → Keeps s q Q)
    (h' : ¬b → Keeps s q' Q) : Keeps s (if b then q else q') Q := by
  split
  · exact h ‹_›
  · exact h' ‹_›

end Keeps

def Op.Quiet : Op → Prop
  | .now | .tryAcquireLease _ | .renewLease _ | .releaseLease _ | .startHeartbeat _ | .stopHeartbeat _
  | .removeStagingDirectory | .readRelationship _ | .resolveSourceOffer _ | .casContains _ => True
  | _ => False

theorem observe_of_quiet {e : Event Op Op.Answer} (he : e.1.Quiet) :
    s.Allowed e ∧ s.observe e = s := by
  obtain ⟨o, r⟩ := e
  cases o with
  | now | tryAcquireLease lease | renewLease lease | releaseLease lease | startHeartbeat lease
  | stopHeartbeat lease | removeStagingDirectory | readRelationship relationshipId
  | resolveSourceOffer offerId | casContains digest => exact ⟨trivial, rfl⟩
  | _ => cases he

theorem keeps_of_quiet {q : Job α} (hq : q.Uses Op.Quiet) : Keeps s q fun s' _ => s' = s := by
  refine Safe.mono (safe_of_uses (A := Op.Quiet) (I := (· = s)) ?_ hq rfl) ?_ ?_
  · rintro s' e rfl he
    exact observe_of_quiet he
  · rintro s' a rfl
    exact ⟨.refl _, rfl⟩
  · rintro s' e rfl
    exact .refl _

theorem quiet_resolveNowMs : resolveNowMs.Uses Op.Quiet := uses_call trivial uses_ofExcept

theorem quiet_removeStagingDirectory : removeStagingDirectory.Uses Op.Quiet :=
  uses_call trivial uses_ofExcept

theorem status_mergeStatus (existing incoming : JobStatus) :
    (mergeStatus existing incoming).status = incoming.status ∨
      (mergeStatus existing incoming).status = existing.status := by
  rw [mergeStatus]
  split
  · split
    · exact .inl rfl
    · exact .inr rfl
  · split <;> exact .inl rfl

theorem completed_of_merge {existing : Option JobRecord} {incoming : JobRecord}
    (h : (mergeJobRecordsForWrite existing incoming).status.status = .completed) :
    incoming.status.status = .completed ∨ ∃ r ∈ existing, r.status.status = .completed := by
  cases existing with
  | none => exact .inl h
  | some existing =>
      rw [mergeJobRecordsForWrite] at h
      by_cases hterminal : existing.isTerminal = true
      · rw [if_pos hterminal] at h
        exact .inr ⟨existing, rfl, h⟩
      · rw [if_neg hterminal] at h
        rcases status_mergeStatus existing.status incoming.status with hstatus | hstatus
        · exact .inl (hstatus.symm.trans h)
        · exact .inr ⟨existing, rfl, hstatus.symm.trans h⟩

theorem keeps_writeJob {record : JobRecord}
    (h : record.status.status = .completed → s.course.committed = true) :
    Keeps s (writeJob record) fun s' _ => s'.course = s.course := by
  rw [writeJob]
  refine .bind (Q := fun s' existing => s'.course = s.course ∧ s'.existing = existing) ?_ ?_
  · intro r _
    refine ⟨trivial, ?_⟩
    cases r with
    | ok existing => exact ⟨.refl _, rfl, rfl⟩
    | error e => exact .refl _
  · rintro s' existing - ⟨hcourse, hexisting⟩ r _
    refine ⟨fun hcompleted => ?_, ?_⟩
    · rw [hcourse, hexisting]
      exact (completed_of_merge hcompleted).imp_left h
    · cases r with
      | ok _ => exact ⟨.refl _, hcourse⟩
      | error e => exact .refl _

theorem frame_note_readJob (c : Course) (site : ReadSite) (r : JobRecord) :
    c.Frame (c.note ⟨.readJob site, .ok (some r)⟩) := by
  rw [Course.note]
  split
  · exact ⟨rfl, rfl, rfl, fun h => by rw [h]; rfl, fun h => by rw [h]; rfl⟩
  · exact .refl c

def Found (s : Gates) (site : ReadSite) (s' : Gates) : Option JobRecord → Prop
  | none => True
  | some r => gates.Expected s ⟨.readJob site, .ok (some r)⟩ ∧
      s' = s.observe ⟨.readJob site, .ok (some r)⟩

theorem keeps_readJob (site : ReadSite) :
    Keeps s (readJob site) fun s' current => Found s site s' current := by
  intro r hr
  refine ⟨trivial, ?_⟩
  rcases r with e | _ | r
  · exact .refl _
  · exact ⟨.refl _, trivial⟩
  · exact ⟨frame_note_readJob s.course site r, hr, rfl⟩

theorem given_of_found {site : ReadSite} {s' : Gates} {r : JobRecord} (h : Found s site s' (some r))
    (hgives : site.gives r = true) : s.course.Given s'.course r := by
  obtain ⟨-, rfl⟩ := h
  have hnote : (s.observe ⟨.readJob site, .ok (some r)⟩).course = { s.course with
      transferring := false
      strayed := s.course.strayed || (s.course.transferring && !r.endsTransfer)
      abandoned := s.course.abandoned || s.course.commitFailed } := if_pos hgives
  refine ⟨frame_note_readJob s.course site r, fun hfailed => ?_, fun htransferring => ?_⟩
  · rw [hnote, hfailed]
    exact Bool.or_true _
  · rw [hnote, htransferring]
    cases r.endsTransfer <;> simp

theorem course_of_found {site : ReadSite} {s' : Gates} {r : JobRecord} (h : Found s site s' (some r))
    (hgives : site.gives r = false) : s'.course = s.course := by
  obtain ⟨-, rfl⟩ := h
  change s.course.note ⟨.readJob site, .ok (some r)⟩ = s.course
  rw [Course.note, if_neg (Bool.eq_false_iff.mp hgives)]

def Proposes (run : JobRecord → Job JobRecord) (P : Prop) : Prop :=
  ∀ (s : Gates) (current : JobRecord), current.isTerminal = false →
    Keeps s (run current) fun s' next => s' = s ∧ (next.status.status = .completed → P)

theorem keeps_persistNext (p : ExecuteParams) {current : JobRecord} {run : JobRecord → Job JobRecord}
    (hrun : Proposes run (s.course.committed = true)) (hcurrent : current.isTerminal = false) :
    Keeps s (persistNext p current run) fun s' r => s.course.Given s'.course r := by
  refine .bind (hrun s current hcurrent) ?_
  rintro s next - ⟨rfl, hnext⟩
  refine .ite (fun _ => .throw _) fun _ => .bind (keeps_of_quiet quiet_resolveNowMs) ?_
  rintro s persistedAtMs - rfl
  refine .bind (keeps_writeJob hnext) fun s' _ _ hcourse => ?_
  refine .bind (keeps_readJob .merged) fun s'' merged _ hmerged => ?_
  cases merged with
  | none => exact .throw _
  | some merged =>
      rw [← hcourse]
      exact .pure (given_of_found hmerged rfl)

theorem keeps_runJob (p : ExecuteParams) {run : JobRecord → Job JobRecord}
    (hrun : s.course.abandoned = false → Proposes run (s.course.committed = true)) :
    Keeps s (runJob p run) fun s' r => s.course.Given s'.course r := by
  refine .bind (keeps_readJob .current) fun s' current _ hcurrent => ?_
  cases current with
  | none => exact .throw _
  | some current =>
      refine .ite (fun hterminal => .pure (given_of_found hcurrent hterminal)) fun hterminal => ?_
      have hopen : current.isTerminal = false := Bool.eq_false_iff.mpr hterminal
      have hcourse := course_of_found hcurrent hopen
      -- A job that was abandoned has an outcome, so that no runner is run.
      have habandoned : s.course.abandoned = false :=
        Bool.eq_false_iff.mpr fun h => hterminal (hcurrent.1 h)
      rw [← hcourse] at hrun habandoned ⊢
      refine .tryCatch (keeps_persistNext p (hrun habandoned) hopen) fun s'' error _ => ?_
      refine .bind (keeps_of_quiet quiet_resolveNowMs) ?_
      rintro s'' failedAtMs - rfl
      refine .bind (keeps_writeJob fun h => ?_) fun _ _ _ _ => .throw error
      cases error <;> cases h

theorem proposes_pure {f : JobRecord → JobRecord} {P : Prop}
    (hf : ∀ r, r.isTerminal = false → (f r).status.status = .completed → P) :
    Proposes (fun record => pure (f record)) P :=
  fun _ current hcurrent => .pure ⟨rfl, hf current hcurrent⟩

theorem keeps_abortJobAndReturn (p : ExecuteParams) :
    Keeps s (abortJobAndReturn p) fun s' r => s.course.Given s'.course r := by
  refine .bind (keeps_of_quiet quiet_resolveNowMs) ?_
  rintro s nowMs - rfl
  refine .bind (keeps_runJob p fun _ => proposes_pure (f := (abortRecord · nowMs)) fun r _ => nofun)
    fun s' record _ hrecord => ?_
  refine .bind (keeps_of_quiet quiet_removeStagingDirectory) ?_
  rintro s'' _ - rfl
  exact .pure hrecord

def Gates.PassesCancellation (s : Gates) : Prop :=
  ∃ r ∈ s.lastRead, r.cancelRequested = false ∧ r.status.status ≠ .aborted

theorem keeps_abortIfCancellationRequested (p : ExecuteParams) :
    Keeps s (abortIfCancellationRequested p) fun s' result =>
      (result = none → s'.PassesCancellation) ∧ ∀ r ∈ result, s.course.Given s'.course r := by
  refine .bind (keeps_readJob .cancellation) fun s' current _ hcurrent => ?_
  cases current with
  | none => exact .throw _
  | some current =>
      have hcourse := course_of_found hcurrent rfl
      refine .ite (fun hpasses => .pure ⟨fun _ => ?_, fun _ h => nomatch h⟩) fun _ => ?_
      · obtain ⟨-, rfl⟩ := hcurrent
        simp at hpasses
        exact ⟨current, rfl, hpasses⟩
      · refine .bind (keeps_abortJobAndReturn p) fun s'' record _ hrecord => .pure ⟨nofun, ?_⟩
        rintro _ ⟨⟩
        rwa [← hcourse]

theorem keeps_markJobFailedAndRethrow (p : ExecuteParams) (error : Failure) {Q : Gates → α → Prop} :
    Keeps s (markJobFailedAndRethrow p error) Q := by
  refine .bind (.ensuring (keeps_runJob p fun _ _ _ _ => .throw error) fun _ => ?_) fun _ _ _ _ => .throw _
  exact (keeps_of_quiet quiet_removeStagingDirectory).mono fun _ _ _ => trivial

theorem keeps_abortOrFail (p : ExecuteParams) (error : Failure) :
    Keeps s (abortOrFail p error) fun s' r => s.course.Given s'.course r := by
  refine .ite (fun _ => keeps_abortJobAndReturn p) fun _ => ?_
  refine .bind (keeps_abortIfCancellationRequested p) fun s' cancelled _ hcancelled => ?_
  cases cancelled with
  | none => exact keeps_markJobFailedAndRethrow p error
  | some cancelled => exact .pure (hcancelled.2 cancelled rfl)

theorem keeps_stopIfLeaseLost (p : ExecuteParams) (lease : LeaseOf) :
    Keeps s (stopIfLeaseLost p lease) fun s' result => result = none → s' = s := by
  refine .bind (keeps_of_quiet quiet_resolveNowMs) ?_
  rintro s _ - rfl
  refine .bind (Q := fun s' _ => s' = s) (.tryCatch (keeps_of_quiet (uses_call trivial uses_ofExcept))
    fun _ error _ => keeps_markJobFailedAndRethrow p error) ?_
  rintro s renewed - rfl
  refine .ite (fun _ => .pure fun _ => rfl) fun _ => ?_
  refine .bind (keeps_readJob .latest) fun s' latest _ _ => ?_
  cases latest with
  | none => exact .throw _
  | some latest => exact .pure nofun

theorem keeps_advance (p : ExecuteParams) {f : JobRecord → JobRecord}
    (hf : ∀ r, (f r).status.status = .inProgress) :
    Keeps s (advance p f) fun s' r => s.course.Given s'.course r := by
  refine keeps_runJob p fun _ s' current _ => .ite (fun _ => ?_) fun _ => ?_
  · refine .bind (keeps_of_quiet quiet_resolveNowMs) ?_
    rintro s' nowMs - rfl
    exact .pure ⟨rfl, nofun⟩
  · exact .pure ⟨rfl, fun h => absurd ((hf current).symm.trans h) nofun⟩

def Reaches (s : Gates) (q : Job α) (Q : Gates → α → Prop) : Prop := gates.Safe s q Q fun _ _ => True

def OnLatest (P : Gates → JobRecord → Prop) (s : Gates) : Progress → Prop
  | .returned _ => True
  | .latest r => P s r

theorem Keeps.reaches {q : Job α} {Q Q' : Gates → α → Prop} (h : Keeps s q Q)
    (hQ : ∀ s' a, s.course.Frame s'.course → Q s' a → Q' s' a) : Reaches s q Q' :=
  Safe.mono h (fun s' a ha => hQ s' a ha.1 ha.2) fun _ _ _ => trivial

namespace Reaches

theorem mono {q : Job α} {Q Q' : Gates → α → Prop} (h : Reaches s q Q) (hQ : ∀ s' a, Q s' a → Q' s' a) :
    Reaches s q Q' :=
  Safe.mono h hQ fun _ _ => id

theorem pure {a : α} {Q : Gates → α → Prop} (h : Q s a) : Reaches s (Pure.pure a) Q := h

theorem bind {q : Job α} {f : α → Job β} {Q : Gates → α → Prop} {R : Gates → β → Prop}
    (hq : Reaches s q Q) (hf : ∀ s' a, Q s' a → Reaches s' (f a) R) : Reaches s (q >>= f) R :=
  (safe_bind q f).mpr <| Safe.mono hq hf fun _ _ => id

theorem ite {b : Prop} [Decidable b] {q q' : Job α} {Q : Gates → α → Prop} (h : b → Reaches s q Q)
    (h' : ¬b → Reaches s q' Q) : Reaches s (if b then q else q') Q := by
  split
  · exact h ‹_›
  · exact h' ‹_›

end Reaches

variable {P : Gates → JobRecord → Prop} (p : ExecuteParams)

theorem reaches_stopOr {stopped : Job (Option JobRecord)} {rest : Job Progress}
    (h : Reaches s stopped fun s' result => result = none → Reaches s' rest (OnLatest P)) :
    Reaches s (stopOr stopped rest) (OnLatest P) := by
  refine .bind h fun s' result hresult => ?_
  cases result with
  | none => exact hresult rfl
  | some record => exact trivial

theorem reaches_stopIfLeaseLost {lease : LeaseOf} {rest : Job Progress}
    (h : Reaches s rest (OnLatest P)) :
    Reaches s (stopOr (stopIfLeaseLost p lease) rest) (OnLatest P) := by
  refine reaches_stopOr <| (keeps_stopIfLeaseLost p lease).reaches fun s' result _ hsame hnone => ?_
  rw [hsame hnone]
  exact h

theorem reaches_orRecord {callback : Job α} {f : JobRecord ⊕ α → Job β} {Q : Gates → α → Prop}
    {R : Gates → β → Prop} {E : Gates → Failure → Prop} (h : gates.Safe s callback Q E)
    (hok : ∀ s' a, Q s' a → Reaches s' (f (.inr a)) R)
    (hrecord : ∀ s' record, Reaches s' (f (.inl record)) R) :
    Reaches s (orRecord p callback >>= f) R := by
  refine .bind (Q := fun s' => Sum.elim (fun _ => True) (Q s')) ?_ fun s' result hresult => ?_
  · refine (safe_tryCatch _ _).mpr <| (safe_bind _ _).mpr <| h.mono (fun _ _ => id) fun s' error _ => ?_
    exact Reaches.bind ((keeps_abortOrFail p error).reaches fun _ _ _ _ => trivial)
      fun _ _ (_ : True) => trivial
  · cases result with
    | inl record => exact hrecord s' record
    | inr a => exact hok s' a hresult

theorem reaches_advance {f : JobRecord → JobRecord}
    (hf : ∀ r, (f r).status.status = .inProgress)
    (hP : ∀ (s₁ s₂ : Gates) (r : JobRecord), s.course.Given s₁.course r → s₁.course.Frame s₂.course → P s₂ r) :
    Reaches s (do
      let latest ← advance p f
      stopOr (abortIfCancellationRequested p) (return .latest latest)) (OnLatest P) := by
  refine .bind ((keeps_advance p hf).reaches fun _ _ _ => id) fun s₁ latest hlatest => ?_
  refine reaches_stopOr <| (keeps_abortIfCancellationRequested p).reaches fun s₂ _ hframe _ _ => ?_
  exact hP s₁ s₂ latest hlatest hframe

theorem reaches_advanceUnless {reached : Bool} {f : JobRecord → JobRecord} (latest : JobRecord)
    (hf : ∀ r, (f r).status.status = .inProgress) :
    Reaches s (if reached then return latest else advance p f) fun s' _ => s.course.Frame s'.course :=
  .ite (fun _ => .pure (.refl _)) fun _ => (keeps_advance p hf).reaches fun _ _ hframe _ => hframe

theorem reaches_runSafetyCheckIfNeeded (hp : p.assertsSafeToApply = true) (offer : SourceOffer)
    (job : JobRecord) :
    Reaches s (runSafetyCheckIfNeeded p offer job) fun s' result =>
      result = none → s'.course.checked = true := by
  refine .ite (fun h => absurd h (by rw [hp]; decide)) fun _ => ?_
  refine reaches_orRecord p (E := fun _ _ => True)
    (Q := fun s' result => result.passes = true → s'.course.checked = true) ?_
    (fun s' result hpasses => ?_) fun _ _ => .pure nofun
  · intro r _
    refine ⟨trivial, ?_⟩
    cases r with
    | ok result =>
        intro hpasses
        change (s.course.checked || result.passes) = true
        rw [hpasses, Bool.or_true]
    | error e => trivial
  · cases result with
    | null => exact .pure fun _ => hpasses rfl
    | record record => exact .pure nofun
    | report safeCheck =>
        refine .ite (fun hnone => .pure fun _ => hpasses (decide_eq_true hnone)) fun _ => ?_
        refine .bind ((keeps_of_quiet quiet_resolveNowMs).reaches fun _ _ _ => id) fun s₁ nowMs _ => ?_
        refine .bind ((keeps_runJob p fun _ => ?_).reaches fun _ _ _ _ => trivial) fun s₂ updated _ => ?_
        · exact proposes_pure (P := _) fun _ _ => nofun
        · exact .bind ((keeps_of_quiet quiet_removeStagingDirectory).reaches fun _ _ _ => id)
            fun _ _ _ => .pure nofun

def MayApply (s : Gates) (latest : JobRecord) : Prop :=
  s.course.checked = true ∨ latest.endsTransfer = true ∨ s.course.strayed = true

theorem reaches_transferBlobs (offer : SourceOffer) (latest : JobRecord)
    (hs : s.course.checked = true) :
    Reaches s (transferBlobs p offer latest) (OnLatest MayApply) := by
  refine .ite (fun _ => .pure (.inl hs)) fun _ => ?_
  refine .bind ((keeps_of_quiet (uses_planMissingBlobs (fun _ => trivial) _ _ _)).reaches
    fun _ _ _ => id) fun s₁ missingPlan _ => ?_
  refine .bind (reaches_advanceUnless p latest fun _ => rfl) fun s₂ latest _ => ?_
  refine reaches_stopOr <| (keeps_abortIfCancellationRequested p).reaches fun s₃ _ _ _ _ => ?_
  refine .bind (reaches_advanceUnless p latest fun _ => rfl) fun s₄ latest _ => ?_
  refine reaches_stopOr <| (keeps_abortIfCancellationRequested p).reaches fun s₅ _ _ _ _ => ?_
  refine reaches_orRecord p (Q := fun s' _ => s'.course.transferring = true) (E := fun _ _ => True)
    ?_ (fun s₆ result htransferring => ?_) fun _ _ => trivial
  · intro r _
    refine ⟨trivial, ?_⟩
    cases r with
    | ok result => rfl
    | error e => trivial
  · refine reaches_stopIfLeaseLost p (reaches_stopIfLeaseLost p ?_)
    exact reaches_advance p (fun _ => rfl) fun s₇ s₈ r hgiven hframe =>
      .inr ((hgiven.transferred htransferring).imp_right hframe.strayed)

theorem Gates.open_of_passes (h : s.PassesCancellation) (hrightly : s.PassesRightly) :
    ∃ r ∈ s.lastRead, r.Open := by
  obtain ⟨r, hr, hcancel, haborted⟩ := h
  obtain ⟨hstatus, hzero⟩ := hrightly r hr
  refine ⟨r, hr, ?_, ?_⟩
  · rw [JobRecord.isTerminal]
    cases h : r.status.status <;> simp_all [JobState.isTerminal]
  · cases h : r.cancelRequestedAtMs with
    | none => rfl
    | some t =>
        rw [JobRecord.cancelRequested, h] at hcancel
        have ht : t = 0 := by simpa using hcancel
        exact absurd (h.trans (congrArg some ht)) hzero

theorem reaches_secondCheck (hp : p.assertsSafeToApply = true) (offer : SourceOffer)
    {latest : JobRecord} (h : MayApply s latest) (hcompleted : ¬latest.reached .applyCompleted = true) :
    Reaches s
      (if p.assertsSafeToApply && latest.reached .blobTransferCompleted && !latest.reached .applyStarted
        then runSafetyCheckIfNeeded p offer latest else return none)
      fun s' result => result = none → s'.course.checked = true ∨ s'.course.strayed = true := by
  refine .ite (fun _ => ?_) fun hskipped => .pure fun _ => ?_
  · exact (reaches_runSafetyCheckIfNeeded p hp offer latest).mono fun _ _ h hnone => .inl (h hnone)
  · rcases h with h | h | h
    · exact .inl h
    · refine absurd ?_ hskipped
      rw [JobRecord.endsTransfer, Bool.or_eq_true, or_iff_left hcompleted, decide_eq_true_iff] at h
      simp [hp, JobRecord.reached, h, Checkpoint.index]
    · exact .inr h

theorem reaches_applyPart (hp : p.assertsSafeToApply = true) (offer : SourceOffer)
    (latest : JobRecord) (h : MayApply s latest) :
    Reaches s (applyPart p offer latest) (OnLatest fun _ _ => True) := by
  refine .ite (fun _ => .pure trivial) fun hcompleted => ?_
  refine reaches_stopIfLeaseLost p (reaches_stopIfLeaseLost p (reaches_stopOr ?_))
  refine (reaches_secondCheck p hp offer h hcompleted).mono fun s₁ result hresult hnone => ?_
  have hchecked := hresult hnone
  refine .bind (reaches_advanceUnless p latest fun _ => rfl) fun s₂ latest hframe => ?_
  refine reaches_stopOr <| (keeps_abortIfCancellationRequested p).reaches fun s₃ _ hframe₃ hpasses hnone => ?_
  have hframe := hframe.trans hframe₃
  refine reaches_orRecord p (Q := fun _ _ => True) (E := fun _ _ => True) (fun r hexpected => ?_)
    (fun s₄ result _ => ?_) fun _ _ => .pure trivial
  · obtain ⟨hrightly, hstrayed⟩ := hexpected
    have hchecked₃ : s₃.course.checked = true := by
      rcases hchecked with h | h
      · exact hframe.checked.trans h
      · exact absurd (hframe.strayed h) (Bool.eq_false_iff.mp hstrayed)
    refine ⟨⟨hchecked₃, Gates.open_of_passes (hpasses.1 hnone) hrightly⟩, ?_⟩
    cases r <;> exact trivial
  · refine reaches_stopIfLeaseLost p (reaches_stopIfLeaseLost p ?_)
    exact reaches_advance p (fun _ => rfl) fun _ _ _ _ _ => trivial

theorem reaches_completeJob (hs : s.course.committed = true ∨ s.course.abandoned = true) :
    Reaches s (completeJob p) (OnLatest fun _ _ => True) := by
  refine .bind ((keeps_readJob .afterCommit).reaches fun _ _ hframe _ => hframe)
    fun s₁ afterCommit hframe => ?_
  have hs₁ : s₁.course.committed = true ∨ s₁.course.abandoned = true :=
    hs.imp hframe.committed.trans hframe.abandoned
  refine reaches_stopOr ?_
  refine Reaches.mono (Q := fun s' _ => s' = s₁) ?_ ?_
  · cases afterCommit with
    | none => exact .pure rfl
    | some record =>
        exact .ite (fun _ => .bind ((keeps_of_quiet quiet_removeStagingDirectory).reaches
          fun _ _ _ => id) fun _ _ h => .pure h) fun _ => .pure rfl
  · rintro _ result rfl -
    refine reaches_stopIfLeaseLost p (reaches_stopIfLeaseLost p ?_)
    refine .bind ((keeps_of_quiet quiet_resolveNowMs).reaches fun _ _ _ => id) ?_
    rintro s₂ completedAtMs rfl
    refine .bind ((keeps_runJob p fun habandoned => ?_).reaches fun _ _ _ _ => trivial)
      fun s₃ latest _ => ?_
    · refine proposes_pure fun _ _ _ => hs₁.resolve_right ?_
      rw [habandoned]
      exact Bool.false_ne_true
    · exact .bind ((keeps_of_quiet quiet_removeStagingDirectory).reaches fun _ _ _ => id)
        fun _ _ _ => .pure trivial

theorem reaches_commitPart (offer : SourceOffer) (latest : JobRecord) :
    Reaches s (commitPart p offer latest) (OnLatest fun _ _ => True) := by
  refine .ite (fun _ => .pure trivial) fun _ => ?_
  refine reaches_stopIfLeaseLost p (reaches_stopIfLeaseLost p ?_)
  refine .bind ((keeps_advance p fun _ => rfl).reaches fun _ _ _ => id) fun s₁ latest _ => ?_
  refine reaches_stopOr <| (keeps_abortIfCancellationRequested p).reaches fun s₂ _ _ hpasses hnone => ?_
  refine .bind (Q := fun s' _ => s'.course.committed = true ∨ s'.course.abandoned = true) ?_
    fun s₃ _ h => reaches_completeJob p h
  refine (safe_tryCatch _ _).mpr fun r hrightly => ?_
  refine ⟨Gates.open_of_passes (hpasses.1 hnone) hrightly, ?_⟩
  cases r with
  | ok _ => exact .inl rfl
  | error error =>
      refine Reaches.bind ((keeps_abortOrFail p error).reaches fun _ _ _ => id) fun s₄ record hgiven => ?_
      exact .pure (.inr (hgiven.abandoned rfl))

theorem reaches_continueWith {Q : Gates → JobRecord → Prop} {part : Job Progress}
    {rest : JobRecord → Job Progress} (hpart : Reaches s part (OnLatest Q))
    (hrest : ∀ s' r, Q s' r → Reaches s' (rest r) (OnLatest P)) :
    Reaches s (continueWith part rest) (OnLatest P) := by
  refine .bind hpart fun s' progress hprogress => ?_
  cases progress with
  | returned record => exact .pure trivial
  | latest record => exact hrest s' record hprogress

theorem reaches_replicate (hp : p.assertsSafeToApply = true) (relationshipId : String)
    (offer : SourceOffer) (current : JobRecord) :
    Reaches s (replicate p relationshipId offer current) (OnLatest fun _ _ => True) := by
  refine .bind (reaches_advanceUnless p current fun _ => rfl) fun s₁ latest _ => ?_
  refine reaches_stopOr <| (keeps_abortIfCancellationRequested p).reaches fun s₂ _ _ _ _ => ?_
  refine reaches_stopOr <| (reaches_runSafetyCheckIfNeeded p hp offer latest).mono
    fun s₃ result hchecked hnone => ?_
  refine reaches_continueWith (reaches_transferBlobs p offer latest (hchecked hnone))
    fun s₄ latest hmay => ?_
  exact reaches_continueWith (reaches_applyPart p hp offer latest hmay)
    fun s₅ latest _ => reaches_commitPart p offer latest

abbrev Complies (s : Gates) (q : Job α) : Prop := Reaches s q fun _ _ => True

theorem Keeps.complies {q : Job α} {Q : Gates → α → Prop} (h : Keeps s q Q) : Complies s q :=
  h.reaches fun _ _ _ _ => trivial

namespace Complies

theorem of_quiet {q : Job α} (hq : q.Uses Op.Quiet) : Complies s q := (keeps_of_quiet hq).complies

theorem bind {q : Job α} {f : α → Job β} (hq : Complies s q) (hf : ∀ s' a, Complies s' (f a)) :
    Complies s (q >>= f) :=
  Reaches.bind hq fun s' a _ => hf s' a

theorem ite {b : Prop} [Decidable b] {q q' : Job α} (h : Complies s q) (h' : Complies s q') :
    Complies s (if b then q else q') :=
  Reaches.ite (fun _ => h) fun _ => h'

theorem ensuring {q : Job α} {cleanup : Job Unit} (hq : Complies s q)
    (hcleanup : ∀ s', Complies s' cleanup) : Complies s (q.ensuring cleanup) :=
  (safe_ensuring q cleanup).mpr <| Safe.mono hq (fun s' _ _ => hcleanup s') fun s' _ _ =>
    (hcleanup s').mono fun _ _ _ => trivial

end Complies

theorem complies_markJobFailedAndRethrow (error : Failure) :
    Complies s (markJobFailedAndRethrow p error : Job α) :=
  (keeps_markJobFailedAndRethrow (Q := fun _ _ => True) p error).complies

theorem complies_tryCatch {q : Job α} (hq : q.Uses Op.Quiet) :
    Complies s (tryCatch q (markJobFailedAndRethrow p)) :=
  ((keeps_of_quiet hq).mono fun _ _ _ => trivial).tryCatch
    (fun _ error _ => keeps_markJobFailedAndRethrow (Q := fun _ _ => True) p error) |>.complies

theorem complies_replicateOffer (hp : p.assertsSafeToApply = true) (current : JobRecord) :
    Complies s (replicateOffer p current) := by
  refine .ite (complies_markJobFailedAndRethrow p _) (.ite (complies_markJobFailedAndRethrow p _) ?_)
  refine .bind (complies_tryCatch p (uses_call trivial uses_ofExcept)) fun s₁ relationship => ?_
  cases relationship with
  | none => exact complies_markJobFailedAndRethrow p _
  | some relationshipId =>
      refine .bind (complies_tryCatch p (uses_call trivial uses_ofExcept)) fun s₂ offer => ?_
      refine Reaches.bind (reaches_replicate p hp relationshipId offer current) fun s₃ progress _ => ?_
      cases progress with
      | returned record => exact .pure trivial
      | latest record => exact .pure trivial

theorem complies_runJob {run : JobRecord → Job JobRecord} (hrun : Proposes run False) :
    Complies s (runJob p run) :=
  (keeps_runJob p fun _ s' current hcurrent => (hrun s' current hcurrent).mono fun _ _ h =>
    ⟨h.1, fun hcompleted => (h.2 hcompleted).elim⟩).complies

theorem complies_noteResumed (lease : AcquiredLease) (current : JobRecord) :
    Complies s (noteResumed p lease current) := by
  refine .ite ?_ (Reaches.pure trivial)
  refine .bind (complies_runJob p (proposes_pure fun r hr hcompleted => ?_)) fun s₁ _ => ?_
  · change r.status.status = .completed at hcompleted
    rw [JobRecord.isTerminal, hcompleted] at hr
    cases hr
  · refine .bind (keeps_readJob .resumed).complies fun s₂ current => ?_
    cases current with
    | none => exact (Keeps.throw (Q := fun _ _ => True) _).complies
    | some current => exact Reaches.pure trivial

theorem complies_awaitScope : Complies s (awaitScope p) := by
  refine .bind (keeps_abortIfCancellationRequested p).complies fun s₁ cancelled => ?_
  cases cancelled with
  | some cancelled => exact Reaches.pure trivial
  | none =>
      refine .bind (.of_quiet quiet_resolveNowMs) fun s₂ nowMs => ?_
      refine .bind (complies_runJob p (proposes_pure fun _ _ => nofun)) fun s₃ updated => ?_
      exact .bind (.of_quiet quiet_removeStagingDirectory) fun _ _ => Reaches.pure trivial

theorem complies_letGo (lease : LeaseOf) : Complies s (letGo lease) :=
  .of_quiet (uses_bind (uses_tryCatch (uses_call trivial uses_ofExcept) fun _ => uses_pure _)
    fun _ => uses_tryCatch (uses_call trivial uses_ofExcept) fun _ => uses_pure _)

theorem complies_underJobLease (hp : p.assertsSafeToApply = true) (lease : AcquiredLease)
    (current : JobRecord) : Complies s (underJobLease p lease current) := by
  refine .bind (keeps_abortIfCancellationRequested p).complies fun s₁ cancelled => ?_
  cases cancelled with
  | some cancelled => exact Reaches.pure trivial
  | none =>
      refine .bind (.of_quiet quiet_resolveNowMs) fun s₂ _ => ?_
      refine .bind (.of_quiet (uses_call trivial uses_ofExcept)) fun s₃ scopeLease => ?_
      cases scopeLease with
      | none => exact complies_awaitScope p
      | some scopeLease =>
          refine .bind (.of_quiet (uses_call trivial fun _ => trivial)) fun s₄ _ => ?_
          refine .ensuring (.bind (complies_noteResumed p lease current) fun s₅ current => ?_) fun _ =>
            complies_letGo .scope
          exact .ite (keeps_abortJobAndReturn p).complies (complies_replicateOffer p hp current)

theorem complies_executeJob (hp : p.assertsSafeToApply = true) : Complies s (executeJob p) := by
  refine .bind (keeps_readJob .start).complies fun s₁ current => ?_
  cases current with
  | none => exact (Keeps.throw (Q := fun _ _ => True) _).complies
  | some current =>
      refine .ite (Reaches.pure trivial) (.bind (.of_quiet quiet_resolveNowMs) fun s₂ _ => ?_)
      refine .bind (.of_quiet (uses_call trivial uses_ofExcept)) fun s₃ lease => ?_
      cases lease with
      | none => exact .bind (keeps_readJob .latest).complies fun _ _ => Reaches.pure trivial
      | some lease =>
          refine .bind (.of_quiet (uses_call trivial fun _ => trivial)) fun s₄ _ => ?_
          refine .bind (complies_runJob p (proposes_pure fun r hr hcompleted => ?_)) fun s₅ current => ?_
          · change r.status.status = .completed at hcompleted
            rw [JobRecord.isTerminal, hcompleted] at hr
            cases hr
          · refine .ite (Keeps.throw (Q := fun _ _ => True) _).complies ?_
            exact .ensuring (complies_underJobLease p hp lease current) fun _ => complies_letGo .job

/-- In every execution with a safety check in which no other writer interferes
with a gate, the end of a transfer or an abandoned job, whatever the environment
answers: plans and baselines meet an open record, a plan is applied after a
safety check, and the job is recorded completed after its baseline. -/
theorem gates_hold (hp : p.assertsSafeToApply = true) {σ : Type}
    (env : σ → (o : Op) → o.Answer × σ) (w : σ)
    (h : Along Gates.observe Gates.Expected {} ((executeJob p).exec env w).1) :
    Along Gates.observe Gates.Allowed {} ((executeJob p).exec env w).1 :=
  ((complies_executeJob p hp).along env w h).1

instance (s : Gates) : Decidable s.PassesRightly :=
  inferInstanceAs (Decidable (∀ r ∈ s.lastRead, _))

instance (s : Gates) (e : Event Op Op.Answer) : Decidable (s.Expected e) := by
  unfold Gates.Expected
  split <;> infer_instance

instance (s : Gates) (e : Event Op Op.Answer) : Decidable (s.Allowed e) := by
  unfold Gates.Allowed
  split <;> infer_instance

def offeredRecord : JobRecord := { pendingRecord with
  relationshipId := some "rel_1"
  directionId := some "dir_1"
  offerId := some "offer_1" }

theorem gates_hold_undisturbed :
    Along Gates.observe Gates.Allowed {}
      ((executeJob localParams).exec (undisturbed fun _ => id) offeredRecord).1 :=
  gates_hold localParams rfl (undisturbed fun _ => id) offeredRecord (by decide)

def recovered : Op → JobRecord → JobRecord
  | .assertSafeToApply job _, r =>
      if job.checkpoint = .blobTransferCompleted then { r with
        updatedAtMs := 2
        awaitingRecoveryAtMs := some 2
        lastErrorMessage := some "Workspace replication requires restart after daemon restart"
        status := { r.status with
          status := .awaitingRecovery
          warnings := ["recovered_after_daemon_restart"] } }
      else r
  | _, r => r

theorem applied_after_recovery :
    let events := ((executeJob localParams).exec (undisturbed recovered) offeredRecord).1
    (events.any fun
      | ⟨.applyPlan job _, _⟩ => job.status.status = .awaitingRecovery
      | _ => false) = true ∧
    ¬Along Gates.observe Gates.Allowed {} events := by
  decide

end DevPilot.Replication
