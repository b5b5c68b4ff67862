import DevPilot.Replication.ExecuteJob

/-!
The leases of an execution: what has been acquired is released and its
heartbeat stopped on every exit, if the attempt could be recorded.
-/

namespace DevPilot.Replication

open Programs Program Contract Runs

/-- `runWorkspaceReplicationJob` gives back the record that this read finds. -/
def ReadSite.gives : ReadSite → JobRecord → Bool
  | .merged, _ => true
  | .current, r => r.isTerminal
  | _, _ => false

structure Leases where
  held : LeaseOf → Bool := fun _ => false
  beating : LeaseOf → Bool := fun _ => false
  /-- The lease of the job is acquired and the attempt is not recorded yet. -/
  recording : Bool := false
  attemptLost : Bool := false

namespace Leases

/-- What the recording of an attempt needs: the clock and the store answer, and
the record given back names its relationship and direction. -/
def GoesWell : Event Op Op.Answer → Bool
  | ⟨.now, r⟩ => r.isOk
  | ⟨.readExisting, r⟩ => r.isOk
  | ⟨.replaceJob _, r⟩ => r.isOk
  | ⟨.readJob site, .ok (some r)⟩ =>
      !site.gives r || !(isMissing r.relationshipId || isMissing r.directionId)
  | ⟨.readJob _, _⟩ => false
  | _ => true

def note (s : Leases) : Event Op Op.Answer → Leases
  | ⟨.tryAcquireLease lease, .ok (some _)⟩ =>
      { s with
        held := Function.update s.held lease true
        recording := s.recording || lease = .job }
  | ⟨.releaseLease lease, _⟩ => { s with held := Function.update s.held lease false }
  | ⟨.startHeartbeat lease, _⟩ => { s with beating := Function.update s.beating lease true }
  | ⟨.stopHeartbeat lease, _⟩ => { s with beating := Function.update s.beating lease false }
  | ⟨.readJob site, .ok (some r)⟩ => { s with recording := s.recording && !site.gives r }
  | _ => s

def observe (s : Leases) (e : Event Op Op.Answer) : Leases :=
  { s.note e with attemptLost := s.attemptLost || (s.recording && !GoesWell e) }

def Released (s : Leases) : Prop := ∀ lease, s.held lease = false ∧ s.beating lease = false

/-- `Leases` as an observer that neither expects nor forbids anything. -/
def watch : Contract Op Op.Answer Leases := { observe := observe }

end Leases

def Op.KeepsLeases : Op → Prop
  | .tryAcquireLease _ | .releaseLease _ | .startHeartbeat _ | .stopHeartbeat _ => False
  | _ => True

section uses

variable (p : ExecuteParams)

theorem uses_resolveNowMs : resolveNowMs.Uses Op.KeepsLeases := uses_call trivial uses_ofExcept

theorem uses_readJob (site : ReadSite) : (readJob site).Uses Op.KeepsLeases :=
  uses_call trivial uses_ofExcept

theorem uses_writeJob (record : JobRecord) : (writeJob record).Uses Op.KeepsLeases :=
  uses_bind (uses_call trivial uses_ofExcept) fun _ => uses_call trivial uses_ofExcept

theorem uses_persistNext {current : JobRecord} {run : JobRecord → Job JobRecord}
    (hrun : (run current).Uses Op.KeepsLeases) : (persistNext p current run).Uses Op.KeepsLeases := by
  refine uses_bind hrun fun next => ?_
  split
  · exact uses_throw _
  · refine uses_bind uses_resolveNowMs fun persistedAtMs => ?_
    refine uses_bind (uses_writeJob _) fun _ => uses_bind (uses_call trivial uses_ofExcept) fun merged => ?_
    cases merged with
    | none => exact uses_throw _
    | some merged => exact uses_pure merged

theorem uses_runJob {run : JobRecord → Job JobRecord}
    (hrun : ∀ record, (run record).Uses Op.KeepsLeases) : (runJob p run).Uses Op.KeepsLeases := by
  refine uses_bind (uses_call trivial uses_ofExcept) fun current => ?_
  cases current with
  | none => exact uses_throw _
  | some current =>
      refine uses_ite (uses_pure current) (uses_tryCatch (uses_persistNext p (hrun current)) fun error => ?_)
      refine uses_bind uses_resolveNowMs fun failedAtMs => ?_
      exact uses_bind (uses_writeJob _) fun _ => uses_throw error

theorem uses_removeStagingDirectory : removeStagingDirectory.Uses Op.KeepsLeases :=
  uses_call trivial uses_ofExcept

theorem uses_abortJobAndReturn : (abortJobAndReturn p).Uses Op.KeepsLeases := by
  refine uses_bind uses_resolveNowMs fun nowMs => ?_
  refine uses_bind (uses_runJob p fun _ => uses_pure _) fun record => ?_
  exact uses_bind uses_removeStagingDirectory fun _ => uses_pure record

theorem uses_abortIfCancellationRequested :
    (abortIfCancellationRequested p).Uses Op.KeepsLeases := by
  refine uses_bind (uses_call trivial uses_ofExcept) fun current => ?_
  cases current with
  | none => exact uses_throw _
  | some current =>
      exact uses_ite (uses_pure none) (uses_bind (uses_abortJobAndReturn p) fun _ => uses_pure _)

theorem uses_markJobFailedAndRethrow {α : Type} (error : Failure) :
    (markJobFailedAndRethrow p error : Job α).Uses Op.KeepsLeases := by
  refine uses_bind (uses_ensuring (uses_runJob p fun _ => uses_throw error) ?_) fun _ => uses_throw _
  exact uses_removeStagingDirectory

theorem uses_abortOrFail (error : Failure) : (abortOrFail p error).Uses Op.KeepsLeases := by
  refine uses_ite (uses_abortJobAndReturn p) ?_
  refine uses_bind (uses_abortIfCancellationRequested p) fun cancelled => ?_
  cases cancelled with
  | none => exact uses_markJobFailedAndRethrow p error
  | some cancelled => exact uses_pure cancelled

theorem uses_orRecord {α : Type} {callback : Job α} (h : callback.Uses Op.KeepsLeases) :
    (orRecord p callback).Uses Op.KeepsLeases :=
  uses_tryCatch (uses_bind h fun _ => uses_pure _) fun error =>
    uses_bind (uses_abortOrFail p error) fun _ => uses_pure _

theorem uses_stopIfLeaseLost (lease : LeaseOf) :
    (stopIfLeaseLost p lease).Uses Op.KeepsLeases := by
  refine uses_bind (uses_call trivial uses_ofExcept) fun _ => ?_
  refine uses_bind (uses_tryCatch (uses_call trivial uses_ofExcept)
    (uses_markJobFailedAndRethrow p)) fun renewed => ?_
  refine uses_ite (uses_pure none) (uses_bind (uses_call trivial uses_ofExcept) fun latest => ?_)
  cases latest with
  | none => exact uses_throw _
  | some latest => exact uses_pure _

theorem uses_stopOr {stopped : Job (Option JobRecord)} {rest : Job Progress}
    (hstopped : stopped.Uses Op.KeepsLeases) (hrest : rest.Uses Op.KeepsLeases) :
    (stopOr stopped rest).Uses Op.KeepsLeases := by
  refine uses_bind hstopped fun record => ?_
  cases record with
  | none => exact hrest
  | some record => exact uses_pure _

theorem uses_advance (f : JobRecord → JobRecord) : (advance p f).Uses Op.KeepsLeases :=
  uses_runJob p fun _ => uses_ite
    (uses_bind (uses_call trivial uses_ofExcept) fun _ => uses_pure _) (uses_pure _)

theorem uses_continueWith {part : Job Progress} {rest : JobRecord → Job Progress}
    (hpart : part.Uses Op.KeepsLeases) (hrest : ∀ record, (rest record).Uses Op.KeepsLeases) :
    (continueWith part rest).Uses Op.KeepsLeases := by
  refine uses_bind hpart fun progress => ?_
  cases progress with
  | returned record => exact uses_pure _
  | latest record => exact hrest record

theorem uses_runSafetyCheckIfNeeded (offer : SourceOffer) (job : JobRecord) :
    (runSafetyCheckIfNeeded p offer job).Uses Op.KeepsLeases := by
  refine uses_ite (uses_pure none) ?_
  refine uses_bind (uses_orRecord p (uses_call trivial uses_ofExcept)) fun result => ?_
  rcases result with record | _ | record | safeCheck
  · exact uses_pure _
  · exact uses_pure _
  · exact uses_pure _
  · refine uses_ite (uses_pure none) (uses_bind uses_resolveNowMs fun nowMs => ?_)
    refine uses_bind (uses_runJob p fun _ => uses_pure _) fun updated => ?_
    exact uses_bind uses_removeStagingDirectory fun _ => uses_pure _

theorem uses_planMissingBlobs {A : Op → Prop} (hA : ∀ digest, A (.casContains digest))
    (blobs : List OfferBlob) (seenDigests : List String) (plan : MissingBlobPlan) :
    (planMissingBlobs blobs seenDigests plan).Uses A := by
  induction blobs generalizing seenDigests plan with
  | nil => exact uses_pure plan
  | cons blob blobs ih =>
      refine uses_ite (ih _ _) (uses_bind (uses_call (hA _) uses_ofExcept) fun present => ?_)
      exact uses_ite (ih _ _) (ih _ _)

theorem uses_complete (f : JobRecord → JobRecord) :
    (stopOr (stopIfLeaseLost p .job) <| stopOr (stopIfLeaseLost p .scope) <| do
      let latest ← advance p f
      stopOr (abortIfCancellationRequested p) (return .latest latest)).Uses Op.KeepsLeases := by
  refine uses_stopOr (uses_stopIfLeaseLost p .job) (uses_stopOr (uses_stopIfLeaseLost p .scope) ?_)
  exact uses_bind (uses_advance p f) fun latest =>
    uses_stopOr (uses_abortIfCancellationRequested p) (uses_pure _)

theorem uses_transferBlobs (offer : SourceOffer) (latest : JobRecord) :
    (transferBlobs p offer latest).Uses Op.KeepsLeases := by
  refine uses_ite (uses_pure _) (uses_bind (uses_planMissingBlobs (fun _ => trivial) _ _ _) fun missingPlan => ?_)
  refine uses_bind (uses_ite (uses_pure latest) (uses_advance p _)) fun latest => ?_
  refine uses_stopOr (uses_abortIfCancellationRequested p) ?_
  refine uses_bind (uses_ite (uses_pure latest) (uses_advance p _)) fun latest => ?_
  refine uses_stopOr (uses_abortIfCancellationRequested p) ?_
  refine uses_bind (uses_orRecord p (uses_call trivial uses_ofExcept)) fun result => ?_
  cases result with
  | inl record => exact uses_pure _
  | inr result => exact uses_complete p _

theorem uses_applyPart (offer : SourceOffer) (latest : JobRecord) :
    (applyPart p offer latest).Uses Op.KeepsLeases := by
  refine uses_ite (uses_pure _) ?_
  refine uses_stopOr (uses_stopIfLeaseLost p .job) (uses_stopOr (uses_stopIfLeaseLost p .scope) ?_)
  refine uses_stopOr (uses_ite (uses_runSafetyCheckIfNeeded p offer latest) (uses_pure none)) ?_
  refine uses_bind (uses_ite (uses_pure latest) (uses_advance p _)) fun latest => ?_
  refine uses_stopOr (uses_abortIfCancellationRequested p) ?_
  refine uses_bind (uses_orRecord p (uses_call trivial uses_ofExcept)) fun result => ?_
  cases result with
  | inl record => exact uses_pure _
  | inr result => exact uses_complete p _

theorem uses_completeJob : (completeJob p).Uses Op.KeepsLeases := by
  refine uses_bind (uses_call trivial uses_ofExcept) fun afterCommit => uses_stopOr ?_ ?_
  · cases afterCommit with
    | none => exact uses_pure none
    | some record =>
        exact uses_ite (uses_bind uses_removeStagingDirectory fun _ => uses_pure _) (uses_pure none)
  · refine uses_stopOr (uses_stopIfLeaseLost p .job) (uses_stopOr (uses_stopIfLeaseLost p .scope) ?_)
    refine uses_bind uses_resolveNowMs fun completedAtMs => ?_
    refine uses_bind (uses_runJob p fun _ => uses_pure _) fun latest => ?_
    exact uses_bind uses_removeStagingDirectory fun _ => uses_pure _

theorem uses_commitPart (offer : SourceOffer) (latest : JobRecord) :
    (commitPart p offer latest).Uses Op.KeepsLeases := by
  refine uses_ite (uses_pure _) ?_
  refine uses_stopOr (uses_stopIfLeaseLost p .job) (uses_stopOr (uses_stopIfLeaseLost p .scope) ?_)
  refine uses_bind (uses_advance p _) fun latest => ?_
  refine uses_stopOr (uses_abortIfCancellationRequested p) ?_
  refine uses_bind (uses_tryCatch (uses_call trivial uses_ofExcept) fun error => ?_) fun _ =>
    uses_completeJob p
  exact uses_bind (uses_abortOrFail p error) fun _ => uses_pure _

theorem uses_replicate (relationshipId : String) (offer : SourceOffer) (current : JobRecord) :
    (replicate p relationshipId offer current).Uses Op.KeepsLeases := by
  refine uses_bind (uses_ite (uses_pure current) (uses_advance p _)) fun latest => ?_
  refine uses_stopOr (uses_abortIfCancellationRequested p) ?_
  refine uses_stopOr (uses_runSafetyCheckIfNeeded p offer latest) ?_
  refine uses_continueWith (uses_transferBlobs p offer latest) fun latest => ?_
  exact uses_continueWith (uses_applyPart p offer latest) fun latest => uses_commitPart p offer latest

theorem uses_replicateOffer (current : JobRecord) :
    (replicateOffer p current).Uses Op.KeepsLeases := by
  refine uses_ite (uses_markJobFailedAndRethrow p _) (uses_ite (uses_markJobFailedAndRethrow p _) ?_)
  refine uses_bind (uses_tryCatch (uses_call trivial uses_ofExcept)
    (uses_markJobFailedAndRethrow p)) fun relationship => ?_
  cases relationship with
  | none => exact uses_markJobFailedAndRethrow p _
  | some relationshipId =>
      refine uses_bind (uses_tryCatch (uses_call trivial uses_ofExcept)
        (uses_markJobFailedAndRethrow p)) fun offer => ?_
      refine uses_bind (uses_replicate p relationshipId offer current) fun progress => ?_
      cases progress <;> exact uses_pure _

theorem uses_noteResumed (lease : AcquiredLease) (current : JobRecord) :
    (noteResumed p lease current).Uses Op.KeepsLeases := by
  refine uses_ite ?_ (uses_pure current)
  refine uses_bind (uses_runJob p fun _ => uses_pure _) fun _ => ?_
  refine uses_bind (uses_call trivial uses_ofExcept) fun current => ?_
  cases current with
  | none => exact uses_throw _
  | some current => exact uses_pure current

theorem uses_underScopeLease (lease : AcquiredLease) (current : JobRecord) :
    (underScopeLease p lease current).Uses Op.KeepsLeases :=
  uses_bind (uses_noteResumed p lease current) fun current =>
    uses_ite (uses_abortJobAndReturn p) (uses_replicateOffer p current)

theorem uses_awaitScope : (awaitScope p).Uses Op.KeepsLeases := by
  refine uses_bind (uses_abortIfCancellationRequested p) fun cancelled => ?_
  cases cancelled with
  | some cancelled => exact uses_pure cancelled
  | none =>
      refine uses_bind uses_resolveNowMs fun nowMs => ?_
      refine uses_bind (uses_runJob p fun _ => uses_pure _) fun updated => ?_
      exact uses_bind uses_removeStagingDirectory fun _ => uses_pure updated

end uses

namespace Leases

variable {s : Leases} (p : ExecuteParams)

attribute [local simp] note GoesWell observe

theorem observe_of_keepsLeases (hs : s.recording = false) {e : Event Op Op.Answer}
    (he : e.1.KeepsLeases) : s.observe e = s := by
  obtain ⟨held, beating, recording, attemptLost⟩ := s
  obtain rfl : recording = false := hs
  obtain ⟨o, r⟩ := e
  cases o with
  | tryAcquireLease lease | releaseLease lease | startHeartbeat lease | stopHeartbeat lease => cases he
  | readJob site => rcases r with e | _ | r <;> simp [observe, note]
  | _ => simp [observe, note]

theorem observe_failed_acquire (hs : s.recording = false) {lease : LeaseOf}
    {r : Except Failure (Option AcquiredLease)} (hr : ∀ l, r ≠ .ok (some l)) :
    s.observe ⟨.tryAcquireLease lease, r⟩ = s := by
  obtain ⟨held, beating, recording, attemptLost⟩ := s
  obtain rfl : recording = false := hs
  rcases r with e | _ | l
  · simp [observe, note]
  · simp [observe, note]
  · exact absurd rfl (hr l)

theorem safe_of_keepsLeases {α : Type} {q : Job α} (hq : q.Uses Op.KeepsLeases)
    (hs : s.recording = false) : watch.Safe s q (fun s' _ => s' = s) fun s' _ => s' = s := by
  refine safe_of_uses (A := Op.KeepsLeases) (I := (· = s)) (fun s' e hs' he => ⟨trivial, ?_⟩) hq rfl
  rw [hs']
  exact observe_of_keepsLeases hs he

theorem safe_ignoring {o : Op} {f : o.Answer → Except Failure Unit} {s' : Leases}
    (h : ∀ r, s.observe ⟨o, r⟩ = s') {Q : Leases → Unit → Prop} {E : Leases → Failure → Prop}
    (hQ : Q s' ()) : watch.Safe s (Program.call o fun r => .ofExcept (f r)).ignoring Q E := by
  intro r _
  refine ⟨trivial, ?_⟩
  change watch.Safe (s.observe ⟨o, r⟩) (tryCatch (.ofExcept (f r)) fun _ => pure ()) Q E
  rw [h]
  cases f r <;> exact hQ

theorem safe_letGo (lease : LeaseOf) {E : Leases → Failure → Prop} :
    watch.Safe s (letGo lease) (fun s' _ => s' = { s with
      held := Function.update s.held lease false
      beating := Function.update s.beating lease false }) E := by
  rw [letGo, safe_bind]
  have hstop (r) : s.observe ⟨.stopHeartbeat lease, r⟩ =
      { s with beating := Function.update s.beating lease false } := by
    simp [observe, note, GoesWell]
  refine safe_ignoring (o := .stopHeartbeat lease) (f := id) hstop ?_
  exact safe_ignoring (o := .releaseLease lease) (f := id) (fun r => by simp [observe, note, GoesWell]) rfl

theorem safe_ensuring_letGo {α : Type} {q : Job α} {lease : LeaseOf} {s' : Leases}
    (hq : q.Uses Op.KeepsLeases) (hs : s.recording = false)
    (hs' : { s with
      held := Function.update s.held lease false
      beating := Function.update s.beating lease false } = s') :
    watch.Safe s (q.ensuring (letGo lease)) (fun t _ => t = s') fun t _ => t = s' := by
  rw [safe_ensuring, ← hs']
  refine (safe_of_keepsLeases hq hs).mono ?_ ?_
  · rintro t a rfl
    exact safe_letGo lease
  · rintro t e rfl
    exact safe_letGo lease

theorem letGo_scope_eq {scopeLease : AcquiredLease} (hs : s.recording = false)
    (hheld : s.held .scope = false) (hbeating : s.beating .scope = false) :
    let t := (s.observe ⟨.tryAcquireLease .scope, .ok (some scopeLease)⟩).observe
      ⟨.startHeartbeat .scope, ()⟩
    { t with
      held := Function.update t.held .scope false
      beating := Function.update t.beating .scope false } = s := by
  obtain ⟨held, beating, recording, attemptLost⟩ := s
  obtain rfl : recording = false := hs
  simpa [observe, note, GoesWell] using ⟨hheld, hbeating⟩

theorem safe_underJobLease (lease : AcquiredLease) (current : JobRecord)
    (hs : s.recording = false) (hheld : s.held .scope = false) (hbeating : s.beating .scope = false) :
    watch.Safe s (underJobLease p lease current) (fun s' _ => s' = s) fun s' _ => s' = s := by
  rw [underJobLease, safe_bind]
  refine (safe_of_keepsLeases (uses_abortIfCancellationRequested p) hs).mono ?_ fun _ _ => id
  rintro s' cancelled rfl
  cases cancelled with
  | some cancelled => rfl
  | none =>
      rw [safe_bind]
      refine (safe_of_keepsLeases uses_resolveNowMs hs).mono ?_ fun _ _ => id
      rintro s' nowMs rfl
      rw [safe_bind]
      intro r _
      refine ⟨trivial, ?_⟩
      rcases r with e | _ | scopeLease
      · exact observe_failed_acquire hs (r := .error e) fun _ h => by cases h
      · change watch.Safe (s'.observe ⟨.tryAcquireLease .scope, .ok none⟩) (awaitScope p) _ _
        rw [observe_failed_acquire hs fun _ h => by cases h]
        exact safe_of_keepsLeases (uses_awaitScope p) hs
      · change watch.Safe (s'.observe ⟨.tryAcquireLease .scope, .ok (some scopeLease)⟩)
          (startHeartbeat .scope >>= fun _ =>
            (underScopeLease p lease current).ensuring (letGo .scope)) _ _
        rw [safe_bind]
        intro _ _
        refine ⟨trivial, ?_⟩
        change watch.Safe
          ((s'.observe ⟨.tryAcquireLease .scope, .ok (some scopeLease)⟩).observe ⟨.startHeartbeat .scope, ()⟩)
          ((underScopeLease p lease current).ensuring (letGo .scope)) _ _
        exact safe_ensuring_letGo (uses_underScopeLease p lease current) (by simp [observe, note, hs])
          (letGo_scope_eq hs hheld hbeating)

/-! The recording of the attempt -/

def Op.Writes : Op → Prop
  | .now | .readExisting | .replaceJob _ => True
  | _ => False

theorem writes_resolveNowMs : resolveNowMs.Uses Op.Writes := uses_call trivial uses_ofExcept

theorem writes_writeJob (record : JobRecord) : (writeJob record).Uses Op.Writes :=
  uses_bind (uses_call trivial uses_ofExcept) fun _ => uses_call trivial uses_ofExcept

theorem safe_of_lost {α : Type} {q : Job α} (hq : q.Uses Op.Writes) (hs : s.attemptLost = true) :
    watch.Safe s q (fun s' _ => s' = s) fun s' _ => s' = s := by
  refine safe_of_uses (A := Op.Writes) (I := (· = s)) ?_ hq rfl
  rintro s' ⟨o, r⟩ rfl ho
  refine ⟨trivial, ?_⟩
  change s'.observe ⟨o, r⟩ = s'
  obtain ⟨held, beating, recording, attemptLost⟩ := s'
  obtain rfl : attemptLost = true := hs
  cases o with
  | now | readExisting | replaceJob record => simp [observe, note]
  | _ => cases ho

theorem safe_write {γ : Type} {o : Op} {f : o.Answer → Except Failure γ}
    (ho : ∀ r, s.observe ⟨o, r⟩ = if (f r).isOk then s else { s with attemptLost := true })
    {Q : Leases → γ → Prop} {E : Leases → Failure → Prop} (hQ : ∀ a, Q s a)
    (hE : ∀ e, E { s with attemptLost := true } e) :
    watch.Safe s (Program.call o fun r => .ofExcept (f r)) Q E := by
  intro r _
  refine ⟨trivial, ?_⟩
  change watch.Safe (s.observe ⟨o, r⟩) (.ofExcept (f r)) Q E
  rw [ho r]
  cases f r with
  | ok a => exact hQ a
  | error e => exact hE e

section recording

variable (hrecording : s.recording = true) (hlost : s.attemptLost = false)
include hrecording hlost

theorem observe_readJob (site : ReadSite) (r : JobRecord) :
    s.observe ⟨.readJob site, .ok (some r)⟩ =
      if site.gives r then { s with
        recording := false
        attemptLost := isMissing r.relationshipId || isMissing r.directionId }
      else s := by
  obtain ⟨held, beating, recording, attemptLost⟩ := s
  obtain rfl : recording = true := hrecording
  obtain rfl : attemptLost = false := hlost
  cases h : site.gives r <;> simp [observe, note, GoesWell, h]

omit hlost in
theorem observe_failed_readJob {site : ReadSite} {x : Except Failure (Option JobRecord)}
    (hx : ∀ r, x ≠ .ok (some r)) :
    s.observe ⟨.readJob site, x⟩ = { s with attemptLost := true } := by
  rcases x with e | _ | r
  · simp [observe, note, GoesWell, hrecording]
  · simp [observe, note, GoesWell, hrecording]
  · exact absurd rfl (hx r)

theorem safe_persistNext (current : JobRecord) (f : JobRecord → JobRecord)
    (hf : (f current).jobId = current.jobId) :
    watch.Safe s (persistNext p current fun record => pure (f record))
      (fun s' r => s' = { s with
        recording := false
        attemptLost := isMissing r.relationshipId || isMissing r.directionId })
      fun s' _ => s' = { s with attemptLost := true } := by
  have kept_or_lost (x : Bool) : { s with attemptLost := s.attemptLost || (s.recording && !x) } =
      if x then s else { s with attemptLost := true } := by
    obtain ⟨held, beating, recording, attemptLost⟩ := s
    obtain rfl : recording = true := hrecording
    obtain rfl : attemptLost = false := hlost
    cases x <;> rfl
  rw [persistNext, safe_bind, safe_pure, if_neg (not_not.mpr hf), safe_bind]
  refine safe_write (o := .now) (f := id) (fun r => kept_or_lost r.isOk) (fun persistedAtMs => ?_) fun _ => rfl
  rw [safe_bind, writeJob, safe_bind]
  refine safe_write (o := .readExisting) (f := id) (fun r => kept_or_lost r.isOk) (fun existing => ?_) fun _ => rfl
  refine safe_write (o := .replaceJob _) (f := id) (fun r => kept_or_lost r.isOk) (fun _ => ?_) fun _ => rfl
  rw [safe_bind]
  intro r _
  refine ⟨trivial, ?_⟩
  rcases r with e | _ | merged
  · exact observe_failed_readJob hrecording (x := .error e) fun _ h => by cases h
  · exact observe_failed_readJob hrecording (x := .ok none) fun _ h => by cases h
  · exact observe_readJob hrecording hlost .merged merged

end recording

theorem safe_recordAttempt (lease : AcquiredLease) (hrecording : s.recording = true)
    (hlost : s.attemptLost = false) :
    watch.Safe s (recordAttempt p lease)
      (fun s' r => s' = { s with
        recording := false
        attemptLost := isMissing r.relationshipId || isMissing r.directionId })
      fun s' _ => s' = { s with attemptLost := true } := by
  rw [recordAttempt, runJob, safe_bind]
  intro r _
  refine ⟨trivial, ?_⟩
  rcases r with e | _ | current
  · exact observe_failed_readJob hrecording (x := .error e) fun _ h => by cases h
  · exact observe_failed_readJob hrecording (x := .ok none) fun _ h => by cases h
  · change watch.Safe (s.observe ⟨.readJob .current, .ok (some current)⟩) (if _ then _ else _) _ _
    rw [observe_readJob hrecording hlost, ReadSite.gives]
    by_cases hterminal : current.isTerminal = true
    · rw [if_pos hterminal, if_pos hterminal]
      rfl
    · rw [if_neg hterminal, if_neg hterminal, safe_tryCatch]
      refine (safe_persistNext p hrecording hlost current _ rfl).mono (fun _ _ => id) ?_
      rintro s' e rfl
      -- The attempt is lost, whatever becomes of the write that says so.
      rw [safe_bind]
      refine (safe_of_lost writes_resolveNowMs rfl).mono ?_ fun _ _ => id
      rintro s' failedAtMs rfl
      rw [safe_bind]
      refine (safe_of_lost (writes_writeJob _) rfl).mono ?_ fun _ _ => id
      rintro s' _ rfl
      rfl

def begun : Leases where
  held := Function.update (fun _ => false) .job true
  beating := Function.update (fun _ => false) .job true
  recording := true

theorem not_released {held beating : LeaseOf → Bool} {recording : Bool} (h : held .job = true) :
    (⟨held, beating, recording, true⟩ : Leases).attemptLost = false ↔
      Released ⟨held, beating, recording, true⟩ := by
  refine ⟨nofun, fun hreleased => ?_⟩
  exact absurd ((hreleased .job).1.symm.trans h) Bool.false_ne_true

theorem safe_begun (lease : AcquiredLease) :
    watch.Safe begun (recordAttempt p lease >>= fun current =>
        if isMissing current.relationshipId || isMissing current.directionId then
          throw (missing "relationship scope" p.jobId)
        else (underJobLease p lease current).ensuring (letGo .job))
      (fun s _ => s.attemptLost = false ↔ s.Released) fun s _ => s.attemptLost = false ↔ s.Released := by
  rw [safe_bind]
  refine (safe_recordAttempt p lease rfl rfl).mono ?_ ?_
  · rintro s current rfl
    by_cases hmissing : (isMissing current.relationshipId || isMissing current.directionId) = true
    · rw [if_pos hmissing, hmissing]
      exact not_released rfl
    · rw [if_neg hmissing, Bool.eq_false_iff.mpr hmissing, safe_ensuring]
      have hdone : ({ begun with
          held := Function.update begun.held .job false
          beating := Function.update begun.beating .job false
          recording := false
          attemptLost := false } : Leases).Released := by
        intro lease
        cases lease <;> exact ⟨rfl, rfl⟩
      refine (safe_underJobLease p lease current rfl rfl rfl).mono ?_ ?_
      · rintro s record rfl
        refine (safe_letGo .job).mono ?_ fun _ _ => id
        rintro s _ rfl
        exact ⟨fun _ => hdone, fun _ => rfl⟩
      · rintro s e rfl
        refine (safe_letGo .job).mono ?_ fun _ _ => id
        rintro s _ rfl
        exact ⟨fun _ => hdone, fun _ => rfl⟩
  · rintro s e rfl
    exact not_released rfl

theorem safe_executeJob :
    watch.Safe {} (executeJob p) (fun s _ => s.attemptLost = false ↔ s.Released)
      fun s _ => s.attemptLost = false ↔ s.Released := by
  have hidle : ({} : Leases).attemptLost = false ↔ Released {} :=
    ⟨fun _ _ => ⟨rfl, rfl⟩, fun _ => rfl⟩
  have hraised : ∀ (s : Leases) (_ : Failure), s = {} → (s.attemptLost = false ↔ s.Released) := by
    rintro s _ rfl
    exact hidle
  rw [executeJob, safe_bind]
  refine (safe_of_keepsLeases (uses_readJob .start) rfl).mono ?_ hraised
  rintro s current rfl
  cases current with
  | none => exact hidle
  | some current =>
      refine safe_ite hidle ?_
      rw [safe_bind]
      refine (safe_of_keepsLeases uses_resolveNowMs rfl).mono ?_ hraised
      rintro s nowMs rfl
      rw [safe_bind]
      intro r _
      refine ⟨trivial, ?_⟩
      rcases r with e | _ | lease
      · exact hidle
      · change watch.Safe {} (readJob .latest >>= fun latest => pure (latest.getD current)) _ _
        rw [safe_bind]
        refine (safe_of_keepsLeases (uses_readJob .latest) rfl).mono ?_ hraised
        rintro s latest rfl
        exact hidle
      · intro r _
        exact ⟨trivial, safe_begun p lease⟩

/-- On every exit of an execution the leases it acquired are released and their
heartbeats stopped, if and only if the attempt could be recorded. -/
theorem released_iff {σ : Type} (env : σ → (o : Op) → o.Answer × σ) (w : σ) :
    let s := run observe {} ((executeJob p).exec env w).1
    s.Released ↔ s.attemptLost = false := by
  have h := ((safe_executeJob p).along env w (along_trivial _ _ _)).2
  split at h
  · exact h.symm
  · exact h.symm

/-- A record without a relationship makes the execution throw with the lease of
the job held and its heartbeat running. -/
theorem lease_left_behind :
    let execution := (executeJob localParams).exec (undisturbed fun _ => id) pendingRecord
    let s := run observe {} execution.1
    execution.2.isOk = false ∧ s.held .job = true ∧ s.beating .job = true ∧ ¬s.Released := by
  refine ⟨rfl, rfl, rfl, fun h => ?_⟩
  exact absurd (h .job).1 (by decide)

end Leases

end DevPilot.Replication
