import DevPilot.Outbox.Live

/-!
What survives a crash: a mutation whose enqueue was acknowledged is in one of the
two files until it is delivered.
-/

namespace DevPilot.Outbox

open QueuedSessionMutation OutboxState

namespace OutboxState

/-- The mutation or a later one is in `q` or among the dead letters on disk, or was
delivered, or a turn has superseded it. -/
def Kept (s : OutboxState) (q : Queue) (m : QueuedSessionMutation) : Prop :=
  CoveredBy (q ++ s.deadLetterFile.map DeadLetter.mutation ++ s.settled) m ∨ Superseded s.enqueued m

def Durable (s : OutboxState) : Prop := ∀ m ∈ s.acked, s.Kept s.outboxFile m

def limbo (s : OutboxState) : Queue := s.lost ++ s.pendingDeadLetters.map DeadLetter.mutation

/-- Ids of turn mutations stay apart from all others, and the outbox file is written
without a dead letter only when that has reached its file, or is made up for. -/
def KeepsDurable (s : OutboxState) (e : Event) : Prop :=
  s.KeepsIdsApart (fun _ => true) e ∧
    (e = .persisted true → ∀ job ∈ s.persists.head?, ∀ contents ∈ job.snapshot,
      ∀ m ∈ s.limbo, s.Kept contents m)

instance (s : OutboxState) (q : Queue) (m : QueuedSessionMutation) : Decidable (s.Kept q m) := by
  unfold Kept; infer_instance

instance (s : OutboxState) : Decidable s.Durable := by unfold Durable; infer_instance

instance (s : OutboxState) (e : Event) : Decidable (s.KeepsDurable e) := by
  unfold KeepsDurable; infer_instance

theorem respectsCovers_true : RespectsCovers fun _ => true := fun _ _ _ _ => rfl

theorem Kept.of_covered {s : OutboxState} {q : Queue} {m : QueuedSessionMutation} (h : CoveredBy q m) : s.Kept q m :=
  .inl (h.mono (by rw [List.append_assoc]; exact List.subset_append_left _ _))

theorem Kept.transfer {s s' : OutboxState} {q q' : Queue} {m : QueuedSessionMutation} (h : s.Kept q m)
    (henqueued : s.enqueued ⊆ s'.enqueued) (hletters : s.deadLetterFile ⊆ s'.deadLetterFile)
    (hsettled : s.settled ⊆ s'.settled) (hq : ∀ x ∈ q, s'.Kept q' x) : s'.Kept q' m := by
  rcases h with ⟨x, hx, hcovers⟩ | hsuperseded
  case inr => exact .inr (hsuperseded.mono henqueued)
  have hkept : s'.Kept q' x := by
    rcases List.mem_append.mp hx with hx | hx
    · rcases List.mem_append.mp hx with hx | hx
      · exact hq x hx
      · refine .inl (.of_mem (List.mem_append_left _ (List.mem_append_right _ ?_)))
        exact List.map_subset _ hletters hx
    · exact .inl (.of_mem (List.mem_append_right _ (hsettled hx)))
  rcases hkept with ⟨y, hy, hcovers'⟩ | hsuperseded
  · exact .inl ⟨y, hy, hcovers'.trans hcovers⟩
  · exact .inr (hcovers.superseded hsuperseded)

theorem Kept.transfer_same {s : OutboxState} {q q' : Queue} {m : QueuedSessionMutation} (h : s.Kept q m)
    (hq : ∀ x ∈ q, s.Kept q' x) : s.Kept q' m :=
  h.transfer (List.Subset.refl _) (List.Subset.refl _) (List.Subset.refl _) hq

theorem step_grows (config : Config) (s : OutboxState) (e : Event) :
    s.enqueued ⊆ (s.step config e).enqueued ∧ s.deadLetterFile ⊆ (s.step config e).deadLetterFile ∧
      s.settled ⊆ (s.step config e).settled := by
  have hmove := step_move config s e
  generalize s.step config e = s' at hmove ⊢
  cases hmove with
  | enqueue => exact ⟨List.subset_append_left _ _, List.Subset.refl _, List.Subset.refl _⟩
  | append => exact ⟨List.Subset.refl _, List.subset_append_left _ _, List.Subset.refl _⟩
  | reload => exact ⟨List.Subset.refl _, List.subset_append_left _ _, List.Subset.refl _⟩
  | flush f e s' hevent hf hphase hmove =>
      have hsame := hmove.sameOutside
      refine ⟨by rw [hsame.enqueued]; exact List.Subset.refl _,
        by rw [hsame.deadLetterFile]; exact List.Subset.refl _, ?_⟩
      cases hmove with
      | settle => exact List.subset_append_left _ _
      | _ => exact List.Subset.refl _
  | _ => exact ⟨List.Subset.refl _, List.Subset.refl _, List.Subset.refl _⟩

theorem finishLoop_pendingDeadLetters {f : Flush} {remaining : Queue} {s : OutboxState}
    (h : f.deadLetters ≠ [] → f.didChange) :
    (s.finishLoop f remaining).pendingDeadLetters = f.deadLetters := by
  unfold finishLoop pendingDeadLetters
  by_cases hchange : f.didChange
  · simp [hchange]
  · have hnil : f.deadLetters = [] := by
      by_contra hne
      exact hchange (h hne)
    simp [hchange, hnil]

theorem pendingDeadLetters_of_flush {s : OutboxState} {f : Flush} (hf : s.flush = some f) :
    s.pendingDeadLetters = f.deadLetters := by
  simp [pendingDeadLetters, hf]

theorem deadLetteredBy_subset_limbo (config : Config) (s : OutboxState) (e : Event) :
    s.deadLetteredBy config e ⊆ (s.step config e).limbo := by
  unfold deadLetteredBy
  split
  case h_1 => simp
  case h_2 f entry behind hfailing =>
    obtain ⟨-, -, hstep⟩ := step_of_failing hfailing
    rw [hstep, limbo, deadLetter_eq]
    intro m hm
    refine List.mem_append_right _ ?_
    simp only [goOn, pendingDeadLetters, List.map_append, List.map_cons]
    exact List.mem_append_right _ hm

theorem FlushMove.pendingDeadLetters_subset {config : Config} {s s' : OutboxState} {f : Flush} {e : Event}
    (h : FlushMove config s f e s') (hf : s.flush = some f) (horderly : s.Orderly) :
    s.pendingDeadLetters ⊆ s'.pendingDeadLetters := by
  have hchanged := fun hletters => (horderly.changed f hf hletters).1
  rw [pendingDeadLetters_of_flush hf]
  cases h with
  | idle => rw [pendingDeadLetters_of_flush hf]; exact List.Subset.refl _
  | stop _ _ _ _ didChange _ hchange =>
      rw [finishLoop_pendingDeadLetters (f := { f with didChange }) fun hletters => hchange (hchanged hletters)]
      exact List.Subset.refl _
  | finish => rw [finishLoop_pendingDeadLetters hchanged]; exact List.Subset.refl _
  | dead => exact List.subset_append_left _ _
  | _ => exact List.Subset.refl _

theorem limbo_step (config : Config) {s : OutboxState} {e : Event} (horderly : s.Orderly)
    (hcrash : ∀ appended, e ≠ .crash appended) :
    s.limbo ⊆ (s.step config e).limbo ++ (s.step config e).deadLetterFile.map DeadLetter.mutation := by
  have hafter : ∀ source contents rest, s.persists = ⟨source, some contents⟩ :: rest →
      ∀ s' : OutboxState, s'.flush = s.flushAfter source → s.pendingDeadLetters ⊆ s'.pendingDeadLetters := by
    intro source contents rest hjobs s' hflush
    cases source with
    | flush =>
        obtain ⟨f, hf, hphase⟩ := horderly.waits ⟨.flush, some contents⟩ (by rw [hjobs]; simp) rfl
        have hnil : f.deadLetters = [] := by
          by_contra hletters
          exact (horderly.changed f hf hletters).2 hphase
        simp [pendingDeadLetters_of_flush hf, hnil]
    | _ =>
        have hflush : s'.flush = s.flush := hflush
        simp [pendingDeadLetters, hflush]
  have hkeep : ∀ s' : OutboxState, s'.lost = s.lost → s.pendingDeadLetters ⊆ s'.pendingDeadLetters →
      s.limbo ⊆ s'.limbo ++ s'.deadLetterFile.map DeadLetter.mutation := by
    intro s' hlost hpending m hm
    refine List.mem_append_left _ ?_
    rcases List.mem_append.mp hm with hm | hm
    · exact List.mem_append_left _ (hlost ▸ hm)
    · exact List.mem_append_right _ (List.map_subset _ hpending hm)
  have hmove := step_move config s e
  generalize s.step config e = s' at hmove ⊢
  cases hmove with
  | startFlush isForced now f hnone =>
      exact hkeep _ rfl (by simp [pendingDeadLetters, hnone])
  | flush f e s' hevent hf hphase hmove =>
      exact hkeep s' hmove.sameOutside.lost (hmove.pendingDeadLetters_subset hf horderly)
  | append ok f hf =>
      intro m hm
      rcases List.mem_append.mp hm with hm | hm
      · exact List.mem_append_left _ (List.mem_append_left _ hm)
      · refine List.mem_append_right _ ?_
        rw [pendingDeadLetters_of_flush hf] at hm
        simp only [List.map_append]
        exact List.mem_append_right _ hm
  | appendFails ok f hf =>
      intro m hm
      refine List.mem_append_left _ (List.mem_append_left _ ?_)
      rwa [limbo, pendingDeadLetters_of_flush hf] at hm
  | written source contents rest hjobs => exact hkeep _ rfl (hafter source contents rest hjobs _ rfl)
  | writeFails source contents rest hjobs => exact hkeep _ rfl (hafter source contents rest hjobs _ rfl)
  | reload appended | reloadFails appended => exact absurd rfl (hcrash appended)
  | _ => exact hkeep _ rfl (List.Subset.refl _)

/-- The mutations whose enqueue has returned or waits for its write. -/
def tracked (s : OutboxState) : Queue := s.acked ++ s.persists.flatMap fun job => acknowledgedBy job.source

structure Safe (s : OutboxState) : Prop where
  known : s.Known
  orderly : s.Orderly
  apart : IdsApart (fun _ => true) s.enqueued
  view : s.ViewCovers fun _ => true
  /-- Only the first write has started. -/
  started : ∀ job ∈ s.persists.tail, job.snapshot = none
  held : ∀ m ∈ s.tracked, s.Kept (s.live ++ s.limbo) m
  durable : s.Durable
  written : ∀ job ∈ s.persists, ∀ contents, job.snapshot = some contents →
    ∀ m ∈ s.acked ++ acknowledgedBy job.source, s.Kept (contents ++ s.limbo) m

theorem Safe.fileContents {s : OutboxState} (h : s.Safe) {x : QueuedSessionMutation} (hx : x ∈ s.live) :
    s.Kept (s.fileContents ++ s.limbo) x := by
  have hmutations := (KnownTo.append_iff.mp h.known.live).1
  have hboth : KnownTo s.enqueued (s.inFlightMutations ++ s.mutations) :=
    KnownTo.append_iff.mpr ⟨h.known.inFlight, hmutations⟩
  have hmerged : CoveredBy (mergeQueuedSessionMutations s.inFlightMutations s.mutations) x := by
    have hcovers := fun m hm => merge_covers (x := m) respectsCovers_true
      (hboth.idsApart respectsCovers_true h.apart) rfl hm
    rcases List.mem_append.mp hx with hx | hx
    · exact hcovers x (List.mem_append_right _ hx)
    · exact (h.view x rfl hx).trans fun m hm _ => hcovers m (List.mem_append_left _ hm)
  obtain ⟨m, hm, hcovers⟩ := hmerged
  rcases prune_covers hm with ⟨n, hn, hcovers'⟩ | hsuperseded
  · exact .of_covered ⟨n, List.mem_append_left _ hn, hcovers'.trans hcovers⟩
  · exact .inr ((h.known.inFlight.merge hmutations).superseded (hcovers.superseded hsuperseded))

theorem Safe.live_limbo_step {config : Config} {s : OutboxState} {e : Event} (h : s.Safe)
    (he : s.KeepsDurable e) (hcrash : ∀ appended, e ≠ .crash appended) {x : QueuedSessionMutation} :
    (x ∈ s.live → (s.step config e).Kept ((s.step config e).live ++ (s.step config e).limbo) x) ∧
      ∀ q, x ∈ s.limbo → (s.step config e).Kept (q ++ (s.step config e).limbo) x := by
  constructor
  · intro hx
    rcases live_step (p := fun _ => true) respectsCovers_true h.known h.orderly
      (idsApart_step h.apart he.1) hcrash rfl hx with ⟨m, hm, hcovers⟩ | hsuperseded
    case inr => exact .inr hsuperseded
    rcases List.mem_append.mp hm with hm | hm
    · rcases List.mem_append.mp hm with hm | hm
      · exact .of_covered ⟨m, List.mem_append_left _ hm, hcovers⟩
      · exact .inl ⟨m, List.mem_append_right _ (List.mem_of_mem_drop hm), hcovers⟩
    · exact .of_covered ⟨m, List.mem_append_right _ (deadLetteredBy_subset_limbo config s e hm), hcovers⟩
  · intro q hx
    rcases List.mem_append.mp (limbo_step config h.orderly hcrash hx) with hx | hx
    · exact .of_covered (.of_mem (List.mem_append_right _ hx))
    · exact .inl (.of_mem (List.mem_append_left _ (List.mem_append_right _ hx)))

theorem Safe.kept_step {config : Config} {s : OutboxState} {e : Event} (h : s.Safe)
    (he : s.KeepsDurable e) (hcrash : ∀ appended, e ≠ .crash appended) {m : QueuedSessionMutation} :
    (s.Kept (s.live ++ s.limbo) m →
      (s.step config e).Kept ((s.step config e).live ++ (s.step config e).limbo) m) ∧
      ∀ contents, s.Kept (contents ++ s.limbo) m →
        (s.step config e).Kept (contents ++ (s.step config e).limbo) m := by
  obtain ⟨henqueued, hletters, hsettled⟩ := step_grows config s e
  constructor
  · intro hkept
    refine hkept.transfer henqueued hletters hsettled fun x hx => ?_
    rcases List.mem_append.mp hx with hx | hx
    · exact (h.live_limbo_step he hcrash).1 hx
    · exact (h.live_limbo_step he hcrash).2 _ hx
  · intro contents hkept
    refine hkept.transfer henqueued hletters hsettled fun x hx => ?_
    rcases List.mem_append.mp hx with hx | hx
    · exact .of_covered (.of_mem (List.mem_append_left _ hx))
    · exact (h.live_limbo_step he hcrash).2 _ hx

theorem Safe.of_same {config : Config} {s s' : OutboxState} {e : Event} (h : s.Safe) (he : s.KeepsDurable e)
    (hcrash : ∀ appended, e ≠ .crash appended) (hstep : s' = s.step config e)
    (hacked : s'.acked = s.acked) (hjobs : s'.persists = s.persists) (hfile : s'.outboxFile = s.outboxFile) :
    s'.Safe := by
  subst hstep
  obtain ⟨henqueued, hletters, hsettled⟩ := step_grows config s e
  refine ⟨h.known.step e, h.orderly.step e, idsApart_step h.apart he.1,
    h.view.step respectsCovers_true h.known h.apart e, ?_, ?_, ?_, ?_⟩
  · rw [hjobs]; exact h.started
  · intro m hm
    rw [tracked, hacked, hjobs] at hm
    exact (h.kept_step he hcrash).1 (h.held m hm)
  · intro m hm
    rw [hacked] at hm
    rw [hfile]
    exact (h.durable m hm).transfer henqueued hletters hsettled fun x hx => .of_covered (.of_mem hx)
  · intro job hjob contents hcontents m hm
    rw [hjobs] at hjob
    rw [hacked] at hm
    exact (h.kept_step he hcrash).2 contents (h.written job hjob contents hcontents m hm)

theorem tail_append_subset {α : Type} (xs : List α) (x : α) : (xs ++ [x]).tail ⊆ xs.tail ++ [x] := by
  cases xs <;> simp

theorem Safe.of_new_job {config : Config} {s s' : OutboxState} {e : Event} (h : s.Safe) (he : s.KeepsDurable e)
    (hcrash : ∀ appended, e ≠ .crash appended) (hstep : s' = s.step config e) {job : PersistJob}
    (hacked : s'.acked = s.acked) (hjobs : s'.persists = s.persists ++ [job]) (hsnapshot : job.snapshot = none)
    (hfile : s'.outboxFile = s.outboxFile)
    (hnew : ∀ m ∈ acknowledgedBy job.source, s'.Kept (s'.live ++ s'.limbo) m) : s'.Safe := by
  subst hstep
  obtain ⟨henqueued, hletters, hsettled⟩ := step_grows config s e
  refine ⟨h.known.step e, h.orderly.step e, idsApart_step h.apart he.1,
    h.view.step respectsCovers_true h.known h.apart e, ?_, ?_, ?_, ?_⟩
  · intro j hj
    rw [hjobs] at hj
    rcases List.mem_append.mp (tail_append_subset _ _ hj) with hj | hj
    · exact h.started j hj
    · rw [List.mem_singleton.mp hj]; exact hsnapshot
  · intro m hm
    rw [tracked, hacked, hjobs, List.flatMap_append, ← List.append_assoc] at hm
    rcases List.mem_append.mp hm with hm | hm
    · exact (h.kept_step he hcrash).1 (h.held m hm)
    · exact hnew m (by simpa using hm)
  · intro m hm
    rw [hacked] at hm
    rw [hfile]
    exact (h.durable m hm).transfer henqueued hletters hsettled fun x hx => .of_covered (.of_mem hx)
  · intro j hj contents hcontents m hm
    rw [hjobs] at hj
    rw [hacked] at hm
    rcases List.mem_append.mp hj with hj | hj
    · exact (h.kept_step he hcrash).2 contents (h.written j hj contents hcontents m hm)
    · rw [List.mem_singleton.mp hj, hsnapshot] at hcontents; cases hcontents

theorem Safe.after_crash {s s' : OutboxState} (h : s.Safe) (hknown : s'.Known) (horderly : s'.Orderly)
    (hapart : IdsApart (fun _ => true) s'.enqueued) (hview : s'.ViewCovers fun _ => true)
    (hacked : s'.acked = s.acked) (hjobs : s'.persists = []) (hfile : s'.outboxFile = s.outboxFile)
    (henqueued : s.enqueued ⊆ s'.enqueued) (hletters : s.deadLetterFile ⊆ s'.deadLetterFile)
    (hsettled : s.settled ⊆ s'.settled)
    (hloaded : ∀ x ∈ s.outboxFile, s'.Kept (s'.live ++ s'.limbo) x) : s'.Safe := by
  refine ⟨hknown, horderly, hapart, hview, ?_, ?_, ?_, ?_⟩
  · rw [hjobs]; exact fun job hjob => nomatch hjob
  · intro m hm
    rw [tracked, hacked, hjobs, List.flatMap_nil, List.append_nil] at hm
    exact (h.durable m hm).transfer henqueued hletters hsettled hloaded
  · intro m hm
    rw [hacked] at hm
    rw [hfile]
    exact (h.durable m hm).transfer henqueued hletters hsettled fun x hx => .of_covered (.of_mem hx)
  · rw [hjobs]; exact fun job hjob => nomatch hjob

theorem Safe.step {config : Config} {s : OutboxState} {e : Event} (h : s.Safe) (he : s.KeepsDurable e) :
    (s.step config e).Safe := by
  have hsame := fun hcrash => @Safe.of_same config s (s.step config e) e h he hcrash rfl
  have hnew := fun hcrash => @Safe.of_new_job config s (s.step config e) e h he hcrash rfl
  have hcrash := @Safe.after_crash s (s.step config e) h (h.known.step e) (h.orderly.step e)
    (idsApart_step h.apart he.1) (h.view.step respectsCovers_true h.known h.apart e)
  have hknown : (s.step config e).Known := h.known.step e
  have horderly : (s.step config e).Orderly := h.orderly.step e
  have hapart : IdsApart (fun _ => true) (s.step config e).enqueued := idsApart_step h.apart he.1
  have hview : (s.step config e).ViewCovers fun _ => true :=
    h.view.step respectsCovers_true h.known h.apart e
  have hkept := fun hcrash m => @Safe.kept_step config s e h he hcrash m
  have hmove := step_move config s e
  generalize s.step config e = s' at hmove hsame hnew hcrash hknown horderly hapart hview hkept ⊢
  cases hmove with
  | enqueue mutation hserial hfresh =>
      refine hnew (by simp) rfl rfl rfl rfl fun m hm => ?_
      have hmutation : m = mutation := by simpa [acknowledgedBy] using hm
      subst hmutation
      have hmutations : KnownTo (s.enqueued ++ [m]) (m :: s.mutations) :=
        KnownTo.cons_iff.mpr ⟨by simp [hfresh],
          (KnownTo.append_iff.mp h.known.live).1.grow (List.subset_append_left _ _)⟩
      rcases enqueue_covers (hmutations.idsApart respectsCovers_true hapart) rfl List.mem_cons_self with hc | hc
      · refine .of_covered (hc.mono ?_)
        simp only [live, List.append_assoc]
        exact List.subset_append_left _ _
      · exact .inr (hmutations.superseded hc)
  | append ok f hf => exact hnew (by simp) rfl rfl rfl rfl fun m hm => absurd hm List.not_mem_nil
  | closePersist => exact hnew (by simp) rfl rfl rfl rfl fun m hm => absurd hm List.not_mem_nil
  | startPersist source rest hjobs =>
      have hkept := hkept (by simp)
      have htracked : ∀ m ∈ s.acked ++ acknowledgedBy source, m ∈ s.tracked := by
        intro m hm
        rw [tracked, hjobs, List.flatMap_cons]
        rcases List.mem_append.mp hm with hm | hm
        · exact List.mem_append_left _ hm
        · exact List.mem_append_right _ (List.mem_append_left _ hm)
      refine ⟨hknown, horderly, hapart, hview, ?_, ?_, h.durable, ?_⟩
      · have hstarted := h.started
        rw [hjobs] at hstarted
        exact hstarted
      · intro m hm
        refine h.held m ?_
        simpa [tracked, hjobs] using hm
      · intro job hjob contents hcontents m hm
        rcases List.mem_cons.mp hjob with rfl | hjob
        · cases hcontents
          refine Kept.transfer_same (h.held m (htracked m hm)) fun x hx => ?_
          rcases List.mem_append.mp hx with hx | hx
          · exact h.fileContents hx
          · exact .of_covered (.of_mem (List.mem_append_right _ hx))
        · have hnone := h.started job (by rw [hjobs]; exact hjob)
          rw [hnone] at hcontents
          cases hcontents
  | written source contents rest hjobs =>
      have hkept := hkept (by simp)
      have hstarted := h.started
      rw [hjobs] at hstarted
      refine ⟨hknown, horderly, hapart, hview, ?_, ?_, ?_, ?_⟩
      · exact fun job hjob => hstarted job (List.mem_of_mem_tail hjob)
      · intro m hm
        refine (hkept m).1 (h.held m ?_)
        simpa [tracked, hjobs] using hm
      · intro m hm
        have hwritten := h.written ⟨source, some contents⟩ (by rw [hjobs]; simp) contents rfl m hm
        have hlimbo := he.2 rfl ⟨source, some contents⟩ (by simp [hjobs]) contents rfl
        refine hwritten.transfer_same fun x hx => ?_
        rcases List.mem_append.mp hx with hx | hx
        · exact .of_covered (.of_mem hx)
        · exact hlimbo x hx
      · intro job hjob c hc
        rw [hstarted job hjob] at hc
        cases hc
  | writeFails source contents rest hjobs =>
      have hkept := hkept (by simp)
      have hstarted := h.started
      rw [hjobs] at hstarted
      refine ⟨hknown, horderly, hapart, hview, ?_, ?_, h.durable, ?_⟩
      · exact fun job hjob => hstarted job (List.mem_of_mem_tail hjob)
      · intro m hm
        refine (hkept m).1 (h.held m ?_)
        rw [tracked, hjobs, List.flatMap_cons]
        rcases List.mem_append.mp hm with hm | hm
        · exact List.mem_append_left _ hm
        · exact List.mem_append_right _ (List.mem_append_right _ hm)
      · intro job hjob c hc
        rw [hstarted job hjob] at hc
        cases hc
  | reload appended needPersist =>
      refine hcrash rfl rfl rfl (List.Subset.refl _) (List.subset_append_left _ _) (List.Subset.refl _) ?_
      intro x hx
      by_cases hparses : config.parses x
      · have hloaded := List.mem_filter.mpr ⟨hx, hparses⟩
        have hknownTo : KnownTo s.enqueued (s.outboxFile.filter config.parses) :=
          h.known.outboxFile.mono (List.filter_subset_self _)
        rcases prune_covers hloaded with ⟨m, hm, hcovers⟩ | hsuperseded
        case inr => exact .inr (hknownTo.superseded hsuperseded)
        have hpruned : IdsApart (fun _ => true)
            ([] ++ pruneSessionEndsSupersededByLaterTurnBegins (s.outboxFile.filter config.parses)) :=
          hknownTo.prune.idsApart respectsCovers_true h.apart
        obtain ⟨n, hn, hcovers'⟩ := merge_covers respectsCovers_true hpruned rfl hm
        exact .of_covered ⟨n, List.mem_append_left _ (List.mem_append_left _ hn), hcovers'.trans hcovers⟩
      · refine .inl (.of_mem (List.mem_append_left _ (List.mem_append_right _ ?_)))
        simp only [List.map_append, List.mem_append, List.map_map, List.mem_map]
        exact .inr ⟨x, List.mem_filter.mpr ⟨hx, by simpa using hparses⟩, rfl⟩
  | reloadFails =>
      refine hcrash rfl rfl rfl (List.Subset.refl _) (List.Subset.refl _) (List.Subset.refl _) ?_
      exact fun x hx => .of_covered (.of_mem (List.mem_append_right _ (List.mem_append_left _ hx)))
  | flush f e s' hevent hf hphase hmove =>
      have hsame' := hmove.sameOutside
      refine hsame ?_ hsame'.acked hsame'.persists hsame'.outboxFile
      rintro appended rfl
      simp [movesFlush] at hevent
  | idle => exact h
  | _ => exact hsame (by simp) rfl rfl rfl

theorem safeAtStart : createOutbox.Safe :=
  ⟨knownAtStart, orderlyAtStart, fun _ hm => (nomatch hm), fun _ _ hm => (nomatch hm), fun _ hm => (nomatch hm),
    fun _ hm => (nomatch hm), fun _ hm => (nomatch hm), fun _ hm => (nomatch hm)⟩

end OutboxState

namespace OneDeadLetter

def config : Config where
  parses := fun _ => true
  maxAttempts := 1
  maxAgeMs := 0
  transcriptFlushBatchLimit := 10

def failed : List Event :=
  [.enqueue "a" (.sessionTurn (some "t") true (some 1)) 1, .startPersist, .persisted true,
    .startFlush false 2, .loop 2, .outcome .retryable 3 3, .loop 3]

def appendedFirst : List Event :=
  failed ++ [Event.deadLettersAppended true, .enqueue "b" (.sessionTurn (some "u") true (some 4)) 4,
    .startPersist, .persisted true, .startPersist, .persisted true, .crash true]

def writtenFirst : List Event :=
  failed ++ [Event.enqueue "b" (.sessionTurn (some "u") true (some 4)) 4, .startPersist, .persisted true]

end OneDeadLetter

end DevPilot.Outbox
