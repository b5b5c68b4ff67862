import DevPilot.Outbox.Coverage

/-!
The mutations that the outbox still holds: all of them were enqueued, and a step
leaves each one covered, or settles it, or makes it a dead letter.
-/

namespace DevPilot.Outbox

open QueuedSessionMutation

namespace QueuedSessionMutation

@[simp] theorem retried_retried (m : QueuedSessionMutation) (attempts attempts' : Nat) (at' at'' : Int) :
    (m.retried attempts at').retried attempts' at'' = m.retried attempts' at'' :=
  rfl

end QueuedSessionMutation

/-- All mutations of the queue are among the ones that were enqueued. -/
def KnownTo (enqueued q : Queue) : Prop := ∀ m ∈ q, m.retried 0 0 ∈ enqueued

namespace KnownTo

variable {enqueued enqueued' q q' : Queue}

theorem mono (h : KnownTo enqueued q') (hsub : q ⊆ q') : KnownTo enqueued q := fun m hm => h m (hsub hm)

theorem grow (h : KnownTo enqueued q) (hsub : enqueued ⊆ enqueued') : KnownTo enqueued' q :=
  fun m hm => hsub (h m hm)

@[simp] theorem nil : KnownTo enqueued [] := fun _ hm => nomatch hm

@[simp] theorem append_iff : KnownTo enqueued (q ++ q') ↔ KnownTo enqueued q ∧ KnownTo enqueued q' :=
  List.forall_mem_append

@[simp] theorem cons_iff {m : QueuedSessionMutation} :
    KnownTo enqueued (m :: q) ↔ m.retried 0 0 ∈ enqueued ∧ KnownTo enqueued q :=
  List.forall_mem_cons

theorem merge (h : KnownTo enqueued q) (h' : KnownTo enqueued q') :
    KnownTo enqueued (mergeQueuedSessionMutations q q') :=
  (append_iff.mpr ⟨h, h'⟩).mono (mergeQueuedSessionMutations_subset q q')

theorem prune (h : KnownTo enqueued q) : KnownTo enqueued (pruneSessionEndsSupersededByLaterTurnBegins q) :=
  h.mono (prune_subset q)

theorem idsApart {p : QueuedSessionMutation → Bool} (h : KnownTo enqueued q) (hrespects : RespectsCovers p)
    (hapart : IdsApart p enqueued) : IdsApart p q :=
  fun x hx hp m hm =>
    hapart (x.retried 0 0) (h x hx) (hrespects (x.retried 0 0) x (.refl x) hp) (m.retried 0 0) (h m hm)

theorem superseded {x : QueuedSessionMutation} (h : KnownTo enqueued q) (hx : Superseded q x) :
    Superseded enqueued x :=
  let ⟨hend, m, hm, hbegin, hlt⟩ := hx
  ⟨hend, m.retried 0 0, h m hm, hbegin, hlt⟩

end KnownTo

theorem deadLetterDependentMutations_split (failed : QueuedSessionMutation) (behind : Queue) :
    (deadLetterDependentMutations failed behind).1.map DeadLetter.mutation ++
      (deadLetterDependentMutations failed behind).2 = behind := by
  unfold deadLetterDependentMutations
  split
  · rfl
  · simp only [List.map_map, Function.comp_def, List.map_id']
    exact List.takeWhile_append_dropWhile

namespace OutboxState

def live (s : OutboxState) : Queue := s.mutations ++ s.held

@[simp] theorem finishLoop_held (f : Flush) (remaining : Queue) (s : OutboxState) :
    (s.finishLoop f remaining).held = [] := by
  unfold finishLoop held
  split
  case h_1 => rfl
  case h_2 g hg =>
    simp only at hg
    split at hg
    · cases hg; rfl
    · cases hg

@[simp] theorem goOn_held (f : Flush) (kept rest : Queue) (s : OutboxState) :
    (s.goOn f kept rest).held = f.remaining ++ kept ++ rest :=
  rfl

theorem deadLetter_eq (f : Flush) (entry : DeadLetter) (behind : Queue) (s : OutboxState) :
    s.deadLetter f entry behind =
      s.goOn
        { f with
          deadLetters := f.deadLetters ++ entry :: (deadLetterDependentMutations entry.mutation behind).1
          didChange := true }
        [] (deadLetterDependentMutations entry.mutation behind).2 :=
  rfl

theorem held_of_flush {s : OutboxState} {f : Flush} (hf : s.flush = some f) : s.held = f.remaining ++ f.rest := by
  simp [held, hf]

structure SameOutside (s s' : OutboxState) : Prop where
  closed : s'.closed = s.closed
  persists : s'.persists = s.persists
  outboxFile : s'.outboxFile = s.outboxFile
  deadLetterFile : s'.deadLetterFile = s.deadLetterFile
  enqueued : s'.enqueued = s.enqueued
  calls : s'.calls = s.calls
  reports : s'.reports = s.reports
  acked : s'.acked = s.acked
  lost : s'.lost = s.lost

theorem FlushMove.sameOutside {config : Config} {s s' : OutboxState} {f : Flush} {e : Event}
    (h : FlushMove config s f e s') : SameOutside s s' := by
  cases h <;> exact ⟨rfl, rfl, rfl, rfl, rfl, rfl, rfl, rfl, rfl⟩

theorem FlushMove.knownTo {config : Config} {s s' : OutboxState} {f : Flush} {e : Event} {enqueued : Queue}
    (h : FlushMove config s f e s') (hf : s.flush = some f) (hlive : KnownTo enqueued s.live)
    (hinFlight : KnownTo enqueued s.inFlightMutations) :
    KnownTo enqueued s'.live ∧ KnownTo enqueued s'.inFlightMutations := by
  have hboth := hlive
  simp only [live, held_of_flush hf, KnownTo.append_iff] at hboth
  obtain ⟨hmutations, hremaining, hrest⟩ := hboth
  cases h with
  | idle => exact ⟨hlive, hinFlight⟩
  | deliver =>
      refine ⟨?_, hinFlight⟩
      simp only [live, held, KnownTo.append_iff]
      exact ⟨hmutations, hremaining, hrest⟩
  | keep mutation behind nextAttemptAt _ hcons =>
      rw [hcons, KnownTo.cons_iff] at hrest
      have hkept : KnownTo enqueued (f.remaining ++ [mutation.retried mutation.attempts nextAttemptAt]) := by
        simpa using ⟨hremaining, hrest.1⟩
      exact ⟨KnownTo.append_iff.mpr ⟨hmutations, KnownTo.append_iff.mpr ⟨hkept, hrest.2⟩⟩,
        hkept.merge hrest.2⟩
  | stop mutation behind attempts nextAttemptAt _ hcons =>
      rw [hcons, KnownTo.cons_iff] at hrest
      have hleft : KnownTo enqueued (f.remaining ++ mutation.retried attempts nextAttemptAt :: behind) := by
        simpa using ⟨hremaining, hrest.1, hrest.2⟩
      simp only [live, finishLoop_held, List.append_nil]
      exact ⟨hleft.merge hmutations, KnownTo.nil⟩
  | finish =>
      simp only [live, finishLoop_held, List.append_nil]
      exact ⟨hremaining.merge hmutations, KnownTo.nil⟩
  | settle mutation behind hcons =>
      rw [hcons, KnownTo.cons_iff] at hrest
      have hkept : KnownTo enqueued (f.remaining ++ []) := by simpa using hremaining
      exact ⟨KnownTo.append_iff.mpr ⟨hmutations, KnownTo.append_iff.mpr ⟨hkept, hrest.2⟩⟩,
        hkept.merge hrest.2⟩
  | dead mutation behind attempts nextAttemptAt reason hcons _ =>
      rw [hcons, KnownTo.cons_iff] at hrest
      have hkept : KnownTo enqueued (f.remaining ++ []) := by simpa using hremaining
      have hbehind := hrest.2
      rw [← deadLetterDependentMutations_split (mutation.retried attempts nextAttemptAt) behind,
        KnownTo.append_iff] at hbehind
      exact ⟨KnownTo.append_iff.mpr ⟨hmutations, KnownTo.append_iff.mpr ⟨hkept, hbehind.2⟩⟩,
        hkept.merge hbehind.2⟩

theorem FlushMove.live_covered {config : Config} {s s' : OutboxState} {f : Flush} {e : Event}
    {p : QueuedSessionMutation → Bool} (h : FlushMove config s f e s') (hf : s.flush = some f)
    (hrespects : RespectsCovers p) (hapart : IdsApart p s.enqueued) (hlive : KnownTo s.enqueued s.live)
    {x : QueuedSessionMutation} (hp : p x) (hx : x ∈ s.live) :
    CoveredBy (s'.live ++ s'.settled.drop s.settled.length ++ s.deadLetteredBy config e) x := by
  have hboth := hlive
  simp only [live, held_of_flush hf, KnownTo.append_iff] at hboth
  obtain ⟨hmutations, hremaining, hrest⟩ := hboth
  have hx' := hx
  simp only [live, held_of_flush hf, List.mem_append] at hx'
  cases h with
  | idle => exact (CoveredBy.of_mem hx).mono (by simp)
  | deliver =>
      refine CoveredBy.of_mem ?_
      simp only [live, held, List.mem_append]
      tauto
  | keep mutation behind nextAttemptAt _ hcons =>
      rw [hcons, List.mem_cons] at hx'
      rcases hx' with hx | hx | rfl | hx
      · exact .of_mem (by simp [live, hx, goOn])
      · exact .of_mem (by simp [live, hx])
      · exact ⟨x.retried x.attempts nextAttemptAt, by simp [live], .refl x⟩
      · exact .of_mem (by simp [live, hx])
  | stop mutation behind attempts nextAttemptAt _ hcons =>
      rw [hcons] at hx'
      rw [hcons, KnownTo.cons_iff] at hrest
      have hall : KnownTo s.enqueued
          (f.remaining ++ mutation.retried attempts nextAttemptAt :: behind ++ s.mutations) := by
        simpa using ⟨hremaining, hrest.1, hrest.2, hmutations⟩
      suffices hcovered : CoveredBy (mergeQueuedSessionMutations
          (f.remaining ++ mutation.retried attempts nextAttemptAt :: behind) s.mutations) x by
        refine hcovered.mono ?_
        simp only [live, finishLoop_held, List.append_nil, List.append_assoc]
        exact List.subset_append_left _ _
      have hcovers := fun m hp hm => merge_covers (x := m) hrespects (hall.idsApart hrespects hapart) hp hm
      rw [List.mem_cons] at hx'
      rcases hx' with hx | hx | rfl | hx
      · exact hcovers x hp (by simp [hx])
      · exact hcovers x hp (by simp [hx])
      · exact hcovers (x.retried attempts nextAttemptAt) (hrespects _ x (.refl x) hp) (by simp)
      · exact hcovers x hp (by simp [hx])
  | finish hnil =>
      rw [hnil] at hx'
      have hall : KnownTo s.enqueued (f.remaining ++ s.mutations) := by simpa using ⟨hremaining, hmutations⟩
      refine (merge_covers hrespects (hall.idsApart hrespects hapart) hp (x := x) ?_).mono ?_
      · simp only [List.mem_append]; simp only [List.not_mem_nil] at hx'; tauto
      · simp only [live, finishLoop_held, List.append_nil, List.append_assoc]
        exact List.subset_append_left _ _
  | settle mutation behind hcons =>
      rw [hcons, List.mem_cons] at hx'
      rcases hx' with hx | hx | rfl | hx
      · exact .of_mem (by simp [live, hx, goOn])
      · exact .of_mem (by simp [live, hx])
      · exact .of_mem (by simp [goOn])
      · exact .of_mem (by simp [live, hx])
  | dead mutation behind attempts nextAttemptAt reason hcons hfailing =>
      rw [hcons, List.mem_cons] at hx'
      have hdead : s.deadLetteredBy config e = mutation.retried attempts nextAttemptAt ::
          (deadLetterDependentMutations (mutation.retried attempts nextAttemptAt) behind).1.map
            DeadLetter.mutation := by
        simp [deadLetteredBy, hfailing]
      rcases hx' with hx | hx | rfl | hx
      · exact .of_mem (by simp [live, hx, deadLetter_eq, goOn])
      · exact .of_mem (by simp [live, hx, deadLetter_eq])
      · exact ⟨x.retried attempts nextAttemptAt, by simp [hdead], .refl x⟩
      · rw [← deadLetterDependentMutations_split (mutation.retried attempts nextAttemptAt) behind,
          List.mem_append] at hx
        rcases hx with hx | hx
        · refine .of_mem ?_
          rw [hdead]
          exact List.mem_append_right _ (List.mem_cons_of_mem _ hx)
        · refine .of_mem ?_
          simp only [live, deadLetter_eq, goOn_held, List.mem_append]
          exact .inl (.inl (.inr (.inr hx)))

/-- Whether the next event leaves the ids of turn mutations apart from those with `p`. -/
def KeepsIdsApart (p : QueuedSessionMutation → Bool) (s : OutboxState) : Event → Prop
  | .enqueue mutationId payload now =>
      ∀ m ∈ s.enqueued, m.mutationId = mutationId →
        p m ∨ p ⟨mutationId, payload, now, 0, 0, s.enqueued.length⟩ →
          m.isTurn = (QueuedSessionMutation.mk mutationId payload now 0 0 s.enqueued.length).isTurn
  | _ => True

instance (p : QueuedSessionMutation → Bool) (s : OutboxState) (e : Event) : Decidable (s.KeepsIdsApart p e) := by
  cases e <;> unfold KeepsIdsApart <;> infer_instance

structure Known (s : OutboxState) : Prop where
  fresh : ∀ m ∈ s.enqueued, m.retried 0 0 = m
  live : KnownTo s.enqueued s.live
  inFlight : KnownTo s.enqueued s.inFlightMutations
  outboxFile : KnownTo s.enqueued s.outboxFile
  snapshots : ∀ job ∈ s.persists, ∀ q, job.snapshot = some q → KnownTo s.enqueued q

def ViewCovers (p : QueuedSessionMutation → Bool) (s : OutboxState) : Prop :=
  ∀ m, p m → m ∈ s.held → CoveredBy s.inFlightMutations m

theorem held_of_no_flush {s : OutboxState} (h : s.flush = none) : s.held = [] := by simp [held, h]

theorem held_after_write (s s' : OutboxState) (source : PersistSource) (h : s'.flush = s.flushAfter source) :
    s'.held ⊆ s.held := by
  unfold held
  rw [h]
  cases source <;> simp [flushAfter]

theorem Known.fileContents {s : OutboxState} (h : s.Known) : KnownTo s.enqueued s.fileContents :=
  (h.inFlight.merge (KnownTo.append_iff.mp h.live).1).prune

theorem Known.move {config : Config} {s s' : OutboxState} {f : Flush} {e : Event} (h : s.Known)
    (hf : s.flush = some f) (hmove : FlushMove config s f e s') : s'.Known := by
  have hsame := hmove.sameOutside
  have hknown := hmove.knownTo hf h.live h.inFlight
  constructor
  · rw [hsame.enqueued]; exact h.fresh
  · rw [hsame.enqueued]; exact hknown.1
  · rw [hsame.enqueued]; exact hknown.2
  · rw [hsame.enqueued, hsame.outboxFile]; exact h.outboxFile
  · rw [hsame.enqueued, hsame.persists]; exact h.snapshots

theorem Known.step {config : Config} {s : OutboxState} (h : s.Known) (e : Event) : (s.step config e).Known := by
  obtain ⟨hmutations, hheld⟩ := KnownTo.append_iff.mp h.live
  have hnew : ∀ job : PersistJob, job.snapshot = none →
      ∀ j ∈ s.persists ++ [job], ∀ q, j.snapshot = some q → KnownTo s.enqueued q := by
    intro job hjob j hj q hq
    rcases List.mem_append.mp hj with hj | hj
    · exact h.snapshots j hj q hq
    · rw [List.mem_singleton.mp hj, hjob] at hq; cases hq
  have hmove := step_move config s e
  generalize s.step config e = s' at hmove ⊢
  cases hmove with
  | idle => exact h
  | enqueue mutation hserial hfresh =>
      have hgrow : s.enqueued ⊆ s.enqueued ++ [mutation] := List.subset_append_left _ _
      refine ⟨?_, ?_, h.inFlight.grow hgrow, h.outboxFile.grow hgrow, fun j hj q hq => ?_⟩
      · intro m hm
        rcases List.mem_append.mp hm with hm | hm
        · exact h.fresh m hm
        · rw [List.mem_singleton.mp hm]; exact hfresh
      · refine KnownTo.append_iff.mpr ⟨(KnownTo.mono ?_ (putMutation_subset _ _)).prune, hheld.grow hgrow⟩
        exact KnownTo.cons_iff.mpr ⟨by simp [hfresh], hmutations.grow hgrow⟩
      · exact (hnew _ rfl j hj q hq).grow hgrow
  | startFlush isForced now f hnone hremaining hletters hphase hrest =>
      refine ⟨h.fresh, ?_, hmutations.prune, h.outboxFile, h.snapshots⟩
      simpa [OutboxState.live, held, hremaining, hrest] using hmutations.prune
  | flush f e s' hevent hf hphase hmove => exact h.move hf hmove
  | append ok f hf =>
      refine ⟨h.fresh, KnownTo.append_iff.mpr ⟨hmutations, ?_⟩, h.inFlight, h.outboxFile, hnew _ rfl⟩
      rw [held_of_flush hf] at hheld
      exact hheld
  | appendFails ok f hf =>
      exact ⟨h.fresh, KnownTo.append_iff.mpr ⟨hmutations, KnownTo.nil⟩, h.inFlight, h.outboxFile, h.snapshots⟩
  | startPersist source rest hjobs =>
      refine ⟨h.fresh, h.live, h.inFlight, h.outboxFile, fun job hjob q hq => ?_⟩
      rcases List.mem_cons.mp hjob with rfl | hjob
      · cases hq; exact h.fileContents
      · exact h.snapshots job (by rw [hjobs]; exact List.mem_cons_of_mem _ hjob) q hq
  | written source contents rest hjobs =>
      refine ⟨h.fresh, KnownTo.append_iff.mpr ⟨hmutations, hheld.mono (held_after_write s _ source rfl)⟩, h.inFlight,
        h.snapshots ⟨source, some contents⟩ (by rw [hjobs]; exact List.mem_cons_self) contents rfl,
        fun job hjob => h.snapshots job (by rw [hjobs]; exact List.mem_cons_of_mem _ hjob)⟩
  | writeFails source contents rest hjobs =>
      refine ⟨h.fresh, KnownTo.append_iff.mpr ⟨hmutations, hheld.mono (held_after_write s _ source rfl)⟩, h.inFlight, h.outboxFile,
        fun job hjob => h.snapshots job (by rw [hjobs]; exact List.mem_cons_of_mem _ hjob)⟩
  | report => exact ⟨h.fresh, h.live, h.inFlight, h.outboxFile, h.snapshots⟩
  | close => exact ⟨h.fresh, h.live, h.inFlight, h.outboxFile, h.snapshots⟩
  | closePersist => exact ⟨h.fresh, h.live, h.inFlight, h.outboxFile, hnew _ rfl⟩
  | reload =>
      refine ⟨h.fresh, KnownTo.append_iff.mpr ⟨?_, KnownTo.nil⟩, KnownTo.nil, h.outboxFile,
        fun job hjob => nomatch hjob⟩
      exact KnownTo.nil.merge (h.outboxFile.mono (List.filter_subset_self _)).prune
  | reloadFails => exact ⟨h.fresh, KnownTo.nil, KnownTo.nil, h.outboxFile, fun job hjob => nomatch hjob⟩

theorem knownAtStart : createOutbox.Known :=
  ⟨fun _ hm => (nomatch hm), KnownTo.nil, KnownTo.nil, KnownTo.nil, fun _ hjob => (nomatch hjob)⟩

/-- Whatever fails, and wherever the process dies: what waits, is being delivered or is in
the file was enqueued, and only its attempts have changed since. -/
theorem nothing_invented (config : Config) (events : List Event) :
    let s := Runs.run (OutboxState.step config) createOutbox events
    KnownTo s.enqueued (s.live ++ s.inFlightMutations ++ s.outboxFile) := by
  intro s
  have h : s.Known := Runs.run_invariant (fun _ e hs => hs.step e) knownAtStart events
  exact KnownTo.append_iff.mpr ⟨KnownTo.append_iff.mpr ⟨h.live, h.inFlight⟩, h.outboxFile⟩

theorem idsApart_step {config : Config} {s : OutboxState} {e : Event} {p : QueuedSessionMutation → Bool}
    (h : IdsApart p s.enqueued) (he : s.KeepsIdsApart p e) : IdsApart p (s.step config e).enqueued := by
  have hmove := step_move config s e
  generalize s.step config e = s' at hmove ⊢
  cases hmove with
  | enqueue mutation hserial hfresh =>
      have hmutation : mutation =
          ⟨mutation.mutationId, mutation.payload, mutation.createdAt, 0, 0, s.enqueued.length⟩ := by
        rw [← hserial]; exact hfresh.symm
      simp only [KeepsIdsApart, ← hmutation] at he
      intro x hx hp m hm hid
      rcases List.mem_append.mp hx with hx | hx <;> rcases List.mem_append.mp hm with hm | hm
      · exact h x hx hp m hm hid
      · rw [List.mem_singleton.mp hm] at hid ⊢
        exact (he x hx hid.symm (.inl hp)).symm
      · rw [List.mem_singleton.mp hx] at hid hp ⊢
        exact he m hm hid (.inr hp)
      · rw [List.mem_singleton.mp hx, List.mem_singleton.mp hm]
  | flush f e s' hevent hf hphase hmove => rw [hmove.sameOutside.enqueued]; exact h
  | _ => exact h

/-- How far a flush is decides what it still holds, and it alone waits for a write of its own. -/
structure Orderly (s : OutboxState) : Prop where
  ended : ∀ f, s.flush = some f → f.phase = .appending ∨ f.phase = .persisting →
    f.remaining = [] ∧ f.rest = []
  changed : ∀ f, s.flush = some f → f.deadLetters ≠ [] → f.didChange ∧ f.phase ≠ .persisting
  waits : ∀ job ∈ s.persists, job.source = .flush → ∃ f, s.flush = some f ∧ f.phase = .persisting
  once : s.persists.countP (·.source = .flush) ≤ 1

theorem Orderly.no_flush_job {s : OutboxState} (h : s.Orderly)
    (hphase : ∀ f, s.flush = some f → f.phase ≠ .persisting) : ∀ job ∈ s.persists, job.source ≠ .flush := by
  intro job hjob hsource
  obtain ⟨f, hf, hpersisting⟩ := h.waits job hjob hsource
  exact hphase f hf hpersisting

theorem Orderly.of_same_jobs {s s' : OutboxState} (h : s.Orderly) (hjobs : s'.persists = s.persists)
    (hnone : ∀ job ∈ s.persists, job.source ≠ .flush)
    (hended : ∀ f, s'.flush = some f → f.phase = .appending ∨ f.phase = .persisting →
      f.remaining = [] ∧ f.rest = [])
    (hchanged : ∀ f, s'.flush = some f → f.deadLetters ≠ [] → f.didChange ∧ f.phase ≠ .persisting) :
    s'.Orderly := by
  refine ⟨hended, hchanged, ?_, ?_⟩
  · intro job hjob hsource
    rw [hjobs] at hjob
    exact absurd hsource (hnone job hjob)
  · rw [hjobs]; exact h.once

theorem finishLoop_flush {f : Flush} {remaining : Queue} {s : OutboxState} {g : Flush}
    (h : (s.finishLoop f remaining).flush = some g) :
    f.didChange ∧ g.remaining = [] ∧ g.rest = [] ∧ g.deadLetters = f.deadLetters ∧ g.didChange ∧
      g.phase = .appending := by
  simp only [finishLoop] at h
  split at h
  case isTrue hchange => cases h; exact ⟨hchange, rfl, rfl, rfl, hchange, rfl⟩
  case isFalse => cases h

theorem Orderly.move {config : Config} {s s' : OutboxState} {f : Flush} {e : Event} (h : s.Orderly)
    (hf : s.flush = some f) (hphase : f.phase = .looping ∨ f.phase = .delivering)
    (hmove : FlushMove config s f e s') : s'.Orderly := by
  have hnone := h.no_flush_job fun g hg hpersisting => by
    rw [hf] at hg
    cases hg
    rcases hphase with hphase | hphase <;> rw [hphase] at hpersisting <;> cases hpersisting
  have hsame := hmove.sameOutside.persists
  cases hmove with
  | idle => exact h
  | deliver =>
      exact h.of_same_jobs hsame hnone (fun g hg hg' => by cases hg; simp at hg')
        fun g hg hletters => by cases hg; exact ⟨(h.changed f hf hletters).1, by simp⟩
  | keep _ _ _ didChange _ _ hchange =>
      exact h.of_same_jobs hsame hnone (fun g hg hg' => by cases hg; simp at hg')
        fun g hg hletters => by cases hg; exact ⟨hchange (h.changed f hf hletters).1, by simp⟩
  | settle =>
      exact h.of_same_jobs hsame hnone (fun g hg hg' => by cases hg; simp at hg')
        fun g hg _ => by cases hg; exact ⟨rfl, by simp⟩
  | dead =>
      exact h.of_same_jobs hsame hnone (fun g hg hg' => by cases hg; simp at hg')
        fun g hg _ => by cases hg; exact ⟨rfl, by simp⟩
  | stop | finish =>
      refine h.of_same_jobs hsame hnone (fun g hg _ => ?_) fun g hg _ => ?_
      · obtain ⟨-, hremaining, hrest, -⟩ := finishLoop_flush hg
        exact ⟨hremaining, hrest⟩
      · obtain ⟨-, -, -, -, hchange, happending⟩ := finishLoop_flush hg
        exact ⟨hchange, by rw [happending]; simp⟩

theorem Orderly.after_write {s s' : OutboxState} {source : PersistSource} {contents : Queue}
    {rest : List PersistJob} (h : s.Orderly) (hjobs : s.persists = ⟨source, some contents⟩ :: rest)
    (hrest : s'.persists = rest) (hflush : s'.flush = s.flushAfter source) : s'.Orderly := by
  have hwaits := h.waits
  have honce := h.once
  rw [hjobs] at hwaits honce
  by_cases hsource : source = .flush
  · subst hsource
    have hzero : rest.countP (·.source = .flush) = 0 := by
      rw [List.countP_cons_of_pos (by simp)] at honce
      omega
    have hsome : ∀ f, s'.flush ≠ some f := fun f hf => by rw [hflush] at hf; cases hf
    refine ⟨fun f hf => absurd hf (hsome f), fun f hf => absurd hf (hsome f), ?_, ?_⟩
    · intro job hjob hsource
      rw [hrest] at hjob
      exact absurd hsource (by simpa using List.countP_eq_zero.mp hzero job hjob)
    · rw [hrest, hzero]; omega
  · have hsame : s'.flush = s.flush := by
      rw [hflush]
      cases source <;> simp_all [flushAfter]
    refine ⟨by rw [hsame]; exact h.ended, by rw [hsame]; exact h.changed, ?_, ?_⟩
    · intro job hjob
      rw [hsame]
      exact hwaits job (List.mem_cons_of_mem _ (hrest ▸ hjob))
    · rw [List.countP_cons_of_neg (by simpa using hsource)] at honce
      rw [hrest]
      exact honce

theorem Orderly.step {config : Config} {s : OutboxState} (h : s.Orderly) (e : Event) :
    (s.step config e).Orderly := by
  have hmove := step_move config s e
  generalize s.step config e = s' at hmove ⊢
  have hwaits : ∀ job : PersistJob, job.source ≠ .flush →
      ∀ j ∈ s.persists ++ [job], j.source = .flush → ∃ f, s.flush = some f ∧ f.phase = .persisting := by
    intro job hjob j hj
    rcases List.mem_append.mp hj with hj | hj
    · exact h.waits j hj
    · rw [List.mem_singleton.mp hj]; exact fun hsource => absurd hsource hjob
  cases hmove with
  | enqueue =>
      exact ⟨h.ended, h.changed, hwaits _ (by simp), by simpa [List.countP_append] using h.once⟩
  | closePersist =>
      exact ⟨h.ended, h.changed, hwaits _ (by simp), by simpa [List.countP_append] using h.once⟩
  | startFlush isForced now f hnone hremaining hletters hphase hrest =>
      refine h.of_same_jobs rfl (h.no_flush_job fun g hg => by rw [hnone] at hg; cases hg)
        (fun g hg hg' => ?_) fun g hg hg' => ?_
      · cases hg; rw [hphase] at hg'; simp at hg'
      · cases hg; exact absurd hletters hg'
  | flush f e s' hevent hf hphase hmove => exact h.move hf hphase hmove
  | append ok f hf hphase =>
      have hnone := h.no_flush_job fun g hg => by rw [hf] at hg; cases hg; rw [hphase]; simp
      obtain ⟨hremaining, hrest⟩ := h.ended f hf (.inl hphase)
      refine ⟨fun g hg _ => by cases hg; exact ⟨hremaining, hrest⟩,
        fun g hg hletters => by cases hg; exact absurd rfl hletters, fun _ _ _ => ⟨_, rfl, rfl⟩, ?_⟩
      have hzero : s.persists.countP (·.source = .flush) = 0 :=
        List.countP_eq_zero.mpr fun job hjob => by simpa using hnone job hjob
      simp [List.countP_append, hzero]
  | appendFails ok f hf hphase =>
      exact h.of_same_jobs rfl (h.no_flush_job fun g hg => by rw [hf] at hg; cases hg; rw [hphase]; simp)
        (fun g hg => nomatch hg) fun g hg => nomatch hg
  | startPersist source rest hjobs =>
      have hwaits := h.waits
      have honce := h.once
      rw [hjobs] at hwaits honce
      refine ⟨h.ended, h.changed, fun job hjob hsource => ?_, by simpa [List.countP_cons] using honce⟩
      rcases List.mem_cons.mp hjob with rfl | hjob
      · exact hwaits ⟨source, none⟩ List.mem_cons_self hsource
      · exact hwaits job (List.mem_cons_of_mem _ hjob) hsource
  | written source contents rest hjobs => exact h.after_write hjobs rfl rfl
  | writeFails source contents rest hjobs => exact h.after_write hjobs rfl rfl
  | reload | reloadFails =>
      exact ⟨fun f hf => (nomatch hf), fun f hf => (nomatch hf), fun job hjob => (nomatch hjob), by simp⟩
  | idle => exact h
  | report | close => exact ⟨h.ended, h.changed, h.waits, h.once⟩

theorem orderlyAtStart : createOutbox.Orderly :=
  ⟨fun f hf => (nomatch hf), fun f hf => (nomatch hf), fun job hjob => (nomatch hjob), by simp [createOutbox]⟩

theorem held_after_write_eq {s s' : OutboxState} (h : s.Orderly) {source : PersistSource} {contents : Queue}
    {rest : List PersistJob} (hjobs : s.persists = ⟨source, some contents⟩ :: rest)
    (hflush : s'.flush = s.flushAfter source) : s'.held = s.held := by
  cases source with
  | flush =>
      obtain ⟨f, hf, hphase⟩ := h.waits ⟨.flush, some contents⟩ (by rw [hjobs]; simp) rfl
      obtain ⟨hremaining, hrest⟩ := h.ended f hf (.inr hphase)
      rw [held_of_no_flush hflush, held_of_flush hf, hremaining, hrest]
      rfl
  | _ =>
      have hflush : s'.flush = s.flush := hflush
      unfold held
      rw [hflush]

section

variable {config : Config} {s : OutboxState} {p : QueuedSessionMutation → Bool}

theorem ViewCovers.step (hrespects : RespectsCovers p) (hknown : s.Known) (hapart : IdsApart p s.enqueued)
    (h : s.ViewCovers p) (e : Event) : (s.step config e).ViewCovers p := by
  have hview : ∀ s' : OutboxState, (∃ kept rest, s'.held = kept ++ rest ∧
      s'.inFlightMutations = mergeQueuedSessionMutations kept rest) → KnownTo s.enqueued s'.held →
        s'.ViewCovers p := by
    rintro s' ⟨kept, rest, hheld, hinFlight⟩ hknown' m hp hm
    rw [hheld] at hknown' hm
    rw [hinFlight]
    exact merge_covers hrespects (hknown'.idsApart hrespects hapart) hp hm
  have hmove := step_move config s e
  generalize s.step config e = s' at hmove ⊢
  cases hmove with
  | startFlush isForced now f hnone hremaining hletters hphase hrest =>
      intro m _ hm
      simp only [held, hremaining, hrest, List.nil_append] at hm
      exact .of_mem hm
  | flush f e s' hevent hf hphase hmove =>
      have hheld := (KnownTo.append_iff.mp (hmove.knownTo hf hknown.live hknown.inFlight).1).2
      cases hmove with
      | idle => exact h
      | deliver => exact fun m hp hm => h m hp (by rw [held_of_flush hf]; exact hm)
      | keep | settle | dead => exact hview _ ⟨_, _, rfl, rfl⟩ hheld
      | stop | finish => exact fun m _ hm => by simp at hm
  | append ok f hf => exact fun m hp hm => h m hp (by rw [held_of_flush hf]; exact hm)
  | appendFails => exact fun m _ hm => nomatch hm
  | written source => exact fun m hp hm => h m hp (held_after_write s _ source rfl hm)
  | writeFails source => exact fun m hp hm => h m hp (held_after_write s _ source rfl hm)
  | reload | reloadFails => exact fun m _ hm => nomatch hm
  | _ => exact h

theorem enqueue_covers {mutation x : QueuedSessionMutation} (hapart : IdsApart p (mutation :: s.mutations))
    (hp : p x) (hx : x ∈ mutation :: s.mutations) :
    CoveredBy (pruneSessionEndsSupersededByLaterTurnBegins (putMutation mutation s.mutations)) x ∨
      Superseded (mutation :: s.mutations) x := by
  obtain ⟨m, hm, hcovers⟩ := putMutation_covers hapart hp hx
  rcases prune_covers hm with ⟨n, hn, hcovers'⟩ | hsuperseded
  · exact .inl ⟨n, hn, hcovers'.trans hcovers⟩
  · exact .inr ((hcovers.superseded hsuperseded).mono (putMutation_subset _ _))

theorem live_step (hrespects : RespectsCovers p) (hknown : s.Known) (horderly : s.Orderly) {e : Event}
    (hapart : IdsApart p (s.step config e).enqueued) (hcrash : ∀ appended, e ≠ .crash appended)
    {x : QueuedSessionMutation} (hp : p x) (hx : x ∈ s.live) :
    CoveredBy ((s.step config e).live ++ (s.step config e).settled.drop s.settled.length ++
        s.deadLetteredBy config e) x ∨
      Superseded (s.step config e).enqueued x := by
  have hsame : ∀ {s' : OutboxState}, x ∈ s'.live → CoveredBy
      (s'.live ++ s'.settled.drop s.settled.length ++ s.deadLetteredBy config e) x ∨ Superseded s'.enqueued x :=
    fun hx => .inl (.of_mem (List.mem_append_left _ (List.mem_append_left _ hx)))
  have hafter : ∀ source contents rest, s.persists = ⟨source, some contents⟩ :: rest →
      ∀ s' : OutboxState, s'.mutations = s.mutations → s'.flush = s.flushAfter source → x ∈ s'.live := by
    intro source contents rest hjobs s' hmutations hflush
    rcases List.mem_append.mp hx with hx | hx
    · exact List.mem_append_left _ (hmutations ▸ hx)
    · have hflush' : s'.flush = s.flush := by
        rw [hflush]
        cases source with
        | flush =>
            obtain ⟨f, hf, hphase⟩ := horderly.waits ⟨.flush, some contents⟩ (by rw [hjobs]; simp) rfl
            obtain ⟨hremaining, hrest⟩ := horderly.ended f hf (.inr hphase)
            simp [held_of_flush hf, hremaining, hrest] at hx
        | _ => rfl
      refine List.mem_append_right _ ?_
      rw [held, hflush']
      exact hx
  have hmove := step_move config s e
  generalize s.step config e = s' at hmove hapart ⊢
  cases hmove with
  | enqueue mutation hserial hfresh =>
      have hmutations : KnownTo (s.enqueued ++ [mutation]) (mutation :: s.mutations) :=
        KnownTo.cons_iff.mpr ⟨by simp [hfresh],
          (KnownTo.append_iff.mp hknown.live).1.grow (List.subset_append_left _ _)⟩
      rcases List.mem_append.mp hx with hx | hx
      · rcases enqueue_covers (hmutations.idsApart hrespects hapart) hp (List.mem_cons_of_mem _ hx) with h | h
        · refine .inl (h.mono ?_)
          simp only [live, List.append_assoc]
          exact List.subset_append_left _ _
        · exact .inr (hmutations.superseded h)
      · exact hsame (List.mem_append_right _ hx)
  | startFlush isForced now f hnone hremaining hletters hphase hrest =>
      simp only [live, held_of_no_flush hnone, List.append_nil] at hx
      rcases prune_covers hx with h | h
      · refine .inl (h.mono ?_)
        simp [live, held, hremaining, hrest]
      · exact .inr ((KnownTo.append_iff.mp hknown.live).1.superseded h)
  | flush f e s' hevent hf hphase hmove =>
      exact .inl (hmove.live_covered hf hrespects (hmove.sameOutside.enqueued ▸ hapart) hknown.live hp hx)
  | append ok f hf =>
      refine hsame ?_
      simpa [live, held, hf] using hx
  | appendFails ok f hf hphase =>
      refine hsame ?_
      obtain ⟨hremaining, hrest⟩ := horderly.ended f hf (.inl hphase)
      simpa [live, held, hf, hremaining, hrest] using hx
  | written source contents rest hjobs => exact hsame (hafter source contents rest hjobs _ rfl rfl)
  | writeFails source contents rest hjobs => exact hsame (hafter source contents rest hjobs _ rfl rfl)
  | reload appended | reloadFails appended => exact absurd rfl (hcrash appended)
  | _ => exact hsame hx

end

end OutboxState

end DevPilot.Outbox
