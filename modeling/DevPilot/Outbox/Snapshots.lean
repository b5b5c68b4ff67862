import DevPilot.Outbox.Durability

/-!
The snapshots of one transcript message: a queue holds at most one.
-/

namespace DevPilot.Outbox

open QueuedSessionMutation OutboxState

def isSnapshotOf (key : String) (m : QueuedSessionMutation) : Bool := m.isTranscript && m.coalesceKey = some key

def snapshots (key : String) (q : Queue) : Queue := q.filter (isSnapshotOf key)

def serials (key : String) (q : Queue) : List Nat := (snapshots key q).map QueuedSessionMutation.serial

/-- What `putMutation` does to the snapshots with the key of the new one. -/
def putSnapshot (next : QueuedSessionMutation) : Queue → Queue
  | [] => [next]
  | queued :: rest => (if shouldReplaceCoalescedMutation queued next then next else queued) :: rest

def SnapshotsMonotone (enqueued : Queue) : Prop :=
  ∀ x ∈ enqueued, ∀ m ∈ enqueued, x.isTranscript → m.coalesceKey = x.coalesceKey → x.serial ≤ m.serial →
    x.observedAt ≤ m.observedAt

section

variable {key : String} {q q' : Queue} {m next : QueuedSessionMutation}

theorem isSnapshotOf_iff : isSnapshotOf key m ↔ m.isTranscript ∧ m.coalesceKey = some key := by
  simp [isSnapshotOf]

@[simp] theorem snapshots_nil : snapshots key [] = [] := rfl

@[simp] theorem snapshots_append : snapshots key (q ++ q') = snapshots key q ++ snapshots key q' := by
  simp [snapshots]

theorem snapshots_cons_same (h : isSnapshotOf key m) : snapshots key (m :: q) = m :: snapshots key q := by
  simp [snapshots, h]

theorem snapshots_cons_other (h : ¬ isSnapshotOf key m) : snapshots key (m :: q) = snapshots key q := by
  simp [snapshots, h]

@[simp] theorem serials_nil : serials key [] = [] := rfl

@[simp] theorem serials_append : serials key (q ++ q') = serials key q ++ serials key q' := by
  simp [serials]

theorem mem_serials {n : Nat} : n ∈ serials key q ↔ ∃ m ∈ q, isSnapshotOf key m ∧ m.serial = n := by
  simp only [serials, snapshots, List.mem_map, List.mem_filter, and_assoc]

theorem serials_length : (serials key q).length = (snapshots key q).length := by simp [serials]

theorem serials_subset (h : q ⊆ q') : serials key q ⊆ serials key q' := by
  intro n hn
  obtain ⟨m, hm, hkey, rfl⟩ := mem_serials.mp hn
  exact mem_serials.mpr ⟨m, h hm, hkey, rfl⟩

theorem serials_sublist (h : q.Sublist q') : (serials key q).Sublist (serials key q') := (h.filter _).map _

@[simp] theorem isSnapshotOf_retried {attempts : Nat} {nextAttemptAt : Int} :
    isSnapshotOf key (m.retried attempts nextAttemptAt) = isSnapshotOf key m :=
  rfl

@[simp] theorem serials_retried {attempts : Nat} {nextAttemptAt : Int} :
    serials key (m.retried attempts nextAttemptAt :: q) = serials key (m :: q) := by
  by_cases h : isSnapshotOf key m
  · simp only [serials, snapshots_cons_same h, snapshots_cons_same (m := m.retried attempts nextAttemptAt) h]
    rfl
  · simp only [serials, snapshots_cons_other h, snapshots_cons_other (m := m.retried attempts nextAttemptAt) h]

@[simp] theorem snapshots_prune :
    snapshots key (pruneSessionEndsSupersededByLaterTurnBegins q) = snapshots key q := by
  unfold pruneSessionEndsSupersededByLaterTurnBegins
  split
  · rfl
  · unfold snapshots
    rw [List.filter_filter]
    refine List.filter_congr fun m _ => ?_
    rcases m.kinds with hk | hk | hk <;> simp [isSnapshotOf, hk]

@[simp] theorem serials_prune : serials key (pruneSessionEndsSupersededByLaterTurnBegins q) = serials key q := by
  simp [serials]

theorem isSnapshotOf_congr (h : m.coalesceKey = next.coalesceKey) : isSnapshotOf key m = isSnapshotOf key next := by
  unfold isSnapshotOf
  rw [(kind_of_coalesceKey h).1, h]

theorem coalescesWith_of_key {k : String} (h : next.coalesceKey = some k) :
    next.coalescesWith m ↔ m.coalesceKey = next.coalesceKey := by
  simp [coalescesWith, h]

theorem isSnapshotOf_turn (h : m.isTurn) : ¬ isSnapshotOf key m := by
  rcases m.kinds with hk | hk | hk <;> simp_all [isSnapshotOf]

theorem snapshots_put_same (h : isSnapshotOf key next) :
    snapshots key (putMutation next q) = putSnapshot next (snapshots key q) := by
  have hkey : next.coalesceKey = some key := (isSnapshotOf_iff.mp h).2
  induction q with
  | nil => simp [putMutation, snapshots, putSnapshot, h]
  | cons queued rest ih =>
      unfold putMutation
      by_cases hcoalesces : next.coalescesWith queued
      · have hqueued : isSnapshotOf key queued := by
          rw [isSnapshotOf_congr ((coalescesWith_of_key hkey).mp hcoalesces)]; exact h
        rw [if_pos hcoalesces, snapshots_cons_same hqueued, putSnapshot]
        split
        · exact snapshots_cons_same h
        · exact snapshots_cons_same hqueued
      · have hqueued : ¬ isSnapshotOf key queued := by
          intro hsnapshot
          apply hcoalesces
          rw [coalescesWith_of_key hkey, hkey]
          exact (isSnapshotOf_iff.mp hsnapshot).2
        rw [if_neg hcoalesces, snapshots_cons_other hqueued, snapshots_cons_other hqueued, ih]

theorem snapshots_put_other (hapart : IdsApart (fun _ => true) (next :: q)) (h : ¬ isSnapshotOf key next) :
    snapshots key (putMutation next q) = snapshots key q := by
  induction q with
  | nil => simp [putMutation, snapshots, h]
  | cons queued rest ih =>
      have hrest : IdsApart (fun _ => true) (next :: rest) :=
        hapart.mono (List.cons_subset_cons _ (List.subset_cons_self _ _))
      unfold putMutation
      by_cases hcoalesces : next.coalescesWith queued
      · have hqueued : ¬ isSnapshotOf key queued := by
          cases hkey : next.coalesceKey with
          | some k => rw [isSnapshotOf_congr ((coalescesWith_of_key hkey).mp hcoalesces)]; exact h
          | none =>
              have hid : queued.mutationId = next.mutationId := by simpa [coalescesWith, hkey] using hcoalesces
              apply isSnapshotOf_turn
              rw [hapart next (by simp) rfl queued (by simp) hid]
              exact coalesceKey_eq_none.mp hkey
        rw [if_pos hcoalesces, snapshots_cons_other hqueued]
        split
        · exact snapshots_cons_other h
        · exact snapshots_cons_other hqueued
      · rw [if_neg hcoalesces]
        by_cases hqueued : isSnapshotOf key queued
        · rw [snapshots_cons_same hqueued, snapshots_cons_same hqueued, ih hrest]
        · rw [snapshots_cons_other hqueued, snapshots_cons_other hqueued, ih hrest]

theorem snapshots_merge (key : String) (hapart : IdsApart (fun _ => true) (q ++ q')) :
    snapshots key (mergeQueuedSessionMutations q q') =
      (snapshots key q').foldl (fun merged next => putSnapshot next merged) (snapshots key q) := by
  induction q' generalizing q with
  | nil => rfl
  | cons next later ih =>
      have hput := putMutation_append_subset next q later
      have hfirst := hapart.mono (cons_subset_append_cons next q later)
      have hlater := ih (hapart.mono hput)
      by_cases h : isSnapshotOf key next
      · rw [snapshots_cons_same h, List.foldl_cons, ← snapshots_put_same h]
        exact hlater
      · rw [snapshots_cons_other h, ← snapshots_put_other hfirst h]
        exact hlater

theorem serials_put_length (hapart : IdsApart (fun _ => true) (next :: q)) (h : (serials key q).length ≤ 1) :
    (serials key (putMutation next q)).length ≤ 1 := by
  rw [serials_length] at h ⊢
  by_cases hnext : isSnapshotOf key next
  · rw [snapshots_put_same hnext]
    rcases hsnapshots : snapshots key q with - | ⟨x, xs⟩
    · simp [putSnapshot]
    · rw [hsnapshots] at h
      exact h
  · rw [snapshots_put_other hapart hnext]
    exact h

theorem serials_merge_length (hapart : IdsApart (fun _ => true) (q ++ q')) (h : (serials key q).length ≤ 1) :
    (serials key (mergeQueuedSessionMutations q q')).length ≤ 1 := by
  induction q' generalizing q with
  | nil => exact h
  | cons next later ih =>
      have hput := putMutation_append_subset next q later
      have hfirst := hapart.mono (cons_subset_append_cons next q later)
      exact ih (hapart.mono hput) (serials_put_length hfirst h)

theorem shouldReplace_of_monotone {enqueued : Queue} {m next : QueuedSessionMutation} (hmonotone : SnapshotsMonotone enqueued)
    (hm : KnownTo enqueued [m, next]) (hsame : isSnapshotOf key m) (hnext : isSnapshotOf key next)
    (hle : m.serial ≤ next.serial) : shouldReplaceCoalescedMutation m next := by
  simp only [isSnapshotOf, Bool.and_eq_true, decide_eq_true_eq] at hsame hnext
  simp only [KnownTo.cons_iff] at hm
  have htime := hmonotone _ hm.1 _ hm.2.1 (by simpa using hsame.1) (by simp [hsame.2, hnext.2]) (by simpa using hle)
  simp only [retried_observedAt] at htime
  simp [shouldReplaceCoalescedMutation, hsame.1, hnext.1, htime]

theorem serials_merge {enqueued : Queue} (hapart : IdsApart (fun _ => true) enqueued)
    (hmonotone : SnapshotsMonotone enqueued) (hq : KnownTo enqueued q) (hq' : KnownTo enqueued q')
    (hone : (serials key q).length ≤ 1) (hone' : (serials key q').length ≤ 1)
    (hle : ∀ a ∈ serials key q, ∀ b ∈ serials key q', a ≤ b) :
    serials key (mergeQueuedSessionMutations q q') =
      if serials key q' = [] then serials key q else serials key q' := by
  have hmerge := snapshots_merge key
    ((KnownTo.append_iff.mpr ⟨hq, hq'⟩).idsApart respectsCovers_true hapart)
  rw [serials_length] at hone hone'
  unfold serials at hle ⊢
  rw [hmerge]
  rcases hsnapshots : snapshots key q' with - | ⟨y, - | ⟨y', ys⟩⟩
  · simp
  · have hy : y ∈ snapshots key q' := by rw [hsnapshots]; simp
    rcases hbefore : snapshots key q with - | ⟨x, - | ⟨x', xs⟩⟩
    · simp [putSnapshot]
    · have hx : x ∈ snapshots key q := by rw [hbefore]; simp
      rw [hsnapshots, hbefore] at hle
      have hreplace := shouldReplace_of_monotone hmonotone
        (by simp only [KnownTo.cons_iff]
            exact ⟨hq x (List.mem_filter.mp hx).1, hq' y (List.mem_filter.mp hy).1, KnownTo.nil⟩)
        (List.mem_filter.mp hx).2 (List.mem_filter.mp hy).2 (hle _ (by simp) _ (by simp))
      simp [putSnapshot, hreplace]
    · rw [hbefore] at hone; simp at hone
  · rw [hsnapshots] at hone'; simp at hone'

end

namespace OutboxState

structure SingleSnapshots (s : OutboxState) : Prop where
  queued : ∀ key, (serials key s.mutations).length ≤ 1
  held : ∀ key, (serials key s.held).length ≤ 1
  inFlight : ∀ key, (serials key s.inFlightMutations).length ≤ 1
  file : ∀ key, (serials key s.outboxFile).length ≤ 1
  written : ∀ job ∈ s.persists, ∀ q, job.snapshot = some q → ∀ key, (serials key q).length ≤ 1

theorem SingleSnapshots.merge {s : OutboxState} {q q' : Queue} (hapart : IdsApart (fun _ => true) s.enqueued)
    (hq : KnownTo s.enqueued q) (hq' : KnownTo s.enqueued q') (h : ∀ key, (serials key q).length ≤ 1) (key : String) :
    (serials key (mergeQueuedSessionMutations q q')).length ≤ 1 :=
  serials_merge_length ((KnownTo.append_iff.mpr ⟨hq, hq'⟩).idsApart respectsCovers_true hapart) (h key)

theorem SingleSnapshots.move {config : Config} {s s' : OutboxState} {f : Flush} {e : Event}
    (h : s.SingleSnapshots) (hknown : s.Known) (hapart : IdsApart (fun _ => true) s.enqueued)
    (hf : s.flush = some f) (hmove : FlushMove config s f e s') : s'.SingleSnapshots := by
  have hheld := held_of_flush hf
  have hone := h.held
  have hlive := hknown.live
  simp only [live, hheld, KnownTo.append_iff] at hlive
  obtain ⟨hmutations, hkept, hrest⟩ := hlive
  rw [hheld] at hone
  -- A part of what was held, split into what is kept and what is left of the batch.
  have hpart : ∀ kept left : Queue, KnownTo s.enqueued kept → KnownTo s.enqueued left →
      (∀ key, (serials key (kept ++ left)).length ≤ 1) →
        ∀ key, (serials key (mergeQueuedSessionMutations kept left)).length ≤ 1 := by
    intro kept left hkept hleft hone
    refine SingleSnapshots.merge hapart hkept hleft fun key => ?_
    exact (serials_sublist (List.sublist_append_left kept left)).length_le.trans (hone key)
  cases hmove with
  | idle => exact h
  | deliver => exact ⟨h.queued, hone, h.inFlight, h.file, h.written⟩
  | keep mutation behind nextAttemptAt _ hcons =>
      rw [hcons, KnownTo.cons_iff] at hrest
      have hone : ∀ key, (serials key
          (f.remaining ++ [mutation.retried mutation.attempts nextAttemptAt] ++ behind)).length ≤ 1 := by
        intro key
        rw [List.append_assoc, List.singleton_append, serials_append, serials_retried, ← serials_append, ← hcons]
        exact hone key
      exact ⟨h.queued, hone, hpart _ _ (by simpa using ⟨hkept, hrest.1⟩) hrest.2 hone, h.file, h.written⟩
  | stop mutation behind attempts nextAttemptAt _ hcons =>
      rw [hcons, KnownTo.cons_iff] at hrest
      refine ⟨fun key => ?_, fun key => by rw [finishLoop_held]; simp, fun _ => Nat.zero_le 1, h.file, h.written⟩
      refine SingleSnapshots.merge hapart (by simpa using ⟨hkept, hrest.1, hrest.2⟩) hmutations (fun key => ?_) key
      rw [serials_append, serials_retried, ← serials_append, ← hcons]
      exact hone key
  | finish hnil =>
      refine ⟨fun key => ?_, fun key => by rw [finishLoop_held]; simp, fun _ => Nat.zero_le 1, h.file, h.written⟩
      rw [hnil, List.append_nil] at hone
      exact SingleSnapshots.merge hapart hkept hmutations hone key
  | settle mutation behind hcons =>
      rw [hcons, KnownTo.cons_iff] at hrest
      have hone : ∀ key, (serials key (f.remaining ++ [] ++ behind)).length ≤ 1 := by
        intro key
        refine le_trans (serials_sublist ?_).length_le (hone key)
        rw [hcons, List.append_nil]
        exact (List.Sublist.refl _).append (List.sublist_cons_self _ _)
      exact ⟨h.queued, hone, hpart _ _ (by simpa using hkept) hrest.2 hone, h.file, h.written⟩
  | dead mutation behind attempts nextAttemptAt reason hcons _ =>
      rw [hcons, KnownTo.cons_iff] at hrest
      have hbehind := deadLetterDependentMutations_split (mutation.retried attempts nextAttemptAt) behind
      have hsub : (deadLetterDependentMutations (mutation.retried attempts nextAttemptAt) behind).2.Sublist behind := by
        conv_rhs => rw [← hbehind]
        exact List.sublist_append_right _ _
      have hone : ∀ key, (serials key (f.remaining ++ [] ++
          (deadLetterDependentMutations (mutation.retried attempts nextAttemptAt) behind).2)).length ≤ 1 := by
        intro key
        refine le_trans (serials_sublist ?_).length_le (hone key)
        rw [hcons, List.append_nil]
        exact (List.Sublist.refl _).append (hsub.cons mutation)
      exact ⟨h.queued, hone, hpart _ _ (by simpa using hkept) (hrest.2.mono hsub.subset) hone, h.file, h.written⟩

theorem SingleSnapshots.step {config : Config} {s : OutboxState} (h : s.SingleSnapshots) (hknown : s.Known)
    (e : Event) (hapart : IdsApart (fun _ => true) (s.step config e).enqueued) :
    (s.step config e).SingleSnapshots := by
  have hmutations := (KnownTo.append_iff.mp hknown.live).1
  have hnew : ∀ job : PersistJob, job.snapshot = none → ∀ j ∈ s.persists ++ [job], ∀ q, j.snapshot = some q →
      ∀ key, (serials key q).length ≤ 1 := by
    intro job hjob j hj q hq
    rcases List.mem_append.mp hj with hj | hj
    · exact h.written j hj q hq
    · rw [List.mem_singleton.mp hj, hjob] at hq; cases hq
  have hafter : ∀ {s' : OutboxState} {source : PersistSource}, s'.flush = s.flushAfter source →
      ∀ key, (serials key s'.held).length ≤ 1 := by
    intro s' source hflush key
    cases source with
    | flush => rw [held_of_no_flush hflush]; simp
    | _ =>
        have hflush : s'.flush = s.flush := hflush
        unfold OutboxState.held
        rw [hflush]
        exact h.held key
  have hmove := step_move config s e
  generalize s.step config e = s' at hmove hapart ⊢
  cases hmove with
  | idle => exact h
  | enqueue mutation hserial hfresh =>
      have hmutations' : KnownTo (s.enqueued ++ [mutation]) (mutation :: s.mutations) :=
        KnownTo.cons_iff.mpr ⟨by simp [hfresh], hmutations.grow (List.subset_append_left _ _)⟩
      refine ⟨fun key => ?_, h.held, h.inFlight, h.file, hnew _ rfl⟩
      rw [serials_prune]
      exact serials_put_length (hmutations'.idsApart respectsCovers_true hapart) (h.queued key)
  | startFlush isForced now f hnone hremaining hletters hphase hrest =>
      refine ⟨fun _ => Nat.zero_le 1, fun key => ?_, fun key => ?_, h.file, h.written⟩
      · simpa [OutboxState.held, hremaining, hrest] using h.queued key
      · simpa using h.queued key
  | flush f e s' hevent hf hphase hmove =>
      exact h.move hknown (hmove.sameOutside.enqueued ▸ hapart) hf hmove
  | append ok f hf =>
      have hheld := h.held
      rw [held_of_flush hf] at hheld
      exact ⟨h.queued, hheld, h.inFlight, h.file, hnew _ rfl⟩
  | appendFails => exact ⟨h.queued, fun _ => Nat.zero_le 1, h.inFlight, h.file, h.written⟩
  | startPersist source rest hjobs =>
      refine ⟨h.queued, h.held, h.inFlight, h.file, fun job hjob q hq key => ?_⟩
      rcases List.mem_cons.mp hjob with rfl | hjob
      · cases hq
        rw [fileContents, serials_prune]
        exact SingleSnapshots.merge hapart hknown.inFlight hmutations h.inFlight key
      · exact h.written job (by rw [hjobs]; exact List.mem_cons_of_mem _ hjob) q hq key
  | written source contents rest hjobs =>
      exact ⟨h.queued, hafter rfl, h.inFlight,
        h.written ⟨source, some contents⟩ (by rw [hjobs]; simp) contents rfl,
        fun job hjob => h.written job (by rw [hjobs]; exact List.mem_cons_of_mem _ hjob)⟩
  | writeFails source contents rest hjobs =>
      exact ⟨h.queued, hafter rfl, h.inFlight, h.file,
        fun job hjob => h.written job (by rw [hjobs]; exact List.mem_cons_of_mem _ hjob)⟩
  | report | close => exact ⟨h.queued, h.held, h.inFlight, h.file, h.written⟩
  | closePersist => exact ⟨h.queued, h.held, h.inFlight, h.file, hnew _ rfl⟩
  | reload =>
      refine ⟨fun key => ?_, fun _ => Nat.zero_le 1, fun _ => Nat.zero_le 1, h.file, fun job hjob => absurd hjob List.not_mem_nil⟩
      exact SingleSnapshots.merge hapart KnownTo.nil
        (hknown.outboxFile.mono (List.filter_subset_self _)).prune (fun _ => Nat.zero_le 1) key
  | reloadFails =>
      exact ⟨fun _ => Nat.zero_le 1, fun _ => Nat.zero_le 1, fun _ => Nat.zero_le 1, h.file,
        fun job hjob => absurd hjob List.not_mem_nil⟩

theorem singleSnapshotsAtStart : createOutbox.SingleSnapshots :=
  ⟨fun _ => Nat.zero_le 1, fun _ => Nat.zero_le 1, fun _ => Nat.zero_le 1, fun _ => Nat.zero_le 1,
    fun _ hjob => (nomatch hjob)⟩

end OutboxState

end DevPilot.Outbox
