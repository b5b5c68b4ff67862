import DevPilot.Lib.Firsts
import DevPilot.Outbox.Durability

/-!
The order of the turn mutations: those delivered, then those held, then those
queued are in the order of their first enqueues.
-/

namespace DevPilot.Outbox

open QueuedSessionMutation OutboxState

def turnIds (q : Queue) : List String := (q.filter isTurn).map QueuedSessionMutation.mutationId

section

variable {q q' : Queue} {m next : QueuedSessionMutation}

@[simp] theorem turnIds_nil : turnIds [] = [] := rfl

@[simp] theorem turnIds_append : turnIds (q ++ q') = turnIds q ++ turnIds q' := by
  simp [turnIds, List.filter_append]

theorem turnIds_cons_turn (h : m.isTurn) : turnIds (m :: q) = m.mutationId :: turnIds q := by
  simp [turnIds, h]

theorem turnIds_cons_other (h : ¬ m.isTurn) : turnIds (m :: q) = turnIds q := by
  simp [turnIds, h]

theorem mem_turnIds {id : String} : id ∈ turnIds q ↔ ∃ m ∈ q, m.isTurn ∧ m.mutationId = id := by
  simp only [turnIds, List.mem_map, List.mem_filter, and_assoc]

@[simp] theorem turnIds_retried {attempts : Nat} {nextAttemptAt : Int} :
    turnIds (m.retried attempts nextAttemptAt :: q) = turnIds (m :: q) := by
  by_cases h : m.isTurn
  · rw [turnIds_cons_turn h, turnIds_cons_turn (by simpa using h)]; rfl
  · rw [turnIds_cons_other h, turnIds_cons_other (by simpa using h)]

theorem turnIds_sublist (h : q.Sublist q') : (turnIds q).Sublist (turnIds q') := (h.filter _).map _

@[simp] theorem turnIds_prune : turnIds (pruneSessionEndsSupersededByLaterTurnBegins q) = turnIds q := by
  unfold pruneSessionEndsSupersededByLaterTurnBegins
  split
  · rfl
  · unfold turnIds
    rw [List.filter_filter]
    congr 1
    refine List.filter_congr fun m _ => ?_
    rcases m.kinds with hk | hk | hk <;> simp [hk]

theorem turnIds_of_transcripts (h : ∀ m ∈ q, m.isTranscript) : turnIds q = [] := by
  unfold turnIds
  rw [List.filter_eq_nil_iff.mpr, List.map_nil]
  intro m hm
  have htranscript := h m hm
  rcases m.kinds with hk | hk | hk <;> simp_all

theorem turnIds_put (hapart : IdsApart (fun _ => true) (next :: q)) :
    turnIds (putMutation next q) =
      if next.isTurn ∧ next.mutationId ∉ turnIds q then turnIds q ++ [next.mutationId] else turnIds q := by
  induction q with
  | nil => by_cases h : next.isTurn <;> simp [putMutation, turnIds, h]
  | cons queued rest ih =>
      have hrest : IdsApart (fun _ => true) (next :: rest) :=
        hapart.mono (List.cons_subset_cons _ (List.subset_cons_self _ _))
      unfold putMutation
      by_cases hcoalesces : next.coalescesWith queued
      · rw [if_pos hcoalesces]
        by_cases hnext : next.isTurn
        · have hid : queued.mutationId = next.mutationId := by
            simpa [coalescesWith, coalesceKey_eq_none.mpr hnext] using hcoalesces
          have hqueued : queued.isTurn := by
            rw [hapart next (by simp) rfl queued (by simp) hid]; exact hnext
          have hreplace : shouldReplaceCoalescedMutation queued next := by
            rcases next.kinds with hk | hk | hk <;> simp_all [shouldReplaceCoalescedMutation]
          rw [if_pos hreplace, turnIds_cons_turn hnext, turnIds_cons_turn hqueued, hid]
          simp
        · have hqueued : ¬ queued.isTurn := by
            cases hkey : next.coalesceKey with
            | none => exact absurd (coalesceKey_eq_none.mp hkey) hnext
            | some key =>
                have heq : queued.coalesceKey = next.coalesceKey := by
                  simpa [coalescesWith, hkey] using hcoalesces
                rw [(kind_of_coalesceKey heq).2.2]
                exact hnext
          have hnone : ¬ (next.isTurn = true ∧ next.mutationId ∉ turnIds (queued :: rest)) := fun h => hnext h.1
          rw [if_neg hnone, turnIds_cons_other hqueued]
          split
          · exact turnIds_cons_other hnext
          · exact turnIds_cons_other hqueued
      · rw [if_neg hcoalesces]
        by_cases hqueued : queued.isTurn
        · rw [turnIds_cons_turn hqueued, turnIds_cons_turn hqueued, ih hrest]
          by_cases hnext : next.isTurn
          · have hne : next.mutationId ≠ queued.mutationId := by
              intro hid
              apply hcoalesces
              simp [coalescesWith, coalesceKey_eq_none.mpr hnext, hid]
            by_cases hmem : next.mutationId ∈ turnIds rest <;> simp [hnext, hmem, hne]
          · simp [hnext]
        · rw [turnIds_cons_other hqueued, turnIds_cons_other hqueued, ih hrest]

theorem turnIds_put_firsts (hapart : IdsApart (fun _ => true) (next :: q)) :
    (turnIds (putMutation next q)).eraseDups = (turnIds q ++ turnIds [next]).eraseDups := by
  rw [turnIds_put hapart]
  by_cases hnext : next.isTurn
  · rw [turnIds_cons_turn hnext, turnIds_nil]
    by_cases hmem : next.mutationId ∈ turnIds q
    · rw [if_neg fun h => h.2 hmem, Firsts.eraseDups_append_of_subset (by simpa using hmem)]
    · rw [if_pos ⟨hnext, hmem⟩]
  · rw [if_neg fun h => hnext h.1, turnIds_cons_other hnext, turnIds_nil, List.append_nil]

theorem turnIds_put_nodup (hapart : IdsApart (fun _ => true) (next :: q)) (h : (turnIds q).Nodup) :
    (turnIds (putMutation next q)).Nodup := by
  rw [turnIds_put hapart]
  split
  · rename_i hnew
    exact List.Nodup.append h (List.nodup_singleton _) (by simpa using hnew.2)
  · exact h

theorem turnIds_merge (hapart : IdsApart (fun _ => true) (q ++ q')) :
    (turnIds (mergeQueuedSessionMutations q q')).eraseDups = (turnIds q ++ turnIds q').eraseDups ∧
      ((turnIds q).Nodup → (turnIds (mergeQueuedSessionMutations q q')).Nodup) := by
  induction q' generalizing q with
  | nil => simp [mergeQueuedSessionMutations]
  | cons next later ih =>
      have hput := putMutation_append_subset next q later
      have hfirst := hapart.mono (cons_subset_append_cons next q later)
      obtain ⟨hfirsts, hnodup⟩ := ih (hapart.mono hput)
      refine ⟨?_, fun h => hnodup (turnIds_put_nodup hfirst h)⟩
      have hsplit : turnIds q ++ turnIds (next :: later) = turnIds q ++ turnIds [next] ++ turnIds later := by
        rw [← List.singleton_append, turnIds_append, List.append_assoc]
      rw [hsplit]
      exact hfirsts.trans (Firsts.eraseDups_append_congr (turnIds_put_firsts hfirst) rfl)

end

namespace OutboxState

/-- Whether the first turn id was enqueued before the second was for the first time. -/
def EnqueuedBefore (s : OutboxState) (a b : String) : Prop :=
  (turnIds s.enqueued).idxOf a < (turnIds s.enqueued).idxOf b

/-- Turn mutations were delivered for the first time in the order of their first enqueues. -/
def TurnsDeliveredInOrder (s : OutboxState) : Prop := (turnIds s.settled).eraseDups.Pairwise s.EnqueuedBefore

/-- No turn id is enqueued again once it was dropped, or dropped while it is queued
a second time, and no crash goes back to a turn mutation before a delivered one. -/
def KeepsTurnOrder (config : Config) (s : OutboxState) (e : Event) : Prop :=
  s.KeepsIdsApart (fun _ => true) e ∧
    (∀ m ∈ s.deadLetteredBy config e, m.mutationId ∈ turnIds s.mutations → m.mutationId ∈ turnIds s.settled) ∧
    match e with
    | .enqueue mutationId payload now =>
        (QueuedSessionMutation.mk mutationId payload now 0 0 0).isTurn → mutationId ∈ turnIds s.enqueued →
          mutationId ∈ turnIds (s.settled ++ s.live)
    | .crash _ =>
        ∀ id ∈ turnIds (s.outboxFile.filter config.parses), id ∉ turnIds s.settled →
          ∀ delivered ∈ turnIds s.settled, s.EnqueuedBefore delivered id
    | _ => True

instance (s : OutboxState) (a b : String) : Decidable (s.EnqueuedBefore a b) := by
  unfold EnqueuedBefore; infer_instance

instance (s : OutboxState) : Decidable s.TurnsDeliveredInOrder := by
  unfold TurnsDeliveredInOrder; infer_instance

instance (config : Config) (s : OutboxState) (e : Event) : Decidable (s.KeepsTurnOrder config e) := by
  apply Event.casesOn (motive := fun e => Decidable (s.KeepsTurnOrder config e)) e <;> intros <;> unfold KeepsTurnOrder <;>
    infer_instance

def InOrderOnDisk (s : OutboxState) (q : Queue) : Prop :=
  (turnIds q).Nodup ∧ ((turnIds q).filter (· ∉ turnIds s.settled)).Pairwise s.EnqueuedBefore

structure TurnsOrdered (s : OutboxState) : Prop where
  known : s.Known
  orderly : s.Orderly
  apart : IdsApart (fun _ => true) s.enqueued
  settledKnown : KnownTo s.enqueued s.settled
  /-- Only snapshots are kept for later while the loop goes on. -/
  remaining : ∀ f, s.flush = some f → ∀ m ∈ f.remaining, m.isTranscript
  nodupQueued : (turnIds s.mutations).Nodup
  nodupHeld : (turnIds s.held).Nodup
  inFlight : turnIds s.inFlightMutations = turnIds s.held
  order : (turnIds s.settled ++ (turnIds s.held ++ turnIds s.mutations)).eraseDups.Pairwise s.EnqueuedBefore
  file : s.InOrderOnDisk s.outboxFile
  snapshots : ∀ job ∈ s.persists, ∀ q, job.snapshot = some q → s.InOrderOnDisk q

theorem TurnsOrdered.delivered {s : OutboxState} (h : s.TurnsOrdered) : s.TurnsDeliveredInOrder := by
  have horder := h.order
  rw [Firsts.eraseDups_append] at horder
  exact (List.pairwise_append.mp horder).1

theorem TurnsOrdered.fileContents {s : OutboxState} (h : s.TurnsOrdered) : s.InOrderOnDisk s.fileContents := by
  have hknown : KnownTo s.enqueued (s.inFlightMutations ++ s.mutations) :=
    KnownTo.append_iff.mpr ⟨h.known.inFlight, (KnownTo.append_iff.mp h.known.live).1⟩
  obtain ⟨hfirsts, hnodup⟩ := turnIds_merge (hknown.idsApart respectsCovers_true h.apart)
  have hnodup := hnodup (by rw [h.inFlight]; exact h.nodupHeld)
  have horder := h.order
  rw [Firsts.eraseDups_append] at horder
  refine ⟨by rw [OutboxState.fileContents, turnIds_prune]; exact hnodup, ?_⟩
  rw [OutboxState.fileContents, turnIds_prune, ← Firsts.eraseDups_of_nodup hnodup, hfirsts, h.inFlight]
  exact (List.pairwise_append.mp horder).2.1

theorem EnqueuedBefore.of_same {s s' : OutboxState} (h : s'.enqueued = s.enqueued) :
    s'.EnqueuedBefore = s.EnqueuedBefore := by
  unfold EnqueuedBefore
  rw [h]

theorem InOrderOnDisk.grow {s s' : OutboxState} {q new : Queue} (h : s.InOrderOnDisk q)
    (hbefore : ∀ a b, a ∈ turnIds q → b ∈ turnIds q → s.EnqueuedBefore a b → s'.EnqueuedBefore a b)
    (hsettled : s'.settled = s.settled ++ new) : s'.InOrderOnDisk q := by
  refine ⟨h.1, ?_⟩
  have hordered := h.2
  rw [List.pairwise_filter] at hordered ⊢
  refine hordered.imp_of_mem fun {a b} ha hb hab ha' hb' => hbefore a b ha hb (hab ?_ ?_)
  · rw [hsettled] at ha'; simp_all
  · rw [hsettled] at hb'; simp_all

theorem TurnsOrdered.held_of_flush {s : OutboxState} {f : Flush} (h : s.TurnsOrdered) (hf : s.flush = some f) :
    turnIds s.held = turnIds f.rest := by
  rw [OutboxState.held_of_flush hf, turnIds_append, turnIds_of_transcripts (h.remaining f hf), List.nil_append]

theorem TurnsOrdered.of_flush {s s' : OutboxState} (h : s.TurnsOrdered) (hknown : s'.Known)
    (horderly : s'.Orderly) (henqueued : s'.enqueued = s.enqueued) (hpersists : s'.persists = s.persists)
    (hfile : s'.outboxFile = s.outboxFile) {new : Queue} (hsettled : s'.settled = s.settled ++ new)
    (hsettledKnown : KnownTo s'.enqueued s'.settled)
    (hremaining : ∀ f, s'.flush = some f → ∀ m ∈ f.remaining, m.isTranscript)
    (hqueued : (turnIds s'.mutations).Nodup) (hheld : (turnIds s'.held).Nodup)
    (hinFlight : turnIds s'.inFlightMutations = turnIds s'.held)
    (horder : (turnIds s'.settled ++ (turnIds s'.held ++ turnIds s'.mutations)).eraseDups.Sublist
      (turnIds s.settled ++ (turnIds s.held ++ turnIds s.mutations)).eraseDups) : s'.TurnsOrdered := by
  have hbefore := EnqueuedBefore.of_same henqueued
  refine ⟨hknown, horderly, by rw [henqueued]; exact h.apart, hsettledKnown, hremaining, hqueued, hheld,
    hinFlight, ?_, ?_, ?_⟩
  · rw [hbefore]; exact h.order.sublist horder
  · rw [hfile]; exact h.file.grow (fun a b _ _ hab => hbefore ▸ hab) hsettled
  · intro job hjob q hq
    rw [hpersists] at hjob
    exact (h.snapshots job hjob q hq).grow (fun a b _ _ hab => hbefore ▸ hab) hsettled

theorem TurnsOrdered.move {config : Config} {s s' : OutboxState} {f : Flush} {e : Event} (h : s.TurnsOrdered)
    (hf : s.flush = some f) (he : s.KeepsTurnOrder config e) (hknown : s'.Known) (horderly : s'.Orderly)
    (hmove : FlushMove config s f e s') : s'.TurnsOrdered := by
  have hsame := hmove.sameOutside
  have hremaining := turnIds_of_transcripts (h.remaining f hf)
  have hheld := h.held_of_flush hf
  have hnodup : (turnIds f.rest).Nodup := hheld ▸ h.nodupHeld
  have hlive := h.known.live
  simp only [live, OutboxState.held_of_flush hf, KnownTo.append_iff] at hlive
  obtain ⟨hmutations, hkept, hrest⟩ := hlive
  have hsettledKnown := h.settledKnown
  -- The merge of an in-flight view whose first part holds snapshots only.
  have hview : ∀ kept left : Queue, (∀ m ∈ kept, m.isTranscript) → KnownTo s.enqueued (kept ++ left) →
      (turnIds left).Nodup → turnIds (mergeQueuedSessionMutations kept left) = turnIds left := by
    intro kept left htranscripts hknown hleft
    obtain ⟨hfirsts, hmerged⟩ := turnIds_merge (hknown.idsApart respectsCovers_true h.apart)
    rw [turnIds_of_transcripts htranscripts, List.nil_append, Firsts.eraseDups_of_nodup hleft] at hfirsts
    rw [← hfirsts]
    exact (Firsts.eraseDups_of_nodup
      (hmerged (by rw [turnIds_of_transcripts htranscripts]; exact List.nodup_nil))).symm
  -- The end of the loop, with what is left in the order of the batch.
  have hmerge : ∀ left : Queue, turnIds left = turnIds f.rest → KnownTo s.enqueued left →
      (turnIds (mergeQueuedSessionMutations left s.mutations)).Nodup ∧
        (turnIds s.settled ++ ([] ++ turnIds (mergeQueuedSessionMutations left s.mutations))).eraseDups =
          (turnIds s.settled ++ (turnIds s.held ++ turnIds s.mutations)).eraseDups := by
    intro left hleft hknown
    obtain ⟨hfirsts, hmerged⟩ := turnIds_merge
      ((KnownTo.append_iff.mpr ⟨hknown, hmutations⟩).idsApart respectsCovers_true h.apart)
    refine ⟨hmerged (hleft ▸ hnodup), ?_⟩
    rw [List.nil_append, hheld, ← hleft]
    exact Firsts.eraseDups_append_congr rfl hfirsts
  cases hmove with
  | idle => exact h
  | deliver =>
      have hheld' := OutboxState.held_of_flush hf
      refine h.of_flush hknown horderly rfl rfl rfl (List.append_nil _).symm hsettledKnown
        (fun g hg => by cases hg; exact h.remaining f hf) h.nodupQueued ?_ ?_ ?_
      · have hn := h.nodupHeld; rw [hheld'] at hn; exact hn
      · have hi := h.inFlight; rw [hheld'] at hi; exact hi
      · rw [hheld']; exact List.Sublist.refl _
  | keep mutation behind nextAttemptAt _ hcons htranscript =>
      have hother : ¬ mutation.isTurn := by rcases mutation.kinds with hk | hk | hk <;> simp_all
      rw [hcons, KnownTo.cons_iff] at hrest
      have htranscripts : ∀ m ∈ f.remaining ++ [mutation.retried mutation.attempts nextAttemptAt],
          m.isTranscript := by
        intro m hm
        rcases List.mem_append.mp hm with hm | hm
        · exact h.remaining f hf m hm
        · rw [List.mem_singleton.mp hm]; exact htranscript
      rw [hcons, turnIds_cons_other hother] at hnodup hheld
      have hheld' : turnIds (f.remaining ++ [mutation.retried mutation.attempts nextAttemptAt] ++ behind) =
          turnIds behind := by
        rw [turnIds_append, turnIds_of_transcripts htranscripts, List.nil_append]
      refine h.of_flush hknown horderly rfl rfl rfl (List.append_nil _).symm hsettledKnown
        (fun g hg => by cases hg; exact htranscripts) h.nodupQueued ?_ ?_ ?_
      · rw [goOn_held, hheld']; exact hnodup
      · rw [goOn_held, hheld']
        refine hview _ behind htranscripts ?_ hnodup
        simpa using ⟨hkept, hrest.1, hrest.2⟩
      · rw [goOn_held, hheld', hheld]
        exact List.Sublist.refl _
  | stop mutation behind attempts nextAttemptAt _ hcons =>
      rw [hcons, KnownTo.cons_iff] at hrest
      have hleft : turnIds (f.remaining ++ mutation.retried attempts nextAttemptAt :: behind) =
          turnIds f.rest := by
        rw [turnIds_append, hremaining, List.nil_append, turnIds_retried, hcons]
      obtain ⟨hqueued, horder⟩ := hmerge _ hleft (by simpa using ⟨hkept, hrest.1, hrest.2⟩)
      refine h.of_flush hknown horderly rfl rfl rfl (List.append_nil _).symm hsettledKnown
        (fun g hg => ?_) hqueued ?_ ?_ ?_
      · rw [(finishLoop_flush hg).2.1]; exact fun m hm => nomatch hm
      · rw [finishLoop_held]; exact List.nodup_nil
      · rw [finishLoop_held]; rfl
      · rw [finishLoop_held, turnIds_nil]
        exact horder ▸ List.Sublist.refl _
  | finish hnil =>
      obtain ⟨hqueued, horder⟩ := hmerge f.remaining (by rw [hremaining, hnil]; rfl) hkept
      refine h.of_flush hknown horderly rfl rfl rfl (List.append_nil _).symm hsettledKnown
        (fun g hg => ?_) hqueued ?_ ?_ ?_
      · rw [(finishLoop_flush hg).2.1]; exact fun m hm => nomatch hm
      · rw [finishLoop_held]; exact List.nodup_nil
      · rw [finishLoop_held]; rfl
      · rw [finishLoop_held, turnIds_nil]
        exact horder ▸ List.Sublist.refl _
  | settle mutation behind hcons =>
      rw [hcons, KnownTo.cons_iff] at hrest
      have hsplit : turnIds f.rest = turnIds [mutation] ++ turnIds behind := by
        rw [hcons, ← turnIds_append]; rfl
      rw [hsplit] at hnodup hheld
      have hbehind := (List.nodup_append.mp hnodup).2.1
      have hheld' : turnIds (f.remaining ++ [] ++ behind) = turnIds behind := by
        rw [List.append_nil, turnIds_append, hremaining, List.nil_append]
      refine h.of_flush hknown horderly rfl rfl rfl rfl ?_
        (fun g hg => by cases hg; simpa using h.remaining f hf) h.nodupQueued ?_ ?_ ?_
      · exact KnownTo.append_iff.mpr ⟨hsettledKnown, KnownTo.cons_iff.mpr ⟨hrest.1, KnownTo.nil⟩⟩
      · rw [goOn_held, hheld']; exact hbehind
      · rw [goOn_held, hheld']
        exact hview _ behind (by simpa using h.remaining f hf) (by simpa using ⟨hkept, hrest.2⟩) hbehind
      · rw [goOn_held, hheld', hheld]
        simp only [goOn, turnIds_append, List.append_assoc]
        exact List.Sublist.refl _
  | dead mutation behind attempts nextAttemptAt reason hcons hfailing =>
      rw [hcons, KnownTo.cons_iff] at hrest
      have hdead : s.deadLetteredBy config e = mutation.retried attempts nextAttemptAt ::
          (deadLetterDependentMutations (mutation.retried attempts nextAttemptAt) behind).1.map
            DeadLetter.mutation := by
        simp [deadLetteredBy, hfailing]
      set left := (deadLetterDependentMutations (mutation.retried attempts nextAttemptAt) behind).2 with hleft
      have hsplit : turnIds f.rest = turnIds (s.deadLetteredBy config e) ++ turnIds left := by
        rw [hdead, ← turnIds_append, List.cons_append, hleft, deadLetterDependentMutations_split, hcons,
          turnIds_retried]
      rw [hsplit] at hnodup hheld
      have hleftNodup := (List.nodup_append.mp hnodup).2.1
      have hleftKnown : KnownTo s.enqueued left := hrest.2.mono fun m hm => by
        rw [← deadLetterDependentMutations_split (mutation.retried attempts nextAttemptAt) behind]
        exact List.mem_append_right _ hm
      have hheld' : turnIds (f.remaining ++ [] ++ left) = turnIds left := by
        rw [List.append_nil, turnIds_append, hremaining, List.nil_append]
      refine h.of_flush hknown horderly rfl rfl rfl (List.append_nil _).symm hsettledKnown
        (fun g hg => by cases hg; simpa using h.remaining f hf) h.nodupQueued ?_ ?_ ?_
      · rw [deadLetter_eq, goOn_held, hheld']; exact hleftNodup
      · rw [deadLetter_eq, goOn_held, hheld']
        exact hview _ left (by simpa using h.remaining f hf) (by simpa using ⟨hkept, hleftKnown⟩) hleftNodup
      · rw [deadLetter_eq, goOn_held, hheld', hheld, List.append_assoc]
        refine Firsts.eraseDups_drop_sublist fun id hid hmem => ?_
        obtain ⟨m, hm, -, rfl⟩ := mem_turnIds.mp hid
        rcases List.mem_append.mp hmem with hmem | hmem
        · exact absurd rfl ((List.nodup_append.mp hnodup).2.2 _ hid _ hmem)
        · exact he.2.1 m hm hmem

theorem KnownTo.turnIds_subset {enqueued q : Queue} (h : KnownTo enqueued q) : turnIds q ⊆ turnIds enqueued := by
  intro id hid
  obtain ⟨m, hm, hturn, rfl⟩ := mem_turnIds.mp hid
  exact mem_turnIds.mpr ⟨m.retried 0 0, h m hm, by simpa using hturn, rfl⟩

theorem idxOf_append {enqueued new : List String} {a b : String} (ha : a ∈ enqueued) (hb : b ∈ enqueued)
    (h : enqueued.idxOf a < enqueued.idxOf b) : (enqueued ++ new).idxOf a < (enqueued ++ new).idxOf b := by
  rwa [List.idxOf_append_of_mem ha, List.idxOf_append_of_mem hb]

theorem TurnsOrdered.enqueue {s s' : OutboxState} {mutation : QueuedSessionMutation}
    (h : s.TurnsOrdered) (hknown : s'.Known) (horderly : s'.Orderly)
    (hapart : IdsApart (fun _ => true) s'.enqueued)
    (hagain : mutation.isTurn → mutation.mutationId ∈ turnIds s.enqueued →
      mutation.mutationId ∈ turnIds (s.settled ++ s.live))
    (hs' : s' = { s with
      mutations := pruneSessionEndsSupersededByLaterTurnBegins (putMutation mutation s.mutations)
      persists := s.persists ++ [⟨.enqueue mutation, none⟩]
      enqueued := s.enqueued ++ [mutation]
      calls := s.calls ++ [⟨mutation, s.settled.length⟩] }) (hfresh : mutation.retried 0 0 = mutation) :
    s'.TurnsOrdered := by
  subst hs'
  obtain ⟨hmutations, hheld⟩ := KnownTo.append_iff.mp h.known.live
  have hmutations' : KnownTo (s.enqueued ++ [mutation]) (mutation :: s.mutations) :=
    KnownTo.cons_iff.mpr ⟨by simp [hfresh], hmutations.grow (List.subset_append_left _ _)⟩
  have hput := hmutations'.idsApart respectsCovers_true hapart
  have hbefore : ∀ a b, a ∈ turnIds s.enqueued → b ∈ turnIds s.enqueued → s.EnqueuedBefore a b →
      (turnIds (s.enqueued ++ [mutation])).idxOf a < (turnIds (s.enqueued ++ [mutation])).idxOf b := by
    intro a b ha hb hab
    rw [turnIds_append]
    exact idxOf_append ha hb hab
  have hdisk : ∀ q, KnownTo s.enqueued q → s.InOrderOnDisk q → InOrderOnDisk { s with
      mutations := pruneSessionEndsSupersededByLaterTurnBegins (putMutation mutation s.mutations)
      persists := s.persists ++ [⟨.enqueue mutation, none⟩]
      enqueued := s.enqueued ++ [mutation]
      calls := s.calls ++ [⟨mutation, s.settled.length⟩] } q := by
    intro q hq horder
    exact horder.grow (fun a b ha hb => hbefore a b (KnownTo.turnIds_subset hq ha) (KnownTo.turnIds_subset hq hb))
      (List.append_nil _).symm
  refine ⟨hknown, horderly, hapart, h.settledKnown.grow (List.subset_append_left _ _), h.remaining, ?_,
    h.nodupHeld, h.inFlight, ?_, hdisk _ h.known.outboxFile h.file, ?_⟩
  · rw [turnIds_prune]; exact turnIds_put_nodup hput h.nodupQueued
  · rw [turnIds_prune]
    -- What is delivered, held and queued, and then the new mutation if it is one of a turn.
    have hfirsts : (turnIds s.settled ++ (turnIds s.held ++ turnIds (putMutation mutation s.mutations))).eraseDups =
        (turnIds s.settled ++ (turnIds s.held ++ turnIds s.mutations) ++ turnIds [mutation]).eraseDups := by
      rw [List.append_assoc, List.append_assoc]
      exact Firsts.eraseDups_append_congr rfl
        (Firsts.eraseDups_append_congr rfl (turnIds_put_firsts hput))
    have hsub : turnIds s.settled ++ (turnIds s.held ++ turnIds s.mutations) ⊆ turnIds s.enqueued := by
      intro id hid
      rcases List.mem_append.mp hid with hid | hid
      · exact KnownTo.turnIds_subset h.settledKnown hid
      rcases List.mem_append.mp hid with hid | hid
      · exact KnownTo.turnIds_subset hheld hid
      · exact KnownTo.turnIds_subset hmutations hid
    have hold : (turnIds s.settled ++ (turnIds s.held ++ turnIds s.mutations)).eraseDups.Pairwise fun a b =>
        (turnIds (s.enqueued ++ [mutation])).idxOf a < (turnIds (s.enqueued ++ [mutation])).idxOf b :=
      h.order.imp_of_mem fun {a b} ha hb hab =>
        hbefore a b (hsub (List.mem_eraseDups.mp ha)) (hsub (List.mem_eraseDups.mp hb)) hab
    refine hfirsts ▸ ?_
    by_cases hturn : mutation.isTurn
    case neg => rw [turnIds_cons_other hturn, turnIds_nil, List.append_nil]; exact hold
    rw [turnIds_cons_turn hturn, turnIds_nil]
    by_cases hqueued : mutation.mutationId ∈ turnIds s.settled ++ (turnIds s.held ++ turnIds s.mutations)
    · rw [Firsts.eraseDups_append_of_subset (by simpa using hqueued)]
      exact hold
    · have hnew : mutation.mutationId ∉ turnIds s.enqueued := by
        intro hmem
        have hagain := hagain hturn hmem
        apply hqueued
        simp only [live, turnIds_append, List.mem_append] at hagain ⊢
        tauto
      rw [Firsts.eraseDups_append_singleton hqueued]
      refine List.pairwise_append.mpr ⟨hold, List.pairwise_singleton _ _, fun a ha b hb => ?_⟩
      rw [List.mem_singleton.mp hb]
      have ha := hsub (List.mem_eraseDups.mp ha)
      show (turnIds (s.enqueued ++ [mutation])).idxOf a < _
      rw [turnIds_append, List.idxOf_append_of_mem ha, List.idxOf_append_of_notMem hnew]
      exact Nat.lt_add_right _ (List.idxOf_lt_length_of_mem ha)
  · intro job hjob q hq
    rcases List.mem_append.mp hjob with hjob | hjob
    · exact hdisk q (h.known.snapshots job hjob q hq) (h.snapshots job hjob q hq)
    · rw [List.mem_singleton.mp hjob] at hq; cases hq

theorem TurnsOrdered.reload {config : Config} {s s' : OutboxState} (h : s.TurnsOrdered) (hknown : s'.Known)
    (horderly : s'.Orderly) (henqueued : s'.enqueued = s.enqueued) (hsettled : s'.settled = s.settled)
    (hfile : s'.outboxFile = s.outboxFile) (hjobs : s'.persists = []) (hflush : s'.flush = none)
    (hinFlight : s'.inFlightMutations = [])
    (hmutations : s'.mutations = [] ∨ s'.mutations = mergeQueuedSessionMutations []
      (pruneSessionEndsSupersededByLaterTurnBegins (s.outboxFile.filter config.parses)))
    (hcrash : ∀ id ∈ turnIds (s.outboxFile.filter config.parses), id ∉ turnIds s.settled →
      ∀ delivered ∈ turnIds s.settled, s.EnqueuedBefore delivered id) : s'.TurnsOrdered := by
  have hbefore := EnqueuedBefore.of_same henqueued
  have hheld : s'.held = [] := held_of_no_flush hflush
  have hsub := turnIds_sublist (List.filter_sublist (l := s.outboxFile) (p := config.parses))
  have hloadedKnown : KnownTo s.enqueued (s.outboxFile.filter config.parses) :=
    h.known.outboxFile.mono (List.filter_subset_self _)
  have hdelivered := h.delivered
  have hqueued : (turnIds s'.mutations).Nodup ∧
      ((turnIds s.settled ++ turnIds s'.mutations).eraseDups.Pairwise s.EnqueuedBefore) := by
    rcases hmutations with hnil | hloaded
    · rw [hnil, turnIds_nil, List.append_nil]
      exact ⟨List.nodup_nil, hdelivered⟩
    have hapart : IdsApart (fun _ => true)
        ([] ++ pruneSessionEndsSupersededByLaterTurnBegins (s.outboxFile.filter config.parses)) :=
      hloadedKnown.prune.idsApart respectsCovers_true h.apart
    obtain ⟨hfirsts, hnodup⟩ := turnIds_merge hapart
    have hnodup := hnodup List.nodup_nil
    rw [turnIds_nil, List.nil_append, turnIds_prune, Firsts.eraseDups_of_nodup hnodup,
      Firsts.eraseDups_of_nodup (h.file.1.sublist hsub)] at hfirsts
    rw [hloaded, hfirsts]
    refine ⟨h.file.1.sublist hsub, ?_⟩
    rw [Firsts.eraseDups_append, Firsts.eraseDups_of_nodup (h.file.1.sublist hsub)]
    refine List.pairwise_append.mpr ⟨hdelivered, h.file.2.sublist (hsub.filter _), fun a ha b hb => ?_⟩
    obtain ⟨hb, hnew⟩ := List.mem_filter.mp hb
    exact hcrash b hb (by simpa using hnew) a (List.mem_eraseDups.mp ha)
  refine ⟨hknown, horderly, by rw [henqueued]; exact h.apart, by rw [henqueued, hsettled]; exact h.settledKnown,
    fun f hf => absurd hf (by rw [hflush]; simp), hqueued.1, by rw [hheld]; exact List.nodup_nil,
    by rw [hinFlight, hheld], ?_, ?_, by rw [hjobs]; exact fun job hjob => nomatch hjob⟩
  · rw [hbefore, hsettled, hheld]; exact hqueued.2
  · rw [hfile]
    exact h.file.grow (fun a b _ _ hab => hbefore ▸ hab) (by rw [hsettled, List.append_nil] : _ = s.settled ++ [])

theorem TurnsOrdered.of_same {s s' : OutboxState} (h : s.TurnsOrdered) (hknown : s'.Known)
    (horderly : s'.Orderly) (henqueued : s'.enqueued = s.enqueued) (hsettled : s'.settled = s.settled)
    (hmutations : s'.mutations = s.mutations) (hinFlight : s'.inFlightMutations = s.inFlightMutations)
    (hheld : s'.held = s.held) (hremaining : ∀ f, s'.flush = some f → ∀ m ∈ f.remaining, m.isTranscript)
    (hfile : s'.InOrderOnDisk s'.outboxFile)
    (hsnapshots : ∀ job ∈ s'.persists, ∀ q, job.snapshot = some q → s'.InOrderOnDisk q) : s'.TurnsOrdered := by
  refine ⟨hknown, horderly, by rw [henqueued]; exact h.apart, by rw [henqueued, hsettled]; exact h.settledKnown,
    hremaining, by rw [hmutations]; exact h.nodupQueued, by rw [hheld]; exact h.nodupHeld,
    by rw [hinFlight, hheld]; exact h.inFlight, ?_, hfile, hsnapshots⟩
  rw [EnqueuedBefore.of_same henqueued, hsettled, hheld, hmutations]
  exact h.order

theorem TurnsOrdered.step {config : Config} {s : OutboxState} {e : Event} (h : s.TurnsOrdered)
    (he : s.KeepsTurnOrder config e) : (s.step config e).TurnsOrdered := by
  have hknown : (s.step config e).Known := h.known.step e
  have horderly : (s.step config e).Orderly := h.orderly.step e
  have hapart : IdsApart (fun _ => true) (s.step config e).enqueued := idsApart_step h.apart he.1
  have hdisk : ∀ {s' : OutboxState} {q : Queue}, s'.enqueued = s.enqueued → s'.settled = s.settled →
      s.InOrderOnDisk q → s'.InOrderOnDisk q := by
    intro s' q henqueued hsettled hq
    refine hq.grow (fun a b _ _ hab => ?_) (by rw [hsettled, List.append_nil] : _ = s.settled ++ [])
    rw [EnqueuedBefore.of_same henqueued]
    exact hab
  have hnew : ∀ {s' : OutboxState} {job : PersistJob}, s'.enqueued = s.enqueued → s'.settled = s.settled →
      job.snapshot = none → ∀ j ∈ s.persists ++ [job], ∀ q, j.snapshot = some q → s'.InOrderOnDisk q := by
    intro s' job henqueued hsettled hjob j hj q hq
    rcases List.mem_append.mp hj with hj | hj
    · exact hdisk henqueued hsettled (h.snapshots j hj q hq)
    · rw [List.mem_singleton.mp hj, hjob] at hq; cases hq
  have hafter : ∀ source f, s.flushAfter source = some f → s.flush = some f := by
    intro source f hf
    cases source with
    | flush => cases hf
    | _ => exact hf
  have hmove := step_move config s e
  generalize s.step config e = s' at hmove hknown horderly hapart ⊢
  cases hmove with
  | idle => exact h
  | enqueue mutation hserial hfresh =>
      refine h.enqueue hknown horderly hapart (fun hturn => he.2.2 ?_) rfl hfresh
      exact hturn
  | startFlush isForced now f hnone hremaining hletters hphase hrest =>
      have hheld := held_of_no_flush hnone
      have horder := h.order
      rw [hheld] at horder
      have hheld' : (OutboxState.held { s with
          mutations := []
          inFlightMutations := pruneSessionEndsSupersededByLaterTurnBegins s.mutations
          loadedMutationsNeedPersist := false
          flush := some f }) = pruneSessionEndsSupersededByLaterTurnBegins s.mutations := by
        simp [held, hremaining, hrest]
      refine ⟨hknown, horderly, h.apart, h.settledKnown, fun g hg => ?_, List.nodup_nil, ?_, ?_, ?_,
        hdisk rfl rfl h.file, fun job hjob q hq => hdisk rfl rfl (h.snapshots job hjob q hq)⟩
      · cases hg; rw [hremaining]; exact fun m hm => absurd hm List.not_mem_nil
      · rw [hheld', turnIds_prune]; exact h.nodupQueued
      · rw [hheld']
      · rw [hheld', turnIds_prune, turnIds_nil, List.append_nil]
        exact horder
  | flush f e s' hevent hf hphase hmove => exact h.move hf he hknown horderly hmove
  | append ok f hf =>
      refine h.of_same hknown horderly rfl rfl rfl rfl (OutboxState.held_of_flush hf).symm
        (fun g hg => by cases hg; exact h.remaining f hf) (hdisk rfl rfl h.file) (hnew rfl rfl rfl)
  | appendFails ok f hf hphase =>
      obtain ⟨hremaining, hrest⟩ := h.orderly.ended f hf (.inl hphase)
      refine h.of_same hknown horderly rfl rfl rfl rfl ?_ (fun g hg => by cases hg) (hdisk rfl rfl h.file)
        fun job hjob q hq => hdisk rfl rfl (h.snapshots job hjob q hq)
      rw [held_of_no_flush rfl, OutboxState.held_of_flush hf, hremaining, hrest]
      rfl
  | startPersist source rest hjobs =>
      refine h.of_same hknown horderly rfl rfl rfl rfl rfl h.remaining (hdisk rfl rfl h.file)
        fun job hjob q hq => hdisk rfl rfl ?_
      rcases List.mem_cons.mp hjob with rfl | hjob
      · cases hq; exact h.fileContents
      · exact h.snapshots job (by rw [hjobs]; exact List.mem_cons_of_mem _ hjob) q hq
  | written source contents rest hjobs =>
      refine h.of_same hknown horderly rfl rfl rfl rfl (held_after_write_eq h.orderly hjobs rfl)
        (fun f hf => h.remaining f (hafter source f hf)) (hdisk rfl rfl ?_)
        fun job hjob q hq => hdisk rfl rfl (h.snapshots job (by rw [hjobs]; exact List.mem_cons_of_mem _ hjob) q hq)
      exact h.snapshots ⟨source, some contents⟩ (by rw [hjobs]; simp) contents rfl
  | writeFails source contents rest hjobs =>
      exact h.of_same hknown horderly rfl rfl rfl rfl (held_after_write_eq h.orderly hjobs rfl)
        (fun f hf => h.remaining f (hafter source f hf)) (hdisk rfl rfl h.file)
        fun job hjob q hq => hdisk rfl rfl (h.snapshots job (by rw [hjobs]; exact List.mem_cons_of_mem _ hjob) q hq)
  | closePersist =>
      exact h.of_same hknown horderly rfl rfl rfl rfl rfl h.remaining (hdisk rfl rfl h.file) (hnew rfl rfl rfl)
  | report | close =>
      exact h.of_same hknown horderly rfl rfl rfl rfl rfl h.remaining (hdisk rfl rfl h.file)
        fun job hjob q hq => hdisk rfl rfl (h.snapshots job hjob q hq)
  | reload => exact h.reload hknown horderly rfl rfl rfl rfl rfl rfl (.inr rfl) he.2.2
  | reloadFails => exact h.reload hknown horderly rfl rfl rfl rfl rfl rfl (.inl rfl) he.2.2

theorem turnsOrderedAtStart : createOutbox.TurnsOrdered :=
  ⟨knownAtStart, orderlyAtStart, fun _ hm => (nomatch hm), KnownTo.nil, fun _ hf => (nomatch hf), List.nodup_nil,
    List.nodup_nil, rfl, List.Pairwise.nil, ⟨List.nodup_nil, List.Pairwise.nil⟩, fun _ hjob => (nomatch hjob)⟩

end OutboxState

end DevPilot.Outbox
