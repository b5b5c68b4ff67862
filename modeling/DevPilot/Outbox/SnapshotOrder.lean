import DevPilot.Outbox.Snapshots
import DevPilot.Outbox.TurnOrder

/-!
The order of the snapshots of one transcript message: each delivery is of one that
was enqueued no earlier than those before.
-/

namespace DevPilot.Outbox

open QueuedSessionMutation OutboxState

namespace OutboxState

/-- Delivered snapshots of one message are in the order of their enqueues. -/
def SnapshotsDeliveredInOrder (s : OutboxState) : Prop :=
  ∀ key, (serials key s.settled).Pairwise (· ≤ ·)

/-- The mutations whose enqueue was acknowledged, or was made by the process that runs. -/
def accepted (s : OutboxState) : Queue := s.tracked ++ s.calls.map EnqueueCall.mutation

def DrainedWithoutDeadLetters (s : OutboxState) : Prop :=
  s.live = [] ∧ s.limbo = [] ∧ s.deadLetterFile = []

/-- Of each message the last delivered snapshot is not before any that was accepted. -/
def LastSnapshotsDelivered (s : OutboxState) : Prop :=
  ∀ m ∈ s.accepted, ∀ key, isSnapshotOf key m →
    ∃ last, (serials key s.settled).getLast? = some last ∧ m.serial ≤ last

/-- Snapshots of one message are enqueued with times that do not go down. -/
def EnqueuesMonotone (s : OutboxState) : Event → Prop
  | .enqueue mutationId payload now =>
      ∀ m ∈ s.enqueued, m.isTranscript →
        m.coalesceKey = (QueuedSessionMutation.mk mutationId payload now 0 0 0).coalesceKey →
          m.observedAt ≤ (QueuedSessionMutation.mk mutationId payload now 0 0 0).observedAt
  | _ => True

/-- No crash goes back to a snapshot before a delivered one, or loses one that was acknowledged. -/
def KeepsSnapshotOrder (s : OutboxState) (e : Event) : Prop :=
  s.KeepsIdsApart (fun _ => true) e ∧
    match e with
    | .crash _ =>
        (∀ m ∈ s.outboxFile, m.isTranscript → ∀ delivered ∈ s.settled, delivered.coalesceKey = m.coalesceKey →
          delivered.serial ≤ m.serial) ∧
          ∀ m ∈ s.acked, m.isTranscript →
            ∃ n ∈ s.outboxFile ++ s.deadLetterFile.map DeadLetter.mutation ++ s.settled,
              n.coalesceKey = m.coalesceKey ∧ m.serial ≤ n.serial
    | _ => True

instance (s : OutboxState) (e : Event) : Decidable (s.EnqueuesMonotone e) := by
  apply Event.casesOn (motive := fun e => Decidable (s.EnqueuesMonotone e)) e <;> intros <;> unfold EnqueuesMonotone <;>
    infer_instance

instance (s : OutboxState) (e : Event) : Decidable (s.KeepsSnapshotOrder e) := by
  apply Event.casesOn (motive := fun e => Decidable (s.KeepsSnapshotOrder e)) e <;> intros <;> unfold KeepsSnapshotOrder <;>
    infer_instance

def everywhere (s : OutboxState) : Queue :=
  s.settled ++ s.live ++ s.limbo ++ s.deadLetterFile.map DeadLetter.mutation

structure SnapshotsOrdered (s : OutboxState) : Prop where
  known : s.Known
  orderly : s.Orderly
  apart : IdsApart (fun _ => true) s.enqueued
  settledKnown : KnownTo s.enqueued s.settled
  serial : ∀ m ∈ s.enqueued, m.serial < s.enqueued.length
  monotone : SnapshotsMonotone s.enqueued
  single : s.SingleSnapshots
  order : ∀ key, (serials key s.settled ++ (serials key s.held ++ serials key s.mutations)).Pairwise (· ≤ ·)
  reached : ∀ m ∈ s.accepted, ∀ key, isSnapshotOf key m → ∃ n ∈ serials key s.everywhere, m.serial ≤ n

theorem SnapshotsOrdered.delivered {s : OutboxState} (h : s.SnapshotsOrdered) : s.SnapshotsDeliveredInOrder :=
  fun key => (List.pairwise_append.mp (h.order key)).1

theorem getLast_of_pairwise {l : List Nat} (h : l.Pairwise (· ≤ ·)) {n : Nat} (hn : n ∈ l) :
    ∃ last, l.getLast? = some last ∧ n ≤ last := by
  obtain ⟨init, last, rfl⟩ : ∃ init last, l = init ++ [last] :=
    ⟨l.dropLast, l.getLast (List.ne_nil_of_mem hn), (List.dropLast_append_getLast _).symm⟩
  refine ⟨last, by simp, ?_⟩
  rcases List.mem_append.mp hn with hn | hn
  · exact (List.pairwise_append.mp h).2.2 n hn last (by simp)
  · rw [List.mem_singleton.mp hn]

theorem SnapshotsOrdered.last_delivered {s : OutboxState} (h : s.SnapshotsOrdered)
    (hdrained : s.DrainedWithoutDeadLetters) : s.LastSnapshotsDelivered := by
  intro m hm key hkey
  obtain ⟨n, hn, hle⟩ := h.reached m hm key hkey
  obtain ⟨hlive, hlimbo, hletters⟩ := hdrained
  simp only [everywhere, hlive, hlimbo, hletters, List.map_nil, List.append_nil] at hn
  obtain ⟨last, hlast, hle'⟩ := getLast_of_pairwise (h.delivered key) hn
  exact ⟨last, hlast, hle.trans hle'⟩

theorem SnapshotsOrdered.merge {s : OutboxState} (h : s.SnapshotsOrdered) {left : Queue}
    (hknown : KnownTo s.enqueued left) (hsame : ∀ key, serials key left = serials key s.held) (key : String) :
    (serials key s.settled ++ ([] ++ serials key (mergeQueuedSessionMutations left s.mutations))).Pairwise (· ≤ ·) ∧
      ∀ n ∈ serials key s.held ++ serials key s.mutations,
        ∃ n' ∈ serials key (mergeQueuedSessionMutations left s.mutations), n ≤ n' := by
  have horder := h.order key
  obtain ⟨hsettled, hqueued, hcross⟩ := List.pairwise_append.mp horder
  obtain ⟨hheld, hmutations, hle⟩ := List.pairwise_append.mp hqueued
  rw [serials_merge h.apart h.monotone hknown (KnownTo.append_iff.mp h.known.live).1
    (by rw [hsame]; exact h.single.held key) (h.single.queued key) (by rw [hsame]; exact hle), hsame]
  by_cases hnil : serials key s.mutations = []
  · rw [if_pos hnil]
    refine ⟨?_, fun n hn => ⟨n, by simpa [hnil] using hn, le_refl n⟩⟩
    rw [List.nil_append]
    exact List.pairwise_append.mpr ⟨hsettled, hheld, fun a ha b hb => hcross a ha b (List.mem_append_left _ hb)⟩
  · rw [if_neg hnil]
    refine ⟨?_, fun n hn => ?_⟩
    · rw [List.nil_append]
      exact List.pairwise_append.mpr
        ⟨hsettled, hmutations, fun a ha b hb => hcross a ha b (List.mem_append_right _ hb)⟩
    · rcases List.mem_append.mp hn with hn | hn
      · obtain ⟨b, hb⟩ := List.exists_mem_of_ne_nil _ hnil
        exact ⟨b, hb, hle n hn b hb⟩
      · exact ⟨n, hn, le_refl n⟩

theorem everywhere_transfer {s s' : OutboxState} {key : String} (hsettled : s.settled ⊆ s'.settled)
    (hdropped : s.limbo ⊆ s'.limbo ++ s'.deadLetterFile.map DeadLetter.mutation)
    (hletters : s.deadLetterFile ⊆ s'.deadLetterFile)
    (hlive : ∀ n ∈ serials key s.held ++ serials key s.mutations, ∃ n' ∈ serials key s'.everywhere, n ≤ n')
    {n : Nat} (hn : n ∈ serials key s.everywhere) : ∃ n' ∈ serials key s'.everywhere, n ≤ n' := by
  simp only [everywhere, live, serials_append, List.mem_append] at hn
  rcases hn with ((hn | hn | hn) | hn) | hn
  · exact ⟨n, by simp [everywhere, serials_subset hsettled hn], le_refl n⟩
  · exact hlive n (List.mem_append_right _ hn)
  · exact hlive n (List.mem_append_left _ hn)
  · have hn := serials_subset hdropped hn
    simp only [serials_append, List.mem_append] at hn
    exact ⟨n, by simp only [everywhere, serials_append, List.mem_append]; tauto, le_refl n⟩
  · have hn := serials_subset (List.map_subset DeadLetter.mutation hletters) hn
    exact ⟨n, by simp [everywhere, hn], le_refl n⟩

theorem SnapshotsOrdered.of_step {s s' : OutboxState} (h : s.SnapshotsOrdered) (hknown : s'.Known)
    (horderly : s'.Orderly) (henqueued : s'.enqueued = s.enqueued) (hsettledKnown : KnownTo s'.enqueued s'.settled)
    (hsingle : s'.SingleSnapshots)
    (horder : ∀ key,
      (serials key s'.settled ++ (serials key s'.held ++ serials key s'.mutations)).Pairwise (· ≤ ·))
    (haccepted : s'.accepted ⊆ s.accepted)
    (heverywhere : ∀ key, ∀ n ∈ serials key s.everywhere, ∃ n' ∈ serials key s'.everywhere, n ≤ n') :
    s'.SnapshotsOrdered := by
  refine ⟨hknown, horderly, by rw [henqueued]; exact h.apart, hsettledKnown, by rw [henqueued]; exact h.serial,
    by rw [henqueued]; exact h.monotone, hsingle, horder, fun m hm key hkey => ?_⟩
  obtain ⟨n, hn, hle⟩ := h.reached m (haccepted hm) key hkey
  obtain ⟨n', hn', hle'⟩ := heverywhere key n hn
  exact ⟨n', hn', hle.trans hle'⟩

theorem SnapshotsOrdered.move {config : Config} {s : OutboxState} {f : Flush} {e : Event}
    (h : s.SnapshotsOrdered) (hf : s.flush = some f) (hevent : movesFlush e)
    (hmove : FlushMove config s f e (s.step config e)) : (s.step config e).SnapshotsOrdered := by
  have hknown : (s.step config e).Known := h.known.step e
  have horderly : (s.step config e).Orderly := h.orderly.step e
  have hgrows := step_grows config s e
  have hsingle : (s.step config e).SingleSnapshots :=
    h.single.step h.known e (by rw [(hmove.sameOutside).enqueued]; exact h.apart)
  have hlimbo := limbo_step config (e := e) h.orderly (by rintro appended rfl; simp [movesFlush] at hevent)
  have hdead := deadLetteredBy_subset_limbo config s e
  have hheld := held_of_flush hf
  have hlive := h.known.live
  simp only [live, hheld, KnownTo.append_iff] at hlive
  obtain ⟨hmutations, hkept, hrest⟩ := hlive
  generalize s.step config e = s' at hmove hknown horderly hgrows hlimbo hdead hsingle ⊢
  have hsame := hmove.sameOutside
  obtain ⟨-, hletters, hsettled⟩ := hgrows
  have haccepted : s'.accepted ⊆ s.accepted := by
    unfold accepted tracked
    rw [hsame.acked, hsame.calls, hsame.persists]
    exact List.Subset.refl _
  have heverywhere := fun key hlive n => @everywhere_transfer s s' key hsettled hlimbo hletters hlive n
  have hone := h.single.held
  have horder := h.order
  -- The end of the loop merges what is left with what was queued meanwhile.
  have hend : ∀ left : Queue, s'.settled = s.settled → s'.held = [] →
      s'.mutations = mergeQueuedSessionMutations left s.mutations → KnownTo s.enqueued left →
        (∀ key, serials key left = serials key s.held) → s'.SnapshotsOrdered := by
    intro left hsettled hheld' hmutations' hleft hserials
    refine h.of_step hknown horderly hsame.enqueued (by rw [hsame.enqueued, hsettled]; exact h.settledKnown)
      hsingle (fun key => ?_) haccepted fun key n => heverywhere key (fun n hn => ?_) n
    · rw [hsettled, hheld', hmutations']; exact (h.merge hleft hserials key).1
    · obtain ⟨n', hn', hle⟩ := (h.merge hleft hserials key).2 n hn
      exact ⟨n', by simp [everywhere, live, hmutations', hn'], hle⟩
  cases hmove with
  | idle => exact h
  | deliver =>
      refine h.of_step hknown horderly rfl h.settledKnown hsingle (fun key => ?_) haccepted
        fun key n => heverywhere key (fun n hn => ⟨n, ?_, le_refl n⟩) n
      · have horder := horder key; rw [hheld] at horder; exact horder
      · rw [hheld] at hn
        simp only [everywhere, live, held, serials_append, List.mem_append] at hn ⊢
        tauto
  | keep mutation behind nextAttemptAt _ hcons =>
      have hserials : ∀ key, serials key
          (f.remaining ++ [mutation.retried mutation.attempts nextAttemptAt] ++ behind) = serials key s.held := by
        intro key
        rw [hheld, hcons, List.append_assoc, List.singleton_append, serials_append, serials_retried,
          ← serials_append]
      refine h.of_step hknown horderly rfl h.settledKnown hsingle (fun key => ?_) haccepted
        fun key n => heverywhere key (fun n hn => ⟨n, ?_, le_refl n⟩) n
      · rw [goOn_held, hserials]; exact horder key
      · simp only [everywhere, live, goOn_held, serials_append, hserials, List.mem_append] at hn ⊢
        rcases hn with hn | hn
        · exact .inl (.inl (.inr (.inr hn)))
        · exact .inl (.inl (.inr (.inl hn)))
  | stop mutation behind attempts nextAttemptAt _ hcons =>
      rw [hcons, KnownTo.cons_iff] at hrest
      refine hend _ rfl (finishLoop_held _ _ _) rfl (by simpa using ⟨hkept, hrest.1, hrest.2⟩) fun key => ?_
      rw [hheld, hcons, serials_append, serials_retried, ← serials_append]
  | finish hnil =>
      refine hend _ rfl (finishLoop_held _ _ _) rfl hkept fun key => ?_
      rw [hheld, hnil, List.append_nil]
  | settle mutation behind hcons =>
      rw [hcons, KnownTo.cons_iff] at hrest
      rw [hheld, hcons] at hone horder heverywhere
      have hempty : ∀ key, isSnapshotOf key mutation → serials key f.remaining = [] ∧ serials key behind = [] := by
        intro key hkey
        have hone := hone key
        rw [serials_append, serials, serials, snapshots_cons_same hkey] at hone
        simp only [List.length_append, List.length_map, List.length_cons] at hone
        unfold serials
        constructor <;> rw [List.map_eq_nil_iff] <;> apply List.eq_nil_of_length_eq_zero <;> omega
      have hsplit : ∀ key, serials key (s.settled ++ [mutation]) ++ (serials key (f.remaining ++ [] ++ behind) ++
            serials key s.mutations) =
          serials key s.settled ++ (serials key (f.remaining ++ mutation :: behind) ++ serials key s.mutations) := by
        intro key
        rw [show mutation :: behind = [mutation] ++ behind from rfl]
        simp only [serials_append, List.append_nil]
        by_cases hkey : isSnapshotOf key mutation
        · rw [(hempty key hkey).1, (hempty key hkey).2]
          simp only [List.nil_append, List.append_nil, List.append_assoc]
        · have hnone : serials key [mutation] = [] := by simp [serials, snapshots, hkey]
          rw [hnone]
          simp only [List.nil_append, List.append_nil]
      refine h.of_step hknown horderly rfl
        (KnownTo.append_iff.mpr ⟨h.settledKnown, KnownTo.cons_iff.mpr ⟨hrest.1, KnownTo.nil⟩⟩) hsingle
        (fun key => ?_) haccepted fun key n => heverywhere key (fun n hn => ⟨n, ?_, le_refl n⟩) n
      · rw [goOn_held]
        have horder := horder key
        rw [← hsplit] at horder
        exact horder
      · have hn : n ∈ serials key s.settled ++
            (serials key (f.remaining ++ mutation :: behind) ++ serials key s.mutations) := List.mem_append_right _ hn
        rw [← hsplit] at hn
        simp only [everywhere, live, goOn, held, serials_append, List.mem_append] at hn ⊢
        tauto
  | dead mutation behind attempts nextAttemptAt reason hcons hfailing =>
      rw [hcons, KnownTo.cons_iff] at hrest
      rw [hheld, hcons] at hone horder heverywhere
      have hdeadEq : s.deadLetteredBy config e = mutation.retried attempts nextAttemptAt ::
          (deadLetterDependentMutations (mutation.retried attempts nextAttemptAt) behind).1.map
            DeadLetter.mutation := by
        simp [deadLetteredBy, hfailing]
      have hbehind := deadLetterDependentMutations_split (mutation.retried attempts nextAttemptAt) behind
      have hsub : (deadLetterDependentMutations (mutation.retried attempts nextAttemptAt) behind).2.Sublist behind := by
        conv_rhs => rw [← hbehind]
        exact List.sublist_append_right _ _
      have hsublist : ∀ key, (serials key (f.remaining ++ [] ++
          (deadLetterDependentMutations (mutation.retried attempts nextAttemptAt) behind).2)).Sublist
            (serials key (f.remaining ++ mutation :: behind)) := by
        intro key
        rw [List.append_nil]
        exact serials_sublist ((List.Sublist.refl f.remaining).append (hsub.cons mutation))
      refine h.of_step hknown horderly rfl h.settledKnown hsingle (fun key => ?_) haccepted
        fun key n => heverywhere key (fun n hn => ⟨n, ?_, le_refl n⟩) n
      · rw [deadLetter_eq, goOn_held]
        exact (horder key).sublist ((List.Sublist.refl _).append ((hsublist key).append (List.Sublist.refl _)))
      · have hdropped : ∀ n ∈ serials key (s.deadLetteredBy config e),
            n ∈ serials key (s.deadLetter f ⟨mutation.retried attempts nextAttemptAt, reason⟩ behind).limbo :=
          fun n hn => serials_subset hdead hn
        rw [← hbehind, ← List.singleton_append, serials_append, serials_append, serials_append] at hn
        rw [hdeadEq, ← List.singleton_append, serials_append, serials_retried] at hdropped
        have hdropped := hdropped n
        simp only [everywhere, live, deadLetter_eq, goOn_held, serials_append, List.mem_append] at hn hdropped ⊢
        rcases hn with (hn | hn | hn | hn) | hn
        · tauto
        · exact .inl (.inr (hdropped (.inl hn)))
        · exact .inl (.inr (hdropped (.inr hn)))
        · tauto
        · exact .inl (.inl (.inr (.inl hn)))

theorem SnapshotsOrdered.enqueue {s s' : OutboxState} {mutation : QueuedSessionMutation}
    (h : s.SnapshotsOrdered) (hknown : s'.Known) (horderly : s'.Orderly)
    (hapart : IdsApart (fun _ => true) s'.enqueued) (hsingle : s'.SingleSnapshots) (hserial : mutation.serial = s.enqueued.length)
    (hfresh : mutation.retried 0 0 = mutation)
    (hmonotone : ∀ m ∈ s.enqueued, m.isTranscript → m.coalesceKey = mutation.coalesceKey →
      m.observedAt ≤ mutation.observedAt)
    (hs' : s' = { s with
      mutations := pruneSessionEndsSupersededByLaterTurnBegins (putMutation mutation s.mutations)
      persists := s.persists ++ [⟨.enqueue mutation, none⟩]
      enqueued := s.enqueued ++ [mutation]
      calls := s.calls ++ [⟨mutation, s.settled.length⟩] }) : s'.SnapshotsOrdered := by
  have htransfer : ∀ key, (∀ n ∈ serials key s.held ++ serials key s.mutations,
      ∃ n' ∈ serials key s'.everywhere, n ≤ n') →
        ∀ n ∈ serials key s.everywhere, ∃ n' ∈ serials key s'.everywhere, n ≤ n' := by
    intro key hlive n hn
    refine everywhere_transfer ?_ ?_ ?_ hlive hn
    · rw [hs']; exact List.Subset.refl _
    · rw [hs']; exact List.subset_append_left _ _
    · rw [hs']; exact List.Subset.refl _
  subst hs'
  obtain ⟨hmutations, hheld⟩ := KnownTo.append_iff.mp h.known.live
  have hmutations' : KnownTo (s.enqueued ++ [mutation]) (mutation :: s.mutations) :=
    KnownTo.cons_iff.mpr ⟨by simp [hfresh], hmutations.grow (List.subset_append_left _ _)⟩
  have hput := hmutations'.idsApart respectsCovers_true hapart
  have hbefore : ∀ {q : Queue} {key : String}, KnownTo s.enqueued q → ∀ n ∈ serials key q, n < mutation.serial := by
    intro q key hq n hn
    obtain ⟨m, hm, -, rfl⟩ := mem_serials.mp hn
    rw [hserial]
    exact h.serial (m.retried 0 0) (hq m hm)
  have hmonotone' : SnapshotsMonotone (s.enqueued ++ [mutation]) := by
    intro x hx m hm htranscript hkey hle
    rcases List.mem_append.mp hx with hx | hx <;> rcases List.mem_append.mp hm with hm | hm
    · exact h.monotone x hx m hm htranscript hkey hle
    · rw [List.mem_singleton.mp hm] at hkey ⊢
      exact hmonotone x hx htranscript hkey.symm
    · rw [List.mem_singleton.mp hx, hserial] at hle
      exact absurd (h.serial m hm) (not_lt.mpr hle)
    · rw [List.mem_singleton.mp hx, List.mem_singleton.mp hm]
  -- The new mutation takes the place of the queued snapshot with its key.
  have hserials : ∀ key, serials key (pruneSessionEndsSupersededByLaterTurnBegins (putMutation mutation s.mutations)) =
      if isSnapshotOf key mutation then [mutation.serial] else serials key s.mutations := by
    intro key
    rw [serials_prune]
    by_cases hkey : isSnapshotOf key mutation
    · have hone := h.single.queued key
      rw [serials_length] at hone
      rw [if_pos hkey, serials, snapshots_put_same hkey]
      rcases hsnapshots : snapshots key s.mutations with - | ⟨x, - | ⟨x', xs⟩⟩
      · rfl
      · have hx : x ∈ snapshots key s.mutations := by rw [hsnapshots]; simp
        obtain ⟨hx, hxkey⟩ := List.mem_filter.mp hx
        have hreplace := shouldReplace_of_monotone hmonotone'
          (by simp only [KnownTo.cons_iff]
              exact ⟨hmutations' x (List.mem_cons_of_mem _ hx), hmutations' mutation List.mem_cons_self,
                KnownTo.nil⟩)
          hxkey hkey (le_of_lt (by rw [hserial]; exact h.serial (x.retried 0 0) (hmutations x hx)))
        simp [putSnapshot, hreplace]
      · rw [hsnapshots] at hone; simp at hone
    · rw [if_neg hkey, serials, snapshots_put_other hput hkey]
      rfl
  refine ⟨hknown, horderly, hapart, h.settledKnown.grow (List.subset_append_left _ _), ?_, hmonotone',
    hsingle, fun key => ?_, ?_⟩
  · intro m hm
    rw [List.length_append]
    rcases List.mem_append.mp hm with hm | hm
    · exact Nat.lt_add_right _ (h.serial m hm)
    · rw [List.mem_singleton.mp hm, hserial]; simp
  · rw [hserials]
    split
    · obtain ⟨hsettled, hqueued, hcross⟩ := List.pairwise_append.mp (h.order key)
      have hheld' := (List.pairwise_append.mp hqueued).1
      refine List.pairwise_append.mpr ⟨hsettled, List.pairwise_append.mpr
        ⟨hheld', List.pairwise_singleton _ _, fun a ha b hb => ?_⟩, fun a ha b hb => ?_⟩
      · rw [List.mem_singleton.mp hb]
        exact le_of_lt (hbefore hheld a ha)
      · rcases List.mem_append.mp hb with hb | hb
        · exact hcross a ha b (List.mem_append_left _ hb)
        · rw [List.mem_singleton.mp hb]
          exact le_of_lt (hbefore h.settledKnown a ha)
    · exact h.order key
  · intro m hm key hkey
    have hnew : m ∈ s.accepted ∨ m = mutation := by
      simp only [accepted, tracked, acknowledgedBy, List.flatMap_append, List.flatMap_cons, List.flatMap_nil,
        List.append_nil, List.map_append, List.mem_append, List.map_cons, List.map_nil, List.mem_singleton] at hm ⊢
      tauto
    rcases hnew with hm | rfl
    · obtain ⟨n, hn, hle⟩ := h.reached m hm key hkey
      have hlive : ∀ n ∈ serials key s.held ++ serials key s.mutations, ∃ n' ∈ serials key (everywhere { s with
          mutations := pruneSessionEndsSupersededByLaterTurnBegins (putMutation mutation s.mutations)
          persists := s.persists ++ [⟨.enqueue mutation, none⟩]
          enqueued := s.enqueued ++ [mutation]
          calls := s.calls ++ [⟨mutation, s.settled.length⟩] }), n ≤ n' := by
        intro n hn
        rcases List.mem_append.mp hn with hn | hn
        · refine ⟨n, ?_, le_refl n⟩
          simp only [everywhere, live, serials_append, List.mem_append]
          exact .inl (.inl (.inr (.inr hn)))
        · by_cases hkey' : isSnapshotOf key mutation
          · exact ⟨mutation.serial, by simp [everywhere, live, hserials, hkey'], le_of_lt (hbefore hmutations n hn)⟩
          · refine ⟨n, ?_, le_refl n⟩
            simp [everywhere, live, hserials, hkey', hn]
      obtain ⟨n', hn', hle'⟩ := htransfer key hlive n hn
      exact ⟨n', hn', hle.trans hle'⟩
    · exact ⟨m.serial, by simp [everywhere, live, hserials, hkey], le_refl _⟩

theorem SnapshotsOrdered.of_same {config : Config} {s s' : OutboxState} {e : Event} (h : s.SnapshotsOrdered)
    (hstep : s' = s.step config e) (hcrash : ∀ appended, e ≠ .crash appended) (henqueued : s'.enqueued = s.enqueued)
    (hsettled : s'.settled = s.settled) (hmutations : s'.mutations = s.mutations) (hheld : s'.held = s.held)
    (haccepted : s'.accepted ⊆ s.accepted) : s'.SnapshotsOrdered := by
  have hlimbo := limbo_step config h.orderly hcrash
  have hgrows := step_grows config s e
  rw [← hstep] at hlimbo hgrows
  refine h.of_step (hstep ▸ h.known.step e) (hstep ▸ h.orderly.step e) henqueued
    (by rw [henqueued, hsettled]; exact h.settledKnown)
    (hstep ▸ h.single.step h.known e (hstep ▸ by rw [henqueued]; exact h.apart)) (by rw [hsettled, hheld, hmutations]; exact h.order) haccepted
    fun key n hn => everywhere_transfer hgrows.2.2 hlimbo hgrows.2.1 (fun n hn => ⟨n, ?_, le_refl n⟩) hn
  simp only [everywhere, live, hmutations, hheld, serials_append, List.mem_append] at hn ⊢
  tauto

theorem serials_reload {config : Config} {s : OutboxState} (h : s.SnapshotsOrdered) (key : String) :
    serials key (mergeQueuedSessionMutations []
      (pruneSessionEndsSupersededByLaterTurnBegins (s.outboxFile.filter config.parses))) =
        serials key (s.outboxFile.filter config.parses) := by
  have hknown : KnownTo s.enqueued (s.outboxFile.filter config.parses) :=
    h.known.outboxFile.mono (List.filter_subset_self _)
  rw [serials_merge h.apart h.monotone KnownTo.nil hknown.prune (Nat.zero_le 1) ?_ (fun a ha => nomatch ha), serials_prune,
    serials_nil]
  · split
    · rename_i hnil; exact hnil.symm
    · rfl
  · rw [serials_prune]
    exact (serials_sublist List.filter_sublist).length_le.trans (h.single.file key)

theorem SnapshotsOrdered.reload {s s' : OutboxState} {appended : Bool} (h : s.SnapshotsOrdered)
    (he : s.KeepsSnapshotOrder (.crash appended)) (hknown : s'.Known) (horderly : s'.Orderly)
    (hsingle : s'.SingleSnapshots) (henqueued : s'.enqueued = s.enqueued) (hsettled : s'.settled = s.settled)
    (hheld : s'.held = []) (hmutations : ∀ key, (serials key s'.mutations).Sublist (serials key s.outboxFile))
    (haccepted : s'.accepted = s.acked)
    (heverywhere : ∀ key, ∀ n ∈ serials key
      (s.outboxFile ++ s.deadLetterFile.map DeadLetter.mutation ++ s.settled), n ∈ serials key s'.everywhere) :
    s'.SnapshotsOrdered := by
  obtain ⟨-, hlater, hacked⟩ := he
  refine ⟨hknown, horderly, by rw [henqueued]; exact h.apart, by rw [henqueued, hsettled]; exact h.settledKnown,
    by rw [henqueued]; exact h.serial, by rw [henqueued]; exact h.monotone, hsingle, fun key => ?_,
    fun m hm key hkey => ?_⟩
  · rw [hsettled, hheld, serials_nil, List.nil_append]
    have hfile : (serials key s.outboxFile).Pairwise (· ≤ ·) := by
      have hone := h.single.file key
      generalize serials key s.outboxFile = l at hone ⊢
      rcases l with - | ⟨x, - | ⟨y, ys⟩⟩
      · exact List.Pairwise.nil
      · exact List.pairwise_singleton _ _
      · simp at hone
    refine List.pairwise_append.mpr ⟨h.delivered key, hfile.sublist (hmutations key), fun a ha b hb => ?_⟩
    obtain ⟨d, hd, hdkey, rfl⟩ := mem_serials.mp ha
    obtain ⟨m, hm, hmkey, rfl⟩ := mem_serials.mp ((hmutations key).subset hb)
    rw [isSnapshotOf_iff] at hdkey hmkey
    exact hlater m hm hmkey.1 d hd (hdkey.2.trans hmkey.2.symm)
  · rw [haccepted] at hm
    rw [isSnapshotOf_iff] at hkey
    obtain ⟨n, hn, hnkey, hle⟩ := hacked m hm hkey.1
    have hnsnapshot : isSnapshotOf key n := by rw [isSnapshotOf_congr hnkey, isSnapshotOf_iff]; exact hkey
    exact ⟨n.serial, heverywhere key _ (mem_serials.mpr ⟨n, hn, hnsnapshot, rfl⟩), hle⟩

theorem SnapshotsOrdered.step {config : Config} {s : OutboxState} {e : Event} (h : s.SnapshotsOrdered)
    (hmonotone : s.EnqueuesMonotone e) (he : s.KeepsSnapshotOrder e) : (s.step config e).SnapshotsOrdered := by
  have hsame := fun hcrash => @SnapshotsOrdered.of_same config s (s.step config e) e h rfl hcrash
  have hflush := fun f hf hevent => @SnapshotsOrdered.move config s f e h hf hevent
  have htransfer := fun key => @everywhere_transfer s (s.step config e) key
  have hknown : (s.step config e).Known := h.known.step e
  have horderly : (s.step config e).Orderly := h.orderly.step e
  have hapart : IdsApart (fun _ => true) (s.step config e).enqueued := idsApart_step h.apart he.1
  have hsingle : (s.step config e).SingleSnapshots := h.single.step h.known e hapart
  have hmove := step_move config s e
  generalize s.step config e = s' at hmove hsame hflush htransfer hknown horderly hapart hsingle ⊢
  cases hmove with
  | idle => exact h
  | enqueue mutation hserial hfresh =>
      exact h.enqueue hknown horderly hapart hsingle hserial hfresh hmonotone rfl
  | startFlush isForced now f hnone hremaining hletters hphase hrest =>
      have hheld := held_of_no_flush hnone
      have hheld' : (OutboxState.held { s with
          mutations := []
          inFlightMutations := pruneSessionEndsSupersededByLaterTurnBegins s.mutations
          loadedMutationsNeedPersist := false
          flush := some f }) = pruneSessionEndsSupersededByLaterTurnBegins s.mutations := by
        simp [held, hremaining, hrest]
      refine h.of_step hknown horderly rfl h.settledKnown hsingle (fun key => ?_) (fun m hm => hm) fun key n hn =>
        htransfer key (List.Subset.refl _) ?_ (List.Subset.refl _) (fun n hn => ⟨n, ?_, le_refl n⟩) hn
      · have horder := h.order key
        rw [hheld, serials_nil, List.nil_append] at horder
        rw [hheld', serials_prune, serials_nil, List.append_nil]
        exact horder
      · simp [limbo, pendingDeadLetters, hnone, hletters]
      · rw [hheld, serials_nil, List.nil_append] at hn
        simp only [everywhere, live, hheld', serials_append, serials_prune, List.mem_append]
        exact .inl (.inl (.inr (.inr hn)))
  | flush f e s' hevent hf hphase hmove => exact hflush f hf hevent hmove
  | append ok f hf =>
      exact hsame (by simp) rfl rfl rfl (held_of_flush hf).symm (by simp [accepted, tracked, acknowledgedBy])
  | appendFails ok f hf hphase =>
      obtain ⟨hremaining, hrest⟩ := h.orderly.ended f hf (.inl hphase)
      refine hsame (by simp) rfl rfl rfl ?_ fun m hm => hm
      rw [held_of_no_flush rfl, held_of_flush hf, hremaining, hrest]
      rfl
  | written source contents rest hjobs =>
      exact hsame (by simp) rfl rfl rfl (held_after_write_eq h.orderly hjobs rfl)
        (by simp [accepted, tracked, hjobs])
  | writeFails source contents rest hjobs =>
      refine hsame (by simp) rfl rfl rfl (held_after_write_eq h.orderly hjobs rfl) fun m hm => ?_
      simp only [accepted, tracked, hjobs, List.flatMap_cons, List.mem_append] at hm ⊢
      tauto
  | report index call hcall hacked =>
      refine hsame (by simp) rfl rfl rfl rfl fun m hm => ?_
      rcases List.mem_append.mp hm with hm | hm
      · exact List.mem_append_left _ hm
      · exact List.mem_append_right _ (List.map_subset _ (List.eraseIdx_sublist _ _).subset hm)
  | startPersist source rest hjobs =>
      exact hsame (by simp) rfl rfl rfl rfl (by simp [accepted, tracked, hjobs])
  | close => exact hsame (by simp) rfl rfl rfl rfl fun m hm => hm
  | closePersist => exact hsame (by simp) rfl rfl rfl rfl (by simp [accepted, tracked, acknowledgedBy])
  | reload appended needPersist =>
      refine h.reload he hknown horderly hsingle rfl rfl rfl (fun key => ?_) (by simp [accepted, tracked]) fun key n hn => ?_
      · show (serials key (mergeQueuedSessionMutations [] _)).Sublist _
        rw [serials_reload h]
        exact serials_sublist List.filter_sublist
      · have hmutations : serials key (mergeQueuedSessionMutations []
            (pruneSessionEndsSupersededByLaterTurnBegins (s.outboxFile.filter config.parses))) =
          serials key (s.outboxFile.filter config.parses) := serials_reload h key
        obtain ⟨m, hm, hmkey, rfl⟩ := mem_serials.mp hn
        simp only [List.mem_append] at hm
        simp only [everywhere, live, serials_append, hmutations, List.map_append, List.mem_append]
        rcases hm with (hm | hm) | hm
        · by_cases hparses : config.parses m
          · exact .inl (.inl (.inr (.inl (mem_serials.mpr ⟨m, List.mem_filter.mpr ⟨hm, hparses⟩, hmkey, rfl⟩))))
          · refine .inr (.inr (mem_serials.mpr ⟨m, ?_, hmkey, rfl⟩))
            rw [List.map_map, List.mem_map]
            exact ⟨m, List.mem_filter.mpr ⟨hm, by simpa using hparses⟩, rfl⟩
        · exact .inr (.inl (mem_serials.mpr ⟨m, hm, hmkey, rfl⟩))
        · exact .inl (.inl (.inl (mem_serials.mpr ⟨m, hm, hmkey, rfl⟩)))
  | reloadFails appended =>
      refine h.reload he hknown horderly hsingle rfl rfl rfl (fun key => ?_) (by simp [accepted, tracked]) fun key n hn => ?_
      · exact List.nil_sublist _
      · simp only [everywhere, serials_append, List.mem_append, limbo] at hn ⊢
        tauto

theorem snapshotsOrderedAtStart : createOutbox.SnapshotsOrdered :=
  ⟨knownAtStart, orderlyAtStart, fun _ hm => (nomatch hm), KnownTo.nil, fun _ hm => (nomatch hm),
    fun _ hm => (nomatch hm), singleSnapshotsAtStart, fun _ => List.Pairwise.nil, fun _ hm => (nomatch hm)⟩

structure DeliveredInOrder (s : OutboxState) : Prop where
  turns : s.TurnsDeliveredInOrder
  snapshots : s.SnapshotsDeliveredInOrder
  last : s.DrainedWithoutDeadLetters → s.LastSnapshotsDelivered

def KeepsOrder (config : Config) (s : OutboxState) (e : Event) : Prop :=
  s.KeepsTurnOrder config e ∧ s.KeepsSnapshotOrder e

instance (config : Config) (s : OutboxState) (e : Event) : Decidable (s.KeepsOrder config e) := by
  unfold KeepsOrder; infer_instance

end OutboxState

/-- With snapshot times that do not go down, a run delivers in the order of the
enqueues, as long as no crash goes back behind what was delivered or loses what was
acknowledged, and no turn mutation is dropped and enqueued again. -/
theorem outbox_delivers_in_order (config : Config) (events : List Event)
    (h : Runs.Along (OutboxState.step config) (fun s e => s.EnqueuesMonotone e ∧ s.KeepsOrder config e)
      createOutbox events) : (afterEvents config events).DeliveredInOrder := by
  have hturns : (afterEvents config events).TurnsOrdered :=
    Runs.run_invariant_along (fun _ _ hs he => hs.step he.2.1) turnsOrderedAtStart h
  have hsnapshots : (afterEvents config events).SnapshotsOrdered :=
    Runs.run_invariant_along (fun _ _ hs he => hs.step he.1 he.2.2) snapshotsOrderedAtStart h
  exact ⟨hturns.delivered, hsnapshots.delivered, hsnapshots.last_delivered⟩

namespace LaterSnapshot

def config : Config where
  parses := fun _ => true
  maxAttempts := 5
  maxAgeMs := 0
  transcriptFlushBatchLimit := 10

def snapshot (updatedAt : Int) : Event :=
  .enqueue "transcript:s:l" (.transcriptMessageAppend "s" "l" none (some updatedAt)) updatedAt

def events (between : List Event) : List Event :=
  [snapshot 1, .startPersist, .persisted true, .startFlush false 1, .loop 1, .outcome .retryable 2 9,
      .deadLettersAppended true, .startPersist, .persisted true, snapshot 3] ++ between ++
    [.startFlush false 4, .loop 4, .outcome .delivered 5 5, .crash true,
      .startFlush true 6, .loop 6, .outcome .delivered 7 7, .loop 7]

end LaterSnapshot

theorem outbox_delivers_in_order_written :
    (afterEvents LaterSnapshot.config (LaterSnapshot.events [.startPersist, .persisted true])).DeliveredInOrder :=
  outbox_delivers_in_order LaterSnapshot.config _ (by decide)

/-- A timer's flush delivers the later snapshot before its enqueue has written it;
after a crash the earlier one is delivered again, and last. -/
theorem outbox_does_not_deliver_in_order :
    ¬ ∀ config events, Runs.Along (OutboxState.step config) EnqueuesMonotone createOutbox events →
      (afterEvents config events).DeliveredInOrder := by
  intro h
  have horder := (h LaterSnapshot.config (LaterSnapshot.events []) (by decide)).snapshots "transcript:s:l"
  exact absurd horder (by decide)

end DevPilot.Outbox
