import Mathlib.Data.List.TakeWhile
import DevPilot.Outbox.Live

/-!
What an enqueue of a transcript snapshot reports: it looks whether the snapshot
is still queued.
-/

namespace DevPilot.Outbox

open QueuedSessionMutation OutboxState

namespace OutboxState

/-- A snapshot that is reported as delivered was acknowledged after its enqueue,
or a later snapshot that took its place was. -/
def Truthful (s : OutboxState) : Prop :=
  ∀ r ∈ s.reports, r.call.mutation.isTranscript → r.delivered →
    CoveredBy (s.settled.drop r.call.settledBefore) r.call.mutation

/-- No turn mutation shares its id with a snapshot, and a snapshot that becomes a
dead letter leaves no unresolved enqueue behind without a later one in the queue. -/
def KeepsReports (config : Config) (s : OutboxState) (e : Event) : Prop :=
  s.KeepsIdsApart isTranscript e ∧
    ∀ failure ∈ s.failing config e, failure.2.1.mutation.isTranscript →
      ∀ call ∈ s.calls, Covers failure.2.1.mutation call.mutation → CoveredBy s.mutations call.mutation

instance (config : Config) (s : OutboxState) (e : Event) : Decidable (s.KeepsReports config e) := by
  unfold KeepsReports; infer_instance

theorem respectsCovers_isTranscript : RespectsCovers isTranscript := by
  intro m x h hx
  have hturn : ¬ x.isTurn := by rcases x.kinds with hk | hk | hk <;> simp_all
  unfold Covers at h
  rw [if_neg hturn] at h
  rw [(kind_of_coalesceKey h.1).1]
  exact hx

theorem not_superseded {q : Queue} {x : QueuedSessionMutation} (hx : x.isTranscript) : ¬ Superseded q x := by
  rintro ⟨hend, -⟩
  rcases x.kinds with hk | hk | hk <;> simp_all

theorem coalesceKey_of_isCanonical {m : QueuedSessionMutation} (h : isCanonical m.mutationId m.payload)
    (hm : m.isTranscript) : m.coalesceKey = some m.mutationId := by
  cases hp : m.payload <;> simp_all [isTranscript, isCanonical, coalesceKey]

/-- The calls that have not resolved are covered, and the ones that have were truthful. -/
structure Tracked (s : OutboxState) : Prop where
  known : s.Known
  orderly : s.Orderly
  apart : IdsApart isTranscript s.enqueued
  view : s.ViewCovers isTranscript
  canonical : ∀ m ∈ s.enqueued, m.isTranscript → m.coalesceKey = some m.mutationId
  settledBefore : ∀ call ∈ s.calls, call.settledBefore ≤ s.settled.length
  calls : ∀ call ∈ s.calls, call.mutation.isTranscript →
    CoveredBy (s.live ++ s.settled.drop call.settledBefore) call.mutation
  callsKnown : ∀ call ∈ s.calls, call.mutation ∈ s.enqueued
  reports : ∀ r ∈ s.reports, r.call.settledBefore ≤ s.settled.length
  truthful : s.Truthful

theorem settled_grows (config : Config) (s : OutboxState) (e : Event) :
    ∃ new, (s.step config e).settled = s.settled ++ new := by
  have hmove := step_move config s e
  generalize s.step config e = s' at hmove ⊢
  cases hmove with
  | flush f e s' hevent hf hphase hmove =>
      cases hmove with
      | settle mutation => exact ⟨[mutation], rfl⟩
      | _ => exact ⟨[], (List.append_nil _).symm⟩
  | _ => exact ⟨[], (List.append_nil _).symm⟩

theorem deadLetteredBy_transcript {config : Config} {s : OutboxState} {e : Event} {m : QueuedSessionMutation}
    (hm : m ∈ s.deadLetteredBy config e) (htranscript : m.isTranscript) :
    ∃ f entry behind, s.failing config e = some (f, entry, behind) ∧ m = entry.mutation := by
  unfold deadLetteredBy at hm
  split at hm
  · cases hm
  case h_2 f entry behind hfailing =>
    refine ⟨f, entry, behind, hfailing, ?_⟩
    rcases List.mem_cons.mp hm with rfl | hm
    · rfl
    · exfalso
      unfold deadLetterDependentMutations at hm
      split at hm
      · cases hm
      case h_2 key hkey =>
        simp only [List.map_map, Function.comp_def, List.map_id'] at hm
        have hturn := List.mem_takeWhile_imp hm
        cases hp : m.payload <;> simp_all [turnDependencyKey, isTranscript]

theorem drop_subset_drop {q : Queue} (new : Queue) {n : Nat} (hn : n ≤ q.length) :
    q.drop n ⊆ (q ++ new).drop n ∧ (q ++ new).drop q.length ⊆ (q ++ new).drop n := by
  rw [List.drop_append_of_le_length hn, List.drop_append_of_le_length (le_refl _), List.drop_length]
  exact ⟨List.subset_append_left _ _, List.subset_append_right _ _⟩

theorem Tracked.covered_of_not_queued {s : OutboxState} (h : s.Tracked) {x : QueuedSessionMutation} {q : Queue}
    (hx : x ∈ s.enqueued) (htranscript : x.isTranscript) (hcovered : CoveredBy (s.live ++ q) x)
    (hqueued : ¬ s.hasQueuedMutation x.mutationId) : CoveredBy q x := by
  rcases CoveredBy.append.mp hcovered with ⟨m, hm, hcovers⟩ | hcovered
  case inr => exact hcovered
  exfalso
  have hsame : ∀ n : QueuedSessionMutation, n.retried 0 0 ∈ s.enqueued → Covers n x →
      n.mutationId = x.mutationId := by
    intro n hn hcovers
    have hkey := h.canonical _ hn (respectsCovers_isTranscript n x hcovers htranscript)
    have hturn : ¬ x.isTurn := by rcases x.kinds with hk | hk | hk <;> simp_all
    unfold Covers at hcovers
    rw [if_neg hturn] at hcovers
    simp only [retried_coalesceKey, retried_mutationId] at hkey
    rw [hcovers.1, h.canonical x hx htranscript] at hkey
    exact (Option.some.inj hkey).symm
  have hqueued : (∀ n ∈ s.mutations, n.mutationId ≠ x.mutationId) ∧
      ∀ n ∈ s.inFlightMutations, n.mutationId ≠ x.mutationId := by
    simpa [hasQueuedMutation] using hqueued
  rcases List.mem_append.mp hm with hm | hm
  · exact hqueued.1 m hm (hsame m (h.known.live m (List.mem_append_left _ hm)) hcovers)
  · obtain ⟨n, hn, hcovers'⟩ := h.view m (respectsCovers_isTranscript m x hcovers htranscript) hm
    exact hqueued.2 n hn (hsame n (h.known.inFlight n hn) (hcovers'.trans hcovers))

theorem Tracked.call_step {config : Config} {s : OutboxState} {e : Event} (h : s.Tracked)
    (he : s.KeepsReports config e) (hcrash : ∀ appended, e ≠ .crash appended) {call : EnqueueCall}
    (hcall : call ∈ s.calls) (htranscript : call.mutation.isTranscript) :
    CoveredBy ((s.step config e).live ++ (s.step config e).settled.drop call.settledBefore) call.mutation := by
  obtain ⟨new, hnew⟩ := settled_grows config s e
  obtain ⟨hold, hfresh⟩ := drop_subset_drop new (h.settledBefore call hcall)
  rcases CoveredBy.append.mp (h.calls call hcall htranscript) with ⟨m, hm, hcovers⟩ | hcovered
  case inr =>
    refine hcovered.mono fun n hn => List.mem_append_right _ ?_
    rw [hnew]
    exact hold hn
  have hmtranscript := respectsCovers_isTranscript m _ hcovers htranscript
  rcases live_step respectsCovers_isTranscript h.known h.orderly (idsApart_step h.apart he.1) hcrash
    hmtranscript hm with hlive | hsuperseded
  case inr => exact absurd hsuperseded (not_superseded hmtranscript)
  obtain ⟨n, hn, hcovers'⟩ := hlive
  have hcovers := hcovers'.trans hcovers
  rcases List.mem_append.mp hn with hn | hn
  · rcases List.mem_append.mp hn with hn | hn
    · exact ⟨n, List.mem_append_left _ hn, hcovers⟩
    · refine ⟨n, List.mem_append_right _ ?_, hcovers⟩
      rw [hnew] at hn ⊢
      exact hfresh hn
  · have hntranscript := respectsCovers_isTranscript n _ hcovers htranscript
    obtain ⟨f, entry, behind, hfailing, rfl⟩ := deadLetteredBy_transcript hn hntranscript
    refine (he.2 (f, entry, behind) hfailing hntranscript call hcall hcovers).mono ?_
    rw [(step_of_failing hfailing).2.2]
    intro y hy
    exact List.mem_append_left _ (List.mem_append_left _ hy)

theorem Tracked.of_same {s s' : OutboxState} (h : s.Tracked) (hknown : s'.Known) (horderly : s'.Orderly)
    (hapart : IdsApart isTranscript s'.enqueued) (hview : s'.ViewCovers isTranscript)
    (henqueued : s'.enqueued = s.enqueued) (hsub : s'.calls ⊆ s.calls) (hreports : s'.reports = s.reports)
    (hgrows : ∃ new, s'.settled = s.settled ++ new)
    (hcalls : ∀ call ∈ s'.calls, call.mutation.isTranscript →
      CoveredBy (s'.live ++ s'.settled.drop call.settledBefore) call.mutation) : s'.Tracked := by
  obtain ⟨new, hnew⟩ := hgrows
  have hlength : s.settled.length ≤ s'.settled.length := by rw [hnew, List.length_append]; omega
  refine ⟨hknown, horderly, hapart, hview, ?_, ?_, hcalls, ?_, ?_, ?_⟩
  · rw [henqueued]; exact h.canonical
  · exact fun call hcall => (h.settledBefore call (hsub hcall)).trans hlength
  · rw [henqueued]; exact fun call hcall => h.callsKnown call (hsub hcall)
  · rw [hreports]; exact fun r hr => (h.reports r hr).trans hlength
  · intro r hr htranscript hdelivered
    rw [hreports] at hr
    rw [hnew]
    exact (h.truthful r hr htranscript hdelivered).mono (drop_subset_drop new (h.reports r hr)).1

theorem Tracked.step {config : Config} {s : OutboxState} {e : Event} (h : s.Tracked)
    (he : s.KeepsReports config e) : (s.step config e).Tracked := by
  have hcalls := fun hcrash call hcall => @Tracked.call_step config s e h he hcrash call hcall
  have hknown : (s.step config e).Known := h.known.step e
  have horderly : (s.step config e).Orderly := h.orderly.step e
  have hapart : IdsApart isTranscript (s.step config e).enqueued := idsApart_step h.apart he.1
  have hview : (s.step config e).ViewCovers isTranscript :=
    h.view.step respectsCovers_isTranscript h.known h.apart e
  have hgrows := settled_grows config s e
  have hmove := step_move config s e
  generalize s.step config e = s' at hmove hcalls hknown horderly hapart hview hgrows ⊢
  cases hmove with
  | idle => exact h
  | enqueue mutation hserial hfresh hcanonical =>
      have hcalls := hcalls (by simp)
      refine ⟨hknown, horderly, hapart, hview, ?_, ?_, ?_, ?_, h.reports, h.truthful⟩
      · intro m hm
        rcases List.mem_append.mp hm with hm | hm
        · exact h.canonical m hm
        · rw [List.mem_singleton.mp hm]; exact coalesceKey_of_isCanonical hcanonical
      · intro call hcall
        rcases List.mem_append.mp hcall with hcall | hcall
        · exact h.settledBefore call hcall
        · rw [List.mem_singleton.mp hcall]
      · intro call hcall htranscript
        rcases List.mem_append.mp hcall with hcall | hcall
        · exact hcalls call hcall htranscript
        · rw [List.mem_singleton.mp hcall] at htranscript ⊢
          have hmutations : KnownTo (s.enqueued ++ [mutation]) (mutation :: s.mutations) :=
            KnownTo.cons_iff.mpr ⟨by simp [hfresh],
              (KnownTo.append_iff.mp h.known.live).1.grow (List.subset_append_left _ _)⟩
          rcases enqueue_covers (hmutations.idsApart respectsCovers_isTranscript hapart) htranscript
            List.mem_cons_self with hcovered | hsuperseded
          · refine hcovered.mono ?_
            simp only [live, List.append_assoc]
            exact List.subset_append_left _ _
          · exact absurd hsuperseded (not_superseded htranscript)
      · intro call hcall
        rcases List.mem_append.mp hcall with hcall | hcall
        · exact List.mem_append_left _ (h.callsKnown call hcall)
        · rw [List.mem_singleton.mp hcall]; simp
  | report index call hcall hacked =>
      have hmem := List.mem_of_getElem? hcall
      have hsub : s.calls.eraseIdx index ⊆ s.calls := (List.eraseIdx_sublist _ _).subset
      refine ⟨hknown, horderly, hapart, hview, h.canonical, fun c hc => h.settledBefore c (hsub hc),
        fun c hc => h.calls c (hsub hc), fun c hc => h.callsKnown c (hsub hc), ?_, ?_⟩
      · intro r hr
        rcases List.mem_append.mp hr with hr | hr
        · exact h.reports r hr
        · rw [List.mem_singleton.mp hr]; exact h.settledBefore call hmem
      · intro r hr htranscript hdelivered
        rcases List.mem_append.mp hr with hr | hr
        · exact h.truthful r hr htranscript hdelivered
        · rw [List.mem_singleton.mp hr] at htranscript hdelivered ⊢
          exact h.covered_of_not_queued (h.callsKnown call hmem) htranscript (h.calls call hmem htranscript)
            (by simpa using hdelivered)
  | reload | reloadFails =>
      exact h.of_same hknown horderly hapart hview rfl (fun _ hm => absurd hm List.not_mem_nil) rfl hgrows
        fun _ hm => absurd hm List.not_mem_nil
  | flush f e s' hevent hf hphase hmove =>
      have hsame := hmove.sameOutside
      have hcrash : ∀ appended, e ≠ .crash appended := by
        rintro appended rfl
        simp [movesFlush] at hevent
      refine h.of_same hknown horderly hapart hview hsame.enqueued (by rw [hsame.calls]; exact fun _ h => h)
        hsame.reports hgrows fun call hcall => ?_
      exact hcalls hcrash call (hsame.calls ▸ hcall)
  | _ =>
      exact h.of_same hknown horderly hapart hview rfl (fun _ h => h) rfl hgrows
        fun call hcall => hcalls (by simp) call hcall

theorem trackedAtStart : createOutbox.Tracked :=
  ⟨knownAtStart, orderlyAtStart, fun _ hm => (nomatch hm), fun _ _ hm => (nomatch hm), fun _ hm => (nomatch hm),
    fun _ hm => (nomatch hm), fun _ hm => (nomatch hm), fun _ hm => (nomatch hm), fun _ hm => (nomatch hm),
    fun _ hm => (nomatch hm)⟩

end OutboxState

/-- In a run in which no snapshot becomes a dead letter while its enqueue waits,
unless a later one is queued, every report of a delivery is true. -/
theorem reports_truthful (config : Config) (events : List Event)
    (h : Runs.Along (OutboxState.step config) (KeepsReports config) createOutbox events) :
    (afterEvents config events).Truthful :=
  (Runs.run_invariant_along (fun _ _ hs he => hs.step he) trackedAtStart h).truthful
namespace OneSnapshot

def config : Config where
  parses := fun _ => true
  maxAttempts := 1
  maxAgeMs := 0
  transcriptFlushBatchLimit := 10

def events (outcome : DeliveryOutcome) : List Event :=
  [.enqueue "transcript:s:l" (.transcriptMessageAppend "s" "l" none (some 1)) 1, .startPersist, .persisted true,
    .startFlush false 2, .loop 2, .outcome outcome 3 3, .loop 4, .deadLettersAppended true,
    .startPersist, .persisted true, .report 0]

end OneSnapshot

theorem reports_truthful_one_snapshot :
    (afterEvents OneSnapshot.config (OneSnapshot.events .delivered)).Truthful :=
  reports_truthful OneSnapshot.config (OneSnapshot.events .delivered) (by decide)

theorem reports_not_truthful : ¬ ∀ config events, (afterEvents config events).Truthful := by
  intro h
  have h := h OneSnapshot.config (OneSnapshot.events .retryable)
  exact absurd (h ⟨⟨⟨"transcript:s:l", .transcriptMessageAppend "s" "l" none (some 1), 1, 0, 0, 0⟩, 0⟩, true⟩
    (by decide) rfl rfl) (by decide)

end DevPilot.Outbox
