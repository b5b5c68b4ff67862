import Mathlib.Data.List.TakeWhile
import DevPilot.Outbox.Moves

/-!
What becomes of the mutations of a turn behind one that is dead-lettered.
-/

namespace DevPilot.Outbox

open QueuedSessionMutation

def ofTurn (key : String) (m : QueuedSessionMutation) : Bool := turnDependencyKey m = some key

def Event.staysInFlush : Event → Bool
  | .startFlush .. => false
  | .crash .. => false
  | _ => true

/-- After a failed mutation everything of its turn behind it is a dead letter that
names it, and whatever happens until the next flush delivers nothing of the turn. -/
def DependentsBlocked (config : Config) (key : String) (f : Flush) (entry : DeadLetter) (behind : Queue)
    (s : OutboxState) : Prop :=
  s.pendingDeadLetters =
      f.deadLetters ++ entry :: (behind.filter (ofTurn key)).map (fun m =>
        ⟨m, .blockedByDeadLetteredDependency entry.mutation.mutationId⟩) ∧
    ∀ events : List Event, (∀ e ∈ events, e.staysInFlush) →
      ∀ m ∈ (Runs.run (OutboxState.step config) s events).settled.drop s.settled.length,
        turnDependencyKey m ≠ some key

namespace OutboxState

def TurnIsOver (key : String) (n : Nat) (s : OutboxState) : Prop :=
  n ≤ s.settled.length ∧ (∀ m ∈ s.settled.drop n, turnDependencyKey m ≠ some key) ∧
    ∀ f, s.flush = some f → ∀ m ∈ f.rest, turnDependencyKey m ≠ some key

theorem deadLetter_flush (f : Flush) (entry : DeadLetter) (behind : Queue) (s : OutboxState) :
    (s.deadLetter f entry behind).flush = some {
      f with
      rest := (deadLetterDependentMutations entry.mutation behind).2
      deadLetters := f.deadLetters ++ entry :: (deadLetterDependentMutations entry.mutation behind).1
      didChange := true
      remaining := f.remaining
      phase := .looping } := by
  simp [deadLetter, goOn]

@[simp] theorem deadLetter_settled (f : Flush) (entry : DeadLetter) (behind : Queue) (s : OutboxState) :
    (s.deadLetter f entry behind).settled = s.settled := by
  simp [deadLetter, goOn]

theorem rest_of_deadLetterDependentMutations (failed : QueuedSessionMutation) (behind : Queue) :
    (deadLetterDependentMutations failed behind).2 ⊆ behind := by
  unfold deadLetterDependentMutations
  split
  · exact List.Subset.refl _
  · exact (List.dropWhile_sublist _).subset

theorem TurnIsOver.move {config : Config} {key : String} {n : Nat} {s : OutboxState} {f : Flush} {e : Event}
    {s' : OutboxState} (h : s.TurnIsOver key n) (hf : s.flush = some f) (hmove : FlushMove config s f e s') :
    s'.TurnIsOver key n := by
  obtain ⟨hn, hsettled, hrest⟩ := h
  have hrest := hrest f hf
  cases hmove with
  | idle => exact ⟨hn, hsettled, fun g hg => by rw [hf] at hg; cases hg; exact hrest⟩
  | deliver => exact ⟨hn, hsettled, fun g hg => by cases hg; exact hrest⟩
  | keep mutation behind _ _ hcons =>
      rw [hcons] at hrest
      exact ⟨hn, hsettled, fun g hg => by cases hg; exact (List.forall_mem_cons.mp hrest).2⟩
  | stop mutation behind _ _ _ hcons =>
      refine ⟨hn, hsettled, fun g hg => ?_⟩
      simp only [finishLoop] at hg
      split at hg
      · cases hg; simp
      · cases hg
  | finish =>
      refine ⟨hn, hsettled, fun g hg => ?_⟩
      simp only [finishLoop] at hg
      split at hg
      · cases hg; simp
      · cases hg
  | settle mutation behind hcons =>
      rw [hcons] at hrest
      obtain ⟨hmutation, hbehind⟩ := List.forall_mem_cons.mp hrest
      refine ⟨?_, ?_, fun g hg => by cases hg; exact hbehind⟩
      · simp only [goOn, List.length_append]; omega
      · intro m hm
        simp only [goOn, List.drop_append_of_le_length hn, List.mem_append, List.mem_singleton] at hm
        rcases hm with hm | rfl
        · exact hsettled m hm
        · exact hmutation
  | dead mutation behind attempts nextAttemptAt reason hcons _ =>
      rw [hcons] at hrest
      refine ⟨by simpa using hn, by simpa using hsettled, fun g hg => ?_⟩
      rw [deadLetter_flush] at hg
      cases hg
      exact fun m hm =>
        (List.forall_mem_cons.mp hrest).2 m (rest_of_deadLetterDependentMutations _ _ hm)

theorem TurnIsOver.step {config : Config} {key : String} {n : Nat} {s : OutboxState} {e : Event}
    (he : e.staysInFlush) (h : s.TurnIsOver key n) : (s.step config e).TurnIsOver key n := by
  have hmove := step_move config s e
  generalize s.step config e = s' at hmove ⊢
  have hafter : ∀ source f, s.flushAfter source = some f → ∀ m ∈ f.rest, turnDependencyKey m ≠ some key := by
    intro source f hf
    cases source with
    | flush => cases hf
    | _ => exact h.2.2 f hf
  cases hmove with
  | startFlush => simp [Event.staysInFlush] at he
  | flush f e s' hevent hf hphase hmove => exact h.move hf hmove
  | append ok f hf => exact ⟨h.1, h.2.1, fun g hg => by cases hg; exact h.2.2 f hf⟩
  | appendFails => exact ⟨h.1, h.2.1, fun g hg => by cases hg⟩
  | written source => exact ⟨h.1, h.2.1, hafter source⟩
  | writeFails source => exact ⟨h.1, h.2.1, hafter source⟩
  | reload => simp [Event.staysInFlush] at he
  | reloadFails => simp [Event.staysInFlush] at he
  | _ => exact h

end OutboxState

open OutboxState

theorem takeWhile_eq_filter_iff {α : Type} (p : α → Bool) (xs : List α) :
    xs.takeWhile p = xs.filter p ↔ ∀ x ∈ xs.dropWhile p, p x = false := by
  have h : xs.filter p = xs.takeWhile p ++ (xs.dropWhile p).filter p := by
    conv_lhs => rw [← List.takeWhile_append_dropWhile (l := xs) (p := p)]
    rw [List.filter_append, List.filter_eq_self.mpr fun x hx => List.mem_takeWhile_imp hx]
  rw [h]
  constructor
  · intro heq x hx
    have hnil : (xs.dropWhile p).filter p = [] := by simpa using heq.symm
    simpa using List.filter_eq_nil_iff.mp hnil x hx
  · intro hall
    rw [List.filter_eq_nil_iff.mpr fun x hx => by simp [hall x hx], List.append_nil]

/-- The dependents of a failed turn mutation are blocked if and only if those in
the batch stand right behind it. -/
theorem dependents_blocked_iff (config : Config) (s : OutboxState) (e : Event) (f : Flush)
    (entry : DeadLetter) (behind : Queue) (key : String)
    (hfailing : s.failing config e = some (f, entry, behind))
    (hkey : turnDependencyKey entry.mutation = some key) :
    DependentsBlocked config key f entry behind (s.step config e) ↔
      ∀ m ∈ behind.dropWhile (ofTurn key), turnDependencyKey m ≠ some key := by
  obtain ⟨hf, -, hstep⟩ := step_of_failing hfailing
  have hdependents : deadLetterDependentMutations entry.mutation behind =
      ((behind.takeWhile (ofTurn key)).map fun m =>
          ⟨m, .blockedByDeadLetteredDependency entry.mutation.mutationId⟩,
        behind.dropWhile (ofTurn key)) := by
    simp only [deadLetterDependentMutations, hkey]
    rfl
  have hletters : (s.step config e).pendingDeadLetters =
      f.deadLetters ++ entry :: (behind.takeWhile (ofTurn key)).map (fun m =>
        ⟨m, .blockedByDeadLetteredDependency entry.mutation.mutationId⟩) := by
    rw [hstep, pendingDeadLetters, deadLetter_flush, hdependents]
  constructor
  · intro h m hm
    have hmap := h.1
    rw [hletters] at hmap
    have hmap := (List.cons.inj (List.append_cancel_left hmap)).2
    have heq : behind.takeWhile (ofTurn key) = behind.filter (ofTurn key) :=
      List.map_injective_iff.mpr (fun _ _ h => (DeadLetter.mk.inj h).1) hmap
    simpa [ofTurn] using (takeWhile_eq_filter_iff _ _).mp heq m hm
  · intro hnone
    refine ⟨?_, fun events hevents m hm => ?_⟩
    · rw [hletters, (takeWhile_eq_filter_iff (ofTurn key) behind).mpr]
      exact fun m hm => by simpa [ofTurn] using hnone m hm
    · have hover : (s.step config e).TurnIsOver key (s.step config e).settled.length := by
        refine ⟨le_refl _, by simp, fun g hg => ?_⟩
        rw [hstep, deadLetter_flush, hdependents] at hg
        cases hg
        exact hnone
      have hrun : (Runs.run (OutboxState.step config) (s.step config e) events).TurnIsOver key
          (s.step config e).settled.length :=
        Runs.run_invariant_along_of_mem (p := fun _ _ => True) (q := fun e => e.staysInFlush)
          (fun _ _ h he _ => h.step he) hevents hover (Runs.along_trivial _ _ _)
      exact hrun.2.1 m hm

namespace Interleaved

def config : Config where
  parses := fun _ => true
  maxAttempts := 1
  maxAgeMs := 0
  transcriptFlushBatchLimit := 10

def turnBegins : Event := .enqueue "a" (.sessionTurn (some "t") true (some 1)) 1

def turnEnds : Event := .enqueue "b" (.sessionTurn (some "t") false (some 3)) 3

def snapshot : Event := .enqueue "transcript:s:l" (.transcriptMessageAppend "s" "l" none (some 2)) 2

def delivering (enqueues : List Event) : OutboxState :=
  afterEvents config (enqueues ++ [Event.startFlush false 4, .loop 4])

def failure : Event := .outcome .retryable 5 6

def failingIn (enqueues : List Event) : Flush × DeadLetter × Queue :=
  ((delivering enqueues).failing config failure).getD
    (⟨false, 0, [], [], [], 0, false, .looping⟩, ⟨⟨"", .sessionEnd "" none, 0, 0, 0, 0⟩, .invalid⟩, [])

end Interleaved

open Interleaved

theorem dependents_blocked_adjacent :
    DependentsBlocked config "t" (failingIn [turnBegins, turnEnds, snapshot]).1
      (failingIn [turnBegins, turnEnds, snapshot]).2.1 (failingIn [turnBegins, turnEnds, snapshot]).2.2
      ((delivering [turnBegins, turnEnds, snapshot]).step config failure) :=
  (dependents_blocked_iff config (delivering [turnBegins, turnEnds, snapshot]) failure _ _ _ "t"
    (by decide) (by decide)).mpr (by decide)

/-- A snapshot between the begin and the end of a turn: the end is delivered
although the begin was dead-lettered. -/
theorem dependents_not_blocked :
    ¬ ∀ config events e f entry behind key,
      (afterEvents config events).failing config e = some (f, entry, behind) →
        turnDependencyKey entry.mutation = some key →
          DependentsBlocked config key f entry behind ((afterEvents config events).step config e) := by
  intro h
  have hblocked := h config ([turnBegins, snapshot, turnEnds] ++ [Event.startFlush false 4, .loop 4]) failure
    (failingIn [turnBegins, snapshot, turnEnds]).1 (failingIn [turnBegins, snapshot, turnEnds]).2.1
    (failingIn [turnBegins, snapshot, turnEnds]).2.2 "t" (by decide) (by decide)
  exact hblocked.2 [.loop 7, .outcome .delivered 8 8, .loop 9, .outcome .delivered 10 10] (by decide)
    ⟨"b", .sessionTurn (some "t") false (some 3), 3, 0, 0, 2⟩ (by decide) (by decide)

end DevPilot.Outbox
