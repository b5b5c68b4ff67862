import DevPilot.Outbox.Machine

/-!
What a step can do, first a step of a flush, then any step. All that is proved
of the outbox is proved of these moves.
-/

namespace DevPilot.Outbox

namespace QueuedSessionMutation

def retried (attempts : Nat) (nextAttemptAt : Int) (m : QueuedSessionMutation) : QueuedSessionMutation :=
  { m with attempts, nextAttemptAt }

variable {attempts : Nat} {nextAttemptAt : Int} (m : QueuedSessionMutation)

@[simp] theorem retried_mutationId : (m.retried attempts nextAttemptAt).mutationId = m.mutationId := rfl

@[simp] theorem retried_payload : (m.retried attempts nextAttemptAt).payload = m.payload := rfl

@[simp] theorem retried_serial : (m.retried attempts nextAttemptAt).serial = m.serial := rfl

@[simp] theorem retried_isTranscript : (m.retried attempts nextAttemptAt).isTranscript = m.isTranscript := rfl

@[simp] theorem retried_isTurn : (m.retried attempts nextAttemptAt).isTurn = m.isTurn := rfl

@[simp] theorem retried_isSessionEnd : (m.retried attempts nextAttemptAt).isSessionEnd = m.isSessionEnd := rfl

@[simp] theorem retried_isTurnBegin : (m.retried attempts nextAttemptAt).isTurnBegin = m.isTurnBegin := rfl

@[simp] theorem retried_observedAt : (m.retried attempts nextAttemptAt).observedAt = m.observedAt := rfl

@[simp] theorem retried_coalesceKey : (m.retried attempts nextAttemptAt).coalesceKey = m.coalesceKey := rfl

@[simp] theorem turnDependencyKey_retried :
    turnDependencyKey (m.retried attempts nextAttemptAt) = turnDependencyKey m :=
  rfl

end QueuedSessionMutation

open QueuedSessionMutation

namespace OutboxState

def held (s : OutboxState) : Queue :=
  match s.flush with
  | none => []
  | some f => f.remaining ++ f.rest

/-- The dead letters of the flush that have not reached their file. -/
def pendingDeadLetters (s : OutboxState) : List DeadLetter :=
  match s.flush with
  | none => []
  | some f => f.deadLetters

/-- The mutation that the next event makes a dead letter, in its flush, with
what is behind it in the batch. -/
def failing (config : Config) (s : OutboxState) : Event → Option (Flush × DeadLetter × Queue)
  | .loop _ =>
      match s.flush with
      | none => none
      | some f =>
          match f.rest with
          | [] => none
          | mutation :: behind =>
              if f.phase = .looping ∧ (f.isForced ∨ mutation.nextAttemptAt ≤ f.now) ∧
                  !config.parses mutation then
                some (f, ⟨mutation, .invalid⟩, behind)
              else none
  | .outcome outcome now retryAt =>
      match s.flush with
      | none => none
      | some f =>
          match f.rest with
          | [] => none
          | mutation :: behind =>
              let failedMutation := mutation.retried (mutation.attempts + 1) retryAt
              if f.phase = .delivering ∧ outcome ≠ .delivered ∧ outcome ≠ .ignoredLossy ∧
                  outcome ≠ .authenticationError ∧
                  shouldDeadLetterFailedMutation config failedMutation now outcome then
                some (f, ⟨failedMutation, .retryExhausted⟩, behind)
              else none
  | _ => none

def deadLetteredBy (config : Config) (s : OutboxState) (e : Event) : Queue :=
  match s.failing config e with
  | none => []
  | some (_, entry, behind) =>
      entry.mutation :: (deadLetterDependentMutations entry.mutation behind).1.map DeadLetter.mutation

/-- The moves of a flush at the first mutation of the rest of its batch. -/
inductive FlushMove (config : Config) (s : OutboxState) (f : Flush) (e : Event) : OutboxState → Prop
  | idle : FlushMove config s f e s
  | deliver (transcriptDeliveries : Nat) :
      FlushMove config s f e { s with flush := some { f with transcriptDeliveries, phase := .delivering } }
  | keep (mutation : QueuedSessionMutation) (behind : Queue) (nextAttemptAt : Int) (didChange : Bool)
      (hrest : f.rest = mutation :: behind) (htranscript : mutation.isTranscript)
      (hchange : f.didChange → didChange) :
      FlushMove config s f e
        (s.goOn { f with didChange } [mutation.retried mutation.attempts nextAttemptAt] behind)
  | stop (mutation : QueuedSessionMutation) (behind : Queue) (attempts : Nat) (nextAttemptAt : Int)
      (didChange : Bool) (hrest : f.rest = mutation :: behind) (hchange : f.didChange → didChange) :
      FlushMove config s f e
        (s.finishLoop { f with didChange } (f.remaining ++ mutation.retried attempts nextAttemptAt :: behind))
  | finish (hrest : f.rest = []) : FlushMove config s f e (s.finishLoop f f.remaining)
  | settle (mutation : QueuedSessionMutation) (behind : Queue) (hrest : f.rest = mutation :: behind) :
      FlushMove config s f e
        (goOn { f with didChange := true } [] behind { s with settled := s.settled ++ [mutation] })
  | dead (mutation : QueuedSessionMutation) (behind : Queue) (attempts : Nat) (nextAttemptAt : Int)
      (reason : DeadLetterReason) (hrest : f.rest = mutation :: behind)
      (hfailing : s.failing config e = some (f, ⟨mutation.retried attempts nextAttemptAt, reason⟩, behind)) :
      FlushMove config s f e (s.deadLetter f ⟨mutation.retried attempts nextAttemptAt, reason⟩ behind)

theorem loop_idle {config : Config} {s : OutboxState} (h : ∀ f, s.flush = some f → f.phase ≠ .looping)
    (retryAt : Int) : s.loop config retryAt = s := by
  unfold loop
  split
  case h_1 => rfl
  case h_2 f hf => rw [if_pos (h f hf)]

theorem outcome_idle {config : Config} {s : OutboxState} (h : ∀ f, s.flush = some f → f.phase ≠ .delivering)
    (result : DeliveryOutcome) (now retryAt : Int) : s.outcome config result now retryAt = s := by
  unfold outcome
  split
  case h_1 => rfl
  case h_2 f hf => rw [if_pos (h f hf)]

theorem loop_move {config : Config} {s : OutboxState} {f : Flush} (h : s.flush = some f)
    (hphase : f.phase = .looping) (retryAt : Int) :
    FlushMove config s f (.loop retryAt) (s.loop config retryAt) := by
  simp only [loop, h, hphase, ne_eq, not_true_eq_false, if_false]
  split
  case h_1 hrest => exact .finish hrest
  case h_2 mutation behind hrest =>
    split
    · split
      case isTrue htranscript => exact .keep mutation behind mutation.nextAttemptAt f.didChange hrest htranscript id
      case isFalse => exact .stop mutation behind mutation.attempts mutation.nextAttemptAt f.didChange hrest id
    rename_i hdue
    split
    case isTrue hparses =>
      refine .dead mutation behind mutation.attempts mutation.nextAttemptAt .invalid hrest ?_
      have hdue : f.isForced ∨ mutation.nextAttemptAt ≤ f.now := by
        by_cases hf : f.isForced <;> simp_all
      simp [failing, h, hrest, hphase, hdue, retried] at hparses ⊢
      exact hparses
    case isFalse =>
      split
      case isTrue hlimit =>
        refine .keep mutation behind _ true hrest ?_ fun _ => rfl
        simp only [Bool.and_eq_true] at hlimit
        exact hlimit.1.2
      case isFalse => exact .deliver _

theorem outcome_move {config : Config} {s : OutboxState} {f : Flush} (h : s.flush = some f)
    (hphase : f.phase = .delivering) (result : DeliveryOutcome) (now retryAt : Int) :
    FlushMove config s f (.outcome result now retryAt) (s.outcome config result now retryAt) := by
  simp only [outcome, h, hphase, ne_eq, not_true_eq_false, if_false]
  split
  case h_1 => exact .idle
  case h_2 mutation behind hrest =>
    split
    · exact .settle mutation behind hrest
    · exact .settle mutation behind hrest
    · exact .stop mutation behind mutation.attempts retryAt true hrest fun _ => rfl
    rename_i hdelivered hignored hauthentication
    split
    case isTrue hdead =>
      refine .dead mutation behind (mutation.attempts + 1) retryAt .retryExhausted hrest ?_
      have hdead' : shouldDeadLetterFailedMutation config
          (mutation.retried (mutation.attempts + 1) retryAt) now result := hdead
      simp only [failing, h, hrest]
      rw [if_pos ⟨hphase, fun hr => hdelivered hr, fun hr => hignored hr, fun hr => hauthentication hr,
        hdead'⟩]
    case isFalse => exact .stop mutation behind (mutation.attempts + 1) retryAt true hrest fun _ => rfl

theorem step_of_failing {config : Config} {s : OutboxState} {e : Event} {f : Flush} {entry : DeadLetter}
    {behind : Queue} (h : s.failing config e = some (f, entry, behind)) :
    s.flush = some f ∧ (∃ mutation, f.rest = mutation :: behind) ∧
      s.step config e = s.deadLetter f entry behind := by
  cases e with
  | loop retryAt =>
      cases hf : s.flush with
      | none => simp [failing, hf] at h
      | some g =>
          cases hrest : g.rest with
          | nil => simp [failing, hf, hrest] at h
          | cons mutation rest =>
              simp only [failing, hf, hrest] at h
              split at h
              case isFalse => exact absurd h (by simp)
              case isTrue hc =>
                obtain ⟨hphase, hdue, hparses⟩ := hc
                simp only [Option.some.injEq, Prod.mk.injEq] at h
                obtain ⟨rfl, rfl, rfl⟩ := h
                refine ⟨rfl, ⟨_, hrest⟩, ?_⟩
                have hdue' : (!g.isForced && decide (g.now < mutation.nextAttemptAt)) = false := by
                  rcases hdue with hforced | hle
                  · simp [hforced]
                  · simp [not_lt.mpr hle]
                simp only [step, loop, hf, hrest, hphase, hdue', hparses]
                simp
  | outcome result now retryAt =>
      cases hf : s.flush with
      | none => simp [failing, hf] at h
      | some g =>
          cases hrest : g.rest with
          | nil => simp [failing, hf, hrest] at h
          | cons mutation rest =>
              simp only [failing, hf, hrest] at h
              split at h
              case isFalse => exact absurd h (by simp)
              case isTrue hc =>
                obtain ⟨hphase, hdelivered, hignored, hauthentication, hdead⟩ := hc
                simp only [Option.some.injEq, Prod.mk.injEq] at h
                obtain ⟨rfl, rfl, rfl⟩ := h
                refine ⟨rfl, ⟨_, hrest⟩, ?_⟩
                simp only [step, outcome, hf, hrest, hphase]
                cases result <;> simp_all [retried]
  | _ => simp [failing] at h

def acknowledgedBy : PersistSource → Queue
  | .enqueue mutation => [mutation]
  | _ => []

def flushAfter (s : OutboxState) : PersistSource → Option Flush
  | .flush => none
  | _ => s.flush

def movesFlush : Event → Bool
  | .loop _ => true
  | .outcome .. => true
  | _ => false

inductive Move (config : Config) (s : OutboxState) : Event → OutboxState → Prop
  | idle (e : Event) : Move config s e s
  | enqueue (mutation : QueuedSessionMutation)
      (hserial : mutation.serial = s.enqueued.length) (hfresh : mutation.retried 0 0 = mutation)
      (hcanonical : isCanonical mutation.mutationId mutation.payload)
      (hcompatible : transcriptCoalescingCompatible mutation s.mutations ∧
        transcriptCoalescingCompatible mutation s.inFlightMutations) :
      Move config s (.enqueue mutation.mutationId mutation.payload mutation.createdAt)
        { s with
          mutations := pruneSessionEndsSupersededByLaterTurnBegins (putMutation mutation s.mutations)
          persists := s.persists ++ [⟨.enqueue mutation, none⟩]
          enqueued := s.enqueued ++ [mutation]
          calls := s.calls ++ [⟨mutation, s.settled.length⟩] }
  | startFlush (isForced : Bool) (now : Int) (f : Flush) (hnone : s.flush = none)
      (hremaining : f.remaining = []) (hletters : f.deadLetters = []) (hphase : f.phase = .looping)
      (hrest : f.rest = pruneSessionEndsSupersededByLaterTurnBegins s.mutations) :
      Move config s (.startFlush isForced now)
        { s with
          mutations := []
          inFlightMutations := pruneSessionEndsSupersededByLaterTurnBegins s.mutations
          loadedMutationsNeedPersist := false
          flush := some f }
  | flush (f : Flush) (e : Event) (s' : OutboxState) (he : movesFlush e) (hf : s.flush = some f)
      (hphase : f.phase = .looping ∨ f.phase = .delivering) (hmove : FlushMove config s f e s') : Move config s e s'
  | append (ok : Bool) (f : Flush) (hf : s.flush = some f) (hphase : f.phase = .appending) :
      Move config s (.deadLettersAppended ok)
        { s with
          deadLetterFile := s.deadLetterFile ++ f.deadLetters
          flush := some { f with deadLetters := [], phase := .persisting }
          persists := s.persists ++ [⟨.flush, none⟩] }
  | appendFails (ok : Bool) (f : Flush) (hf : s.flush = some f) (hphase : f.phase = .appending) :
      Move config s (.deadLettersAppended ok)
        { s with flush := none, lost := s.lost ++ f.deadLetters.map DeadLetter.mutation }
  | startPersist (source : PersistSource) (rest : List PersistJob) (hjobs : s.persists = ⟨source, none⟩ :: rest) :
      Move config s .startPersist { s with persists := ⟨source, some s.fileContents⟩ :: rest }
  | written (source : PersistSource) (contents : Queue) (rest : List PersistJob)
      (hjobs : s.persists = ⟨source, some contents⟩ :: rest) :
      Move config s (.persisted true)
        { s with
          persists := rest
          outboxFile := contents
          acked := s.acked ++ acknowledgedBy source
          flush := s.flushAfter source }
  | writeFails (source : PersistSource) (contents : Queue) (rest : List PersistJob)
      (hjobs : s.persists = ⟨source, some contents⟩ :: rest) :
      Move config s (.persisted false) { s with persists := rest, flush := s.flushAfter source }
  | report (index : Nat) (call : EnqueueCall) (hcall : s.calls[index]? = some call)
      (hacked : call.mutation ∈ s.acked) :
      Move config s (.report index)
        { s with
          calls := s.calls.eraseIdx index
          reports := s.reports ++ [⟨call, !s.hasQueuedMutation call.mutation.mutationId⟩] }
  | close : Move config s .close { s with closed := true }
  | closePersist : Move config s .closePersist { s with persists := s.persists ++ [⟨.close, none⟩] }
  | reload (appended needPersist : Bool) :
      Move config s (.crash appended)
        { s with
          closed := false
          mutations := mergeQueuedSessionMutations []
            (pruneSessionEndsSupersededByLaterTurnBegins (s.outboxFile.filter config.parses))
          inFlightMutations := []
          flush := none
          persists := []
          calls := []
          loadedMutationsNeedPersist := needPersist
          deadLetterFile := s.deadLetterFile ++
            (s.outboxFile.filter fun m => !config.parses m).map fun m => ⟨m, .invalid⟩
          lost := [] }
  | reloadFails (appended : Bool) :
      Move config s (.crash appended)
        { s with
          closed := false
          mutations := []
          inFlightMutations := []
          flush := none
          persists := []
          calls := []
          loadedMutationsNeedPersist := false
          lost := s.outboxFile }

theorem enqueue_move (config : Config) (mutationId : String) (payload : Payload) (now : Int) (s : OutboxState) :
    Move config s (.enqueue mutationId payload now) (s.enqueue mutationId payload now) := by
  simp only [enqueue]
  split
  · exact .idle _
  · rename_i h
    simp only [Bool.or_eq_true, Bool.not_eq_eq_eq_not, Bool.not_true, not_or, Bool.not_eq_false] at h
    exact .enqueue ⟨mutationId, payload, now, 0, 0, s.enqueued.length⟩ rfl rfl h.1.1.2 ⟨h.1.2, h.2⟩

theorem startFlush_move (config : Config) (isForced : Bool) (now : Int) (s : OutboxState) :
    Move config s (.startFlush isForced now) (s.startFlush isForced now) := by
  simp only [startFlush]
  split
  · exact .idle _
  · rename_i h
    simp only [Bool.or_eq_true, not_or, Bool.not_eq_true, Option.isSome_eq_false_iff,
      Option.isNone_iff_eq_none] at h
    exact .startFlush _ _ _ h.1 rfl rfl rfl rfl

theorem deadLettersAppended_move (config : Config) (ok : Bool) (s : OutboxState) :
    Move config s (.deadLettersAppended ok) (s.deadLettersAppended ok) := by
  simp only [deadLettersAppended]
  split
  case h_1 => exact .idle _
  case h_2 f hf =>
    split
    · exact .idle _
    rename_i hphase
    have hphase : f.phase = .appending := by simpa using hphase
    split
    · exact .append ok f hf hphase
    · exact .appendFails ok f hf hphase

theorem persisted_move (config : Config) (ok : Bool) (s : OutboxState) :
    Move config s (.persisted ok) (s.persisted ok) := by
  simp only [persisted]
  split
  case h_1 source contents rest hjobs =>
    cases ok with
    | true =>
        have h : Move config s _ _ := .written source contents rest hjobs
        cases source <;> simpa [acknowledgedBy, flushAfter] using h
    | false =>
        have h : Move config s _ _ := .writeFails source contents rest hjobs
        cases source <;> simpa [flushAfter] using h
  case h_2 => exact .idle _

theorem step_move (config : Config) (s : OutboxState) (e : Event) : Move config s e (s.step config e) := by
  cases e with
  | enqueue mutationId payload now => exact enqueue_move config mutationId payload now s
  | startFlush isForced now => exact startFlush_move config isForced now s
  | loop retryAt =>
      by_cases hlooping : ∃ f, s.flush = some f ∧ f.phase = .looping
      · obtain ⟨f, hf, hphase⟩ := hlooping
        exact .flush f _ _ rfl hf (.inl hphase) (loop_move hf hphase retryAt)
      · rw [OutboxState.step, loop_idle fun f hf hphase => hlooping ⟨f, hf, hphase⟩]
        exact .idle _
  | outcome result now retryAt =>
      by_cases hdelivering : ∃ f, s.flush = some f ∧ f.phase = .delivering
      · obtain ⟨f, hf, hphase⟩ := hdelivering
        exact .flush f _ _ rfl hf (.inr hphase) (outcome_move hf hphase result now retryAt)
      · rw [OutboxState.step, outcome_idle fun f hf hphase => hdelivering ⟨f, hf, hphase⟩]
        exact .idle _
  | deadLettersAppended ok => exact deadLettersAppended_move config ok s
  | startPersist =>
      simp only [OutboxState.step, OutboxState.startPersist]
      split
      case h_1 source rest hjobs => exact .startPersist source rest hjobs
      case h_2 => exact .idle _
  | persisted ok => exact persisted_move config ok s
  | report index =>
      simp only [OutboxState.step, OutboxState.report]
      split
      case h_1 => exact .idle _
      case h_2 call hcall =>
        split
        case isTrue hacked => exact .report index call hcall hacked
        case isFalse => exact .idle _
  | close => exact .close
  | closePersist => exact .closePersist
  | crash appended =>
      simp only [OutboxState.step, OutboxState.reload]
      split
      · exact .reload appended _
      · exact .reloadFails appended

end OutboxState

end DevPilot.Outbox
