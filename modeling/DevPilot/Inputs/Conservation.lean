import DevPilot.Inputs.InputConsumer
import Mathlib.Data.List.TakeWhile

/-!
No message is lost between the queue and the provider.
-/

namespace DevPilot.Inputs

open Runs

variable {Mode Message : Type}

/-- A batch has one mode hash, and an isolated message is alone in it. -/
structure MessageQueueBatch.Sound (batcher : List Message → Message) (b : MessageQueueBatch Mode Message) : Prop where
  nonempty : b.items ≠ []
  hash : ∀ i ∈ b.items, i.modeHash = b.hash
  isolated : (∃ i ∈ b.items, i.isolate = true) → b.items.length = 1
  message : b.message = batcher (b.items.map (·.message))

namespace MessageQueue2

variable {batcher : List Message → Message} {queue left : List (QueueItem Mode Message)}
  {b : MessageQueueBatch Mode Message}

theorem foldl_consume (items : List (QueueItem Mode Message)) (b : MessageQueueBatch Mode Message) :
    (items.foldl consume b).items = b.items ++ items ∧ (items.foldl consume b).hash = b.hash ∧
      (items.foldl consume b).message = b.message := by
  induction items generalizing b with
  | nil => exact ⟨(List.append_nil _).symm, rfl, rfl⟩
  | cons i items ih =>
      obtain ⟨hitems, hhash, hmessage⟩ := ih (consume b i)
      refine ⟨?_, hhash, hmessage⟩
      rw [List.foldl_cons, hitems]
      exact List.append_assoc b.items [i] items

theorem collectBatch_spec (h : collectBatch batcher queue = some (b, left)) :
    b.items ++ left = queue ∧ b.Sound batcher := by
  cases queue with
  | nil => cases h
  | cons first rest =>
      rw [collectBatch] at h
      simp only [Option.some.injEq, Prod.mk.injEq] at h
      obtain ⟨hb, rfl⟩ := h
      subst hb
      obtain ⟨hitems, hhash, hmessage⟩ := foldl_consume
        (if first.isolate = true then [first] else
          (first :: rest).takeWhile fun i => i.modeHash = first.modeHash && !i.isolate)
        { message := batcher ((if first.isolate = true then [first] else
            (first :: rest).takeWhile fun i => i.modeHash = first.modeHash && !i.isolate).map (·.message))
          mode := first.mode
          isolate := first.isolate
          hash := first.modeHash
          maxUserMessageSeq := none
          userMessageLocalIds := []
          items := [] }
      rw [List.nil_append] at hitems
      refine ⟨?_, ?_, ?_, ?_, ?_⟩
      · rw [hitems]
        cases hisolate : first.isolate with
        | true => rfl
        | false => exact List.takeWhile_append_dropWhile
      all_goals rw [hitems]
      · cases hisolate : first.isolate <;> simp [hisolate]
      · rw [hhash]
        intro i hi
        cases hisolate : first.isolate with
        | true =>
            rw [hisolate, if_pos rfl, List.mem_singleton] at hi
            rw [hi]
        | false =>
            rw [hisolate] at hi
            have hp := List.mem_takeWhile_imp hi
            simp only [Bool.and_eq_true, decide_eq_true_eq] at hp
            exact hp.1
      · rintro ⟨i, hi, hii⟩
        cases hisolate : first.isolate with
        | true => rfl
        | false =>
            rw [hisolate] at hi
            have hp := List.mem_takeWhile_imp hi
            simp [hii] at hp
      · exact hmessage

end MessageQueue2

def CallResult.batch? : CallResult Mode Message → Option (MessageQueueBatch Mode Message)
  | .batch b => some b
  | _ => none

def Stage.held : Stage Mode Message → Option (MessageQueueBatch Mode Message)
  | .collected _ batch | .metaFailedCollected batch | .returning batch => batch
  | .updating batch => some batch
  | _ => none

namespace Consumer

variable {config : Config Mode Message} {w w' : Consumer Mode Message}

def returned (w : Consumer Mode Message) : List (MessageQueueBatch Mode Message) := w.calls.filterMap CallResult.batch?

def held (w : Consumer Mode Message) : List (MessageQueueBatch Mode Message) := w.stage.held.toList

def serials (batches : List (MessageQueueBatch Mode Message)) : List ℕ :=
  batches.flatMap fun b => b.items.map (·.serial)

def queued (w : Consumer Mode Message) : List ℕ := w.q.queue.map (·.serial)

/-- The messages that are left, those that came first in front. -/
def line (w : Consumer Mode Message) : List ℕ := serials (w.returned ++ w.held) ++ w.queued

structure Kept (config : Config Mode Message) (w : Consumer Mode Message) : Prop where
  once : (w.line ++ w.q.cleared).Nodup
  accounted : ∀ n, n < w.q.puts ↔ n ∈ w.line ∨ n ∈ w.q.cleared
  sound : ∀ b ∈ w.returned ++ w.held, b.Sound config.batcher

/-- The messages of the earlier state that are in the queue, with one before the other, are
returned in this order. -/
def Ordered (earlier w : Consumer Mode Message) : Prop :=
  ∀ m n, [m, n].Sublist earlier.queued → n ∈ serials w.returned →
    m ∈ w.q.cleared ∨ [m, n].Sublist (serials w.returned)

/-- The metadata callback ends, with a batch that was taken, before any abort. -/
def Calm (w : Consumer Mode Message) : Event Mode Message → Prop
  | .resume _ =>
    match w.stage with
    | .updating _ => w.aborted = false
    | _ => True
  | _ => True

instance (w : Consumer Mode Message) : ∀ e, Decidable (w.Calm e)
  | .resume _ => by
    rw [Calm]
    cases w.stage <;> infer_instance
  | .push .. | .pushIsolateAndClear .. | .unshift .. | .reset | .close | .waitForNextInput _ | .abort | .wake _ =>
    inferInstanceAs (Decidable True)

inductive Effect (config : Config Mode Message) (w w' : Consumer Mode Message) : Prop
  /-- Batches are taken from the front of the queue, or returned. -/
  | moved (hline : w'.line = w.line)
      (hbatches : ∀ b ∈ w'.returned ++ w'.held, b ∈ w.returned ++ w.held ∨ b.Sound config.batcher)
      (hputs : w'.q.puts = w.q.puts) (hcleared : w'.q.cleared = w.q.cleared)
  | put (hbatches : w'.returned ++ w'.held = w.returned ++ w.held)
      (hqueued : w'.queued = w.queued ++ [w.q.puts] ∨ w'.queued = w.q.puts :: w.queued)
      (hputs : w'.q.puts = w.q.puts + 1) (hcleared : w'.q.cleared = w.q.cleared)
  | isolated (hbatches : w'.returned ++ w'.held = w.returned ++ w.held) (hqueued : w'.queued = [w.q.puts])
      (hputs : w'.q.puts = w.q.puts + 1) (hcleared : w'.q.cleared = w.q.cleared ++ w.queued)
  | reset (hbatches : w'.returned ++ w'.held = w.returned ++ w.held) (hqueued : w'.queued = [])
      (hputs : w'.q.puts = w.q.puts) (hcleared : w'.q.cleared = w.q.cleared ++ w.queued)

theorem Effect.kept (heffect : Effect config w w') (h : w.Kept config) : w'.Kept config := by
  have hnew : w.q.puts ∉ w.line ++ w.q.cleared := fun hmem =>
    absurd ((h.accounted _).mpr (List.mem_append.mp hmem)) (lt_irrefl _)
  cases heffect with
  | moved hline hbatches hputs hcleared =>
      refine ⟨?_, ?_, fun b hb => (hbatches b hb).elim (h.sound b) id⟩
      · rw [hline, hcleared]
        exact h.once
      · rw [hline, hputs, hcleared]
        exact h.accounted
  | put hbatches hqueued hputs hcleared =>
      have hperm : (w'.line ++ w'.q.cleared).Perm (w.q.puts :: (w.line ++ w.q.cleared)) := by
        rw [hcleared, line, line, hbatches]
        rcases hqueued with hqueued | hqueued
        · rw [hqueued, ← List.append_assoc, List.append_assoc (_ ++ _)]
          exact List.perm_middle
        · rw [hqueued, List.append_assoc, List.append_assoc]
          exact List.perm_middle
      refine ⟨?_, fun n => ?_, by rw [hbatches]; exact h.sound⟩
      · rw [hperm.nodup_iff, List.nodup_cons]
        exact ⟨hnew, h.once⟩
      · rw [← List.mem_append, hperm.mem_iff, List.mem_cons, List.mem_append, ← h.accounted, hputs]
        omega
  | isolated hbatches hqueued hputs hcleared =>
      have hperm : (w'.line ++ w'.q.cleared).Perm (w.q.puts :: (w.line ++ w.q.cleared)) := by
        rw [hcleared, line, line, hbatches, hqueued, List.append_assoc]
        refine List.perm_middle.trans (.cons _ ?_)
        rw [List.append_assoc]
        have hcomm : (w.q.cleared ++ w.queued).Perm (w.queued ++ w.q.cleared) := List.perm_append_comm
        exact hcomm.append_left _
      refine ⟨?_, fun n => ?_, by rw [hbatches]; exact h.sound⟩
      · rw [hperm.nodup_iff, List.nodup_cons]
        exact ⟨hnew, h.once⟩
      · rw [← List.mem_append, hperm.mem_iff, List.mem_cons, List.mem_append, ← h.accounted, hputs]
        omega
  | reset hbatches hqueued hputs hcleared =>
      have hperm : (w'.line ++ w'.q.cleared).Perm (w.line ++ w.q.cleared) := by
        rw [hcleared, line, line, hbatches, hqueued, List.append_nil, List.append_assoc]
        exact List.perm_append_comm.append_left _
      refine ⟨hperm.nodup_iff.mpr h.once, fun n => ?_, by rw [hbatches]; exact h.sound⟩
      rw [← List.mem_append, hperm.mem_iff, List.mem_append, ← h.accounted, hputs]

structure SameQueue (q q' : MessageQueue2 Mode Message) : Prop where
  queue : q'.queue = q.queue
  puts : q'.puts = q.puts
  cleared : q'.cleared = q.cleared

theorem SameQueue.serials_eq {q q' : MessageQueue2 Mode Message} (h : SameQueue q q') :
    q'.queue.map (·.serial) = q.queue.map (·.serial) := by
  rw [h.queue]

theorem same_notify (q : MessageQueue2 Mode Message) (b : Bool) : SameQueue q (q.notify b) := by
  rw [MessageQueue2.notify]
  split <;> exact ⟨rfl, rfl, rfl⟩

theorem same_waitForMessages (q : MessageQueue2 Mode Message) (b : Bool) : SameQueue q (q.waitForMessages b) := by
  rw [MessageQueue2.waitForMessages]
  split_ifs <;> exact ⟨rfl, rfl, rfl⟩

theorem Effect.same (hq : SameQueue w.q w'.q) (hbatches : w'.returned ++ w'.held = w.returned ++ w.held) :
    Effect config w w' := by
  refine .moved ?_ (fun b hb => .inl (hbatches ▸ hb)) hq.puts hq.cleared
  rw [line, line, hbatches, queued, queued, hq.queue]

theorem effect_collect (config : Config Mode Message) (w : Consumer Mode Message) (hheld : w.stage.held = none)
    {stage : Option (MessageQueueBatch Mode Message) → Stage Mode Message} (hstage : ∀ b, (stage b).held = b) :
    Effect config w (w.collectQueuedBatch config stage) := by
  rw [collectQueuedBatch]
  split
  · refine .same ⟨rfl, rfl, rfl⟩ ?_
    simp only [held, hheld, hstage]
    rfl
  next b left hcollect =>
    obtain ⟨hitems, hsound⟩ := MessageQueue2.collectBatch_spec hcollect
    have hreturned : (returned { w with q := { w.q with queue := left }, stage := stage (some b) }) = w.returned := rfl
    refine .moved ?_ ?_ rfl rfl
    · simp only [line, queued, held, hheld, hstage, hreturned]
      rw [← hitems]
      simp [serials]
    · intro b' hb'
      simp only [held, hstage, hreturned, List.mem_append] at hb'
      rcases hb' with hb' | hb'
      · exact .inl (List.mem_append_left _ hb')
      · obtain rfl : b' = b := by simpa using hb'
        exact .inr hsound

theorem effect_finish (w : Consumer Mode Message) {result : CallResult Mode Message}
    (hresult : result.batch? = w.stage.held) : Effect config w (w.finish result) := by
  refine .same ⟨rfl, rfl, rfl⟩ ?_
  simp only [finish, returned, held, List.filterMap_append, List.filterMap_cons, List.filterMap_nil, hresult]
  have hidle : (Stage.idle : Stage Mode Message).held = none := rfl
  rw [hidle]
  cases w.stage.held <;> simp

theorem Effect.of_same {w₁ : Consumer Mode Message} (h : Effect config w₁ w') (hq : SameQueue w.q w₁.q)
    (hbatches : w₁.returned ++ w₁.held = w.returned ++ w.held) : Effect config w w' := by
  have hqueued : w₁.queued = w.queued := by rw [queued, queued, hq.queue]
  have hline : w₁.line = w.line := by rw [line, line, hbatches, hqueued]
  cases h with
  | moved hline' hbatches' hputs hcleared =>
      rw [hbatches] at hbatches'
      exact .moved (hline'.trans hline) hbatches' (hputs.trans hq.puts) (hcleared.trans hq.cleared)
  | put hbatches' hqueued' hputs hcleared =>
      rw [hqueued, hq.puts] at hqueued'
      exact .put (hbatches'.trans hbatches) hqueued' (by rw [hputs, hq.puts]) (hcleared.trans hq.cleared)
  | isolated hbatches' hqueued' hputs hcleared =>
      exact .isolated (hbatches'.trans hbatches) (by rw [hqueued', hq.puts]) (by rw [hputs, hq.puts])
        (by rw [hcleared, hq.cleared, hqueued])
  | reset hbatches' hqueued' hputs hcleared =>
      exact .reset (hbatches'.trans hbatches) hqueued' (hputs.trans hq.puts)
        (by rw [hcleared, hq.cleared, hqueued])

theorem effect_loop (w : Consumer Mode Message) (hheld : w.stage.held = none) : Effect config w (w.loop config) := by
  rw [loop]
  split_ifs
  · exact effect_finish w hheld.symm
  · exact effect_collect config w hheld fun _ => rfl

theorem effect_resume (w : Consumer Mode Message) (ok : Bool) (hcalm : w.Calm (.resume ok)) :
    Effect config w (w.resume config ok) := by
  have hrefl : SameQueue w.q w.q := ⟨rfl, rfl, rfl⟩
  have hmove : ∀ stage : Stage Mode Message, stage.held = w.stage.held →
      Effect config w { w with stage := stage } := fun stage hstage =>
    .same hrefl (by simp only [held, hstage]; rfl)
  cases hstage : w.stage with
  | idle | racing wait => simpa only [resume, hstage] using Effect.same (w := w) hrefl rfl
  | collected site batch =>
      cases batch with
      | some batch => simpa only [resume, hstage] using hmove (.updating batch) (by rw [hstage]; rfl)
      | none =>
          cases site with
          | existing =>
              simp only [resume, hstage, materializePendingMessage]
              exact hmove _ (by rw [hstage]; rfl)
          | materialized =>
              simp only [resume, hstage, waitForWakeSignal]
              refine .same (same_waitForMessages w.q w.aborted) ?_
              simp only [held, hstage]
              rfl
  | updating batch =>
      rw [Calm, hstage] at hcalm
      simp only at hcalm
      simp only [resume, hstage, hcalm, Bool.false_eq_true, if_false]
      exact effect_finish w (by rw [hstage]; rfl)
  | materializing policy =>
      simp only [resume, hstage]
      split_ifs
      · refine (effect_collect config { w with wokeByIdleTimer := false } ?_ fun _ => rfl).of_same hrefl rfl
        simp only [hstage]
        rfl
      · exact effect_finish w (by rw [hstage]; rfl)
  | metaFailed =>
      simp only [resume, hstage]
      split_ifs
      · exact effect_collect config w (by rw [hstage]; rfl) fun _ => rfl
      · exact hmove _ (by rw [hstage]; rfl)
  | metaFailedUpdating =>
      simp only [resume, hstage]
      exact effect_collect config w (by rw [hstage]; rfl) fun _ => rfl
  | metaFailedCollected batch =>
      cases batch with
      | some batch =>
          simp only [resume, hstage]
          exact effect_finish w (by rw [hstage]; rfl)
      | none =>
          simp only [resume, hstage]
          split_ifs
          · exact effect_finish w (by rw [hstage]; rfl)
          · exact hmove _ (by rw [hstage]; rfl)
  | fallback | idleUpdating =>
      simp only [resume, hstage]
      split_ifs
      · exact effect_finish w (by rw [hstage]; rfl)
      · exact effect_loop w (by rw [hstage]; rfl)
  | queueWonUpdating =>
      simp only [resume, hstage, waitForMessagesAndGetAsString]
      split_ifs
      · exact effect_finish w (by rw [hstage]; rfl)
      · exact effect_collect config w (by rw [hstage]; rfl) fun _ => rfl
      · exact hmove _ (by rw [hstage]; rfl)
      · refine .same (same_waitForMessages w.q w.aborted) ?_
        simp only [held, hstage]
        rfl
  | metaUpdating =>
      simp only [resume, hstage]
      exact effect_loop w (by rw [hstage]; rfl)
  | waiting wait =>
      simp only [resume, hstage]
      split
      · exact effect_collect config w (by rw [hstage]; rfl) fun _ => rfl
      · exact hmove _ (by rw [hstage]; rfl)
      · exact effect_finish w (by rw [hstage]; rfl)
      · exact .same hrefl rfl
  | returning batch =>
      cases batch <;>
        · simp only [resume, hstage]
          exact effect_finish w (by rw [hstage]; rfl)

theorem effect_woken (w : Consumer Mode Message) {wait : ℕ} (hstage : w.stage = .racing wait) (winner : Wake) :
    Effect config w (w.woken config wait winner) := by
  have hq : SameQueue w.q (w.q.abortWait wait) := ⟨rfl, rfl, rfl⟩
  have hmove : ∀ (stage : Stage Mode Message) (b : Bool), stage.held = none →
      Effect config w { w with q := w.q.abortWait wait, stage := stage, wokeByIdleTimer := b } := fun stage b hnone =>
    .same hq (by simp only [held, hstage, hnone]; rfl)
  have haborted : Effect config w (finish { w with q := w.q.abortWait wait } .null) := by
    refine (effect_finish { w with q := w.q.abortWait wait } ?_).of_same hq rfl
    simp only [hstage]
    rfl
  have hthrown : Effect config w (w.finish .thrown) := effect_finish w (by rw [hstage]; rfl)
  cases winner with
  | queue =>
      simp only [woken]
      split
      · exact hmove _ _ rfl
      · exact haborted
      · exact hthrown
      · exact .same ⟨rfl, rfl, rfl⟩ rfl
  | metadata ok => cases ok <;> exact hmove _ _ rfl
  | metadataFails => exact hthrown
  | idle =>
      simp only [woken]
      split_ifs
      · exact hmove _ _ rfl
      · exact .same ⟨rfl, rfl, rfl⟩ rfl

theorem effect_step (w : Consumer Mode Message) (e : Event Mode Message) (hcalm : w.Calm e) :
    Effect config w (step config w e) := by
  have hrefl : SameQueue w.q w.q := ⟨rfl, rfl, rfl⟩
  cases e with
  | push message mode opts =>
      simp only [step, MessageQueue2.push]
      split_ifs
      · exact .same hrefl rfl
      · have hq := same_notify { w.q with
          queue := w.q.queue ++ [w.q.item config.modeHasher message mode false opts]
          puts := w.q.puts + 1 } true
        refine .put rfl (.inl (hq.serials_eq.trans ?_)) hq.puts hq.cleared
        exact List.map_append
  | pushIsolateAndClear message mode opts =>
      simp only [step, MessageQueue2.pushIsolateAndClear]
      split_ifs
      · exact .same hrefl rfl
      · have hq := same_notify { w.q with
          queue := [w.q.item config.modeHasher message mode true opts]
          puts := w.q.puts + 1
          cleared := w.q.cleared ++ w.q.queue.map (·.serial) } true
        exact .isolated rfl hq.serials_eq hq.puts hq.cleared
  | unshift message mode opts =>
      simp only [step, MessageQueue2.unshift]
      split_ifs
      · exact .same hrefl rfl
      · have hq := same_notify { w.q with
          queue := w.q.item config.modeHasher message mode false opts :: w.q.queue
          puts := w.q.puts + 1 } true
        exact .put rfl (.inr hq.serials_eq) hq.puts hq.cleared
  | reset =>
      have hq := same_notify { w.q with
        queue := ([] : List (QueueItem Mode Message))
        closed := false
        cleared := w.q.cleared ++ w.q.queue.map (·.serial) } false
      exact .reset rfl hq.serials_eq hq.puts hq.cleared
  | close =>
      have hq := same_notify { w.q with closed := true } false
      exact .same ⟨hq.queue, hq.puts, hq.cleared⟩ rfl
  | waitForNextInput aborted =>
      simp only [step]
      split
      next hidle =>
        refine (effect_loop { w with aborted := aborted, wokeByIdleTimer := false } ?_).of_same hrefl rfl
        simp only [hidle]
        rfl
      · exact .same hrefl rfl
  | abort =>
      simp only [step, abort]
      split <;> exact .same ⟨rfl, rfl, rfl⟩ rfl
  | wake winner =>
      simp only [step]
      split
      next hstage => exact effect_woken w hstage winner
      · exact .same hrefl rfl
  | resume ok => exact effect_resume w ok hcalm

theorem Effect.line_sublist (heffect : Effect config w w') :
    (w'.line.filter (· < w.q.puts)).Sublist w.line := by
  cases heffect with
  | moved hline _ _ _ =>
      rw [hline]
      exact List.filter_sublist
  | put hbatches hqueued _ _ =>
      have hfilter : w'.line.filter (· < w.q.puts) = w.line.filter (· < w.q.puts) := by
        rw [line, line, hbatches]
        rcases hqueued with hqueued | hqueued <;> simp [hqueued]
      rw [hfilter]
      exact List.filter_sublist
  | isolated hbatches hqueued _ _ =>
      have hfilter : w'.line.filter (· < w.q.puts) =
          (serials (w.returned ++ w.held)).filter (· < w.q.puts) := by
        rw [line, hbatches, hqueued]
        simp
      rw [hfilter]
      exact List.filter_sublist.trans (List.sublist_append_left _ _)
  | reset hbatches hqueued _ _ =>
      rw [line, hbatches, hqueued, List.append_nil]
      exact List.filter_sublist.trans (List.sublist_append_left _ _)

theorem Effect.puts_le (heffect : Effect config w w') : w.q.puts ≤ w'.q.puts := by
  cases heffect <;> omega

theorem line_sublist_run {events : List (Event Mode Message)} (h : Along (step config) Calm w events) :
    ((run (step config) w events).line.filter (· < w.q.puts)).Sublist w.line ∧
      w.q.puts ≤ (run (step config) w events).q.puts := by
  induction events generalizing w with
  | nil => exact ⟨List.filter_sublist, le_rfl⟩
  | cons e events ih =>
      have heffect : Effect config w (step config w e) := effect_step w e h.1
      obtain ⟨hrest, hle⟩ := ih h.2
      have hputs := heffect.puts_le
      refine ⟨?_, hputs.trans hle⟩
      have hfilter : (run (step config) (step config w e) events).line.filter (· < w.q.puts) =
          ((run (step config) (step config w e) events).line.filter (· < (step config w e).q.puts)).filter
            (· < w.q.puts) := by
        rw [List.filter_filter]
        refine List.filter_congr fun n _ => ?_
        by_cases hn : n < w.q.puts
        · simp [hn, lt_of_lt_of_le hn hputs]
        · simp [hn]
      rw [run_cons, hfilter]
      exact (hrest.filter _).trans heffect.line_sublist

theorem kept_init : Kept config ({} : Consumer Mode Message) where
  once := List.nodup_nil
  accounted := fun n => by
    constructor
    · exact fun h => absurd h (Nat.not_lt_zero n)
    · rintro (h | h) <;> cases h
  sound := nofun

theorem kept_run {events : List (Event Mode Message)} (h : Along (step config) Calm w events)
    (hw : w.Kept config) : (run (step config) w events).Kept config :=
  run_invariant_along (I := Kept config) (fun w e hw hcalm => (effect_step w e hcalm).kept hw) hw h

theorem pair_or_pair {l : List ℕ} {m n : ℕ} (hm : m ∈ l) (hn : n ∈ l) (hne : m ≠ n) :
    [m, n].Sublist l ∨ [n, m].Sublist l := by
  obtain ⟨front, back, rfl⟩ := List.append_of_mem hm
  rcases List.mem_append.mp hn with hn | hn
  · right
    exact (List.singleton_sublist.mpr hn).append (List.singleton_sublist.mpr List.mem_cons_self)
  · left
    have hback : n ∈ back := (List.mem_cons.mp hn).resolve_left hne.symm
    exact ((List.singleton_sublist.mpr hback).cons_cons m).trans (List.sublist_append_right _ _)

theorem not_pair_of_pair {l : List ℕ} {m n : ℕ} (hnodup : l.Nodup) (hpair : [m, n].Sublist l) :
    ¬ [n, m].Sublist l := by
  intro hback
  induction l with
  | nil => cases hpair
  | cons x l ih =>
      rw [List.nodup_cons] at hnodup
      rcases List.sublist_cons_iff.mp hpair with hp | ⟨r, hr, hp⟩
      · rcases List.sublist_cons_iff.mp hback with hb | ⟨r, hr, hb⟩
        · exact ih hnodup.2 hp hb
        · obtain ⟨rfl, rfl⟩ := List.cons.inj hr
          exact hnodup.1 (hp.subset (List.mem_cons_of_mem m List.mem_cons_self))
      · obtain ⟨rfl, rfl⟩ := List.cons.inj hr
        rcases List.sublist_cons_iff.mp hback with hb | ⟨r, hr, hb⟩
        · exact hnodup.1 (hb.subset (List.mem_cons_of_mem n List.mem_cons_self))
        · obtain ⟨rfl, rfl⟩ := List.cons.inj hr
          exact hnodup.1 (hp.subset List.mem_cons_self)

theorem pair_of_append {front back : List ℕ} {m n : ℕ} (hnodup : (front ++ back).Nodup) (hn : n ∈ front)
    (hpair : [m, n].Sublist (front ++ back)) : [m, n].Sublist front := by
  obtain ⟨l₁, l₂, heq, h₁, h₂⟩ := List.sublist_append_iff.mp hpair
  have hnot : n ∉ back := fun hmem => (List.nodup_append.mp hnodup).2.2 n hn n hmem rfl
  rcases List.eq_nil_or_concat l₂ with rfl | ⟨l₂, x, rfl⟩
  · rw [List.append_nil] at heq
    rw [heq]
    exact h₁
  · have hlast : n = x := by
      have hl := congrArg List.getLast? heq
      rw [List.concat_eq_append, ← List.append_assoc, List.getLast?_concat] at hl
      exact Option.some.inj hl
    exact absurd (h₂.subset (by simp [hlast])) hnot

theorem ordered_run {events : List (Event Mode Message)} (h : Along (step config) Calm w events)
    (hw : w.Kept config) : Ordered w (run (step config) w events) := by
  obtain ⟨hsub, hle⟩ := line_sublist_run h
  have hkept := kept_run h hw
  generalize run (step config) w events = w' at *
  intro m n hpair hn
  have hearlier : [m, n].Sublist w.line := hpair.trans (List.sublist_append_right _ _)
  have hnodup : w.line.Nodup := (List.nodup_append.mp hw.once).1
  have hold : ∀ x ∈ [m, n], x < w.q.puts := fun x hx => (hw.accounted x).mpr (.inl (hearlier.subset hx))
  have hne : m ≠ n := by
    rintro rfl
    exact (List.nodup_cons.mp (hnodup.sublist hearlier)).1 (by simp)
  by_cases hcleared : m ∈ w'.q.cleared
  · exact .inl hcleared
  · right
    have hmline : m ∈ w'.line :=
      ((hkept.accounted m).mp ((hold m (by simp)).trans_le hle)).resolve_right hcleared
    have hline : w'.line = serials w'.returned ++ (serials w'.held ++ w'.queued) := by
      rw [line, serials, List.flatMap_append, List.append_assoc]
      rfl
    have hnodup' : w'.line.Nodup := (List.nodup_append.mp hkept.once).1
    have hnline : n ∈ w'.line := by
      rw [hline]
      exact List.mem_append_left _ hn
    -- the other order would already have been there
    have hpair' : [m, n].Sublist w'.line := by
      refine (pair_or_pair hmline hnline hne).resolve_right fun hback => ?_
      have hfilter : [n, m].filter (· < w.q.puts) = [n, m] := by
        simp [hold m (by simp), hold n (by simp)]
      have hsub' := (hback.filter (· < w.q.puts)).trans hsub
      rw [hfilter] at hsub'
      exact not_pair_of_pair hnodup hearlier hsub'
    rw [hline] at hpair' hnodup'
    exact pair_of_append hnodup' hn hpair'

/-- Where the metadata callback never ends after an abort with a batch at hand, no message is
lost or returned twice, and none overtakes another one of the queue. -/
theorem inputs_kept {events later : List (Event Mode Message)}
    (h : Along (step config) Calm {} (events ++ later)) :
    Kept config (run (step config) {} (events ++ later)) ∧
      Ordered (run (step config) {} events) (run (step config) {} (events ++ later)) := by
  rw [along_append_iff] at h
  rw [run_append]
  have hearlier : Kept config (run (step config) {} events) := kept_run h.1 kept_init
  exact ⟨kept_run h.2 hearlier, ordered_run h.2 hearlier⟩

def textModes : Config String String := ⟨id, fun messages => "\n".intercalate messages, none, 0⟩

def twoBatches : List (Event String String) :=
  [.push "one" "a" {}, .push "two" "a" {}, .waitForNextInput false, .push "three" "b" {}, .resume true,
    .resume true, .waitForNextInput false, .resume true, .resume true]

theorem inputs_kept_two_batches :
    Kept textModes (run (step textModes) {} (twoBatches.take 2 ++ twoBatches.drop 2)) ∧
      Ordered (run (step textModes) {} (twoBatches.take 2))
        (run (step textModes) {} (twoBatches.take 2 ++ twoBatches.drop 2)) :=
  inputs_kept (by decide)

def abortedCallback : List (Event String String) :=
  [.push "one" "a" {}, .waitForNextInput false, .resume true, .abort, .resume true]

theorem aborted_batch_lost : ¬ Kept textModes (run (step textModes) {} abortedCallback) := by
  intro h
  have hputs : (run (step textModes) {} abortedCallback).q.puts = 1 := by decide
  have hline : (run (step textModes) {} abortedCallback).line = [] := by decide
  have hcleared : (run (step textModes) {} abortedCallback).q.cleared = [] := by decide
  have haccounted := (h.accounted 0).mp (by rw [hputs]; exact Nat.one_pos)
  rw [hline, hcleared] at haccounted
  rcases haccounted with hmem | hmem <;> cases hmem

end Consumer

end DevPilot.Inputs
