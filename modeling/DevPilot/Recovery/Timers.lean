import DevPilot.Recovery.Scheduler

/-!
Whether a record that waits for a retry keeps a timer, or a wake or a write.
-/

namespace DevPilot.Recovery

variable {Key Intent : Type}

def WriteStage.unwritten (deps : Deps Key Intent) : WriteStage Key → Bool
  | .pruning _ => true
  | .storing => deps.hasStore
  | _ => false

/-- The write has not called `schedule` yet. -/
def WriteStage.unscheduled : WriteStage Key → Bool
  | .scheduled => false
  | _ => true

namespace Task

def isFor (key : Key) : Task Key Intent → Prop
  | .write k _ _ _ => k = key
  | .remove k _ remover => k = key ∧ remover.isWake
  | .prune _ => False
  | .recovering k _ => k = key
  | .succeeding k => k = key

/-- The task will still write the record, or arm a timer for it, or end in such a write,
if the cancellation version stays as it is. -/
def Covers (deps : Deps Key Intent) (version : ℕ) (key : Key) : Task Key Intent → Prop
  | .write k intent stage writer => k = key ∧ (stage.unwritten deps ∨
      stage.unscheduled ∧ deps.armable intent ∨
      ∃ attempt, writer = .checking attempt ∧ attempt.cancellationVersion = version)
  | .remove k removed remover => k = key ∧ remover.isWake ∧ removed = false ∧ deps.hasStore
  | .prune _ => False
  | .recovering k attempt => k = key ∧ attempt.cancellationVersion = version
  | .succeeding _ => False

theorem Covers.isFor {deps : Deps Key Intent} {version : ℕ} {key : Key} {task : Task Key Intent}
    (h : task.Covers deps version key) : task.isFor key := by
  cases task with
  | write => exact h.1
  | remove => exact ⟨h.1, h.2.1⟩
  | prune => exact h.elim
  | recovering => exact h.1
  | succeeding => exact h.elim

end Task

namespace State

variable (deps : Deps Key Intent) (s : State Key Intent)

/-- The stored intent: that of the store, where there is one. -/
def held (key : Key) : Option Intent := if deps.hasStore then (s.slots key).stored else (s.slots key).memory

def Live (key : Key) : Prop := (s.held deps key).any deps.armable

/-- No record is stranded, and there is no timer after `dispose`. -/
def NeverStranded : Prop :=
  (s.disposed = false → ∀ key, s.Live deps key →
    (s.slots key).timer ∨ ∃ task ∈ s.tasks, task.isFor key) ∧
  (s.disposed → ∀ key, (s.slots key).timer = false)

def TimerUnneeded (key : Key) : Prop :=
  s.Live deps key → ∃ task ∈ s.tasks, task.Covers deps (s.slots key).cancellationVersion key

def Guard (pending : List (Task Key Intent)) (key : Key) : Prop :=
  s.Live deps key → (s.slots key).timer ∨
    ∃ task, (task ∈ pending ∨ task ∈ s.tasks) ∧ task.Covers deps (s.slots key).cancellationVersion key

end State

section

variable [DecidableEq Key] (deps : Deps Key Intent) (s : State Key Intent)

/-- The keys whose timer is cleared and not armed when the task goes on. -/
def State.clears : Task Key Intent → List Key
  | .write key _ (.pruning (.pruned keys)) _ => keys.filter (· ≠ key)
  | .write key _ (.pruning (.removing [] keys)) _ => keys.filter (· ≠ key)
  | .write key intent .stored (.checking attempt) =>
    if deps.armable intent ∨ attempt.cancellationVersion = (s.slots key).cancellationVersion then [] else [key]
  | .write key intent .stored _ => if deps.armable intent then [] else [key]
  | .write key _ .scheduled (.checking attempt) =>
    if attempt.cancellationVersion = (s.slots key).cancellationVersion then [] else [key]
  | .write _ _ .scheduled (.upsert) => []
  | .write _ _ .scheduled (.delayed) => []
  | .write _ _ .scheduled (.waiting) => []
  | .write key _ .scheduled _ => [key]
  | .remove key true _ => [key]
  | .prune (.pruned keys) => keys
  | .prune (.removing [] keys) => keys
  | .recovering key attempt =>
    if attempt.cancellationVersion = (s.slots key).cancellationVersion then [] else [key]
  | _ => []

/-- A timer that the step clears, or that fires while a wake of its key goes on, is not
needed any more. -/
def State.KeepsTimers : Event Key Intent → Prop
  | .timer key _ => s.waking key → s.TimerUnneeded deps key
  | .resume index _ _ => ∀ task, s.tasks[index]? = some task →
      ∀ key ∈ s.clears deps task, { s with tasks := s.tasks.eraseIdx index }.TimerUnneeded deps key
  | _ => True

end

namespace State

variable {deps : Deps Key Intent} {s : State Key Intent} {pending : List (Task Key Intent)}

theorem Guard.spawn {task : Task Key Intent} {key : Key} (h : s.Guard deps (task :: pending) key) :
    (s.spawn task).Guard deps pending key := by
  intro hlive
  refine (h hlive).imp_right fun ⟨t, hmem, hcovers⟩ => ⟨t, ?_, hcovers⟩
  simp only [State.spawn, List.mem_append, List.mem_cons, List.not_mem_nil, or_false] at hmem ⊢
  tauto

theorem Guard.mono {key : Key} (h : s.Guard deps pending key) {pending' : List (Task Key Intent)}
    (hsub : ∀ task ∈ pending, task.Covers deps (s.slots key).cancellationVersion key →
      ∃ task' ∈ pending', task'.Covers deps (s.slots key).cancellationVersion key) :
    s.Guard deps pending' key := by
  intro hlive
  refine (h hlive).imp_right fun ⟨t, hmem, hcovers⟩ => ?_
  rcases hmem with hpending | hmem
  · obtain ⟨t', hmem', hcovers'⟩ := hsub t hpending hcovers
    exact ⟨t', Or.inl hmem', hcovers'⟩
  · exact ⟨t, Or.inr hmem, hcovers⟩

theorem guard_modify [DecidableEq Key] {key : Key} {f : Slot Intent → Slot Intent}
    (h : ∀ k, k ≠ key → s.Guard deps pending k) (hkey : (s.modify key f).Guard deps pending key) :
    ∀ k, (s.modify key f).Guard deps pending k := by
  intro k
  by_cases hk : k = key
  · exact hk ▸ hkey
  · have hslot : (s.modify key f).slots k = s.slots k := Function.update_of_ne hk _ _
    intro hlive
    rw [Live, held, hslot] at hlive
    rw [hslot]
    exact h k hk hlive

section Disposed

variable [DecidableEq Key] {s' s'' : State Key Intent}

def ArmsNone (s s' : State Key Intent) : Prop :=
  s'.disposed = s.disposed ∧ (s.disposed → ∀ key, (s'.slots key).timer → (s.slots key).timer)

theorem ArmsNone.refl (s : State Key Intent) : s.ArmsNone s := ⟨rfl, fun _ _ h => h⟩

theorem ArmsNone.trans (h : s.ArmsNone s') (h' : s'.ArmsNone s'') : s.ArmsNone s'' :=
  ⟨h'.1.trans h.1, fun hd key ht => h.2 hd key (h'.2 (h.1.trans hd) key ht)⟩

attribute [local simp] readByKey performWake wakeByKey stepPrune waitAgain afterRecover afterWrite resume step

theorem armsNone_modify {key : Key} {f : Slot Intent → Slot Intent}
    (hf : s.disposed → (f (s.slots key)).timer → (s.slots key).timer) : s.ArmsNone (s.modify key f) := by
  refine ⟨rfl, fun hd k ht => ?_⟩
  rw [modify_slots] at ht
  split at ht
  · next heq => exact heq ▸ hf hd ht
  · exact ht

theorem armsNone_spawn (task : Task Key Intent) : s.ArmsNone (s.spawn task) := ⟨rfl, fun _ _ h => h⟩

theorem armsNone_clearTimer (key : Key) : s.ArmsNone (s.clearTimer key) :=
  armsNone_modify fun _ h => by simp at h

theorem armsNone_schedule (key : Key) (intent : Intent) : s.ArmsNone (s.schedule deps key intent) :=
  armsNone_modify fun hd h => by simp [hd] at h

theorem armsNone_readByKey (key : Key) : s.ArmsNone (s.readByKey deps key) := by
  unfold readByKey
  split
  · exact .refl s
  · exact (armsNone_modify fun _ h => h).trans (armsNone_schedule ..)

theorem armsNone_bump (key : Key) : s.ArmsNone (s.bumpCancellationVersion key) :=
  armsNone_modify fun _ h => h

theorem armsNone_start (key : Key) (call : Call) : s.ArmsNone (s.start key call) :=
  armsNone_modify fun _ h => h

theorem armsNone_drop (key : Key) : s.ArmsNone (s.drop key) := armsNone_modify fun _ h => h

theorem armsNone_settle (key : Key) (standing : Standing) : s.ArmsNone (s.settle key standing) :=
  armsNone_modify fun _ h => h

theorem armsNone_write (key : Key) (intent : Intent) (writer : Writer Key Intent) :
    s.ArmsNone (s.write deps key intent writer) := ⟨rfl, fun _ _ h => h⟩

theorem armsNone_remove (key : Key) (remover : Remover) : s.ArmsNone (s.remove key remover) :=
  (armsNone_modify fun _ h => h).trans (armsNone_spawn _)

theorem armsNone_foldl {keys : List Key} {f : State Key Intent → Key → State Key Intent}
    (hf : ∀ (s : State Key Intent) key, s.ArmsNone (f s key)) : s.ArmsNone (keys.foldl f s) := by
  induction keys generalizing s with
  | nil => exact .refl s
  | cons key keys ih => exact (hf s key).trans ih

theorem armsNone_removeStored (key : Key) : s.ArmsNone (s.removeStored key) :=
  (armsNone_modify fun _ h => h).trans (armsNone_drop key)

theorem armsNone_forget (keys : List Key) : s.ArmsNone (s.forget keys) :=
  armsNone_foldl fun s key =>
    (armsNone_modify (s := s) fun _ h => by simp at h).trans (armsNone_drop key)

theorem armsNone_cancelEntries (cancelled : List Key) (rest : List (Key × Intent)) :
    s.ArmsNone (s.cancelEntries deps cancelled rest) := by
  cases rest with
  | nil => exact armsNone_foldl fun _ key => armsNone_settle key _
  | cons entry rest => exact (armsNone_bump _).trans (armsNone_write ..)

theorem armsNone_performWake (key : Key) (byTimer : Bool) (gate : GateResult) :
    s.ArmsNone (s.performWake deps key byTimer gate) := by
  unfold performWake
  split
  · exact .refl s
  · split
    · exact .refl s
    · have hread : s.ArmsNone (s.readByKey deps key) := armsNone_readByKey key
      simp only
      split
      · exact hread
      · split
        · exact hread.trans (armsNone_schedule ..)
        · split
          · exact hread.trans (armsNone_write ..)
          · split <;> exact hread.trans (armsNone_write ..)

theorem armsNone_wakeByKey (key : Key) (byTimer : Bool) (gate : GateResult) :
    s.ArmsNone (s.wakeByKey deps key byTimer gate) := by
  unfold wakeByKey
  split
  · exact .refl s
  · exact armsNone_performWake ..

theorem armsNone_stepPrune (prune : PruneStage Key) : s.ArmsNone (s.stepPrune deps prune).1 := by
  unfold stepPrune
  split
  · exact armsNone_foldl fun _ key => armsNone_removeStored key
  · exact .refl s
  · exact armsNone_removeStored _
  · exact .refl s

theorem armsNone_waitAgain (key : Key) (attempt : Attempt Intent) (jitterMs : ℤ) (nextRetryAtMs : Option ℤ)
    (lastError : Option String) (intent : Option Intent) :
    s.ArmsNone (s.waitAgain deps key attempt jitterMs nextRetryAtMs lastError intent) := by
  unfold waitAgain
  simp only
  split <;> exact armsNone_write ..

theorem armsNone_afterRecover (key : Key) (attempt : Attempt Intent) (outcome : Outcome Intent) (jitterMs : ℤ) :
    s.ArmsNone (s.afterRecover deps key attempt outcome jitterMs) := by
  unfold afterRecover
  simp only
  split
  · exact armsNone_clearTimer key
  · cases outcome with
    | success intent =>
        simp only [succeed]
        generalize s.prepareWakeWrite .. = succeeded
        split
        · exact armsNone_remove ..
        · exact armsNone_write ..
    | superseded => exact armsNone_remove ..
    | terminal => exact armsNone_write ..
    | exhausted => exact armsNone_write ..
    | wait => exact armsNone_waitAgain ..
    | thrown => exact armsNone_waitAgain ..

theorem armsNone_afterWrite (key : Key) (writer : Writer Key Intent) :
    s.ArmsNone (s.afterWrite deps key writer) := by
  have hclear := armsNone_clearTimer (s := s) key
  unfold afterWrite
  split
  any_goals exact .refl s
  any_goals exact hclear
  · exact hclear.trans (armsNone_settle ..)
  · exact hclear.trans (armsNone_cancelEntries ..)
  · exact (hclear.trans (armsNone_start ..)).trans (armsNone_spawn _)
  · split
    · exact hclear
    · exact ((armsNone_start ..).trans (armsNone_start ..)).trans (armsNone_spawn _)

theorem armsNone_afterRemove (key : Key) (remover : Remover) : s.ArmsNone (s.afterRemove key remover) := by
  have hclear := armsNone_clearTimer (s := s) key
  cases remover with
  | clear => exact hclear.trans (armsNone_settle ..)
  | superseded => exact hclear
  | success => exact (hclear.trans (armsNone_start ..)).trans (armsNone_spawn _)

theorem armsNone_resume (outcome : Outcome Intent) (jitterMs : ℤ) (task : Task Key Intent) :
    s.ArmsNone (s.resume deps outcome jitterMs task) := by
  cases task with
  | write key intent stage writer =>
      cases stage with
      | pruning prune =>
          have hprune : s.ArmsNone (s.stepPrune deps prune).1 := armsNone_stepPrune prune
          simp only [resume]
          split
          · next heq => exact (heq ▸ hprune).trans (armsNone_spawn _)
          · next s' keys heq =>
            rw [heq] at hprune
            exact ((hprune.trans (armsNone_forget keys)).trans (armsNone_modify fun _ h => h)).trans
              (armsNone_spawn _)
      | storing =>
          simp only [resume]
          split
          · exact (armsNone_modify (s := s) fun _ h => h).trans (armsNone_spawn _)
          · exact armsNone_spawn _
      | stored => exact (armsNone_schedule ..).trans (armsNone_spawn _)
      | scheduled => exact armsNone_afterWrite ..
  | remove key removed remover =>
      cases removed with
      | true => exact armsNone_afterRemove ..
      | false =>
          have hremove : s.ArmsNone (s.modify key fun slot => { slot with stored := none }) :=
            armsNone_modify fun _ h => h
          cases remover with
          | clear => exact (armsNone_removeStored key).trans (armsNone_spawn _)
          | success => exact hremove.trans (armsNone_spawn _)
          | superseded => exact hremove.trans (armsNone_spawn _)
  | prune prune =>
      have hprune : s.ArmsNone (s.stepPrune deps prune).1 := armsNone_stepPrune prune
      simp only [resume]
      split
      · next heq => exact (heq ▸ hprune).trans (armsNone_spawn _)
      · next s' keys heq =>
        rw [heq] at hprune
        exact hprune.trans (armsNone_forget keys)
  | recovering key attempt => exact armsNone_afterRecover ..
  | succeeding key => exact .refl s

theorem armsNone_step {e : Event Key Intent} (he : e ≠ .dispose) : s.ArmsNone (s.step deps e) := by
  cases e with
  | clock nowMs => exact ⟨rfl, fun _ _ h => h⟩
  | upsert => exact (armsNone_modify (s := s) fun _ h => h).trans (armsNone_write ..)
  | upsertMerged =>
      exact ((armsNone_readByKey _).trans (armsNone_modify fun _ h => h)).trans (armsNone_write ..)
  | read => exact armsNone_readByKey _
  | cancel key =>
      simp only [step, cancelByKey]
      split
      · exact .refl s
      · exact ((armsNone_readByKey _).trans (armsNone_bump _)).trans (armsNone_write ..)
  | clear key =>
      simp only [step, clearByKey]
      split
      · exact .refl s
      · exact (((armsNone_readByKey _).trans (armsNone_bump _)).trans (armsNone_drop _)).trans (armsNone_remove ..)
  | cancelForSession => exact armsNone_cancelEntries ..
  | pruneTerminalRecords => exact armsNone_spawn _
  | wake => exact armsNone_wakeByKey ..
  | timer key =>
      simp only [step]
      split
      · exact (armsNone_clearTimer key).trans (armsNone_wakeByKey ..)
      · exact .refl s
  | dispose => exact absurd rfl he
  | resume index outcome jitterMs =>
      simp only [step]
      split
      · exact .refl s
      · next task _ =>
        have herase : s.ArmsNone { s with tasks := s.tasks.eraseIdx index } := ⟨rfl, fun _ _ h => h⟩
        exact herase.trans (armsNone_resume ..)

end Disposed

section Guarded

variable [DecidableEq Key] {s' s'' : State Key Intent} {key : Key}

theorem mem_clears_remove (remover : Remover) :
    key ∈ s.clears deps (.remove key true remover : Task Key Intent) := by simp [clears]

structure Lowers (deps : Deps Key Intent) (s s' : State Key Intent) : Prop where
  tasks : s'.tasks = s.tasks
  live : ∀ key, s'.Live deps key → s.Live deps key
  timer : ∀ key, (s'.slots key).timer = (s.slots key).timer
  version : ∀ key, (s'.slots key).cancellationVersion = (s.slots key).cancellationVersion

theorem Lowers.refl (s : State Key Intent) : s.Lowers deps s := ⟨rfl, fun _ => id, fun _ => rfl, fun _ => rfl⟩

theorem Lowers.trans (h : s.Lowers deps s') (h' : s'.Lowers deps s'') : s.Lowers deps s'' :=
  ⟨h'.tasks.trans h.tasks, fun key hlive => h.live key (h'.live key hlive),
    fun key => (h'.timer key).trans (h.timer key), fun key => (h'.version key).trans (h.version key)⟩

theorem Lowers.guard (h : s.Lowers deps s') {key : Key} (hguard : s.Guard deps pending key) :
    s'.Guard deps pending key := by
  intro hlive
  rw [h.timer, h.version, h.tasks]
  exact hguard (h.live key hlive)

theorem lowers_foldl {keys : List Key} {f : State Key Intent → Key → State Key Intent}
    (hf : ∀ (s : State Key Intent) key, s.Lowers deps (f s key)) : s.Lowers deps (keys.foldl f s) := by
  induction keys generalizing s with
  | nil => exact .refl s
  | cons key keys ih => exact (hf s key).trans ih

theorem lowers_modify {f : Slot Intent → Slot Intent} (htimer : ∀ slot, (f slot).timer = slot.timer)
    (hversion : ∀ slot, (f slot).cancellationVersion = slot.cancellationVersion)
    (hstored : ∀ slot, (f slot).stored = slot.stored ∨ (f slot).stored = none)
    (hmemory : ∀ slot, (f slot).memory = slot.memory ∨ (f slot).memory = none) :
    s.Lowers deps (s.modify key f) := by
  refine ⟨rfl, fun k hlive => ?_, fun k => ?_, fun k => ?_⟩
  · simp only [Live, held, modify_slots] at hlive ⊢
    by_cases hk : k = key
    · subst hk
      have hs := hstored (s.slots k)
      have hm := hmemory (s.slots k)
      split at hlive <;> grind
    · simpa [hk] using hlive
  · rw [modify_slots]
    split
    · next hk => rw [htimer, hk]
    · rfl
  · rw [modify_slots]
    split
    · next hk => rw [hversion, hk]
    · rfl

theorem lowers_drop : s.Lowers deps (s.drop key) :=
  lowers_modify (fun _ => rfl) (fun _ => rfl) (fun _ => Or.inl rfl) fun _ => Or.inl rfl

theorem lowers_settle (standing : Standing) : s.Lowers deps (s.settle key standing) :=
  lowers_modify (fun _ => rfl) (fun _ => rfl) (fun _ => Or.inl rfl) fun _ => Or.inl rfl

theorem lowers_start (call : Call) : s.Lowers deps (s.start key call) :=
  lowers_modify (fun _ => rfl) (fun _ => rfl) (fun _ => Or.inl rfl) fun _ => Or.inl rfl

theorem lowers_standing : s.Lowers deps (s.modify key fun slot => { slot with standing := none }) :=
  lowers_modify (fun _ => rfl) (fun _ => rfl) (fun _ => Or.inl rfl) fun _ => Or.inl rfl

theorem lowers_removeStored (key : Key) : s.Lowers deps (s.removeStored key) := by
  have hstored : s.Lowers deps (s.modify key fun slot => { slot with stored := none }) :=
    lowers_modify (fun _ => rfl) (fun _ => rfl) (fun _ => Or.inr rfl) fun _ => Or.inl rfl
  exact hstored.trans lowers_drop

theorem lowers_stepPrune (prune : PruneStage Key) : s.Lowers deps (s.stepPrune deps prune).1 := by
  unfold stepPrune
  split
  · exact lowers_foldl fun _ key => lowers_removeStored key
  · exact .refl s
  · exact lowers_removeStored _
  · exact .refl s

def Unneeded (deps : Deps Key Intent) (s : State Key Intent) (pending : List (Task Key Intent)) (key : Key) : Prop :=
  s.Live deps key →
    ∃ task, (task ∈ pending ∨ task ∈ s.tasks) ∧ task.Covers deps (s.slots key).cancellationVersion key

omit [DecidableEq Key] in
theorem Unneeded.guard (h : s.Unneeded deps pending key) : s.Guard deps pending key := fun hlive => Or.inr (h hlive)

omit [DecidableEq Key] in
theorem TimerUnneeded.unneeded (h : s.TimerUnneeded deps key) (pending : List (Task Key Intent)) :
    s.Unneeded deps pending key := fun hlive =>
  let ⟨task, hmem, hcovers⟩ := h hlive
  ⟨task, Or.inr hmem, hcovers⟩

theorem guard_clearTimer (h : ∀ k, k ≠ key → s.Guard deps pending k) (hkey : s.Unneeded deps pending key) :
    ∀ k, (s.clearTimer key).Guard deps pending k := by
  refine guard_modify h fun hlive => Or.inr ?_
  simp only [Live, held, modify_slots] at hlive
  simpa only [modify_slots, if_true, modify_tasks] using hkey hlive

omit [DecidableEq Key] in
theorem Unneeded.lowers (h : s.Unneeded deps pending key) (hlower : s.Lowers deps s') :
    s'.Unneeded deps pending key := by
  intro hlive
  rw [hlower.version, hlower.tasks]
  exact h (hlower.live key hlive)

theorem guard_forget {keys : List Key} (h : ∀ k, k ∉ keys → s.Guard deps pending k)
    (hkeys : ∀ k ∈ keys, s.Unneeded deps pending k) : ∀ k, (s.forget keys).Guard deps pending k := by
  induction keys generalizing s with
  | nil => exact fun k => h k List.not_mem_nil
  | cons key keys ih =>
      let mid := s.modify key fun slot => { slot with memory := none, timer := false }
      have hlive : ∀ k, mid.Live deps k → s.Live deps k := by
        intro k hl
        simp only [mid, Live, held, modify_slots] at hl ⊢
        by_cases hk : k = key
        · subst hk
          split at hl <;> simp_all
        · simpa [hk] using hl
      have hversion : ∀ k, (mid.slots k).cancellationVersion = (s.slots k).cancellationVersion := by
        intro k
        simp only [mid, modify_slots]
        split <;> simp_all
      have hunneeded : ∀ k, s.Unneeded deps pending k → mid.Unneeded deps pending k := by
        intro k hk hl
        rw [hversion]
        exact hk (hlive k hl)
      have hother : ∀ k, k ≠ key → s.Guard deps pending k → mid.Guard deps pending k := by
        intro k hk hguard hl
        have htimer : (mid.slots k).timer = (s.slots k).timer := by simp [mid, modify_slots, hk]
        rw [htimer, hversion]
        exact hguard (hlive k hl)
      have hkey := hunneeded key (hkeys key List.mem_cons_self)
      refine ih (fun k hk => lowers_drop.guard ?_) fun k hk =>
        (hunneeded k (hkeys k (List.mem_cons_of_mem _ hk))).lowers lowers_drop
      by_cases hsame : k = key
      · rw [hsame]
        exact hkey.guard
      · exact hother k hsame (h k (by simp [hsame, hk]))

theorem guard_readByKey (hopen : s.disposed = false) (h : ∀ k, k ≠ key → s.Guard deps pending k) :
    ∀ k, (s.readByKey deps key).Guard deps pending k := by
  unfold readByKey
  split
  · next hnone =>
    intro k
    by_cases hk : k = key
    · subst hk
      intro hlive
      rw [current, Option.or_eq_none_iff] at hnone
      simp [Live, held, hnone.1, hnone.2] at hlive
    · exact h k hk
  · next intent hsome =>
    refine guard_modify (fun k hk hlive => ?_) fun hlive => Or.inl ?_
    · have hslot := modify_slots s key k fun slot => { slot with memory := some intent }
      rw [if_neg hk] at hslot
      rw [Live, held, hslot] at hlive
      rw [hslot]
      exact h k hk hlive
    · simp only [Live, held, modify_slots, if_true] at hlive
      simp only [modify_slots, if_true, modify_disposed, hopen, Bool.not_false, Bool.true_and]
      rw [current] at hsome
      split at hlive
      · cases hstored : (s.slots key).stored with
        | none => simp [hstored] at hlive
        | some stored =>
            rw [hstored, Option.some_or, Option.some.injEq] at hsome
            simpa [hstored, hsome] using hlive
      · simpa using hlive

theorem guard_bump (h : ∀ k, k ≠ key → s.Guard deps pending k) :
    ∀ k, k ≠ key → (s.bumpCancellationVersion key).Guard deps pending k := by
  intro k hk hlive
  have hslot := modify_slots s key k fun slot => { slot with cancellationVersion := slot.cancellationVersion + 1 }
  rw [if_neg hk] at hslot
  rw [bumpCancellationVersion, Live, held, hslot] at hlive
  rw [bumpCancellationVersion, hslot]
  exact h k hk hlive

theorem guard_write (intent : Intent) (writer : Writer Key Intent)
    (h : ∀ k, k ≠ key → s.Guard deps pending k) :
    ∀ k, (s.write deps key intent writer).Guard deps pending k := by
  intro k hlive
  by_cases hk : k = key
  · refine Or.inr ⟨_, Or.inr (List.mem_append_right _ List.mem_cons_self), ?_⟩
    exact ⟨hk.symm, Or.inl rfl⟩
  · refine (h k hk hlive).imp_right fun ⟨task, hmem, hcovers⟩ => ⟨task, hmem.imp_right fun hin => ?_, hcovers⟩
    exact List.mem_append_left _ hin

theorem guard_remove {remover : Remover} (hwake : remover.isWake)
    (h : ∀ k, k ≠ key → s.Guard deps pending k) :
    ∀ k, (s.remove key remover).Guard deps pending k := by
  intro k hlive
  by_cases hk : k = key
  · subst hk
    cases hstore : deps.hasStore with
    | true => exact Or.inr ⟨_, Or.inr (List.mem_append_right _ List.mem_cons_self), rfl, hwake, rfl, hstore⟩
    | false => simp [remove, Live, held, hstore, modify_slots] at hlive
  · have hslot := modify_slots s key k fun slot => { slot with memory := none }
    rw [if_neg hk] at hslot
    rw [remove, Live, held, spawn_slots, hslot] at hlive
    rw [remove, spawn_slots, hslot]
    exact (h k hk hlive).imp_right fun ⟨task, hmem, hcovers⟩ =>
      ⟨task, hmem.imp_right fun hin => List.mem_append_left _ hin, hcovers⟩

theorem guard_cancelEntries (cancelled : List Key) (rest : List (Key × Intent))
    (h : ∀ k, s.Guard deps pending k) : ∀ k, (s.cancelEntries deps cancelled rest).Guard deps pending k := by
  cases rest with
  | nil =>
      have hlower : s.Lowers deps (cancelled.foldl (fun s key => s.settle key .cancelled) s) :=
        lowers_foldl fun _ key => lowers_settle _
      exact fun k => hlower.guard (h k)
  | cons entry rest => exact guard_write _ _ (guard_bump fun k _ => h k)

theorem guard_performWake (hopen : s.disposed = false) (byTimer : Bool) (gate : GateResult)
    (h : ∀ k, k ≠ key → s.Guard deps pending k) :
    ∀ k, (s.performWake deps key byTimer gate).Guard deps pending k := by
  have hread : ∀ k, (s.readByKey deps key).Guard deps pending k := guard_readByKey hopen h
  have hother : ∀ k, k ≠ key → (s.readByKey deps key).Guard deps pending k := fun k _ => hread k
  unfold performWake
  rw [if_neg (by simp [hopen])]
  split
  · next hnone =>
    simpa only [readByKey, hnone] using hread
  · next intent hsome =>
    simp only
    split
    · exact hread
    · split
      · -- the timer that `readByKey` has armed is armed again
        have hagain : ((s.readByKey deps key).schedule deps key intent).Lowers deps (s.readByKey deps key) ∧
            (s.readByKey deps key).Lowers deps ((s.readByKey deps key).schedule deps key intent) := by
          have heq : (s.readByKey deps key).schedule deps key intent = s.readByKey deps key := by
            simp only [readByKey, hsome, schedule, modify, Function.update_self, Function.update_idem]
          rw [heq]
          exact ⟨.refl _, .refl _⟩
        exact fun k => hagain.2.guard (hread k)
      · split
        · exact guard_write _ _ hother
        · split
          · exact guard_write _ _ hother
          · exact guard_write _ _ hother

theorem guard_waitAgain (attempt : Attempt Intent) (jitterMs : ℤ) (nextRetryAtMs : Option ℤ)
    (lastError : Option String) (intent : Option Intent) (h : ∀ k, k ≠ key → s.Guard deps pending k) :
    ∀ k, (s.waitAgain deps key attempt jitterMs nextRetryAtMs lastError intent).Guard deps pending k := by
  unfold waitAgain
  simp only
  split
  · exact guard_write _ _ h
  · exact guard_write _ _ h

theorem guard_afterRecover (attempt : Attempt Intent) (outcome : Outcome Intent) (jitterMs : ℤ)
    (h : ∀ k, k ≠ key → s.Guard deps pending k)
    (hstale : (s.slots key).cancellationVersion ≠ attempt.cancellationVersion → s.Unneeded deps pending key) :
    ∀ k, (s.afterRecover deps key attempt outcome jitterMs).Guard deps pending k := by
  unfold afterRecover
  simp only
  split
  · next hversion => exact guard_clearTimer h (hstale hversion)
  · cases outcome with
    | success intent =>
        simp only [succeed]
        generalize s.prepareWakeWrite .. = succeeded
        split
        · exact guard_remove rfl h
        · exact guard_write _ _ h
    | superseded => exact guard_remove rfl h
    | terminal => exact guard_write _ _ h
    | exhausted => exact guard_write _ _ h
    | wait => exact guard_waitAgain _ _ _ _ _ h
    | thrown => exact guard_waitAgain _ _ _ _ _ h

omit [DecidableEq Key] in
theorem Guard.spawnAny (task : Task Key Intent) (h : s.Guard deps pending key) :
    (s.spawn task).Guard deps pending key :=
  Guard.spawn (h.mono fun t hmem hcovers => ⟨t, List.mem_cons_of_mem _ hmem, hcovers⟩)

omit [DecidableEq Key] in
theorem Guard.other {task : Task Key Intent} (h : s.Guard deps [task] key)
    (hother : ¬ task.Covers deps (s.slots key).cancellationVersion key) : s.Guard deps [] key :=
  h.mono fun t hmem hcovers => absurd (List.mem_singleton.mp hmem ▸ hcovers) hother

theorem guard_succeeding (h : ∀ k, k ≠ key → s.Guard deps pending k) (hkey : s.Unneeded deps pending key) :
    ∀ k, (((s.clearTimer key).start key .onSuccess).spawn (.succeeding key)).Guard deps pending k := fun k =>
  Guard.spawnAny _ ((lowers_start _).guard (guard_clearTimer h hkey k))

theorem guard_afterWrite (writer : Writer Key Intent) {intent : Intent}
    (h : ∀ k, s.Guard deps [.write key intent .scheduled writer] k)
    (hclears : ∀ k ∈ s.clears deps (.write key intent .scheduled writer), s.TimerUnneeded deps k) :
    ∀ k, (s.afterWrite deps key writer).Guard deps [] k := by
  have hother : ∀ k, k ≠ key → s.Guard deps [] k := fun k hk => (h k).other fun hcovers => hk hcovers.1.symm
  have hkey : (∀ attempt, writer ≠ .checking attempt) → s.Guard deps [] key := fun hno =>
    (h key).other fun hcovers => by
      simp [Task.Covers, WriteStage.unwritten, WriteStage.unscheduled] at hcovers
      obtain ⟨attempt, heq, _⟩ := hcovers
      exact hno attempt heq
  have hall : (∀ attempt, writer ≠ .checking attempt) → ∀ k, s.Guard deps [] k := fun hno k => by
    by_cases hk : k = key
    · exact hk ▸ hkey hno
    · exact hother k hk
  have hneeded : key ∈ s.clears deps (.write key intent .scheduled writer) → s.Unneeded deps [] key := fun hmem =>
    (hclears key hmem).unneeded []
  cases writer with
  | upsert => exact hall fun _ => by simp
  | delayed => exact hall fun _ => by simp
  | waiting => exact hall fun _ => by simp
  | cancel =>
      exact fun k => (lowers_settle _).guard (guard_clearTimer hother (hneeded (by simp [clears])) k)
  | cancelForSession cancelled rest =>
      exact guard_cancelEntries _ _ (guard_clearTimer hother (hneeded (by simp [clears])))
  | maxAttempts => exact guard_clearTimer hother (hneeded (by simp [clears]))
  | terminal => exact guard_clearTimer hother (hneeded (by simp [clears]))
  | exhausted => exact guard_clearTimer hother (hneeded (by simp [clears]))
  | success => exact guard_succeeding hother (hneeded (by simp [clears]))
  | checking attempt =>
      simp only [afterWrite]
      split
      · next hstale =>
        exact guard_clearTimer hother (hneeded (by simp [clears, Ne.symm hstale]))
      · next hfresh =>
        -- the recovery covers the key as the write did
        refine fun k => Guard.spawn ((lowers_start _).guard ((lowers_start _).guard ((h k).mono ?_)))
        intro t hmem hcovers
        rw [List.mem_singleton.mp hmem] at hcovers
        refine ⟨.recovering key attempt, by simp, hcovers.1, ?_⟩
        rw [← hcovers.1]
        exact (not_not.mp hfresh).symm

theorem guard_afterRemove (remover : Remover)
    (h : ∀ k, s.Guard deps [.remove key true remover] k)
    (hclears : ∀ k ∈ s.clears deps (.remove key true remover : Task Key Intent), s.TimerUnneeded deps k) :
    ∀ k, (s.afterRemove key remover).Guard deps [] k := by
  have hother : ∀ k, k ≠ key → s.Guard deps [] k := fun k hk => (h k).other fun hcovers => hk hcovers.1.symm
  have hneeded : s.Unneeded deps [] key := (hclears key (mem_clears_remove remover)).unneeded []
  cases remover with
  | clear => exact fun k => (lowers_settle _).guard (guard_clearTimer hother hneeded k)
  | superseded => exact guard_clearTimer hother hneeded
  | success => exact guard_succeeding hother hneeded

theorem guard_stepPrune {prune : PruneStage Key} {task : Task Key Intent}
    (h : ∀ k, s.Guard deps [task] k) : ∀ k, (s.stepPrune deps prune).1.Guard deps [task] k := fun k =>
  (lowers_stepPrune prune).guard (h k)

theorem stepPrune_done {prune : PruneStage Key} {keys : List Key} {s' : State Key Intent}
    (h : s.stepPrune deps prune = (s', .inr keys)) :
    s' = s ∧ (prune = .pruned keys ∨ prune = .removing [] keys) := by
  unfold stepPrune at h
  split at h <;> simp_all

theorem guard_unwritten {intent : Intent} {stage stage' : WriteStage Key} {writer : Writer Key Intent}
    (h : s.Guard deps [.write key intent stage writer] k)
    (hstage : stage'.unwritten deps) : s.Guard deps [.write key intent stage' writer] k :=
  h.mono fun t hmem hcovers => by
    rw [List.mem_singleton.mp hmem] at hcovers
    exact ⟨_, List.mem_singleton.mpr rfl, hcovers.1, Or.inl hstage⟩

theorem guard_resume (outcome : Outcome Intent) (jitterMs : ℤ) (task : Task Key Intent)
    (hopen : s.disposed = false) (h : ∀ k, s.Guard deps [task] k)
    (hclears : ∀ k ∈ s.clears deps task, s.TimerUnneeded deps k) :
    ∀ k, (s.resume deps outcome jitterMs task).Guard deps [] k := by
  cases task with
  | write key intent stage writer =>
      have hother : ∀ k, k ≠ key → s.Guard deps [] k := fun k hk => (h k).other fun hcovers => hk hcovers.1.symm
      cases stage with
      | pruning prune =>
          simp only [resume]
          split
          · next s' prune' heq =>
            have hprune : ∀ k, (s.stepPrune deps prune).1.Guard deps
                [.write key intent (.pruning prune) writer] k := guard_stepPrune h
            rw [heq] at hprune
            exact fun k => Guard.spawn (guard_unwritten (hprune k) rfl)
          · next s' keys heq =>
            obtain ⟨rfl, hprune⟩ := stepPrune_done heq
            -- the write itself covers its key while the timers of the pruned keys go
            have hforget : ∀ k, (s'.forget keys).Guard deps [.write key intent (.pruning prune) writer] k := by
              refine guard_forget (fun k _ => h k) fun k hk => ?_
              by_cases hsame : k = key
              · exact fun _ => ⟨_, Or.inl (List.mem_singleton.mpr rfl), hsame.symm, Or.inl rfl⟩
              · refine (hclears k ?_).unneeded _
                rcases hprune with rfl | rfl <;> simpa [clears, hk] using hsame
            refine fun k => Guard.spawn ?_
            revert k
            refine guard_modify (fun k hk => ((hforget k).other fun hcovers => hk hcovers.1.symm).mono
              fun t hmem => absurd hmem List.not_mem_nil) fun hlive => Or.inr ?_
            refine ⟨_, Or.inl (List.mem_singleton.mpr rfl), rfl, ?_⟩
            cases hstore : deps.hasStore with
            | true => exact Or.inl hstore
            | false =>
                refine Or.inr (Or.inl ⟨rfl, ?_⟩)
                simpa [Live, held, hstore, modify_slots] using hlive
      | storing =>
          simp only [resume]
          split
          · next hstore =>
            refine fun k => Guard.spawn ?_
            revert k
            refine guard_modify (fun k hk => (hother k hk).mono fun t hmem => absurd hmem List.not_mem_nil)
              fun hlive => Or.inr ⟨_, Or.inl (List.mem_singleton.mpr rfl), rfl, Or.inr (Or.inl ⟨rfl, ?_⟩)⟩
            simpa [Live, held, hstore, modify_slots] using hlive
          · next hstore =>
            refine fun k => Guard.spawn ((h k).mono fun t hmem hcovers => ?_)
            rw [List.mem_singleton.mp hmem] at hcovers
            refine ⟨_, List.mem_singleton.mpr rfl, hcovers.1, ?_⟩
            rcases hcovers.2 with hunwritten | harm | hchecking
            · exact absurd hunwritten hstore
            · exact Or.inr (Or.inl ⟨rfl, harm.2⟩)
            · exact Or.inr (Or.inr hchecking)
      | stored =>
          refine fun k => Guard.spawn ?_
          revert k
          refine guard_modify (fun k hk => (hother k hk).mono fun t hmem => absurd hmem List.not_mem_nil) fun hlive => ?_
          simp only [Live, held, modify_slots, if_true] at hlive
          simp only [modify_slots, if_true, hopen, Bool.not_false, Bool.true_and, modify_tasks]
          by_cases harm : deps.armable intent = true
          · exact Or.inl harm
          · refine Or.inr ?_
            by_cases hfresh : ∃ attempt, writer = .checking attempt ∧
                attempt.cancellationVersion = (s.slots key).cancellationVersion
            · exact ⟨_, Or.inl (List.mem_singleton.mpr rfl), rfl, Or.inr (Or.inr hfresh)⟩
            · have hmem : key ∈ s.clears deps (.write key intent .stored writer) := by
                cases writer <;> simp_all [clears]
              obtain ⟨t, ht, hcovers⟩ := hclears key hmem hlive
              exact ⟨t, Or.inr ht, hcovers⟩
      | scheduled => exact guard_afterWrite writer h hclears
  | remove key removed remover =>
      cases removed with
      | true => exact guard_afterRemove remover h hclears
      | false =>
          have hother : ∀ k, k ≠ key → s.Guard deps [] k := fun k hk => (h k).other fun hcovers => hk hcovers.1.symm
          have hremoved : ∀ k,
              (s.modify key fun slot => { slot with stored := none }).Guard deps [] k := by
            refine guard_modify hother fun hlive => ?_
            cases hstore : deps.hasStore with
            | true => simp [Live, held, hstore, modify_slots] at hlive
            | false =>
                have hsame : s.Live deps key := by simpa [Live, held, hstore, modify_slots] using hlive
                simpa only [modify_slots, if_true, modify_tasks] using
                  (h key).other (fun hcovers => by simp [Task.Covers, hstore] at hcovers) hsame
          cases remover with
          | clear => exact fun k => Guard.spawnAny _ (lowers_drop.guard (hremoved k))
          | success => exact fun k => Guard.spawnAny _ (hremoved k)
          | superseded => exact fun k => Guard.spawnAny _ (hremoved k)
  | prune prune =>
      have hall : ∀ k, s.Guard deps [] k := fun k => (h k).other fun hcovers => hcovers
      simp only [resume]
      split
      · next s' prune' heq =>
        have hprune : s.Lowers deps (s.stepPrune deps prune).1 := lowers_stepPrune prune
        rw [heq] at hprune
        exact fun k => Guard.spawnAny _ (hprune.guard (hall k))
      · next s' keys heq =>
        obtain ⟨rfl, hprune⟩ := stepPrune_done heq
        refine guard_forget (fun k _ => hall k) fun k hk => (hclears k ?_).unneeded _
        rcases hprune with rfl | rfl <;> simpa [clears] using hk
  | recovering key attempt =>
      refine guard_afterRecover attempt outcome jitterMs (fun k hk => (h k).other fun hcovers => hk hcovers.1.symm)
        fun hstale => (hclears key ?_).unneeded _
      simp [clears, Ne.symm hstale]
  | succeeding key => exact fun k => (h k).other fun hcovers => hcovers

theorem guard_step {e : Event Key Intent} (hopen : s.disposed = false) (he : e ≠ .dispose)
    (h : ∀ k, s.Guard deps [] k) (hkeeps : s.KeepsTimers deps e) : ∀ k, (s.step deps e).Guard deps [] k := by
  cases e with
  | clock nowMs => exact h
  | upsert key intent => exact guard_write _ _ fun k _ => lowers_standing.guard (h k)
  | upsertMerged key intent merge =>
      have hread : ∀ k, (s.readByKey deps key).Guard deps [] k := guard_readByKey hopen fun k _ => h k
      exact guard_write _ _ fun k _ => lowers_standing.guard (hread k)
  | read key => exact guard_readByKey hopen fun k _ => h k
  | cancel key =>
      simp only [step, cancelByKey]
      split
      · exact h
      · exact guard_write _ _ (guard_bump fun k _ => guard_readByKey hopen (fun k _ => h k) k)
  | clear key =>
      have hread : ∀ k, (s.readByKey deps key).Guard deps [] k := guard_readByKey hopen fun k _ => h k
      simp only [step, clearByKey]
      split
      · exact h
      · next intent hsome =>
        refine fun k => Guard.spawnAny _ ?_
        have hother : ∀ k, k ≠ key →
            (((s.readByKey deps key).bumpCancellationVersion key).drop key).Guard deps [] k := fun k hk =>
          lowers_drop.guard (guard_bump (fun k _ => hread k) k hk)
        revert k
        refine guard_modify hother fun hlive => Or.inl ?_
        -- what the store still has is what was read, and a timer is armed for it
        simp only [Live, held, readByKey, hsome, schedule, bumpCancellationVersion, drop, modify_slots, if_true] at hlive
        simp only [readByKey, hsome, schedule, bumpCancellationVersion, drop, modify_slots, if_true,
          modify_disposed, hopen, Bool.not_false, Bool.true_and]
        rw [current] at hsome
        split at hlive
        · cases hstored : (s.slots key).stored with
          | none => simp [hstored] at hlive
          | some stored =>
              rw [hstored, Option.some_or, Option.some.injEq] at hsome
              simpa [hstored, hsome] using hlive
        · simp at hlive
  | cancelForSession keys => exact guard_cancelEntries _ _ h
  | pruneTerminalRecords => exact fun k => Guard.spawnAny _ (h k)
  | wake key gate =>
      simp only [step, wakeByKey]
      split
      · exact h
      · exact guard_performWake hopen _ _ fun k _ => h k
  | timer key gate =>
      have hother : ∀ k, k ≠ key → (s.clearTimer key).Guard deps [] k := fun k hk hlive => by
        have hslot := modify_slots s key k fun slot => { slot with timer := false }
        rw [if_neg hk] at hslot
        rw [clearTimer, Live, held, hslot] at hlive
        rw [clearTimer, hslot]
        exact h k hlive
      simp only [step]
      split
      · simp only [wakeByKey]
        split
        · next hwaking => exact guard_clearTimer (fun k _ => h k) ((hkeeps hwaking).unneeded [])
        · exact guard_performWake (s := s.clearTimer key) hopen _ _ hother
      · exact h
  | dispose => exact absurd rfl he
  | resume index outcome jitterMs =>
      simp only [step]
      split
      · exact h
      · next task htask =>
        refine guard_resume outcome jitterMs task hopen (fun k hlive => ?_) (hkeeps task htask)
        refine (h k hlive).imp_right fun ⟨t, hmem, hcovers⟩ => ⟨t, ?_, hcovers⟩
        obtain ⟨i, hi⟩ := List.mem_iff_getElem?.mp (hmem.resolve_left List.not_mem_nil)
        by_cases hindex : i = index
        · subst hindex
          rw [hi, Option.some.injEq] at htask
          exact Or.inl (List.mem_singleton.mpr htask)
        · exact Or.inr (List.mem_eraseIdx_iff_getElem?.mpr ⟨i, hindex, hi⟩)

end Guarded

end State

/-- The scheduler after `hydrate`, with these records in its store. -/
def State.hydrated (deps : Deps Key Intent) (records : Key → Option Intent) (keys : List Key) (now : ℤ) :
    State Key Intent where
  keys := keys
  slots := fun key => {
    memory := records key
    stored := if deps.hasStore then records key else none
    timer := (records key).any deps.armable }
  now := now

open State in
/-- Along a run in which no timer that is still needed is cleared or fires in vain, no
record is stranded; and after `dispose` there is no timer at all. -/
theorem never_stranded [DecidableEq Key] (deps : Deps Key Intent) (records : Key → Option Intent)
    (keys : List Key) (now : ℤ) (events : List (Event Key Intent))
    (h : Runs.Along (State.step deps) (State.KeepsTimers deps) (.hydrated deps records keys now) events) :
    (Runs.run (State.step deps) (.hydrated deps records keys now) events).NeverStranded deps := by
  let Inv (s : State Key Intent) : Prop :=
    (s.disposed = false → ∀ key, s.Guard deps [] key) ∧ (s.disposed → ∀ key, (s.slots key).timer = false)
  have hstart : Inv (.hydrated deps records keys now) := by
    refine ⟨fun _ key hlive => Or.inl ?_, fun hdisposed => by simp [State.hydrated] at hdisposed⟩
    simp only [State.hydrated, Live, held] at hlive ⊢
    split at hlive <;> simp_all
  have hrun : Inv (Runs.run (State.step deps) (.hydrated deps records keys now) events) := by
    refine Runs.run_invariant_along (I := Inv) (p := State.KeepsTimers deps) (fun s e hs he => ?_) hstart h
    by_cases hdispose : e = .dispose
    · subst hdispose
      exact ⟨fun hopen => by simp [step, dispose] at hopen, fun _ _ => rfl⟩
    · have harms : s.ArmsNone (s.step deps _) := armsNone_step hdispose
      refine ⟨fun hopen => ?_, fun hdisposed key => ?_⟩
      · rw [harms.1] at hopen
        exact guard_step hopen hdispose (hs.1 hopen) he
      · rw [harms.1] at hdisposed
        have hoff := hs.2 hdisposed key
        by_contra htimer
        simp [harms.2 hdisposed key (by simpa using htimer)] at hoff
  refine ⟨fun hopen key hlive => ?_, hrun.2⟩
  refine (hrun.1 hopen key hlive).imp_right fun ⟨task, hmem, hcovers⟩ => ?_
  exact ⟨task, hmem.resolve_left List.not_mem_nil, hcovers.isFor⟩

theorem State.keepsTimers_of_clears [DecidableEq Key] {deps : Deps Key Intent} {s : State Key Intent} {index : ℕ}
    {outcome : Outcome Intent} {jitterMs : ℤ}
    (h : s.tasks[index]?.all fun task => (s.clears deps task).isEmpty) :
    s.KeepsTimers deps (.resume index outcome jitterMs) := by
  intro task htask key hkey
  rw [htask] at h
  rw [List.isEmpty_iff.mp h] at hkey
  cases hkey

def memoryDeps : Deps String (Status × Option ℤ) where
  hasStore := false
  getStatus := Prod.fst
  getNextRetryAtMs := Prod.snd
  getAttemptCount := fun _ => 0
  getMaxAttempts := fun _ => 0
  markChecking := fun intent _ => (.checking, intent.2)
  markWaiting := fun _ retryAtMs _ => (.waiting, some retryAtMs)
  markCancelled := fun _ => (.cancelled, none)
  markExhausted := fun _ _ => (.exhausted, none)

/-- The task at this place goes on through its four awaits, to the end of a write. -/
def writeThrough (index : ℕ) : List (Event String (Status × Option ℤ)) :=
  List.replicate 4 (.resume index .superseded 0)

theorem never_stranded_upsert :
    (Runs.run (State.step memoryDeps) (.hydrated memoryDeps (fun _ => none) [] 0)
      (.upsert "session-1" (.waiting, some 100) :: writeThrough 0)).NeverStranded memoryDeps := by
  refine never_stranded memoryDeps _ _ _ _ ⟨trivial, ?_, ?_, ?_, ?_, trivial⟩
  · exact State.keepsTimers_of_clears (by decide)
  · exact State.keepsTimers_of_clears (by decide)
  · exact State.keepsTimers_of_clears (by decide)
  · exact State.keepsTimers_of_clears (by decide)

/-- A recovery is cancelled and armed again before it ends; its end clears the new timer. -/
theorem stranded_after_stale_wake :
    ∃ (deps : Deps String (Status × Option ℤ)) (events : List (Event String (Status × Option ℤ))),
      ¬ (Runs.run (State.step deps) (.hydrated deps (fun _ => none) [] 0) events).NeverStranded deps := by
  refine ⟨memoryDeps,
    .upsert "session-1" (.waiting, some 100) :: writeThrough 0 ++
      .wake "session-1" .opened :: writeThrough 0 ++
      .cancel "session-1" :: writeThrough 1 ++
      .upsert "session-1" (.waiting, some 200) :: writeThrough 1 ++
      [.resume 0 (.wait none none none) 0], fun h => ?_⟩
  have hend := h.1 (by decide) "session-1" (by unfold State.Live; decide)
  rcases hend with htimer | ⟨task, hmem, -⟩
  · exact absurd htimer (by decide)
  · exact absurd (List.length_pos_of_mem hmem) (by decide)

end DevPilot.Recovery
