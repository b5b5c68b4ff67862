import DevPilot.Recovery.Timers

/-!
What a cancellation that has returned promises until the next upsert, and when
the calls that overlap it leave that promise alone.
-/

namespace DevPilot.Recovery

variable {Key Intent : Type}

/-- Between the return of a cancellation and the next upsert of the key the record is
cancelled (or absent after a clear, or either one after a later removal), and no call of
`recover`, `onRetry` or `onSuccess` has started. -/
def State.CancellationWins (deps : Deps Key Intent) (s : State Key Intent) : Prop :=
  ∀ key standing calls, (s.slots key).standing = some (standing, calls) →
    (s.slots key).calls.length = calls ∧
      match standing with
      | .cancelled => ∃ intent, s.current key = some intent ∧ deps.getStatus intent = .cancelled
      | .cleared => s.current key = none
      | .dropped => ∀ intent, s.current key = some intent → deps.getStatus intent = .cancelled

/-- What a slot has while a cancellation stands. -/
structure Slot.Quiet (deps : Deps Key Intent) (standing : Standing) (slot : Slot Intent) : Prop where
  stored : ∀ intent ∈ slot.stored, deps.getStatus intent = .cancelled
  memory : ∀ intent ∈ slot.memory, deps.getStatus intent = .cancelled
  cancelled : standing = .cancelled → slot.stored.or slot.memory ≠ none
  cleared : standing = .cleared → slot.stored = none ∧ slot.memory = none

/-- The task can go on without touching what a cancellation of the key promises. -/
def Task.Harmless (deps : Deps Key Intent) (standing : Standing) (version : ℕ) (key : Key) :
    Task Key Intent → Prop
  | .write k intent stage writer =>
    (k = key →
      (stage.unwritten deps = false ∨ standing ≠ .cleared ∧ deps.getStatus intent = .cancelled) ∧
      (match writer with
        | .success => False
        | .checking attempt => attempt.cancellationVersion < version
        | _ => True)) ∧
    match writer with
    | .cancelForSession _ rest => standing = .cleared → key ∉ rest.map Prod.fst
    | _ => True
  | .remove k removed remover => k = key →
    match remover with
    | .clear => True
    | .success => False
    | .superseded => standing = .cancelled → removed = true
  | .prune _ => True
  | .recovering k attempt => k = key → attempt.cancellationVersion < version
  | .succeeding _ => True

/-- Nothing else that is under way for the key can undo the cancellation. -/
structure State.Settled (deps : Deps Key Intent) (s : State Key Intent) (standing : Standing) (key : Key) :
    Prop where
  slot : (s.slots key).Quiet deps standing
  tasks : ∀ task ∈ s.tasks, task.Harmless deps standing (s.slots key).cancellationVersion key

def Task.returns : Task Key Intent → List (Standing × Key)
  | .write key _ .scheduled .cancel => [(.cancelled, key)]
  | .write _ _ .scheduled (.cancelForSession cancelled []) => cancelled.map fun key => (.cancelled, key)
  | .remove key true .clear => [(.cleared, key)]
  | _ => []

/-- A cancellation returns only where nothing under way can undo it. -/
def State.ReturnsSettled (deps : Deps Key Intent) (s : State Key Intent) : Event Key Intent → Prop
  | .resume index _ _ => ∀ task, s.tasks[index]? = some task →
      ∀ p ∈ task.returns, { s with tasks := s.tasks.eraseIdx index }.Settled deps p.1 p.2
  | _ => True

theorem Task.Harmless.mono {deps : Deps Key Intent} {standing standing' : Standing} {version version' : ℕ}
    {key : Key} {task : Task Key Intent} (h : task.Harmless deps standing version key)
    (hversion : version ≤ version')
    (hstanding : standing' = standing ∨ standing = .cancelled ∧ standing' = .dropped) :
    task.Harmless deps standing' version' key := by
  have hcleared : standing' = .cleared → standing = .cleared := by
    rintro rfl
    rcases hstanding with rfl | ⟨-, hdropped⟩
    · rfl
    · cases hdropped
  have hcancelled : standing' = .cancelled → standing = .cancelled := by
    rintro rfl
    rcases hstanding with rfl | ⟨hcancelled, -⟩
    · rfl
    · exact hcancelled
  cases task with
  | write k intent stage writer =>
      refine ⟨fun hk => ⟨?_, ?_⟩, ?_⟩
      · exact (h.1 hk).1.imp_right fun ⟨hopen, hstatus⟩ => ⟨mt hcleared hopen, hstatus⟩
      · have hwriter := (h.1 hk).2
        cases writer with
        | checking attempt => exact lt_of_lt_of_le hwriter hversion
        | _ => exact hwriter
      · have hrest := h.2
        cases writer with
        | cancelForSession cancelled rest => exact fun hnow => hrest (hcleared hnow)
        | _ => exact hrest
  | remove k removed remover =>
      intro hk
      have hremover := h hk
      cases remover with
      | superseded => exact fun hnow => hremover (hcancelled hnow)
      | _ => exact hremover
  | prune => trivial
  | recovering k attempt => exact fun hk => lt_of_lt_of_le (h hk) hversion
  | succeeding => trivial

theorem Task.Harmless.stage {deps : Deps Key Intent} {standing : Standing} {version : ℕ} {key k : Key}
    {intent : Intent} {stage stage' : WriteStage Key} {writer : Writer Key Intent}
    (h : (Task.write key intent stage writer).Harmless deps standing version k)
    (hstage : stage.unwritten deps = false → stage'.unwritten deps = false) :
    (Task.write key intent stage' writer).Harmless deps standing version k :=
  ⟨fun hk => ⟨(h.1 hk).1.imp_left hstage, (h.1 hk).2⟩, h.2⟩

structure Slot.Calm (deps : Deps Key Intent) (slot slot' : Slot Intent) : Prop where
  unset : slot.standing = none → slot'.standing = none
  version : slot.cancellationVersion ≤ slot'.cancellationVersion
  calls : slot.standing ≠ none → slot'.calls = slot.calls
  kept : ∀ standing calls, slot.standing = some (standing, calls) → slot.Quiet deps standing →
    ∀ standing' calls', slot'.standing = some (standing', calls') →
      calls' = calls ∧ slot'.Quiet deps standing' ∧
        (standing' = standing ∨ standing = .cancelled ∧ standing' = .dropped)

namespace State

/-- The promise of a cancellation that stands, with what keeps it; `pending` goes on. -/
def Quiet (deps : Deps Key Intent) (s : State Key Intent) (pending : List (Task Key Intent)) (key : Key) :
    Prop :=
  ∀ standing calls, (s.slots key).standing = some (standing, calls) →
    (s.slots key).calls.length = calls ∧ (s.slots key).Quiet deps standing ∧
      ∀ task, task ∈ pending ∨ task ∈ s.tasks →
        task.Harmless deps standing (s.slots key).cancellationVersion key

section

variable [DecidableEq Key] {deps : Deps Key Intent} {s s' : State Key Intent} {key k : Key}
  {pending : List (Task Key Intent)}

omit [DecidableEq Key] in
theorem Quiet.drop (h : s.Quiet deps pending k) : s.Quiet deps [] k := fun standing calls hs =>
  let ⟨hcalls, hslot, htasks⟩ := h standing calls hs
  ⟨hcalls, hslot, fun task hmem => htasks task (Or.inr (hmem.resolve_left List.not_mem_nil))⟩

omit [DecidableEq Key] in
theorem Quiet.spawn {task : Task Key Intent} (h : s.Quiet deps [] k)
    (htask : ∀ standing calls, (s.slots k).standing = some (standing, calls) →
      task.Harmless deps standing (s.slots k).cancellationVersion k) : (s.spawn task).Quiet deps [] k := by
  intro standing calls hs
  obtain ⟨hcalls, hslot, htasks⟩ := h standing calls hs
  refine ⟨hcalls, hslot, fun t hmem => ?_⟩
  rcases List.mem_append.mp (hmem.resolve_left List.not_mem_nil) with hold | hnew
  · exact htasks t (Or.inr hold)
  · rw [List.mem_singleton.mp hnew]
    exact htask standing calls hs

theorem quiet_modify_other {f : Slot Intent → Slot Intent} (hk : k ≠ key) (h : s.Quiet deps pending k) :
    (s.modify key f).Quiet deps pending k := by
  intro standing calls hs
  have hslot := modify_slots s key k f
  rw [if_neg hk] at hslot
  rw [hslot] at hs ⊢
  exact h standing calls hs

theorem quiet_modify {f : Slot Intent → Slot Intent} (h : s.Quiet deps pending k)
    (hf : (s.slots key).Calm deps (f (s.slots key))) : (s.modify key f).Quiet deps pending k := by
  by_cases hk : k = key
  · subst hk
    intro standing' calls' hs
    have hslot := modify_slots s k k f
    rw [if_pos rfl] at hslot
    rw [hslot] at hs ⊢
    cases hbefore : (s.slots k).standing with
    | none => rw [hf.unset hbefore] at hs; cases hs
    | some before =>
        obtain ⟨standing, calls⟩ := before
        obtain ⟨hcalls, hquiet, htasks⟩ := h standing calls hbefore
        obtain ⟨rfl, hafter, hkind⟩ := hf.kept standing calls hbefore hquiet standing' calls' hs
        refine ⟨by rw [hf.calls (by simp [hbefore]), hcalls], hafter, fun task hmem => ?_⟩
        exact (htasks task hmem).mono hf.version hkind
  · exact quiet_modify_other hk h

theorem calm_same {slot slot' : Slot Intent} (hstored : slot'.stored = slot.stored)
    (hmemory : slot'.memory = slot.memory) (hstanding : slot'.standing = slot.standing)
    (hcalls : slot'.calls = slot.calls) (hversion : slot.cancellationVersion ≤ slot'.cancellationVersion) :
    slot.Calm deps slot' where
  unset hs := hstanding.trans hs
  version := hversion
  calls _ := hcalls
  kept standing calls hs hquiet standing' calls' hs' := by
    rw [hstanding, hs, Option.some.injEq, Prod.mk.injEq] at hs'
    obtain ⟨rfl, rfl⟩ := hs'
    refine ⟨rfl, ⟨?_, ?_, ?_, ?_⟩, Or.inl rfl⟩
    · exact hstored ▸ hquiet.stored
    · exact hmemory ▸ hquiet.memory
    · exact hstored ▸ hmemory ▸ hquiet.cancelled
    · exact hstored ▸ hmemory ▸ hquiet.cleared

theorem quiet_clearTimer (h : s.Quiet deps pending k) : (s.clearTimer key).Quiet deps pending k :=
  quiet_modify h (calm_same rfl rfl rfl rfl le_rfl)

theorem quiet_schedule (intent : Intent) (h : s.Quiet deps pending k) :
    (s.schedule deps key intent).Quiet deps pending k :=
  quiet_modify h (calm_same rfl rfl rfl rfl le_rfl)

theorem quiet_bump (h : s.Quiet deps pending k) : (s.bumpCancellationVersion key).Quiet deps pending k :=
  quiet_modify h (calm_same rfl rfl rfl rfl (Nat.le_succ _))

theorem calm_drop {slot slot' : Slot Intent}
    (hstored : slot'.stored = slot.stored ∨ slot'.stored = none)
    (hmemory : slot'.memory = slot.memory ∨ slot'.memory = none)
    (hstanding : slot'.standing = slot.standing.map fun p => if p.1 = .cancelled then (.dropped, p.2) else p)
    (hcalls : slot'.calls = slot.calls) (hversion : slot'.cancellationVersion = slot.cancellationVersion) :
    slot.Calm deps slot' where
  unset hs := by rw [hstanding, hs]; rfl
  version := hversion.ge
  calls _ := hcalls
  kept standing calls hs hquiet standing' calls' hs' := by
    rw [hstanding, hs, Option.map_some, Option.some.injEq] at hs'
    have hsub : ∀ {o o' : Option Intent}, o' = o ∨ o' = none → (∀ intent ∈ o, deps.getStatus intent = .cancelled) →
        ∀ intent ∈ o', deps.getStatus intent = .cancelled := by
      rintro o o' (rfl | rfl) ho
      · exact ho
      · rintro intent ⟨⟩
    have hcleared : standing = .cleared → slot'.stored = none ∧ slot'.memory = none := fun hc =>
      ⟨hstored.elim (fun heq => heq.trans (hquiet.cleared hc).1) id,
        hmemory.elim (fun heq => heq.trans (hquiet.cleared hc).2) id⟩
    by_cases hc : standing = .cancelled
    · rw [if_pos hc, Prod.mk.injEq] at hs'
      obtain ⟨rfl, rfl⟩ := hs'
      exact ⟨rfl, ⟨hsub hstored hquiet.stored, hsub hmemory hquiet.memory, nofun, nofun⟩, Or.inr ⟨hc, rfl⟩⟩
    · rw [if_neg hc, Prod.mk.injEq] at hs'
      obtain ⟨rfl, rfl⟩ := hs'
      exact ⟨rfl, ⟨hsub hstored hquiet.stored, hsub hmemory hquiet.memory, fun h => absurd h hc, hcleared⟩,
        Or.inl rfl⟩

omit [DecidableEq Key] in
theorem cancelled_of_current {standing : Standing} (h : (s.slots k).Quiet deps standing) :
    ∀ intent, s.current k = some intent → deps.getStatus intent = .cancelled := by
  intro intent hcurrent
  rw [State.current, Option.or_eq_some_iff] at hcurrent
  rcases hcurrent with hstored | ⟨-, hmemory⟩
  · exact h.stored intent hstored
  · exact h.memory intent hmemory

omit [DecidableEq Key] in
theorem current_none_of_cleared (h : (s.slots k).Quiet deps .cleared) : s.current k = none := by
  rw [State.current, (h.cleared rfl).1, (h.cleared rfl).2, Option.or_none]

theorem quiet_readByKey (h : s.Quiet deps pending k) : (s.readByKey deps key).Quiet deps pending k := by
  unfold readByKey
  split
  · exact h
  · next intent hcurrent =>
    refine quiet_schedule intent (quiet_modify h ⟨id, le_rfl, fun _ => rfl, ?_⟩)
    intro standing calls hs hquiet standing' calls' hs'
    rw [hs, Option.some.injEq, Prod.mk.injEq] at hs'
    obtain ⟨rfl, rfl⟩ := hs'
    refine ⟨rfl, ⟨hquiet.stored, ?_, fun _ => by simp, fun hcleared => ?_⟩, Or.inl rfl⟩
    · rintro _ ⟨⟩
      exact cancelled_of_current hquiet intent hcurrent
    · subst hcleared
      rw [current_none_of_cleared hquiet] at hcurrent
      cases hcurrent

theorem modify_modify (f g : Slot Intent → Slot Intent) :
    (s.modify key f).modify key g = s.modify key (g ∘ f) := by
  simp [modify, Function.update_idem]

theorem quiet_removeStored (h : s.Quiet deps pending k) : (s.removeStored key).Quiet deps pending k := by
  rw [removeStored, State.drop, modify_modify]
  exact quiet_modify h (calm_drop (Or.inr rfl) (Or.inl rfl) rfl rfl rfl)

theorem quiet_forget (keys : List Key) (h : s.Quiet deps pending k) : (s.forget keys).Quiet deps pending k := by
  unfold forget
  induction keys generalizing s with
  | nil => exact h
  | cons key keys ih =>
      refine ih ?_
      simp only [State.drop, modify_modify]
      exact quiet_modify h (calm_drop (Or.inl rfl) (Or.inr rfl) rfl rfl rfl)

theorem quiet_stepPrune (prune : PruneStage Key) (h : s.Quiet deps pending k) :
    (s.stepPrune deps prune).1.Quiet deps pending k := by
  unfold stepPrune
  split
  · next cutoffMs =>
    generalize (s.keys.filter fun key => (s.slots key).stored.any (deps.shouldPrune cutoffMs)) = keys
    induction keys generalizing s with
    | nil => exact h
    | cons key keys ih => exact ih (quiet_removeStored h)
  · exact h
  · exact quiet_removeStored h
  · exact h

omit [DecidableEq Key] in
theorem quiet_write {intent : Intent} {writer : Writer Key Intent} (h : s.Quiet deps [] k)
    (htask : ∀ standing calls, (s.slots k).standing = some (standing, calls) → ∀ stage,
      (Task.write key intent stage writer).Harmless deps standing (s.slots k).cancellationVersion k) :
    (s.write deps key intent writer).Quiet deps [] k :=
  Quiet.spawn (s := { s with keys := s.keys ++ [key] }) h fun standing calls hs => htask standing calls hs _

omit [DecidableEq Key] in
theorem quiet_write_open {intent : Intent} {writer : Writer Key Intent} (h : s.Quiet deps [] k)
    (hopen : key = k → (s.slots k).standing = none) (hwriter : ∀ cancelled rest, writer ≠ .cancelForSession cancelled rest) :
    (s.write deps key intent writer).Quiet deps [] k := by
  refine quiet_write h fun standing calls hs stage => ⟨fun hk => ?_, ?_⟩
  · rw [hopen hk] at hs
    cases hs
  · cases writer with
    | cancelForSession cancelled rest => exact absurd rfl (hwriter cancelled rest)
    | _ => trivial

theorem quiet_remove_open {remover : Remover} (h : s.Quiet deps [] k)
    (hopen : key = k → (s.slots k).standing = none) : (s.remove key remover).Quiet deps [] k := by
  have hmemory : (s.modify key fun slot => { slot with memory := none }).Quiet deps [] k := by
    by_cases hk : key = k
    · subst hk
      exact quiet_modify h ⟨id, le_rfl, fun _ => rfl, fun standing calls hs => by rw [hopen rfl] at hs; cases hs⟩
    · exact quiet_modify_other (Ne.symm hk) h
  refine hmemory.spawn fun standing calls hs hk => ?_
  subst hk
  rw [modify_slots, if_pos rfl, hopen rfl] at hs
  cases hs

theorem quiet_settle {standing : Standing} (h : s.Quiet deps [] k)
    (hsettled : k = key → s.Settled deps standing key) : (s.settle key standing).Quiet deps [] k := by
  by_cases hk : k = key
  · subst hk
    intro standing' calls hs
    have hslot := modify_slots s k k fun slot => { slot with standing := some (standing, slot.calls.length) }
    rw [if_pos rfl] at hslot
    rw [settle, hslot, Option.some.injEq, Prod.mk.injEq] at hs
    obtain ⟨rfl, rfl⟩ := hs
    obtain ⟨hquiet, htasks⟩ := hsettled rfl
    rw [settle, hslot]
    refine ⟨rfl, ⟨hquiet.stored, hquiet.memory, hquiet.cancelled, hquiet.cleared⟩, fun task hmem => ?_⟩
    exact htasks task (hmem.resolve_left List.not_mem_nil)
  · exact quiet_modify_other hk h

theorem Settled.modify {standing : Standing} {f : Slot Intent → Slot Intent} (h : s.Settled deps standing k)
    (hf : ∀ slot, (f slot).stored = slot.stored ∧ (f slot).memory = slot.memory ∧
      slot.cancellationVersion ≤ (f slot).cancellationVersion) : (s.modify key f).Settled deps standing k := by
  by_cases hk : k = key
  · subst hk
    have hslot := modify_slots s k k f
    rw [if_pos rfl] at hslot
    obtain ⟨hstored, hmemory, hversion⟩ := hf (s.slots k)
    constructor
    · rw [hslot]
      exact ⟨hstored ▸ h.slot.stored, hmemory ▸ h.slot.memory, hstored ▸ hmemory ▸ h.slot.cancelled,
        hstored ▸ hmemory ▸ h.slot.cleared⟩
    · rw [hslot]
      exact fun task hmem => (h.tasks task hmem).mono hversion (Or.inl rfl)
  · have hslot := modify_slots s key k f
    rw [if_neg hk] at hslot
    exact ⟨hslot ▸ h.slot, fun task hmem => hslot ▸ h.tasks task hmem⟩

theorem quiet_settleAll (cancelled : List Key) (h : s.Quiet deps [] k)
    (hsettled : k ∈ cancelled → s.Settled deps .cancelled k) :
    (cancelled.foldl (fun s key => s.settle key .cancelled) s).Quiet deps [] k := by
  induction cancelled generalizing s with
  | nil => exact h
  | cons key cancelled ih =>
      refine ih (quiet_settle h fun hk => hk ▸ hsettled (by simp [hk])) fun hmem => ?_
      exact (hsettled (List.mem_cons_of_mem _ hmem)).modify fun slot => ⟨rfl, rfl, le_rfl⟩

theorem standing_bump : ((s.bumpCancellationVersion key).slots k).standing = (s.slots k).standing := by
  rw [bumpCancellationVersion, modify_slots]
  split
  · next hk => rw [hk]
  · rfl

theorem standing_clearTimer : ((s.clearTimer key).slots k).standing = (s.slots k).standing := by
  rw [clearTimer, modify_slots]
  split
  · next hk => rw [hk]
  · rfl

theorem standing_readByKey : ((s.readByKey deps key).slots k).standing = (s.slots k).standing := by
  unfold readByKey
  split
  · rfl
  · rw [schedule, modify_modify, modify_slots]
    split
    · next hk => rw [hk]; rfl
    · rfl

theorem quiet_cancelEntries (hmark : ∀ intent, deps.getStatus (deps.markCancelled intent) = .cancelled)
    (cancelled : List Key) (rest : List (Key × Intent)) (h : s.Quiet deps [] k)
    (hrest : ∀ calls, (s.slots k).standing = some (.cleared, calls) → k ∉ rest.map Prod.fst)
    (hsettled : rest = [] → k ∈ cancelled → s.Settled deps .cancelled k) :
    (s.cancelEntries deps cancelled rest).Quiet deps [] k := by
  cases rest with
  | nil => exact quiet_settleAll cancelled h (hsettled rfl)
  | cons entry rest =>
      refine quiet_write (quiet_bump h) fun standing calls hs stage => ?_
      rw [standing_bump] at hs
      refine ⟨fun hk => ⟨Or.inr ⟨fun hcleared => ?_, hmark _⟩, trivial⟩, fun hcleared hmem => ?_⟩
      · exact hrest calls (hcleared ▸ hs) (hk ▸ List.mem_cons_self)
      · exact hrest calls (hcleared ▸ hs) (List.mem_cons_of_mem _ hmem)

theorem quiet_cancelForSession (hmark : ∀ intent, deps.getStatus (deps.markCancelled intent) = .cancelled)
    (keys : List Key) (h : s.Quiet deps [] k) : (s.cancelForSession deps keys).Quiet deps [] k := by
  refine quiet_cancelEntries hmark _ _ h (fun calls hs hmem => ?_) fun _ hmem => absurd hmem List.not_mem_nil
  -- a cleared key has no entry
  have hnone := current_none_of_cleared (h .cleared calls hs).2.1
  obtain ⟨entry, hentry, rfl⟩ := List.mem_map.mp hmem
  obtain ⟨key, -, hkey⟩ := List.mem_filterMap.mp hentry
  obtain ⟨intent, hcurrent, rfl⟩ := Option.map_eq_some_iff.mp hkey
  rw [hnone] at hcurrent
  cases hcurrent

theorem quiet_upsert (intent : Intent) (h : s.Quiet deps [] k) : (s.upsert deps key intent).Quiet deps [] k := by
  refine quiet_write_open (quiet_modify h ⟨fun _ => rfl, le_rfl, fun _ => rfl, ?_⟩) ?_ nofun
  · intro standing calls hs hquiet standing' calls' hs'
    cases hs'
  · rintro rfl
    rw [modify_slots, if_pos rfl]

theorem quiet_cancelByKey (hmark : ∀ intent, deps.getStatus (deps.markCancelled intent) = .cancelled)
    (h : s.Quiet deps [] k) : (s.cancelByKey deps key).Quiet deps [] k := by
  unfold cancelByKey
  split
  · exact h
  · next intent hcurrent =>
    refine quiet_write (quiet_bump (quiet_readByKey h)) fun standing calls hs stage => ⟨?_, trivial⟩
    rw [standing_bump, standing_readByKey] at hs
    rintro rfl
    refine ⟨Or.inr ⟨fun hcleared => ?_, hmark intent⟩, trivial⟩
    rw [current_none_of_cleared (hcleared ▸ (h standing calls hs).2.1)] at hcurrent
    cases hcurrent

theorem quiet_clearByKey (h : s.Quiet deps [] k) : (s.clearByKey deps key).Quiet deps [] k := by
  unfold clearByKey
  split
  · exact h
  · have hread : (s.readByKey deps key).Quiet deps [] k := quiet_readByKey h
    have hbump : ((s.readByKey deps key).bumpCancellationVersion key).Quiet deps [] k := quiet_bump hread
    refine Quiet.spawn ?_ fun standing calls hs hk => trivial
    rw [State.drop, modify_modify]
    exact quiet_modify hbump (calm_drop (Or.inl rfl) (Or.inr rfl) rfl rfl rfl)

theorem quiet_performWake (byTimer : Bool) (gate : GateResult) (h : s.Quiet deps [] k) :
    (s.performWake deps key byTimer gate).Quiet deps [] k := by
  unfold performWake
  split
  · exact h
  · split
    · exact h
    · next intent hcurrent =>
      have hread : (s.readByKey deps key).Quiet deps [] k := quiet_readByKey h
      simp only
      split
      · exact hread
      · next hstatus =>
        -- a wake that goes on has read a live intent
        have hopen : key = k → ((s.readByKey deps key).slots k).standing = none := by
          rintro rfl
          rw [standing_readByKey]
          refine Option.eq_none_iff_forall_ne_some.mpr fun ⟨standing, calls⟩ hs => ?_
          exact hstatus (Or.inl (cancelled_of_current (h standing calls hs).2.1 intent hcurrent))
        split
        · exact quiet_schedule intent hread
        · split
          · exact quiet_write_open hread hopen nofun
          · split
            · exact quiet_write_open hread hopen nofun
            · exact quiet_write_open hread hopen nofun

theorem quiet_wakeByKey (byTimer : Bool) (gate : GateResult) (h : s.Quiet deps [] k) :
    (s.wakeByKey deps key byTimer gate).Quiet deps [] k := by
  unfold wakeByKey
  split
  · exact h
  · exact quiet_performWake byTimer gate h

theorem quiet_waitAgain (attempt : Attempt Intent) (jitterMs : ℤ) (nextRetryAtMs : Option ℤ)
    (lastError : Option String) (intent : Option Intent) (h : s.Quiet deps [] k)
    (hopen : key = k → (s.slots k).standing = none) :
    (s.waitAgain deps key attempt jitterMs nextRetryAtMs lastError intent).Quiet deps [] k := by
  unfold waitAgain
  simp only
  split
  · exact quiet_write_open h hopen nofun
  · exact quiet_write_open h hopen nofun

theorem quiet_afterRecover (attempt : Attempt Intent) (outcome : Outcome Intent) (jitterMs : ℤ)
    (h : s.Quiet deps [.recovering key attempt] k) :
    (s.afterRecover deps key attempt outcome jitterMs).Quiet deps [] k := by
  unfold afterRecover
  simp only
  split
  · exact quiet_clearTimer h.drop
  · next hfresh =>
    have hopen : key = k → (s.slots k).standing = none := by
      rintro rfl
      refine Option.eq_none_iff_forall_ne_some.mpr fun slot hs => ?_
      obtain ⟨standing, calls⟩ := slot
      have hstale := (h standing calls hs).2.2 _ (Or.inl (List.mem_singleton.mpr rfl)) rfl
      exact hfresh (Nat.ne_of_gt hstale)
    cases outcome with
    | success intent =>
        simp only [succeed]
        generalize s.prepareWakeWrite .. = succeeded
        split
        · exact quiet_remove_open h.drop hopen
        · exact quiet_write_open h.drop hopen (by simp)
    | superseded => exact quiet_remove_open h.drop hopen
    | terminal => exact quiet_write_open h.drop hopen (by simp)
    | exhausted => exact quiet_write_open h.drop hopen (by simp)
    | wait => exact quiet_waitAgain _ _ _ _ _ h.drop hopen
    | thrown => exact quiet_waitAgain _ _ _ _ _ h.drop hopen

theorem quiet_start (call : Call) (h : s.Quiet deps [] k) (hopen : key = k → (s.slots k).standing = none) :
    (s.start key call).Quiet deps [] k := by
  by_cases hk : key = k
  · subst hk
    refine quiet_modify h ⟨id, le_rfl, fun hsome => absurd (hopen rfl) hsome, fun standing calls hs => ?_⟩
    rw [hopen rfl] at hs
    cases hs
  · exact quiet_modify_other (Ne.symm hk) h

theorem standing_start (call : Call) : ((s.start key call).slots k).standing = (s.slots k).standing := by
  rw [start, modify_slots]
  split
  · next hk => rw [hk]
  · rfl

theorem quiet_afterWrite (hmark : ∀ intent, deps.getStatus (deps.markCancelled intent) = .cancelled)
    {intent : Intent} (writer : Writer Key Intent) (h : s.Quiet deps [.write key intent .scheduled writer] k)
    (hreturns : ∀ p ∈ (Task.write key intent .scheduled writer).returns, s.Settled deps p.1 p.2) :
    (s.afterWrite deps key writer).Quiet deps [] k := by
  have hclear : (s.clearTimer key).Quiet deps [] k := quiet_clearTimer h.drop
  have hkept : ∀ {standing k'}, s.Settled deps standing k' → (s.clearTimer key).Settled deps standing k' :=
    fun hsettled => hsettled.modify fun slot => ⟨rfl, rfl, le_rfl⟩
  cases writer with
  | upsert => exact h.drop
  | delayed => exact h.drop
  | waiting => exact h.drop
  | maxAttempts => exact hclear
  | terminal => exact hclear
  | exhausted => exact hclear
  | cancel => exact quiet_settle hclear fun _ => hkept (hreturns (.cancelled, key) (by simp [Task.returns]))
  | cancelForSession cancelled rest =>
      refine quiet_cancelEntries hmark cancelled rest hclear (fun calls hs => ?_) fun hnil hmem => ?_
      · rw [standing_clearTimer] at hs
        exact ((h .cleared calls hs).2.2 _ (Or.inl (List.mem_singleton.mpr rfl))).2 rfl
      · subst hnil
        exact hkept (hreturns (.cancelled, k) (by simpa [Task.returns] using hmem))
  | success =>
      have hopen : key = k → (s.slots k).standing = none := by
        rintro rfl
        refine Option.eq_none_iff_forall_ne_some.mpr fun ⟨standing, calls⟩ hs => ?_
        exact (((h standing calls hs).2.2 _ (Or.inl (List.mem_singleton.mpr rfl))).1 rfl).2
      refine (quiet_start .onSuccess hclear fun hk => ?_).spawn fun _ _ _ => trivial
      rw [standing_clearTimer]
      exact hopen hk
  | checking attempt =>
      simp only [afterWrite]
      split
      · exact hclear
      · next hfresh =>
        have hopen : key = k → (s.slots k).standing = none := by
          rintro rfl
          refine Option.eq_none_iff_forall_ne_some.mpr fun ⟨standing, calls⟩ hs => ?_
          exact hfresh (Nat.ne_of_gt (((h standing calls hs).2.2 _ (Or.inl (List.mem_singleton.mpr rfl))).1 rfl).2)
        have hretry := quiet_start .onRetry h.drop hopen
        have hrecover := quiet_start .recover hretry fun hk => by rw [standing_start]; exact hopen hk
        refine hrecover.spawn fun standing calls hs hk => ?_
        rw [standing_start, standing_start, hopen hk] at hs
        cases hs

theorem quiet_afterRemove (remover : Remover) (h : s.Quiet deps [.remove key true remover] k)
    (hreturns : ∀ p ∈ (Task.remove key true remover : Task Key Intent).returns, s.Settled deps p.1 p.2) :
    (s.afterRemove key remover).Quiet deps [] k := by
  have hclear : (s.clearTimer key).Quiet deps [] k := quiet_clearTimer h.drop
  cases remover with
  | clear =>
      refine quiet_settle hclear fun _ => ?_
      exact (hreturns (.cleared, key) (by simp [Task.returns])).modify fun slot => ⟨rfl, rfl, le_rfl⟩
  | superseded => exact hclear
  | success =>
      refine (quiet_start .onSuccess hclear ?_).spawn fun _ _ _ => trivial
      rintro rfl
      rw [standing_clearTimer]
      refine Option.eq_none_iff_forall_ne_some.mpr fun ⟨standing, calls⟩ hs => ?_
      exact (h standing calls hs).2.2 _ (Or.inl (List.mem_singleton.mpr rfl)) rfl

omit [DecidableEq Key] in
theorem Quiet.advance {task task' : Task Key Intent} (h : s.Quiet deps [task] k)
    (hadvance : ∀ standing calls, (s.slots k).standing = some (standing, calls) →
      task.Harmless deps standing (s.slots k).cancellationVersion k →
      task'.Harmless deps standing (s.slots k).cancellationVersion k) : (s.spawn task').Quiet deps [] k :=
  h.drop.spawn fun standing calls hs =>
    hadvance standing calls hs ((h standing calls hs).2.2 _ (Or.inl (List.mem_singleton.mpr rfl)))

theorem quiet_store {intent : Intent} {stage : WriteStage Key} {writer : Writer Key Intent}
    {f : Slot Intent → Slot Intent} (hunwritten : stage.unwritten deps = true)
    (h : s.Quiet deps [.write key intent stage writer] k)
    (hf : ∀ slot, (f slot).standing = slot.standing ∧ (f slot).calls = slot.calls ∧
      (f slot).cancellationVersion = slot.cancellationVersion ∧
      ((f slot).stored = some intent ∧ (f slot).memory = slot.memory ∨
        (f slot).memory = some intent ∧ (f slot).stored = slot.stored)) :
    (s.modify key f).Quiet deps [.write key intent stage writer] k := by
  by_cases hk : k = key
  · subst hk
    obtain ⟨hstanding, hcalls, hversion, hrecord⟩ := hf (s.slots k)
    refine quiet_modify h ⟨fun hs => hstanding.trans hs, hversion.ge, fun _ => hcalls, ?_⟩
    intro standing calls hs hquiet standing' calls' hs'
    rw [hstanding, hs, Option.some.injEq, Prod.mk.injEq] at hs'
    obtain ⟨rfl, rfl⟩ := hs'
    have hharmless := ((h _ _ hs).2.2 _ (Or.inl (List.mem_singleton.mpr rfl))).1 rfl
    have hintent : standing ≠ .cleared ∧ deps.getStatus intent = .cancelled :=
      hharmless.1.resolve_left fun hwritten => by rw [hunwritten] at hwritten; cases hwritten
    have hnew : ∀ other ∈ some intent, deps.getStatus other = .cancelled := by
      rintro _ ⟨⟩
      exact hintent.2
    refine ⟨rfl, ?_, Or.inl rfl⟩
    rcases hrecord with ⟨hstored, hmemory⟩ | ⟨hmemory, hstored⟩
    · exact ⟨hstored ▸ hnew, hmemory ▸ hquiet.memory, fun _ => by simp [hstored], fun hc => absurd hc hintent.1⟩
    · refine ⟨hstored ▸ hquiet.stored, hmemory ▸ hnew, fun _ => ?_, fun hc => absurd hc hintent.1⟩
      rw [hmemory]
      cases (f (s.slots k)).stored <;> simp
  · exact quiet_modify_other hk h

theorem quiet_unstore (h : s.Quiet deps pending k)
    (hopen : ∀ calls, key = k → (s.slots k).standing ≠ some (.cancelled, calls)) :
    (s.modify key fun slot => { slot with stored := none }).Quiet deps pending k := by
  by_cases hk : key = k
  · subst hk
    refine quiet_modify h ⟨id, le_rfl, fun _ => rfl, ?_⟩
    intro standing calls hs hquiet standing' calls' hs'
    rw [hs, Option.some.injEq, Prod.mk.injEq] at hs'
    obtain ⟨rfl, rfl⟩ := hs'
    refine ⟨rfl, ⟨nofun, hquiet.memory, fun hc => absurd (hc ▸ hs) (hopen calls rfl), fun hc => ?_⟩, Or.inl rfl⟩
    exact ⟨rfl, (hquiet.cleared hc).2⟩
  · exact quiet_modify_other (Ne.symm hk) h

theorem quiet_resume (hmark : ∀ intent, deps.getStatus (deps.markCancelled intent) = .cancelled)
    (outcome : Outcome Intent) (jitterMs : ℤ) (task : Task Key Intent) (h : s.Quiet deps [task] k)
    (hreturns : ∀ p ∈ task.returns, s.Settled deps p.1 p.2) :
    (s.resume deps outcome jitterMs task).Quiet deps [] k := by
  cases task with
  | write key intent stage writer =>
      cases stage with
      | pruning prune =>
          have hprune := quiet_stepPrune prune h
          simp only [resume]
          split
          · next s' prune' heq =>
            rw [heq] at hprune
            exact hprune.advance fun _ _ _ hharmless => Task.Harmless.stage hharmless id
          · next s' keys heq =>
            rw [heq] at hprune
            refine (quiet_store rfl (quiet_forget keys hprune) fun slot => ?_).advance ?_
            · exact ⟨rfl, rfl, rfl, Or.inr ⟨rfl, rfl⟩⟩
            · exact fun _ _ _ hharmless => Task.Harmless.stage hharmless nofun
      | storing =>
          simp only [resume]
          split
          · next hstore =>
            refine (@quiet_store _ _ _ _ _ key k _ .storing _ _ hstore h fun slot => ?_).advance fun _ _ _ hharmless => Task.Harmless.stage hharmless fun _ => rfl
            exact ⟨rfl, rfl, rfl, Or.inl ⟨rfl, rfl⟩⟩
          · exact h.advance fun _ _ _ hharmless => Task.Harmless.stage hharmless fun _ => rfl
      | stored => exact (quiet_schedule intent h).advance fun _ _ _ hharmless => Task.Harmless.stage hharmless fun _ => rfl
      | scheduled => exact quiet_afterWrite hmark writer h hreturns
  | remove key removed remover =>
      cases removed with
      | true => exact quiet_afterRemove remover h hreturns
      | false =>
          cases remover with
          | clear => exact (quiet_removeStored h).advance fun _ _ _ _ _ => trivial
          | success =>
              have hopen : key = k → (s.slots k).standing = none := by
                rintro rfl
                refine Option.eq_none_iff_forall_ne_some.mpr fun ⟨standing, calls⟩ hs => ?_
                exact (h standing calls hs).2.2 _ (Or.inl (List.mem_singleton.mpr rfl)) rfl
              refine (quiet_unstore h fun calls hk hs => ?_).advance fun _ _ _ hharmless => hharmless
              rw [hopen hk] at hs
              cases hs
          | superseded =>
              refine (quiet_unstore h fun calls hk hs => ?_).advance fun _ _ _ _ _ _ => rfl
              cases (h .cancelled calls hs).2.2 _ (Or.inl (List.mem_singleton.mpr rfl)) hk rfl
  | prune prune =>
      have hprune := quiet_stepPrune prune h
      simp only [resume]
      split
      · next s' prune' heq =>
        rw [heq] at hprune
        exact hprune.advance fun _ _ _ _ => trivial
      · next s' keys heq =>
        rw [heq] at hprune
        exact quiet_forget keys hprune.drop
  | recovering key attempt => exact quiet_afterRecover attempt outcome jitterMs h
  | succeeding key => exact h.drop

theorem quiet_step (hmark : ∀ intent, deps.getStatus (deps.markCancelled intent) = .cancelled)
    {e : Event Key Intent} (h : s.Quiet deps [] k) (hreturns : s.ReturnsSettled deps e) :
    (s.step deps e).Quiet deps [] k := by
  cases e with
  | clock nowMs => exact h
  | upsert key intent => exact quiet_upsert intent h
  | upsertMerged key intent merge => exact quiet_upsert _ (quiet_readByKey h)
  | read key => exact quiet_readByKey h
  | cancel key => exact quiet_cancelByKey hmark h
  | clear key => exact quiet_clearByKey h
  | cancelForSession keys => exact quiet_cancelForSession hmark keys h
  | pruneTerminalRecords => exact h.spawn fun _ _ _ => trivial
  | wake key gate => exact quiet_wakeByKey false gate h
  | timer key gate =>
      simp only [step]
      split
      · exact quiet_wakeByKey true gate (quiet_clearTimer h)
      · exact h
  | dispose =>
      intro standing calls hs
      obtain ⟨hcalls, hquiet, htasks⟩ := h standing calls hs
      exact ⟨hcalls, ⟨hquiet.stored, hquiet.memory, hquiet.cancelled, hquiet.cleared⟩, htasks⟩
  | resume index outcome jitterMs =>
      simp only [step]
      split
      · exact h
      · next task htask =>
        refine quiet_resume hmark outcome jitterMs task (fun standing calls hs => ?_) (hreturns task htask)
        obtain ⟨hcalls, hquiet, htasks⟩ := h standing calls hs
        refine ⟨hcalls, hquiet, fun t hmem => htasks t (Or.inr ?_)⟩
        rcases hmem with hpending | hrest
        · rw [List.mem_singleton.mp hpending]
          exact List.mem_of_getElem? htask
        · exact List.mem_of_mem_eraseIdx hrest

end

end State

open State in
/-- Along a run in which each cancellation returns where nothing under way can undo it, its
record stays cancelled or absent until the next upsert, and no recovery of it starts. -/
theorem cancellation_wins [DecidableEq Key] (deps : Deps Key Intent)
    (hmark : ∀ intent, deps.getStatus (deps.markCancelled intent) = .cancelled)
    (records : Key → Option Intent) (keys : List Key) (now : ℤ) (events : List (Event Key Intent))
    (h : Runs.Along (State.step deps) (State.ReturnsSettled deps) (.hydrated deps records keys now) events) :
    (Runs.run (State.step deps) (.hydrated deps records keys now) events).CancellationWins deps := by
  have hstart : ∀ key, (State.hydrated deps records keys now).Quiet deps [] key := fun key standing calls hs => by
    cases hs
  have hrun : ∀ key, (Runs.run (State.step deps) (.hydrated deps records keys now) events).Quiet deps [] key :=
    Runs.run_invariant_along (I := fun s : State Key Intent => ∀ key, s.Quiet deps [] key)
      (p := State.ReturnsSettled deps) (fun s e hs he key => quiet_step hmark (hs key) he) hstart h
  intro key standing calls hs
  obtain ⟨hcalls, hquiet, -⟩ := hrun key standing calls hs
  refine ⟨hcalls, ?_⟩
  have hcurrent := cancelled_of_current hquiet
  cases standing with
  | cancelled =>
      obtain ⟨intent, hintent⟩ := Option.ne_none_iff_exists'.mp (hquiet.cancelled rfl)
      exact ⟨intent, hintent, hcurrent intent hintent⟩
  | cleared => exact current_none_of_cleared hquiet
  | dropped => exact hcurrent

theorem State.returnsSettled_of_returns {deps : Deps Key Intent} {s : State Key Intent} {index : ℕ}
    {outcome : Outcome Intent} {jitterMs : ℤ} (h : s.tasks[index]?.all fun task => task.returns.isEmpty) :
    s.ReturnsSettled deps (.resume index outcome jitterMs) := by
  intro task htask p hp
  rw [htask] at h
  rw [List.isEmpty_iff.mp h] at hp
  cases hp

theorem cancellation_wins_upsert :
    (Runs.run (State.step memoryDeps) (.hydrated memoryDeps (fun _ => none) [] 0)
      (.upsert "session-1" (.waiting, some 100) :: writeThrough 0 ++ .cancel "session-1" :: writeThrough 0)).CancellationWins
        memoryDeps := by
  refine cancellation_wins memoryDeps (fun _ => rfl) _ _ _ _
    ⟨trivial, ?_, ?_, ?_, ?_, trivial, ?_, ?_, ?_, fun task htask p hp => ?_, trivial⟩
  · exact State.returnsSettled_of_returns (by decide)
  · exact State.returnsSettled_of_returns (by decide)
  · exact State.returnsSettled_of_returns (by decide)
  · exact State.returnsSettled_of_returns (by decide)
  · exact State.returnsSettled_of_returns (by decide)
  · exact State.returnsSettled_of_returns (by decide)
  · exact State.returnsSettled_of_returns (by decide)
  · obtain rfl := Option.some.inj htask
    obtain rfl := List.mem_singleton.mp hp
    refine ⟨⟨nofun, ?_, fun _ => by decide, nofun⟩, fun _ hmem => absurd hmem List.not_mem_nil⟩
    rintro _ ⟨⟩
    rfl

/-- A wake that begins while the cancellation still awaits its write recovers after it has
returned. -/
theorem recovered_after_cancel :
    ∃ (deps : Deps String (Status × Option ℤ)) (events : List (Event String (Status × Option ℤ))),
      (∀ intent, deps.getStatus (deps.markCancelled intent) = .cancelled) ∧
      ¬ (Runs.run (State.step deps) (.hydrated deps (fun _ => none) [] 0) events).CancellationWins deps := by
  refine ⟨memoryDeps,
    .upsert "session-1" (.waiting, some 100) :: writeThrough 0 ++
      [Event.cancel "session-1", .wake "session-1" .opened] ++ List.replicate 8 (Event.resume 0 .superseded 0),
    fun _ => rfl, fun h => ?_⟩
  obtain ⟨hcalls, -⟩ := h "session-1" .cancelled 0 (by decide)
  exact absurd hcalls (by decide)

end DevPilot.Recovery
