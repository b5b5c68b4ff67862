import DevPilot.Switching.DeferredSwitches

/-!
Runs of the deferral queue: a switch is started once if no turn ends while its run is
under way, and all else holds of every run.
-/

namespace DevPilot.Switching

open Runs Tables

def TurnLifecycleEvent.endsTurn : TurnLifecycleEvent → Bool
  | assistantMessageEnd | turnCancelled => true
  | promptOrSteer | taskStarted => false

namespace Queue

variable {q q' q'' : Queue} {switch : ℕ} {pending : PendingSwitch}

/-- No turn of a session ends while a run of its pending switch is under way. -/
def OneRun (q : Queue) : Event → Prop
  | .recordTurnLifecycleEvent sessionId event =>
    event.endsTurn = true → trim sessionId ≠ "" →
      ∀ switch, q.pendingBySessionId.get (trim sessionId) = some switch → .pending switch ∉ q.runs
  | _ => True

structure Kept (disableDeferral : Bool) (events : List Event) (q : Queue) : Prop where
  startedOnce : q.startedSwitches.Nodup
  notAfterWithdrawal : NotAfter q.log
  betweenTurns : disableDeferral = false →
    (∀ input, .requestSwitch input ∈ events → trim input.sessionId = input.sessionId) →
      ∀ switch timedOut, .started switch timedOut true ∈ q.log → timedOut = true
  settledOnce : ∀ request < q.nextRequest, q.settledRequests.count request = 1 ∨
    q.settledRequests.count request = 0 ∧ q.Waits request
  earned : ∀ request, .settled request true ∈ q.log → q.Earned request

/-- Nothing is started, and no timer is armed but one of a new switch. -/
structure Quiet (q q' : Queue) : Prop where
  log : ∃ entries, q'.log = q.log ++ entries ∧ ∀ e ∈ entries, e.started? = none
  next : q.nextRequest ≤ q'.nextRequest
  timers : ∀ switch pending', q'.switches switch = some pending' → pending'.timer = true →
    (∃ pending, q.switches switch = some pending ∧ pending.timer = true) ∨ q.nextRequest ≤ switch

theorem Quiet.refl (q : Queue) : Quiet q q :=
  ⟨⟨[], (List.append_nil _).symm, by simp⟩, le_rfl, fun _ _ hp ht => .inl ⟨_, hp, ht⟩⟩

theorem Quiet.trans (h : Quiet q q') (h' : Quiet q' q'') : Quiet q q'' := by
  obtain ⟨entries, hlog, hentries⟩ := h.log
  obtain ⟨entries', hlog', hentries'⟩ := h'.log
  refine ⟨⟨entries ++ entries', by rw [hlog', hlog, List.append_assoc], ?_⟩, h.next.trans h'.next, ?_⟩
  · intro e he
    exact (List.mem_append.mp he).elim (hentries e) (hentries' e)
  · intro switch pending hp ht
    rcases h'.timers switch pending hp ht with ⟨pending', hp', ht'⟩ | hle
    · exact h.timers switch pending' hp' ht'
    · exact .inr (h.next.trans hle)

theorem quiet_setTurns (q : Queue) (turns : Table SessionTurnState) :
    Quiet q { q with turnStateBySessionId := turns } :=
  ⟨⟨[], (List.append_nil _).symm, by simp⟩, le_rfl, fun _ _ hp ht => .inl ⟨_, hp, ht⟩⟩

theorem quiet_record {entries : List Entry} (hentries : ∀ e ∈ entries, e.started? = none)
    (runs : List SwitchRun) : Quiet q { q.record entries with runs := runs } :=
  ⟨⟨entries, rfl, hentries⟩, le_rfl, fun _ _ hp ht => .inl ⟨_, hp, ht⟩⟩

theorem quiet_settlePending (switch : ℕ) (pending : PendingSwitch) (resolve : Bool) :
    Quiet q (q.settlePending switch pending resolve) := by
  rw [settlePending]
  split_ifs
  · exact .refl q
  refine ⟨⟨_, rfl, ?_⟩, le_rfl, fun i p hp ht => ?_⟩
  · intro e he
    obtain ⟨request, -, rfl⟩ := List.mem_map.mp he
    rfl
  · change Function.update q.switches switch _ i = some p at hp
    rw [Function.update_apply] at hp
    split_ifs at hp
    · cases hp
      cases ht
    · exact .inl ⟨p, hp, ht⟩

theorem quiet_rejectPending (switch : ℕ) (pending : PendingSwitch) :
    Quiet q (q.rejectPending switch pending) := by
  rw [rejectPending]
  split_ifs
  · exact .refl q
  · exact (quiet_record (by simp [Entry.started?]) q.runs).trans (quiet_settlePending ..)

theorem quiet_rejectSupersededPending (switch : ℕ) (pending : PendingSwitch) :
    Quiet q (q.rejectSupersededPending switch pending) := by
  rw [rejectSupersededPending]
  split_ifs
  · exact .refl q
  · exact (quiet_record (by simp [Entry.started?]) q.runs).trans (quiet_settlePending ..)

theorem quiet_answer {entries : List Entry} (hentries : ∀ e ∈ entries, e.started? = none)
    (fulfilled : Bool) : Quiet q (q.answer entries fulfilled) := by
  refine ⟨⟨_, rfl, fun e he => ?_⟩, Nat.le_succ _, fun _ _ hp ht => .inl ⟨_, hp, ht⟩⟩
  rcases List.mem_append.mp he with he | he
  · exact hentries e he
  · rw [List.mem_singleton.mp he]
    rfl

theorem quiet_defer (sessionId : String) (input : SwitchRequest) : Quiet q (q.defer sessionId input) := by
  refine ⟨⟨_, rfl, fun e he => by rw [List.mem_singleton.mp he]; rfl⟩, Nat.le_succ _, fun i p hp ht => ?_⟩
  change Function.update q.switches q.nextRequest _ i = some p at hp
  rw [Function.update_apply] at hp
  split_ifs at hp with hi
  · exact .inr hi.ge
  · exact .inl ⟨p, hp, ht⟩

theorem quiet_join (hp : q.switches switch = some pending) : Quiet q (q.join switch pending) := by
  refine ⟨⟨_, rfl, fun e he => by rw [List.mem_singleton.mp he]; rfl⟩, Nat.le_succ _, fun i p hi ht => ?_⟩
  change Function.update q.switches switch _ i = some p at hi
  rw [Function.update_apply] at hi
  split_ifs at hi with hne
  · cases hi
    exact .inl ⟨pending, hne ▸ hp, ht⟩
  · exact .inl ⟨p, hi, ht⟩

theorem quiet_deferRequest (h : q.Inv) (sessionId : String) (input : SwitchRequest) :
    Quiet q (q.deferRequest sessionId input) := by
  rw [deferRequest]
  split
  · exact quiet_defer ..
  next switch hget =>
    obtain ⟨pending, hp, -, -⟩ := h.pendings sessionId switch hget
    simp only [hp]
    split_ifs
    · exact quiet_join hp
    · exact quiet_answer (by simp) false
    · exact quiet_join hp
    · exact (quiet_rejectSupersededPending switch pending).trans (quiet_defer ..)

inductive Effect (disableDeferral : Bool) (q : Queue) : Event → Queue → Prop
  | quiet {e : Event} {result : Queue} (h : Quiet q result) : Effect disableDeferral q e result
  | timeout {i : ℕ} {p : PendingSwitch} (hp : q.switches i = some p) (hs : p.settled = false)
      (ht : p.timer = true) : Effect disableDeferral q (.timeout i) (q.executePendingSwitch i p true)
  | boundary {i : ℕ} {p : PendingSwitch} {sessionId : String} {event : TurnLifecycleEvent}
      {turns : Table SessionTurnState} (hends : event.endsTurn = true) (hnamed : trim sessionId ≠ "")
      (hget : q.pendingBySessionId.get (trim sessionId) = some i) (hp : q.switches i = some p)
      (hs : p.settled = false)
      (hidle : isTurnInFlight { q with turnStateBySessionId := turns } p.sessionId = false) :
      Effect disableDeferral q (.recordTurnLifecycleEvent sessionId event)
        (executePendingSwitch { q with turnStateBySessionId := turns } i p false)
  | now {input : SwitchRequest} {turns : Table SessionTurnState}
      (hidle : disableDeferral = false → trim input.sessionId = input.sessionId →
        isTurnInFlight { q with turnStateBySessionId := turns } (trim input.sessionId) = false) :
      Effect disableDeferral q (.requestSwitch input)
        (runNow { q with turnStateBySessionId := turns } (trim input.sessionId))

theorem readTurnState_eq (q : Queue) (sessionId : String) : ∃ turns,
    (q.readTurnState sessionId).2 = { q with turnStateBySessionId := turns } ∧
      turns.get sessionId = some (q.readTurnState sessionId).1 := by
  rw [readTurnState]
  split
  next state hget => exact ⟨_, rfl, hget⟩
  · exact ⟨_, rfl, Table.get_set_self ..⟩

theorem effect_requestSwitch (h : q.Inv) (disableDeferral : Bool) (input : SwitchRequest) :
    Effect disableDeferral q (.requestSwitch input) (q.requestSwitch disableDeferral input) := by
  obtain ⟨turns, hread, hget⟩ := q.readTurnState_eq input.sessionId
  have hturns : ∃ turns, (q.shouldRunImmediately disableDeferral input).2 =
      { q with turnStateBySessionId := turns } ∧ ((q.shouldRunImmediately disableDeferral input).1 = true →
        disableDeferral = false → isTurnInFlight { q with turnStateBySessionId := turns }
          input.sessionId = false) := by
    rw [shouldRunImmediately]
    split_ifs with hd
    · exact ⟨_, rfl, fun _ hd' => by rw [hd] at hd'; cases hd'⟩
    · refine ⟨turns, by cases input.policy <;> exact hread, fun hnow _ => ?_⟩
      have hidle : (q.readTurnState input.sessionId).1.inFlight = false := by
        cases hpolicy : input.policy <;> simpa [hpolicy] using hnow
      simp [isTurnInFlight, hget, hidle]
  obtain ⟨turns', hq, hidle⟩ := hturns
  rw [requestSwitch]
  simp only
  rw [hq]
  split_ifs with hid hnow
  · exact .quiet (quiet_answer (by simp [Entry.started?]) true)
  · exact .now fun hd htrim => by rw [htrim]; exact hidle hnow hd
  · exact .quiet ((quiet_setTurns q turns').trans (quiet_deferRequest (h.setTurns _) ..))

theorem recordTurnLifecycleEvent_ends (q : Queue) {sessionId : String} {event : TurnLifecycleEvent}
    (hends : event.endsTurn = true) (hnamed : trim sessionId ≠ "") : ∃ turns,
      q.recordTurnLifecycleEvent sessionId event =
        withPending { q with turnStateBySessionId := turns } (trim sessionId)
          (executePendingSwitch { q with turnStateBySessionId := turns } · · false) ∧
        isTurnInFlight { q with turnStateBySessionId := turns } (trim sessionId) = false := by
  obtain ⟨turns, hread, -⟩ := q.readTurnState_eq (trim sessionId)
  rw [recordTurnLifecycleEvent]
  simp only
  rw [hread, if_neg hnamed]
  cases event with
  | promptOrSteer => cases hends
  | taskStarted => cases hends
  | assistantMessageEnd => exact ⟨_, rfl, by simp [isTurnInFlight]⟩
  | turnCancelled => exact ⟨_, rfl, by simp [isTurnInFlight]⟩

theorem effect_recordTurnLifecycleEvent (h : q.Inv) (disableDeferral : Bool) (sessionId : String)
    (event : TurnLifecycleEvent) : Effect disableDeferral q
      (.recordTurnLifecycleEvent sessionId event) (q.recordTurnLifecycleEvent sessionId event) := by
  by_cases hnamed : trim sessionId = ""
  · rw [recordTurnLifecycleEvent, if_pos hnamed]
    exact .quiet (.refl q)
  cases hends : event.endsTurn with
  | false =>
      obtain ⟨turns, hread, -⟩ := q.readTurnState_eq (trim sessionId)
      rw [recordTurnLifecycleEvent]
      simp only
      rw [hread, if_neg hnamed]
      cases event with
      | promptOrSteer => exact .quiet (quiet_setTurns ..)
      | taskStarted => exact .quiet (quiet_setTurns ..)
      | assistantMessageEnd => cases hends
      | turnCancelled => cases hends
  | true =>
      obtain ⟨turns, hq, hidle⟩ := q.recordTurnLifecycleEvent_ends hends hnamed
      rw [hq, withPending]
      split
      · exact .quiet (quiet_setTurns ..)
      next switch hget =>
        obtain ⟨pending, hp, hs, hid⟩ := h.pendings _ switch hget
        simp only [hp]
        exact .boundary hends hnamed hget hp hs (by rw [hid, hidle])

theorem quiet_runEnds (h : q.Inv) (run : ℕ) (ok : Bool) : Quiet q (q.runEnds run ok) := by
  rw [runEnds]
  split
  · exact .refl q
  · exact quiet_record (by cases ok <;> simp [Entry.started?]) _
  next switch hi =>
    obtain ⟨pending, hp⟩ := Option.ne_none_iff_exists'.mp (h.known switch (List.mem_of_getElem? hi))
    simp only [record, hp]
    have hstarted : ∀ e ∈ if ok then [Entry.ran switch] else [], e.started? = none := by
      cases ok <;> simp [Entry.started?]
    exact (quiet_record hstarted (q.runs.eraseIdx run)).trans (quiet_settlePending switch pending ok)

theorem quiet_cancelSession (h : q.Inv) (sessionId : String) (reason : CancelReason) :
    Quiet q (q.cancelSession sessionId reason) := by
  rw [cancelSession]
  split_ifs
  · exact .refl q
  refine (quiet_setTurns q (q.turnStateBySessionId.delete (trim sessionId))).trans ?_
  rw [withPending]
  split
  · exact .refl _
  next switch hget =>
    obtain ⟨pending, hp, -, -⟩ := h.pendings _ switch hget
    simp only [hp]
    cases reason with
    | sessionTerminated => exact quiet_rejectPending ..
    | sessionRestarting =>
        exact (quiet_record (by simp [Entry.started?]) q.runs).trans (quiet_settlePending ..)

theorem quiet_cancelAll (q : Queue) : Quiet q q.cancelAll := by
  have hfold : ∀ (switches : List ℕ) (q : Queue), Quiet q (switches.foldl cancelEntry q) := by
    intro switches
    induction switches with
    | nil => exact Quiet.refl
    | cons switch switches ih =>
        intro q
        refine Quiet.trans ?_ (ih _)
        rw [cancelEntry]
        split
        · exact .refl q
        · exact quiet_rejectPending ..
  exact (quiet_setTurns q Table.empty).trans (hfold ..)

theorem effect_step (h : q.Inv) (disableDeferral : Bool) (e : Event) :
    Effect disableDeferral q e (q.step disableDeferral e) := by
  cases e with
  | requestSwitch input => exact effect_requestSwitch h disableDeferral input
  | recordTurnLifecycleEvent sessionId event =>
      exact effect_recordTurnLifecycleEvent h disableDeferral sessionId event
  | timeout switch =>
      rw [step, timeout]
      split
      · exact .quiet (.refl q)
      next pending hp =>
        split_ifs with ht
        · refine .timeout hp ?_ ht
          by_contra hs
          rw [(h.done switch pending hp (by simpa using hs)).2] at ht
          cases ht
        · exact .quiet (.refl q)
  | runEnds run ok => exact .quiet (quiet_runEnds h run ok)
  | cancelSession sessionId reason => exact .quiet (quiet_cancelSession h sessionId reason)
  | cancelAll => exact .quiet (quiet_cancelAll q)

theorem execute_log (hs : pending.settled = false) (timedOut : Bool) :
    (q.executePendingSwitch switch pending timedOut).log =
      q.log ++ [Entry.started switch timedOut (q.isTurnInFlight pending.sessionId)] := by
  simp [executePendingSwitch, hs, record, setPending]

theorem execute_startedSwitches (hs : pending.settled = false) (timedOut : Bool) :
    (q.executePendingSwitch switch pending timedOut).startedSwitches = q.startedSwitches ++ [switch] := by
  rw [startedSwitches, execute_log hs, List.filterMap_append, startedSwitches]
  rfl

theorem Quiet.startedSwitches_eq (h : Quiet q q') : q'.startedSwitches = q.startedSwitches := by
  obtain ⟨entries, hlog, hentries⟩ := h.log
  rw [startedSwitches, hlog, List.filterMap_append, List.filterMap_eq_nil_iff.mpr hentries,
    List.append_nil, startedSwitches]

/-- Each switch was started once at most, and none whose timer is armed. -/
structure Once (q : Queue) : Prop where
  nodup : q.startedSwitches.Nodup
  armed : ∀ switch pending, q.switches switch = some pending → pending.timer = true →
    switch ∉ q.startedSwitches

theorem once_init : ({} : Queue).Once :=
  ⟨by simp [startedSwitches], by simp⟩

theorem Once.setTurns (h : q.Once) (turns : Table SessionTurnState) :
    ({ q with turnStateBySessionId := turns } : Queue).Once :=
  ⟨h.nodup, h.armed⟩

theorem Once.execute (h : q.Once) (hs : pending.settled = false) (hnot : switch ∉ q.startedSwitches)
    (timedOut : Bool) : (q.executePendingSwitch switch pending timedOut).Once := by
  constructor
  · rw [execute_startedSwitches hs]
    simpa using h.nodup.concat hnot
  · intro i p hp ht
    rw [execute_startedSwitches hs, List.mem_append, List.mem_singleton]
    rw [executePendingSwitch, if_neg (by simp [hs])] at hp
    change Function.update q.switches switch _ i = some p at hp
    rw [Function.update_apply] at hp
    split_ifs at hp with hi
    · cases hp
      cases ht
    · exact not_or.mpr ⟨h.armed i p hp ht, hi⟩

theorem runNow_log (sessionId : String) : (q.runNow sessionId).log =
    q.log ++ [Entry.joined q.nextRequest q.nextRequest,
      .started q.nextRequest false (q.isTurnInFlight sessionId)] := rfl

theorem runNow_startedSwitches (sessionId : String) :
    (q.runNow sessionId).startedSwitches = q.startedSwitches ++ [q.nextRequest] := by
  rw [startedSwitches, runNow_log, List.filterMap_append, startedSwitches]
  rfl

theorem Once.runNow (h : q.Once)
    (hfresh : q.switches q.nextRequest = none ∧ q.nextRequest ∉ q.startedSwitches) (sessionId : String) :
    (q.runNow sessionId).Once := by
  constructor
  · rw [runNow_startedSwitches]
    simpa using h.nodup.concat hfresh.2
  · intro i p hp ht
    rw [runNow_startedSwitches, List.mem_append, List.mem_singleton]
    refine not_or.mpr ⟨h.armed i p hp ht, ?_⟩
    rintro rfl
    rw [show q.switches q.nextRequest = some p from hp] at hfresh
    cases hfresh.1

theorem Once.step {disableDeferral : Bool} {e : Event} (h : q.Once) (hinv : q.Inv) (hone : q.OneRun e) :
    (q.step disableDeferral e).Once := by
  have heffect := effect_step hinv disableDeferral e
  generalize q.step disableDeferral e = result at *
  cases heffect with
  | quiet hquiet =>
      constructor
      · rw [hquiet.startedSwitches_eq]
        exact h.nodup
      · intro switch pending hp ht
        rw [hquiet.startedSwitches_eq]
        rcases hquiet.timers switch pending hp ht with ⟨pending', hp', ht'⟩ | hle
        · exact h.armed switch pending' hp' ht'
        · exact (hinv.fresh switch hle).2
  | timeout hp hs ht => exact h.execute hs (h.armed _ _ hp ht) true
  | boundary hends hnamed hget hp hs =>
      -- a registered switch that no run is under way for still has its timer
      have ht := (hinv.armed _ _ hp hs).resolve_right (hone hends hnamed _ hget)
      refine Once.execute (h.setTurns _) hs ?_ false
      exact h.armed _ _ hp ht
  | now =>
      refine Once.runNow (h.setTurns _) ?_ _
      exact hinv.fresh _ le_rfl

theorem startedSwitches_step (hinv : q.Inv) (disableDeferral : Bool) (e : Event) :
    q.startedSwitches <+: (q.step disableDeferral e).startedSwitches := by
  have heffect := effect_step hinv disableDeferral e
  generalize q.step disableDeferral e = result at *
  cases heffect with
  | quiet hquiet => rw [hquiet.startedSwitches_eq]
  | timeout _ hs =>
      rw [execute_startedSwitches hs]
      exact List.prefix_append ..
  | boundary _ _ _ _ hs =>
      rw [execute_startedSwitches hs]
      exact List.prefix_append ..
  | now =>
      rw [runNow_startedSwitches]
      exact List.prefix_append ..

theorem startedSwitches_run (hinv : q.Inv) (disableDeferral : Bool) (events : List Event) :
    q.startedSwitches <+: (run (step disableDeferral) q events).startedSwitches := by
  induction events generalizing q with
  | nil => exact List.prefix_refl _
  | cons e events ih =>
      exact (startedSwitches_step hinv disableDeferral e).trans (ih (inv_step disableDeferral e hinv))

theorem not_nodup_step (hinv : q.Inv) (disableDeferral : Bool) {e : Event} (hone : ¬ q.OneRun e) :
    ¬ (q.step disableDeferral e).startedSwitches.Nodup := by
  cases e with
  | recordTurnLifecycleEvent sessionId event =>
      simp only [OneRun, not_forall, not_not] at hone
      obtain ⟨hends, hnamed, switch, hget, hmem⟩ := hone
      obtain ⟨pending, hp, hs, -⟩ := hinv.pendings _ switch hget
      obtain ⟨turns, hq, -⟩ := q.recordTurnLifecycleEvent_ends hends hnamed
      simp only [step, hq, withPending, hget, hp]
      rw [execute_startedSwitches hs]
      exact fun h => (List.disjoint_of_nodup_append h) (hinv.running switch hmem)
        (List.mem_singleton_self switch)
  | requestSwitch | timeout | runEnds | cancelSession | cancelAll => exact absurd trivial hone

theorem along_oneRun_of_nodup (hinv : q.Inv) (disableDeferral : Bool) {events : List Event}
    (h : (run (step disableDeferral) q events).startedSwitches.Nodup) :
    Along (step disableDeferral) OneRun q events := by
  induction events generalizing q with
  | nil => trivial
  | cons e events ih =>
      have hstep := inv_step disableDeferral e hinv
      refine ⟨?_, ih hstep h⟩
      by_contra hone
      exact not_nodup_step hinv disableDeferral hone
        ((startedSwitches_run hstep disableDeferral events).sublist.nodup h)

def Between (q : Queue) : Prop :=
  ∀ switch timedOut, Entry.started switch timedOut true ∈ q.log → timedOut = true

theorem Between.step {e : Event} (h : q.Between) (hinv : q.Inv)
    (htrimmed : ∀ input, e = .requestSwitch input → trim input.sessionId = input.sessionId) :
    (q.step false e).Between := by
  have heffect := effect_step hinv false e
  generalize q.step false e = result at *
  intro switch timedOut hmem
  cases heffect with
  | quiet hquiet =>
      obtain ⟨entries, hlog, hentries⟩ := hquiet.log
      rw [hlog] at hmem
      rcases List.mem_append.mp hmem with hmem | hmem
      · exact h switch timedOut hmem
      · exact absurd (hentries _ hmem) (by simp [Entry.started?])
  | timeout _ hs =>
      rw [execute_log hs] at hmem
      rcases List.mem_append.mp hmem with hmem | hmem
      · exact h switch timedOut hmem
      · obtain ⟨-, ht, -⟩ : switch = _ ∧ timedOut = true ∧ _ := by simpa using hmem
        exact ht
  | boundary _ _ _ _ hs hidle =>
      rw [execute_log hs, hidle] at hmem
      rcases List.mem_append.mp hmem with hmem | hmem
      · exact h switch timedOut hmem
      · simp at hmem
  | now hidle =>
      rw [runNow_log, hidle rfl (htrimmed _ rfl)] at hmem
      rcases List.mem_append.mp hmem with hmem | hmem
      · exact h switch timedOut hmem
      · simp at hmem

theorem between_run {events : List Event}
    (htrimmed : ∀ input, .requestSwitch input ∈ events → trim input.sessionId = input.sessionId) :
    (run (step false) {} events).Between := by
  have hstep : ∀ (q : Queue) (e : Event), q.Inv ∧ q.Between →
      (∀ input, e = .requestSwitch input → trim input.sessionId = input.sessionId) → True →
        (step false q e).Inv ∧ (step false q e).Between :=
    fun q e hq htrim _ => ⟨inv_step false e hq.1, hq.2.step hq.1 htrim⟩
  have hevents : ∀ e ∈ events, ∀ input, e = .requestSwitch input →
      trim input.sessionId = input.sessionId := by
    rintro e he input rfl
    exact htrimmed input he
  have hinit : ({} : Queue).Inv ∧ ({} : Queue).Between := ⟨inv_init, fun _ _ h => by cases h⟩
  exact (run_invariant_along_of_mem (I := fun q : Queue => q.Inv ∧ q.Between) hstep hevents hinit
    (along_trivial (step false) {} events)).2

theorem settledOnce_of_inv (hinv : q.Inv) {request : ℕ} (hlt : request < q.nextRequest) :
    q.settledRequests.count request = 1 ∨ q.settledRequests.count request = 0 ∧ q.Waits request := by
  have hq := hinv.answered request
  rw [if_pos hlt] at hq
  rcases Nat.eq_zero_or_pos (q.settledRequests.count request) with hzero | hpos
  · refine .inr ⟨hzero, ?_⟩
    rcases Nat.eq_zero_or_pos (q.runs.count (.immediate request)) with hruns | hruns
    · -- the request is among those of a switch, which has not settled
      rw [waiting] at hq
      obtain ⟨switch, -, hcount⟩ := Finset.exists_ne_zero_of_sum_ne_zero
        (s := Finset.range q.nextRequest) (f := fun i => (q.requestsOf i).count request) (by omega)
      have hmem := List.count_pos_iff.mp (Nat.pos_of_ne_zero hcount)
      cases hp : q.switches switch with
      | none =>
          rw [requestsOf_none hp] at hmem
          cases hmem
      | some pending =>
          rw [requestsOf_some hp] at hmem
          refine .inr ⟨switch, pending, hp, hmem, hinv.armed switch pending hp ?_⟩
          by_contra hs
          rw [(hinv.done switch pending hp (by simpa using hs)).1] at hmem
          cases hmem
    · exact .inl (List.count_pos_iff.mp hruns)
  · exact .inl (by omega)

theorem kept_of_inv (disableDeferral : Bool) {events : List Event} (hinv : q.Inv)
    (honce : q.startedSwitches.Nodup)
    (hbetween : disableDeferral = false →
      (∀ input, .requestSwitch input ∈ events → trim input.sessionId = input.sessionId) → q.Between) :
    Kept disableDeferral events q :=
  ⟨honce, hinv.notAfter, hbetween, fun _ => settledOnce_of_inv hinv, hinv.earned⟩

/-- The queue keeps its promises in exactly the runs in which no turn of a session ends
while a run of its pending switch is under way. -/
theorem deferred_switches_kept (disableDeferral : Bool) (events : List Event) :
    Kept disableDeferral events (run (step disableDeferral) {} events) ↔
      Along (step disableDeferral) OneRun {} events := by
  constructor
  · intro h
    exact along_oneRun_of_nodup inv_init disableDeferral h.startedOnce
  · intro h
    obtain ⟨hinv, honce⟩ := run_invariant_along (I := fun q => Inv q ∧ Once q)
      (fun q e hq hone => ⟨inv_step disableDeferral e hq.1, hq.2.step hq.1 hone⟩)
      ⟨inv_init, once_init⟩ h
    refine kept_of_inv disableDeferral hinv honce.nodup fun hd htrimmed => ?_
    subst hd
    exact between_run htrimmed

/-- A cancelled turn starts the switch, and the message end that follows, while the
switch runs, starts it again. -/
theorem restarted_while_running :
    let switchRequest : SwitchRequest := {
      sessionId := "s1"
      policy := .deferUntilTurnBoundary
      source := .automatic
      target := { serviceId := "codex", profileId := "p2", groupId := "g", generation := some 2 } }
    let events : List Event := [.recordTurnLifecycleEvent "s1" .promptOrSteer, .requestSwitch switchRequest,
      .recordTurnLifecycleEvent "s1" .turnCancelled, .recordTurnLifecycleEvent "s1" .assistantMessageEnd]
    ¬ Kept false events (run (step false) {} events) ∧
      (run (step false) {} events).startedSwitches = [0, 0] := by
  have hstarted : (run (step false) {} [.recordTurnLifecycleEvent "s1" .promptOrSteer,
      .requestSwitch ⟨"s1", .deferUntilTurnBoundary, .automatic, ⟨"codex", "p2", "g", some 2⟩⟩,
      .recordTurnLifecycleEvent "s1" .turnCancelled,
      .recordTurnLifecycleEvent "s1" .assistantMessageEnd]).startedSwitches = [0, 0] := by
    decide
  refine ⟨fun h => ?_, hstarted⟩
  have hnodup := h.startedOnce
  rw [hstarted] at hnodup
  exact absurd hnodup (by decide)

end Queue

end DevPilot.Switching
