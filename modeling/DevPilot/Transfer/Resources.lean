import DevPilot.Lib.Slices
import DevPilot.Transfer.Responder

/-!
Who has each payload source and which timeout can end each transfer, whatever
handlers overlap, and when overlapping handlers leave that in order.
-/

namespace DevPilot.Transfer

section

variable {α : Type} [DecidableEq α] {β : α → Type}

theorem perm_cons_erase {m : AList β} {a : α} {b : β a} (h : m.lookup a = some b) :
    m.entries.Perm (⟨a, b⟩ :: (m.erase a).entries) := by
  have hmem : a ∈ m.entries.keys := AList.mem_keys.mp (AList.lookup_isSome.mp (by simp [h]))
  obtain ⟨b', before, behind, hbefore, hentries, herase⟩ := List.exists_of_kerase hmem
  have hb : b' = b := by
    have hdlookup : m.entries.dlookup a = some b := h
    rw [hentries, List.dlookup_append, List.dlookup_eq_none.mpr hbefore, List.dlookup_cons_eq] at hdlookup
    exact Option.some.inj hdlookup
  have hrest : (m.erase a).entries = before ++ behind := herase
  rw [hrest, hentries, hb]
  exact List.perm_middle

theorem erase_entries_of_none {m : AList β} {a : α} (h : m.lookup a = none) : (m.erase a).entries = m.entries :=
  List.kerase_of_notMem_keys (AList.lookup_eq_none.mp h)

end

def SourceEvent.disposed? : SourceEvent → Option ℕ
  | .disposed serial => some serial
  | _ => none

def Task.holds? : Task → Option ℕ
  | .sizing _ _ source => some source.serial
  | .hashing _ _ source _ => some source.serial
  | _ => none

def activeSerials (active : AList fun _ : String => ActiveTransferState) : List ℕ :=
  active.entries.map fun entry => entry.2.payloadSource.serial

def Timeout.expires (timeout : Timeout) (transferId : String) (state : ActiveTransferState) : Bool :=
  timeout.transferId = transferId && timeout.nonce = state.timeoutNonce

/-- The places of the sources: disposed, active, or in the hands of an open. -/
def State.places (s : State) : List ℕ :=
  s.log.filterMap SourceEvent.disposed? ++ activeSerials s.activeTransfers ++ s.tasks.filterMap Task.holds?

/-- Each transfer has its source and one timeout, nothing happens to a source after its
disposal, and each loaded source has one place. -/
structure State.Sound (s : State) : Prop where
  undisposed : ∀ transferId state, s.activeTransfers.lookup transferId = some state →
    .disposed state.payloadSource.serial ∉ s.log
  oneTimeout : ∀ transferId state, s.activeTransfers.lookup transferId = some state →
    (s.timers.filter fun timeout => timeout.expires transferId state).length = 1
  untouched : s.log.Pairwise fun before after => ∀ serial, before = .disposed serial → after.serial ≠ serial
  onePlace : ∀ serial, .loaded serial ∈ s.log → s.places.count serial = 1

def Task.sourceMachineId : Task → String
  | .loading machine _ | .reporting machine _ | .sizing machine _ _ | .hashing machine _ _ _ => machine
  | .disposing machine _ _ | .sendingFirst machine _ _ | .sendingNext machine _ _ _ | .failing machine _ => machine

def State.messenger (s : State) : Event → Option String
  | .receive sourceMachineId _ => some sourceMachineId
  | .resume index _ => s.tasks[index]?.map Task.sourceMachineId
  | .timeout _ => none

def State.LeavesOthers (host : Host) (params : ResponderParams) (s : State) (e : Event) : Prop :=
  ∀ machine ∈ s.messenger e, ∀ transferId state, s.activeTransfers.lookup transferId = some state →
    state.targetMachineId ≠ machine → (s.step host params e).activeTransfers.lookup transferId = some state

def Outcome.isResolved : Outcome → Bool
  | .resolved .. => true
  | .rejected _ => false

/-- Nothing has come between: the transfer is as the ack has left it when its chunk is
there, and a failure finds no transfer of another machine. -/
def Task.Undisturbed (active : AList fun _ : String => ActiveTransferState) (outcome : Outcome) : Task → Prop
  | .sendingNext _ transferId rearmedCurrent _ =>
    outcome.isResolved → active.lookup transferId = some rearmedCurrent
  | .failing sourceMachineId transferId =>
    ∀ state, active.lookup transferId = some state → state.targetMachineId = sourceMachineId
  | _ => True

def State.Undisturbed (s : State) : Event → Prop
  | .resume index outcome => ∀ task, s.tasks[index]? = some task → task.Undisturbed s.activeTransfers outcome
  | _ => True

section

variable {s : State} {held : List ℕ} {transferId : String} {state old : ActiveTransferState}

structure Sources (s : State) (held : List ℕ) : Prop where
  onePlace : ∀ serial, (s.log.filterMap SourceEvent.disposed?).count serial +
    (activeSerials s.activeTransfers).count serial + held.count serial = if serial < s.loads then 1 else 0
  loaded : ∀ serial, .loaded serial ∈ s.log → serial < s.loads
  untouched : s.log.Pairwise fun before after => ∀ serial, before = .disposed serial → after.serial ≠ serial

theorem count_erase (h : s.activeTransfers.lookup transferId = some old) (serial : ℕ) :
    (activeSerials s.activeTransfers).count serial =
      (activeSerials (s.activeTransfers.erase transferId)).count serial +
        if old.payloadSource.serial = serial then 1 else 0 := by
  have hperm := (perm_cons_erase h).map fun entry => entry.2.payloadSource.serial
  rw [activeSerials, hperm.count_eq, List.map_cons, List.count_cons, activeSerials]
  simp

theorem count_insert (serial : ℕ) :
    (activeSerials (s.activeTransfers.insert transferId state)).count serial =
      (activeSerials (s.activeTransfers.erase transferId)).count serial +
        if state.payloadSource.serial = serial then 1 else 0 := by
  rw [activeSerials, AList.entries_insert, List.map_cons, List.count_cons, activeSerials]
  unfold AList.erase
  simp

theorem mem_disposed {log : List SourceEvent} {serial : ℕ} :
    serial ∈ log.filterMap SourceEvent.disposed? ↔ .disposed serial ∈ log := by
  rw [List.mem_filterMap]
  constructor
  · rintro ⟨event, hmem, hserial⟩
    cases event with
    | disposed n => exact Option.some.inj hserial ▸ hmem
    | _ => cases hserial
  · exact fun hmem => ⟨_, hmem, rfl⟩

theorem count_note (log : List SourceEvent) (event : SourceEvent) (serial : ℕ) :
    ((log ++ [event]).filterMap SourceEvent.disposed?).count serial =
      (log.filterMap SourceEvent.disposed?).count serial + if event = .disposed serial then 1 else 0 := by
  rw [List.filterMap_append, List.count_append]
  cases event with
  | disposed n => simp [SourceEvent.disposed?, List.count_singleton]
  | loaded n => simp [SourceEvent.disposed?, List.filterMap_cons]
  | read n => simp [SourceEvent.disposed?, List.filterMap_cons]

theorem Sources.undisposed (h : Sources s held) {serial : ℕ}
    (hplace : 0 < (activeSerials s.activeTransfers).count serial + held.count serial) :
    .disposed serial ∉ s.log := by
  rw [← mem_disposed, ← List.count_eq_zero]
  have hone := h.onePlace serial
  split at hone <;> omega

theorem Sources.active_undisposed (h : Sources s held) (hlookup : s.activeTransfers.lookup transferId = some old) :
    .disposed old.payloadSource.serial ∉ s.log := by
  refine h.undisposed ?_
  rw [count_erase hlookup, if_pos rfl]
  omega

theorem untouched_note {log : List SourceEvent} {event : SourceEvent}
    (h : log.Pairwise fun before after => ∀ serial, before = .disposed serial → after.serial ≠ serial)
    (hevent : .disposed event.serial ∉ log) :
    (log ++ [event]).Pairwise fun before after => ∀ serial, before = .disposed serial → after.serial ≠ serial := by
  refine List.pairwise_append.mpr ⟨h, List.pairwise_singleton _ _, fun before hbefore after hafter serial hserial => ?_⟩
  rw [List.mem_singleton.mp hafter]
  rintro rfl
  exact hevent (hserial ▸ hbefore)

theorem Sources.read (h : Sources s held) {serial : ℕ} (hserial : .disposed serial ∉ s.log) :
    Sources (s.note (.read serial)) held where
  onePlace n := by
    have hone := h.onePlace n
    rw [State.note, count_note, if_neg (by simp)]
    exact hone
  loaded n hmem := h.loaded n (by simpa [State.note] using hmem)
  untouched := untouched_note h.untouched hserial

theorem Sources.dispose {serial : ℕ} (h : Sources s (serial :: held)) :
    Sources (s.note (.disposed serial)) held where
  onePlace n := by
    have hone := h.onePlace n
    rw [List.count_cons] at hone
    rw [State.note, count_note, ← hone]
    simp only [SourceEvent.disposed.injEq, beq_iff_eq]
    omega
  loaded n hmem := h.loaded n (by simpa [State.note] using hmem)
  untouched := untouched_note h.untouched (h.undisposed (by simp [SourceEvent.serial]))

theorem Sources.load (h : Sources s held) :
    Sources ({ s with loads := s.loads + 1 }.note (.loaded s.loads)) (s.loads :: held) where
  onePlace n := by
    have hone := h.onePlace n
    rw [State.note, count_note, if_neg (by simp), List.count_cons]
    simp only [beq_iff_eq]
    by_cases hn : s.loads = n
    · rw [if_neg (by omega)] at hone
      rw [if_pos hn, if_pos (by omega)]
      omega
    · rw [if_neg hn, Nat.add_zero, Nat.add_zero, hone]
      split <;> split <;> omega
  loaded n hmem := by
    rcases List.mem_append.mp hmem with hold | hnew
    · exact Nat.lt_succ_of_lt (h.loaded n hold)
    · simp only [List.mem_singleton, SourceEvent.loaded.injEq] at hnew
      exact hnew ▸ Nat.lt_succ_self _
  untouched := by
    refine untouched_note h.untouched ?_
    have hone := h.onePlace s.loads
    rw [if_neg (lt_irrefl _), Nat.add_assoc] at hone
    exact fun hmem => List.count_eq_zero.mp (Nat.eq_zero_of_add_eq_zero_right hone) (mem_disposed.mpr hmem)

theorem Sources.cleanup (h : Sources s held) (hlookup : s.activeTransfers.lookup transferId = some old)
    (hsource : state.payloadSource = old.payloadSource) :
    Sources (s.cleanupTransfer transferId (some state)) held where
  onePlace n := by
    have hone := h.onePlace n
    rw [count_erase hlookup] at hone
    rw [State.cleanupTransfer, State.note, count_note, hsource]
    simp only [SourceEvent.disposed.injEq]
    exact Eq.trans (by simp only [State.clearTimeout]; omega) hone
  loaded n hmem := h.loaded n (by simpa [State.cleanupTransfer, State.note, State.clearTimeout] using hmem)
  untouched := untouched_note h.untouched (hsource ▸ h.active_undisposed hlookup)

theorem Sources.reset (h : Sources s held) (hlookup : s.activeTransfers.lookup transferId = some old)
    (hsource : state.payloadSource = old.payloadSource) : Sources (s.setRearmed transferId state) held where
  onePlace n := by
    have hone := h.onePlace n
    rw [count_erase hlookup] at hone
    refine Eq.trans ?_ hone
    simp only [State.setRearmed, State.set, State.clearTimeout, count_insert, State.rearmed, hsource]
  loaded := h.loaded
  untouched := h.untouched

theorem Sources.activate (h : Sources s (state.payloadSource.serial :: held))
    (hlookup : s.activeTransfers.lookup transferId = none) : Sources (s.setRearmed transferId state) held where
  onePlace n := by
    have hone := h.onePlace n
    rw [List.count_cons] at hone
    refine Eq.trans ?_ hone
    have hentries : activeSerials (s.activeTransfers.erase transferId) = activeSerials s.activeTransfers := by
      rw [activeSerials, erase_entries_of_none hlookup, activeSerials]
    simp only [State.setRearmed, State.set, State.clearTimeout, count_insert, State.rearmed, hentries, beq_iff_eq]
    omega
  loaded := h.loaded
  untouched := h.untouched

/-- Each transfer has one armed timeout, the one its state names, and there is no other. -/
def Timed (s : State) : Prop :=
  ∀ transferId, match s.activeTransfers.lookup transferId with
    | none => ∀ timeout ∈ s.timers, timeout.transferId ≠ transferId
    | some state => ∃ timeout, state.timeout = some timeout ∧ timeout.nonce = state.timeoutNonce ∧
        s.timers.filter (·.transferId = transferId) = [timeout]

theorem Timed.active (h : Timed s) (hlookup : s.activeTransfers.lookup transferId = some old) :
    ∃ timeout, old.timeout = some timeout ∧ timeout.nonce = old.timeoutNonce ∧
      s.timers.filter (·.transferId = transferId) = [timeout] := by
  have hid := h transferId
  rwa [hlookup] at hid

theorem Timed.inactive (h : Timed s) (hlookup : s.activeTransfers.lookup transferId = none) :
    ∀ timeout ∈ s.timers, timeout.transferId ≠ transferId := by
  have hid := h transferId
  rwa [hlookup] at hid

theorem Timed.clear (h : Timed s) {timeout : Option Timeout}
    (htimeout : timeout = (s.activeTransfers.lookup transferId).bind ActiveTransferState.timeout) :
    (∀ armed ∈ (s.clearTimeout timeout).timers, armed.transferId ≠ transferId) ∧
      ∀ other, other ≠ transferId → (s.clearTimeout timeout).timers.filter (·.transferId = other) =
        s.timers.filter (·.transferId = other) := by
  cases hlookup : s.activeTransfers.lookup transferId with
  | none =>
      rw [hlookup, Option.bind_none] at htimeout
      subst htimeout
      have hsame : (s.clearTimeout none).timers = s.timers := by
        simp [State.clearTimeout]
      rw [hsame]
      exact ⟨h.inactive hlookup, fun other _ => rfl⟩
  | some old =>
      obtain ⟨named, hnamed, -, hfilter⟩ := h.active hlookup
      rw [hlookup, Option.bind_some, hnamed] at htimeout
      subst htimeout
      have hmem : named ∈ s.timers.filter (·.transferId = transferId) := hfilter ▸ List.mem_singleton_self named
      have hnamedId : named.transferId = transferId := by simpa using (List.mem_filter.mp hmem).2
      refine ⟨fun armed harmed hid => ?_, fun other hother => ?_⟩
      · obtain ⟨hin, hne⟩ := List.mem_filter.mp harmed
        have hsingle : armed ∈ s.timers.filter (·.transferId = transferId) :=
          List.mem_filter.mpr ⟨hin, by simpa using hid⟩
        rw [hfilter, List.mem_singleton] at hsingle
        simp [hsingle] at hne
      · rw [State.clearTimeout, List.filter_filter]
        refine List.filter_congr fun armed _ => ?_
        by_cases hid : armed.transferId = other
        · have hne : armed ≠ named := fun heq => hother (by rw [← hid, heq, hnamedId])
          simp [hid, hne]
        · simp [hid]

theorem Timed.cleanup (h : Timed s) (hlookup : s.activeTransfers.lookup transferId = some old)
    (htimeout : state.timeout = old.timeout) : Timed (s.cleanupTransfer transferId (some state)) := by
  have htimeout' : state.timeout = (s.activeTransfers.lookup transferId).bind ActiveTransferState.timeout := by
    rw [hlookup]
    exact htimeout
  obtain ⟨hgone, hothers⟩ := h.clear htimeout'
  intro other
  by_cases hid : other = transferId
  · subst hid
    simp only [State.cleanupTransfer, State.note, AList.lookup_erase]
    exact hgone
  · have hother := h other
    simp only [State.cleanupTransfer, State.note, AList.lookup_erase_ne hid, hothers other hid]
    split at hother
    · next hnone =>
      intro armed harmed
      exact hother armed (List.mem_filter.mp harmed).1
    · next st hsome => exact hother

theorem Timed.set (h : Timed s)
    (htimeout : state.timeout = (s.activeTransfers.lookup transferId).bind ActiveTransferState.timeout) :
    Timed (s.setRearmed transferId state) := by
  obtain ⟨hgone, hothers⟩ := h.clear htimeout
  intro other
  by_cases hid : other = transferId
  · subst hid
    simp only [State.setRearmed, State.set, AList.lookup_insert]
    refine ⟨_, rfl, rfl, ?_⟩
    have hnone : (s.clearTimeout state.timeout).timers.filter (·.transferId = other) = [] :=
      List.filter_eq_nil_iff.mpr fun armed harmed => by simpa using hgone armed harmed
    rw [List.filter_append, hnone, List.nil_append]
    simp
  · have hother := h other
    simp only [State.setRearmed, State.set, AList.lookup_insert_ne hid]
    have hsame : ((s.clearTimeout state.timeout).timers ++ [(⟨s.armed, transferId, state.timeoutNonce + 1⟩ : Timeout)]).filter
        (·.transferId = other) = s.timers.filter (·.transferId = other) := by
      rw [List.filter_append, hothers other hid]
      simp [Ne.symm hid]
    split
    · next hnone =>
      rw [show s.activeTransfers.lookup other = none from hnone] at hother
      intro armed harmed hin
      have hmem : armed ∈ s.timers.filter (·.transferId = other) := hsame ▸ List.mem_filter.mpr ⟨harmed, by simpa using hin⟩
      exact hother armed (List.mem_filter.mp hmem).1 hin
    · next st hsome =>
      rw [show s.activeTransfers.lookup other = some st from hsome] at hother
      rw [hsame]
      exact hother

theorem Timed.expire_eq (h : Timed s) {timeout : Timeout} (hmem : timeout ∈ s.timers) :
    ∃ current, s.activeTransfers.lookup timeout.transferId = some current ∧
      s.expire timeout = (s.cleanupTransfer timeout.transferId (some current)).send current.targetMachineId
        (.abort timeout.transferId "timeout") := by
  cases hlookup : s.activeTransfers.lookup timeout.transferId with
  | none => exact absurd rfl (h.inactive hlookup timeout hmem)
  | some current =>
      obtain ⟨named, hnamed, hnonce, hfilter⟩ := h.active hlookup
      have hsingle : timeout ∈ s.timers.filter (·.transferId = timeout.transferId) :=
        List.mem_filter.mpr ⟨hmem, by simp⟩
      rw [hfilter, List.mem_singleton] at hsingle
      subst hsingle
      refine ⟨current, rfl, ?_⟩
      simp only [State.expire, hlookup, hnonce, ne_eq, not_true_eq_false, if_false]
      simp [State.cleanupTransfer, State.clearTimeout, State.note, hnamed, List.filter_filter]

end

namespace Task

def opens? : Task → Option String
  | .loading _ envelope => some envelope.transferId
  | .reporting _ transferId => some transferId
  | .sizing _ envelope _ => some envelope.transferId
  | .hashing _ envelope _ _ => some envelope.transferId
  | .disposing _ transferId _ => some transferId
  | .sendingFirst _ transferId _ => some transferId
  | _ => none

def preparing? : Task → Option String
  | .sendingFirst .. => none
  | task => task.opens?

def FromPeer : Task → Prop
  | .sendingNext sourceMachineId _ rearmedCurrent _ => rearmedCurrent.targetMachineId = sourceMachineId
  | _ => True

end Task

/-- Each open is the only one of its transfer, and until it sets it no transfer is active. -/
structure Opens (s : State) (tasks : List Task) : Prop where
  pending : (tasks.filterMap Task.opens?).Perm s.pendingOpenTransfers
  nodup : s.pendingOpenTransfers.Nodup
  preparing : ∀ task ∈ tasks, ∀ transferId ∈ task.preparing?, s.activeTransfers.lookup transferId = none
  fromPeer : ∀ task ∈ tasks, task.FromPeer

/-- The invariant; `tasks` are the handlers, the one that goes on included. -/
structure Inv (s : State) (tasks : List Task) : Prop where
  sources : Sources s (tasks.filterMap Task.holds?)
  timed : Timed s
  opens : Opens s tasks

section

variable {s : State} {tasks : List Task} {task task' : Task} {transferId : String}
  {state old : ActiveTransferState}

theorem Sources.perm {held held' : List ℕ} (h : Sources s held) (hperm : held.Perm held') : Sources s held' where
  onePlace serial := hperm.count_eq serial ▸ h.onePlace serial
  loaded := h.loaded
  untouched := h.untouched

theorem Inv.perm {tasks' : List Task} (h : Inv s tasks) (hperm : tasks.Perm tasks') : Inv s tasks' where
  sources := h.sources.perm (hperm.filterMap _)
  timed := h.timed
  opens := {
    pending := (hperm.filterMap _).symm.trans h.opens.pending
    nodup := h.opens.nodup
    preparing := fun task hmem => h.opens.preparing task (hperm.mem_iff.mpr hmem)
    fromPeer := fun task hmem => h.opens.fromPeer task (hperm.mem_iff.mpr hmem) }

theorem Inv.spawn (h : Inv s (task :: s.tasks)) : Inv (s.spawn task) (s.spawn task).tasks := by
  have hend := h.perm (List.perm_append_singleton task s.tasks).symm
  exact ⟨⟨hend.sources.onePlace, hend.sources.loaded, hend.sources.untouched⟩, hend.timed,
    ⟨hend.opens.pending, hend.opens.nodup, hend.opens.preparing, hend.opens.fromPeer⟩⟩

theorem Inv.send (h : Inv s tasks) (targetMachineId : String) (envelope : Envelope) :
    Inv (s.send targetMachineId envelope) tasks :=
  ⟨⟨h.sources.onePlace, h.sources.loaded, h.sources.untouched⟩, h.timed,
    ⟨h.opens.pending, h.opens.nodup, h.opens.preparing, h.opens.fromPeer⟩⟩

theorem Inv.advance (h : Inv s (task :: tasks)) (hopens : task'.opens? = task.opens?)
    (hpreparing : task'.preparing? = task.preparing?) (hholds : task'.holds? = task.holds?)
    (hpeer : task'.FromPeer) : Inv s (task' :: tasks) where
  sources := by simpa only [List.filterMap_cons, hholds] using h.sources
  timed := h.timed
  opens := {
    pending := by simpa only [List.filterMap_cons, hopens] using h.opens.pending
    nodup := h.opens.nodup
    preparing := by
      refine List.forall_mem_cons.mpr ⟨?_, (List.forall_mem_cons.mp h.opens.preparing).2⟩
      rw [hpreparing]
      exact (List.forall_mem_cons.mp h.opens.preparing).1
    fromPeer := List.forall_mem_cons.mpr ⟨hpeer, (List.forall_mem_cons.mp h.opens.fromPeer).2⟩ }

theorem Inv.leave (h : Inv s (task :: tasks)) (hopens : task.opens? = none) (hholds : task.holds? = none) :
    Inv s tasks where
  sources := by simpa only [List.filterMap_cons, hholds] using h.sources
  timed := h.timed
  opens := {
    pending := by simpa only [List.filterMap_cons, hopens] using h.opens.pending
    nodup := h.opens.nodup
    preparing := (List.forall_mem_cons.mp h.opens.preparing).2
    fromPeer := (List.forall_mem_cons.mp h.opens.fromPeer).2 }

theorem Task.preparing_of_opens (h : task.opens? = none) : task.preparing? = none := by
  cases task <;> first | exact h | rfl

theorem Inv.enter (h : Inv s tasks) (hopens : task.opens? = none) (hholds : task.holds? = none)
    (hpeer : task.FromPeer) : Inv s (task :: tasks) where
  sources := by simpa only [List.filterMap_cons, hholds] using h.sources
  timed := h.timed
  opens := {
    pending := by simpa only [List.filterMap_cons, hopens] using h.opens.pending
    nodup := h.opens.nodup
    preparing := by
      refine List.forall_mem_cons.mpr ⟨fun transferId hid => ?_, h.opens.preparing⟩
      rw [Task.preparing_of_opens hopens] at hid
      cases hid
    fromPeer := List.forall_mem_cons.mpr ⟨hpeer, h.opens.fromPeer⟩ }

theorem Inv.endOpen (h : Inv s (task :: tasks)) (hopens : task.opens? = some transferId)
    (hholds : task.holds? = none) : Inv (s.endOpen transferId) tasks where
  sources := by
    have hsources := h.sources
    rw [List.filterMap_cons, hholds] at hsources
    exact ⟨hsources.onePlace, hsources.loaded, hsources.untouched⟩
  timed := h.timed
  opens := {
    pending := by
      have hpending := h.opens.pending
      rw [List.filterMap_cons, hopens] at hpending
      have herase := hpending.erase transferId
      rw [List.erase_cons_head] at herase
      exact herase
    nodup := h.opens.nodup.erase transferId
    preparing := (List.forall_mem_cons.mp h.opens.preparing).2
    fromPeer := (List.forall_mem_cons.mp h.opens.fromPeer).2 }

theorem Inv.read (h : Inv s tasks) {serial : ℕ} (hserial : .disposed serial ∉ s.log) :
    Inv (s.note (.read serial)) tasks :=
  ⟨h.sources.read hserial, h.timed, ⟨h.opens.pending, h.opens.nodup, h.opens.preparing, h.opens.fromPeer⟩⟩

theorem Inv.cleanup (h : Inv s tasks) (hlookup : s.activeTransfers.lookup transferId = some old)
    (hsource : state.payloadSource = old.payloadSource) (htimeout : state.timeout = old.timeout) :
    Inv (s.cleanupTransfer transferId (some state)) tasks where
  sources := h.sources.cleanup hlookup hsource
  timed := h.timed.cleanup hlookup htimeout
  opens := {
    pending := h.opens.pending
    nodup := h.opens.nodup
    preparing := by
      intro task hmem other hother
      by_cases hid : other = transferId
      · exact hid ▸ AList.lookup_erase _ _
      · exact (AList.lookup_erase_ne hid).trans (h.opens.preparing task hmem other hother)
    fromPeer := h.opens.fromPeer }

theorem Inv.reset (h : Inv s tasks) (hlookup : s.activeTransfers.lookup transferId = some old)
    (hsource : state.payloadSource = old.payloadSource) (htimeout : state.timeout = old.timeout) :
    Inv (s.setRearmed transferId state) tasks where
  sources := h.sources.reset hlookup hsource
  timed := h.timed.set (by rw [hlookup]; exact htimeout)
  opens := {
    pending := h.opens.pending
    nodup := h.opens.nodup
    preparing := by
      intro task hmem other hother
      have hnone := h.opens.preparing task hmem other hother
      have hid : other ≠ transferId := by
        rintro rfl
        rw [hlookup] at hnone
        cases hnone
      exact (AList.lookup_insert_ne hid).trans hnone
    fromPeer := h.opens.fromPeer }

theorem lookup_setRearmed :
    (s.setRearmed transferId state).activeTransfers.lookup transferId = some (s.rearmed transferId state) :=
  AList.lookup_insert _

theorem Inv.beginSend (h : Inv s tasks) (hlookup : s.activeTransfers.lookup transferId = some old)
    (hsource : state.payloadSource = old.payloadSource) : Inv (s.beginSend transferId state) tasks := by
  unfold State.beginSend
  split
  · exact h.send _ _
  · exact h.read (hsource ▸ h.sources.active_undisposed hlookup)

theorem beginSend_tasks : (s.beginSend transferId state).tasks = s.tasks := by
  unfold State.beginSend
  split <;> rfl

theorem Inv.endSend (h : Inv s tasks) (host : Host) (randomBytes : Bytes) :
    Inv (s.endSend host transferId state randomBytes) tasks := by
  unfold State.endSend
  split
  · exact h
  · exact h.send _ _

theorem endSend_frame (host : Host) (randomBytes : Bytes) :
    (s.endSend host transferId state randomBytes).tasks = s.tasks ∧
      (s.endSend host transferId state randomBytes).activeTransfers = s.activeTransfers := by
  unfold State.endSend
  split <;> exact ⟨rfl, rfl⟩

variable (host : Host) (params : ResponderParams)

theorem inv_receiveOpen (sourceMachineId : String) (envelope : OpenEnvelope) (h : Inv s s.tasks) :
    Inv (s.receiveOpen host params sourceMachineId envelope)
      (s.receiveOpen host params sourceMachineId envelope).tasks := by
  unfold State.receiveOpen
  simp only
  split
  · exact h.send _ _
  · split
    · exact h
    · next hinactive =>
      split
      · exact h
      · next hidle =>
        split
        · exact h.send _ _
        · split
          · exact h.send _ _
          · refine Inv.spawn ⟨⟨h.sources.onePlace, h.sources.loaded, h.sources.untouched⟩, h.timed, ?_⟩
            constructor
            · rw [List.filterMap_cons]
              exact (List.Perm.cons _ h.opens.pending).trans (List.perm_append_singleton _ _).symm
            · exact List.nodup_append.mpr ⟨h.opens.nodup, List.nodup_singleton _, fun id hid other hother heq =>
                hidle (List.mem_singleton.mp hother ▸ heq ▸ hid)⟩
            · refine List.forall_mem_cons.mpr ⟨?_, h.opens.preparing⟩
              rintro _ ⟨⟩
              exact AList.lookup_eq_none.mpr hinactive
            · exact List.forall_mem_cons.mpr ⟨trivial, h.opens.fromPeer⟩

theorem inv_receiveAbort (sourceMachineId : String) (h : Inv s s.tasks) :
    Inv (s.receiveAbort sourceMachineId transferId) (s.receiveAbort sourceMachineId transferId).tasks := by
  unfold State.receiveAbort
  split
  · exact h
  · next current hcurrent =>
    split
    · exact h
    · exact h.cleanup hcurrent rfl rfl

theorem inv_receiveAck (sourceMachineId : String) (nextSequence : AckSequence) (h : Inv s s.tasks) :
    Inv (s.receiveAck sourceMachineId transferId nextSequence)
      (s.receiveAck sourceMachineId transferId nextSequence).tasks := by
  unfold State.receiveAck
  split
  · exact h
  · next current hcurrent =>
    split
    · exact h
    · next hpeer =>
      have hreset : Inv (s.setRearmed transferId current) (s.setRearmed transferId current).tasks :=
        h.reset hcurrent rfl rfl
      have hlookup : (s.setRearmed transferId current).activeTransfers.lookup transferId =
          some (s.rearmed transferId current) := lookup_setRearmed
      simp only
      split
      · exact (hreset.cleanup hlookup rfl rfl).send _ _
      · split
        · exact (hreset.cleanup hlookup rfl rfl).send _ _
        · split
          · exact hreset
          · split
            · exact (hreset.cleanup hlookup rfl rfl).send _ _
            · refine Inv.spawn ?_
              rw [beginSend_tasks]
              exact Inv.enter (Inv.beginSend hreset hlookup rfl) rfl rfl (not_not.mp hpeer)

theorem inv_disposeOpen (sourceMachineId : String) (source : LoadedSource) (failed : Bool)
    (h : Inv s (task :: s.tasks)) (hopens : task.opens? = some transferId)
    (hpreparing : task.preparing? = some transferId) (hholds : task.holds? = some source.serial) :
    Inv (s.disposeOpen sourceMachineId transferId source failed)
      (s.disposeOpen sourceMachineId transferId source failed).tasks := by
  have hsources := h.sources
  rw [List.filterMap_cons, hholds] at hsources
  have hdisposing : Inv (s.note (.disposed source.serial))
      (.disposing sourceMachineId transferId failed :: (s.note (.disposed source.serial)).tasks) := by
    refine ⟨hsources.dispose, h.timed, ⟨?_, h.opens.nodup, ?_, ?_⟩⟩
    · have hpending := h.opens.pending
      rw [List.filterMap_cons, hopens] at hpending
      exact hpending
    · refine List.forall_mem_cons.mpr ⟨?_, (List.forall_mem_cons.mp h.opens.preparing).2⟩
      have hown := (List.forall_mem_cons.mp h.opens.preparing).1
      rw [hpreparing] at hown
      exact hown
    · exact List.forall_mem_cons.mpr ⟨trivial, (List.forall_mem_cons.mp h.opens.fromPeer).2⟩
  exact hdisposing.spawn

theorem inv_loaded (sourceMachineId : String) (envelope : OpenEnvelope) (source : TransferPayloadSource)
    (h : Inv s (.loading sourceMachineId envelope :: s.tasks)) :
    Inv (s.loaded sourceMachineId envelope source) (s.loaded sourceMachineId envelope source).tasks := by
  have hsizing : Inv ({ s with loads := s.loads + 1 }.note (.loaded s.loads))
      (.sizing sourceMachineId envelope { source with serial := s.loads } :: s.tasks) :=
    ⟨h.sources.load, h.timed, ⟨h.opens.pending, h.opens.nodup,
      List.forall_mem_cons.mpr (List.forall_mem_cons.mp h.opens.preparing),
      List.forall_mem_cons.mpr ⟨trivial, (List.forall_mem_cons.mp h.opens.fromPeer).2⟩⟩⟩
  exact hsizing.spawn

theorem inv_sized (sourceMachineId : String) (envelope : OpenEnvelope) (source : LoadedSource)
    (h : Inv s (.sizing sourceMachineId envelope source :: s.tasks)) :
    Inv (s.sized params sourceMachineId envelope source) (s.sized params sourceMachineId envelope source).tasks := by
  unfold State.sized
  simp only
  split
  · exact inv_disposeOpen sourceMachineId source false (h.send _ _) rfl rfl rfl
  · split
    · exact inv_disposeOpen sourceMachineId source false (h.send _ _) rfl rfl rfl
    · exact Inv.spawn (h.advance rfl rfl rfl trivial)

theorem inv_hashed (sourceMachineId : String) (envelope : OpenEnvelope) (source : LoadedSource) (totalChunks : ℕ)
    (h : Inv s (.hashing sourceMachineId envelope source totalChunks :: s.tasks)) :
    Inv (s.hashed host params sourceMachineId envelope source totalChunks)
      (s.hashed host params sourceMachineId envelope source totalChunks).tasks := by
  have hnone : s.activeTransfers.lookup envelope.transferId = none :=
    (List.forall_mem_cons.mp h.opens.preparing).1 _ rfl
  have hnodup : (envelope.transferId :: s.tasks.filterMap Task.opens?).Nodup :=
    h.opens.pending.nodup_iff.mpr h.opens.nodup
  unfold State.hashed
  simp only
  generalize hbase : (ActiveTransferState.mk sourceMachineId source (source.resolveManifestHash host)
    params.chunkBytes totalChunks 0 (envelope.recipientPublicKeyBase64.getD "") 0 none) = stateBase
  have hsource : stateBase.payloadSource = source := by rw [← hbase]
  have htimeout : stateBase.timeout = none := by rw [← hbase]
  have hset : Inv (s.setRearmed envelope.transferId stateBase)
      (.sendingFirst sourceMachineId envelope.transferId (s.rearmed envelope.transferId stateBase) :: s.tasks) := by
    refine ⟨?_, h.timed.set (by rw [hnone]; exact htimeout), ⟨h.opens.pending, h.opens.nodup, ?_, ?_⟩⟩
    · refine Sources.activate ?_ hnone
      rw [hsource]
      exact h.sources
    · refine List.forall_mem_cons.mpr ⟨nofun, fun task hmem other hother => ?_⟩
      have hopens : task.opens? = some other := by
        cases task <;> first | exact hother | cases hother
      have hid : other ≠ envelope.transferId := by
        rintro rfl
        exact (List.nodup_cons.mp hnodup).1 (List.mem_filterMap.mpr ⟨task, hmem, hopens⟩)
      exact (AList.lookup_insert_ne hid).trans ((List.forall_mem_cons.mp h.opens.preparing).2 task hmem other hother)
    · exact List.forall_mem_cons.mpr ⟨trivial, (List.forall_mem_cons.mp h.opens.fromPeer).2⟩
  refine Inv.spawn ?_
  rw [beginSend_tasks]
  exact hset.beginSend lookup_setRearmed rfl

theorem inv_sentNext {rearmedCurrent : ActiveTransferState} (nextSequence : ℕ) (h : Inv s s.tasks)
    (hlookup : s.activeTransfers.lookup transferId = some rearmedCurrent) :
    Inv (s.sentNext transferId { rearmedCurrent with nextSequenceToSend := nextSequence })
      (s.sentNext transferId { rearmedCurrent with nextSequenceToSend := nextSequence }).tasks := by
  unfold State.sentNext
  split
  · exact h.cleanup hlookup rfl rfl
  · exact h.reset hlookup rfl rfl

theorem inv_resume (outcome : Outcome) (task : Task) (h : Inv s (task :: s.tasks))
    (hundisturbed : task.Undisturbed s.activeTransfers outcome) :
    Inv (s.resume host params outcome task) (s.resume host params outcome task).tasks := by
  cases task with
  | loading sourceMachineId envelope =>
      have habort : ∀ reason, Inv ((s.send sourceMachineId (.abort envelope.transferId reason)).endOpen
          envelope.transferId) s.tasks := fun reason => (h.send _ _).endOpen rfl rfl
      unfold State.resume
      simp only
      split
      · exact inv_loaded sourceMachineId envelope _ h
      · exact habort _
      · exact habort _
      · exact habort _
      · exact Inv.spawn (h.advance rfl rfl rfl trivial)
  | reporting sourceMachineId transferId => exact (h.send _ _).endOpen rfl rfl
  | sizing sourceMachineId envelope source =>
      cases outcome with
      | resolved => exact inv_sized params sourceMachineId envelope source h
      | rejected => exact inv_disposeOpen sourceMachineId source true h rfl rfl rfl
  | hashing sourceMachineId envelope source totalChunks =>
      cases outcome with
      | resolved => exact inv_hashed host params sourceMachineId envelope source totalChunks h
      | rejected => exact inv_disposeOpen sourceMachineId source true h rfl rfl rfl
  | disposing sourceMachineId transferId failed =>
      have hend : Inv (s.endOpen transferId) (s.endOpen transferId).tasks := h.endOpen rfl rfl
      cases failed with
      | false => exact hend
      | true => exact Inv.spawn (hend.enter rfl rfl trivial)
  | sendingFirst sourceMachineId transferId state =>
      cases outcome with
      | resolved _ randomBytes =>
          have hsend : Inv (s.endSend host transferId state randomBytes)
              (.sendingFirst sourceMachineId transferId state :: (s.endSend host transferId state randomBytes).tasks) := by
            rw [(endSend_frame host randomBytes).1]
            exact h.endSend host randomBytes
          exact hsend.endOpen rfl rfl
      | rejected =>
          have hend : Inv (s.endOpen transferId) (s.endOpen transferId).tasks := h.endOpen rfl rfl
          exact Inv.spawn (hend.enter rfl rfl trivial)
  | sendingNext sourceMachineId transferId rearmedCurrent nextSequence =>
      have hleave : Inv s s.tasks := h.leave rfl rfl
      cases outcome with
      | resolved _ randomBytes =>
          refine inv_sentNext nextSequence ?_ ?_
          · rw [(endSend_frame host randomBytes).1]
            exact hleave.endSend host randomBytes
          · rw [(endSend_frame host randomBytes).2]
            exact hundisturbed rfl
      | rejected => exact Inv.spawn (hleave.enter rfl rfl trivial)
  | failing sourceMachineId transferId =>
      have hleave : Inv s s.tasks := h.leave rfl rfl
      unfold State.resume
      simp only
      cases hlookup : s.activeTransfers.lookup transferId with
      | none => exact hleave.send _ _
      | some current => exact (hleave.cleanup hlookup rfl rfl).send _ _

theorem inv_step {e : Event} (h : Inv s s.tasks) (hundisturbed : s.Undisturbed e) :
    Inv (s.step host params e) (s.step host params e).tasks := by
  cases e with
  | receive sourceMachineId envelope =>
      cases envelope with
      | opening envelope => exact inv_receiveOpen host params sourceMachineId envelope h
      | abort transferId reason => exact inv_receiveAbort sourceMachineId h
      | ack transferId nextSequence => exact inv_receiveAck sourceMachineId nextSequence h
      | chunk => exact h
      | finish => exact h
  | resume index outcome =>
      simp only [State.step]
      split
      · exact h
      · next task htask =>
        obtain ⟨before, behind, htasks, herase⟩ := Slices.exists_append_of_getElem? htask
        have hperm : s.tasks.Perm (task :: s.tasks.eraseIdx index) := by
          rw [herase, htasks]
          exact List.perm_middle
        have hinv := h.perm hperm
        exact inv_resume host params outcome task ⟨⟨hinv.sources.onePlace, hinv.sources.loaded, hinv.sources.untouched⟩,
          hinv.timed, ⟨hinv.opens.pending, hinv.opens.nodup, hinv.opens.preparing, hinv.opens.fromPeer⟩⟩
          (hundisturbed task htask)
  | timeout index =>
      simp only [State.step]
      split
      · exact h
      · next timeout htimeout =>
        obtain ⟨current, hcurrent, hexpire⟩ := h.timed.expire_eq (List.mem_of_getElem? htimeout)
        rw [hexpire]
        exact (h.cleanup hcurrent rfl rfl).send _ _

theorem Inv.sound (h : Inv s s.tasks) : s.Sound where
  undisposed transferId state hlookup := h.sources.active_undisposed hlookup
  oneTimeout transferId state hlookup := by
    obtain ⟨timeout, -, hnonce, hfilter⟩ := h.timed.active hlookup
    have hboth : s.timers.filter (fun armed => armed.expires transferId state) =
        (s.timers.filter (·.transferId = transferId)).filter fun armed => armed.nonce = state.timeoutNonce := by
      rw [List.filter_filter]
      exact List.filter_congr fun armed _ => Bool.and_comm _ _
    rw [hboth, hfilter]
    simp [hnonce]
  untouched := h.sources.untouched
  onePlace serial hmem := by
    rw [State.places, List.count_append, List.count_append, h.sources.onePlace, if_pos (h.sources.loaded serial hmem)]

theorem leaves_of_onlyAt {s' : State} {machine : String} (touched : String)
    (honly : ∀ other, other ≠ touched → s'.activeTransfers.lookup other = s.activeTransfers.lookup other)
    (hown : ∀ state, s.activeTransfers.lookup touched = some state → state.targetMachineId = machine) :
    ∀ other state, s.activeTransfers.lookup other = some state → state.targetMachineId ≠ machine →
      s'.activeTransfers.lookup other = some state := by
  intro other state hlookup hforeign
  have hid : other ≠ touched := by
    rintro rfl
    exact hforeign (hown state hlookup)
  rw [honly other hid, hlookup]

theorem receiveOpen_active (sourceMachineId : String) (envelope : OpenEnvelope) :
    (s.receiveOpen host params sourceMachineId envelope).activeTransfers = s.activeTransfers := by
  unfold State.receiveOpen
  simp only
  split
  · rfl
  · split
    · rfl
    · split
      · rfl
      · split
        · rfl
        · split <;> rfl

theorem beginSend_active : (s.beginSend transferId state).activeTransfers = s.activeTransfers := by
  unfold State.beginSend
  split <;> rfl

theorem receiveAck_only (sourceMachineId : String) (nextSequence : AckSequence) {other : String}
    (hid : other ≠ transferId) : (s.receiveAck sourceMachineId transferId nextSequence).activeTransfers.lookup other =
      s.activeTransfers.lookup other := by
  unfold State.receiveAck
  split
  · rfl
  · next current hcurrent =>
    have hset : (s.setRearmed transferId current).activeTransfers.lookup other = s.activeTransfers.lookup other :=
      AList.lookup_insert_ne hid
    split
    · rfl
    · simp only
      split
      · exact (AList.lookup_erase_ne hid).trans hset
      · split
        · exact (AList.lookup_erase_ne hid).trans hset
        · split
          · exact hset
          · split
            · exact (AList.lookup_erase_ne hid).trans hset
            · simp only [State.spawn, beginSend_active]
              exact hset

theorem leaves_receive (sourceMachineId : String) (envelope : Envelope) :
    ∀ transferId state, s.activeTransfers.lookup transferId = some state → state.targetMachineId ≠ sourceMachineId →
      (s.receive host params sourceMachineId envelope).activeTransfers.lookup transferId = some state := by
  intro transferId state hlookup hforeign
  cases envelope with
  | opening envelope =>
      rw [State.receive, receiveOpen_active]
      exact hlookup
  | abort aborted reason =>
      simp only [State.receive, State.receiveAbort]
      split
      · exact hlookup
      · next current hcurrent =>
        split
        · exact hlookup
        · next hpeer =>
          refine leaves_of_onlyAt aborted (fun other hid => AList.lookup_erase_ne hid) (fun found hfound => ?_) _ _ hlookup hforeign
          rw [hcurrent, Option.some.injEq] at hfound
          exact hfound ▸ not_not.mp hpeer
  | ack acked nextSequence =>
      simp only [State.receive]
      by_cases hpeer : ∃ current, s.activeTransfers.lookup acked = some current ∧ current.targetMachineId ≠ sourceMachineId
      · obtain ⟨current, hcurrent, hne⟩ := hpeer
        simp only [State.receiveAck, hcurrent, if_pos hne]
        exact hlookup
      · refine leaves_of_onlyAt acked (fun other hid => receiveAck_only sourceMachineId nextSequence hid) (fun found hfound => ?_)
          _ _ hlookup hforeign
        by_contra hne
        exact hpeer ⟨found, hfound, hne⟩
  | chunk => exact hlookup
  | finish => exact hlookup

theorem sized_active (sourceMachineId : String) (envelope : OpenEnvelope) (source : LoadedSource) :
    (s.sized params sourceMachineId envelope source).activeTransfers = s.activeTransfers := by
  unfold State.sized
  simp only
  split
  · rfl
  · split <;> rfl

theorem cleanup_only {current : Option ActiveTransferState} {other : String} (hid : other ≠ transferId) :
    (s.cleanupTransfer transferId current).activeTransfers.lookup other = s.activeTransfers.lookup other := by
  cases current with
  | none => rfl
  | some state => exact AList.lookup_erase_ne hid

theorem leaves_resume (outcome : Outcome) (task : Task) (h : Inv s (task :: tasks))
    (hundisturbed : task.Undisturbed s.activeTransfers outcome) :
    ∀ transferId state, s.activeTransfers.lookup transferId = some state →
      state.targetMachineId ≠ task.sourceMachineId →
      (s.resume host params outcome task).activeTransfers.lookup transferId = some state := by
  intro transferId state hlookup hforeign
  cases task with
  | loading sourceMachineId envelope =>
      unfold State.resume
      simp only
      split <;> exact hlookup
  | reporting => exact hlookup
  | sizing sourceMachineId envelope source =>
      cases outcome with
      | resolved =>
          simp only [State.resume, sized_active]
          exact hlookup
      | rejected => exact hlookup
  | hashing sourceMachineId envelope source totalChunks =>
      cases outcome with
      | resolved =>
          have hnone := (List.forall_mem_cons.mp h.opens.preparing).1 _ rfl
          refine leaves_of_onlyAt envelope.transferId (fun other hid => ?_) (fun found hfound => ?_) _ _ hlookup hforeign
          · simp only [State.resume, State.hashed, State.spawn, beginSend_active]
            exact AList.lookup_insert_ne hid
          · rw [hnone] at hfound
            cases hfound
      | rejected => exact hlookup
  | disposing sourceMachineId transferId failed =>
      cases failed with
      | false => exact hlookup
      | true => exact hlookup
  | sendingFirst sourceMachineId transferId state =>
      cases outcome with
      | resolved =>
          simp only [State.resume, State.endOpen, (endSend_frame host _).2]
          exact hlookup
      | rejected => exact hlookup
  | sendingNext sourceMachineId sentId rearmedCurrent nextSequence =>
      cases outcome with
      | resolved _ randomBytes =>
          have hrearmed := hundisturbed rfl
          have hpeer := (List.forall_mem_cons.mp h.opens.fromPeer).1
          refine leaves_of_onlyAt sentId (fun other hid => ?_) (fun found hfound => ?_) _ _ hlookup hforeign
          · simp only [State.resume, State.sentNext]
            split
            · rw [cleanup_only hid, (endSend_frame host randomBytes).2]
            · refine (AList.lookup_insert_ne hid).trans ?_
              rw [State.clearTimeout, (endSend_frame host randomBytes).2]
          · rw [hrearmed, Option.some.injEq] at hfound
            exact hfound ▸ hpeer
      | rejected => exact hlookup
  | failing sourceMachineId failedId =>
      exact leaves_of_onlyAt failedId (fun other hid => cleanup_only hid) hundisturbed _ _ hlookup hforeign

theorem leavesOthers_step {e : Event} (h : Inv s s.tasks) (hundisturbed : s.Undisturbed e) :
    s.LeavesOthers host params e := by
  intro machine hmachine transferId state hlookup hforeign
  cases e with
  | receive sourceMachineId envelope =>
      obtain rfl := Option.mem_some_iff.mp hmachine
      exact leaves_receive host params sourceMachineId envelope transferId state hlookup hforeign
  | resume index outcome =>
      obtain ⟨task, htask, rfl⟩ := Option.map_eq_some_iff.mp hmachine
      simp only [State.step, htask]
      obtain ⟨before, behind, htasks, herase⟩ := Slices.exists_append_of_getElem? htask
      have hinv : Inv s (task :: s.tasks.eraseIdx index) := h.perm (by
        rw [herase, htasks]
        exact List.perm_middle)
      exact leaves_resume host params (s := { s with tasks := s.tasks.eraseIdx index }) outcome task ⟨⟨hinv.sources.onePlace, hinv.sources.loaded, hinv.sources.untouched⟩,
        hinv.timed, ⟨hinv.opens.pending, hinv.opens.nodup, hinv.opens.preparing, hinv.opens.fromPeer⟩⟩
        (hundisturbed task htask) transferId state hlookup hforeign
  | timeout => cases hmachine

end

def Task.rank : Task → ℕ
  | .reporting .. | .failing .. => 1
  | .disposing .. | .sendingFirst .. | .sendingNext .. => 2
  | .hashing .. => 3
  | .sizing .. => 4
  | .loading .. => 5

theorem Task.rank_pos (task : Task) : 0 < task.rank := by
  cases task <;> simp [rank]

def State.work (s : State) : ℕ := (s.tasks.map Task.rank).sum

section

variable (host : Host) (params : ResponderParams) {s : State}

theorem cleanup_tasks (transferId : String) (current : Option ActiveTransferState) :
    (s.cleanupTransfer transferId current).tasks = s.tasks := by
  cases current <;> rfl

theorem work_resume (outcome : Outcome) (task : Task) :
    (s.resume host params outcome task).work < s.work + task.rank := by
  have hspawn : ∀ (s' : State) (task' : Task), s'.tasks = s.tasks → task'.rank < task.rank →
      (s'.spawn task').work < s.work + task.rank := by
    intro s' task' htasks hrank
    rw [State.work, State.spawn, htasks, List.map_append, List.sum_append, State.work]
    simpa using hrank
  have hsame : ∀ s' : State, s'.tasks = s.tasks → s'.work < s.work + task.rank := by
    intro s' htasks
    have hpos := task.rank_pos
    rw [State.work, htasks, ← State.work]
    omega
  cases task with
  | loading sourceMachineId envelope =>
      unfold State.resume
      simp only
      split
      · exact hspawn _ _ rfl (by simp [Task.rank])
      · exact hsame _ rfl
      · exact hsame _ rfl
      · exact hsame _ rfl
      · exact hspawn _ _ rfl (by simp [Task.rank])
  | reporting => exact hsame _ rfl
  | sizing sourceMachineId envelope source =>
      cases outcome with
      | resolved =>
          simp only [State.resume, State.sized]
          split
          · exact hspawn _ _ rfl (by simp [Task.rank])
          · split
            · exact hspawn _ _ rfl (by simp [Task.rank])
            · exact hspawn _ _ rfl (by simp [Task.rank])
      | rejected => exact hspawn _ _ rfl (by simp [Task.rank])
  | hashing sourceMachineId envelope source totalChunks =>
      cases outcome with
      | resolved => exact hspawn _ _ beginSend_tasks (by simp [Task.rank])
      | rejected => exact hspawn _ _ rfl (by simp [Task.rank])
  | disposing sourceMachineId transferId failed =>
      cases failed with
      | false => exact hsame _ rfl
      | true => exact hspawn _ _ rfl (by simp [Task.rank])
  | sendingFirst sourceMachineId transferId state =>
      cases outcome with
      | resolved _ randomBytes => exact hsame _ (endSend_frame host randomBytes).1
      | rejected => exact hspawn _ _ rfl (by simp [Task.rank])
  | sendingNext sourceMachineId transferId rearmedCurrent nextSequence =>
      cases outcome with
      | resolved _ randomBytes =>
          refine hsame _ ?_
          simp only [State.resume, State.sentNext]
          split
          · rw [cleanup_tasks, (endSend_frame host randomBytes).1]
          · exact (endSend_frame host randomBytes).1
      | rejected => exact hspawn _ _ rfl (by simp [Task.rank])
  | failing => exact hsame _ (cleanup_tasks _ _)

theorem handlers_end (outcomes : List Outcome) (h : s.work ≤ outcomes.length) :
    (Runs.run (State.step host params) s (outcomes.map (.resume 0))).tasks = [] := by
  induction outcomes generalizing s with
  | nil =>
      cases htasks : s.tasks with
      | nil => exact htasks
      | cons task tasks =>
          have hpos := task.rank_pos
          simp only [State.work, htasks, List.map_cons, List.sum_cons, List.length_nil] at h
          omega
  | cons outcome outcomes ih =>
      refine ih ?_
      cases htasks : s.tasks with
      | nil =>
          simp only [State.step, htasks, List.getElem?_nil, State.work, List.map_nil, List.sum_nil]
          exact Nat.zero_le _
      | cons task tasks =>
          have hwork := work_resume host params (s := { s with tasks := tasks }) outcome task
          simp only [State.step, htasks, List.getElem?_cons_zero, List.eraseIdx_zero, List.tail_cons]
          simp only [State.work, htasks, List.map_cons, List.sum_cons, List.length_cons] at h hwork ⊢
          omega

end

/-- Along a run in which nothing comes between an ack and its chunk, and no failure meets a
transfer of another machine, each transfer has its source and one timeout, each loaded
source ends in one place, and the messages of a machine leave the transfers of others. -/
theorem resources_kept (host : Host) (params : ResponderParams) (events : List Event)
    (h : Runs.Along (State.step host params) State.Undisturbed {} events) :
    (Runs.run (State.step host params) {} events).Sound ∧
      Runs.Along (State.step host params) (State.LeavesOthers host params) {} events ∧
      ∀ outcomes : List Outcome, (Runs.run (State.step host params) {} events).work ≤ outcomes.length →
        (Runs.run (State.step host params) (Runs.run (State.step host params) {} events)
          (outcomes.map (.resume 0))).tasks = [] := by
  have hstart : Inv {} [] :=
    ⟨⟨fun _ => rfl, nofun, List.Pairwise.nil⟩, fun _ => nofun, ⟨List.Perm.nil, List.nodup_nil, nofun, nofun⟩⟩
  refine ⟨?_, ?_, fun outcomes => handlers_end host params outcomes⟩
  · exact (Runs.run_invariant_along (I := fun s : State => Inv s s.tasks)
      (fun s e hs he => inv_step host params hs he) hstart h).sound
  · exact Runs.along_of_along (I := fun s : State => Inv s s.tasks)
      (fun s e hs he => leavesOthers_step host params hs he) (fun s e hs he => inv_step host params hs he) hstart h

instance (active : AList fun _ : String => ActiveTransferState) (outcome : Outcome) :
    (task : Task) → Decidable (task.Undisturbed active outcome)
  | .sendingNext _ transferId rearmedCurrent _ =>
    inferInstanceAs (Decidable (outcome.isResolved → active.lookup transferId = some rearmedCurrent))
  | .failing sourceMachineId transferId =>
    inferInstanceAs (Decidable (∀ state ∈ active.lookup transferId, state.targetMachineId = sourceMachineId))
  | .loading .. | .reporting .. | .sizing .. | .hashing .. | .disposing .. | .sendingFirst .. => isTrue trivial

instance (s : State) : (e : Event) → Decidable (s.Undisturbed e)
  | .resume index outcome =>
    inferInstanceAs (Decidable (∀ task ∈ s.tasks[index]?, task.Undisturbed s.activeTransfers outcome))
  | .receive .. | .timeout _ => isTrue trivial

/-- A host whose hashes and ciphertexts show what they are of. -/
def plainHost : Host where
  decodeBase64 := fun _ => []
  parsesAsJson := fun _ => true
  createTransferManifestHash := fun bytes => s!"sha256:{bytes}"
  parsesAsRecipientKey := fun _ => true
  encryptChunk := fun _ transferId sequence payload key => (s!"{transferId}:{sequence}:{payload}", key)
  decryptChunk := fun _ _ _ _ _ => none

def smallParams : ResponderParams where
  chunkBytes := 2
  chunkBytes_pos := Nat.zero_lt_two
  maxActiveTransfers := 4
  maxBytes := some 1000
  inMemoryMaxBytes := 1000
  openPayloadMaxBytes := 1000

def openTransfer : List Event :=
  .receive "machine-1" (.opening {
    transferId := "transfer-1"
    manifestHash := "sha256:0"
    recipientPublicKeyBase64 := some "AAAAAAAAAAAAAAAAAAAAAAAAAAAAAAAAAAAAAAAAAAA="
    openPayloadBase64 := none }) ::
  .resume 0 (.resolved (some { kind := .file, bytes := [1, 2, 3] }) []) ::
  List.replicate 3 (.resume 0 (.resolved none []))

theorem resources_kept_ack :
    (Runs.run (State.step plainHost smallParams) {}
      (openTransfer ++ [Event.receive "machine-1" (.ack "transfer-1" (.integer 1)), .resume 0 (.resolved none [])])).Sound :=
  (resources_kept plainHost smallParams _ (by decide)).1

/-- A transfer that is aborted while its next chunk is read comes back, without its source. -/
theorem disposed_source_active :
    ∃ (host : Host) (params : ResponderParams) (events : List Event),
      ¬ (Runs.run (State.step host params) {} events).Sound := by
  refine ⟨plainHost, smallParams, openTransfer ++ [
    .receive "machine-1" (.ack "transfer-1" (.integer 1)),
    .receive "machine-1" (.abort "transfer-1" "recipient_error"),
    .resume 0 (.resolved none [])], fun h => ?_⟩
  generalize hend : Runs.run (State.step plainHost smallParams) {} _ = s at h
  have hserial : (s.activeTransfers.lookup "transfer-1").map (·.payloadSource.serial) = some 0 := by
    rw [← hend]
    decide
  obtain ⟨state, hlookup, hzero⟩ := Option.map_eq_some_iff.mp hserial
  refine h.undisposed "transfer-1" state hlookup ?_
  rw [hzero, ← hend]
  decide

end DevPilot.Transfer
