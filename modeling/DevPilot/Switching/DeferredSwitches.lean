import DevPilot.Switching.DeferralQueue

/-!
What the deferral queue keeps over any sequence of its calls, timers and runs: who
waits for what, which switch was started when, and how every request is answered.
-/

namespace DevPilot.Switching

open Tables

namespace Entry

def started? : Entry → Option ℕ
  | started switch _ _ => some switch
  | _ => none

def settled? : Entry → Option ℕ
  | settled request _ => some request
  | _ => none

def withdrawn? : Entry → Option ℕ
  | superseded switch | cancelled switch | restarting switch => some switch
  | _ => none

end Entry

namespace Queue

variable {q : Queue} {switch request : ℕ} {pending : PendingSwitch}

def startedSwitches (q : Queue) : List ℕ := q.log.filterMap Entry.started?

def settledRequests (q : Queue) : List ℕ := q.log.filterMap Entry.settled?

def requestsOf (q : Queue) (switch : ℕ) : List ℕ := ((q.switches switch).map (·.requests)).getD []

def waiting (q : Queue) (request : ℕ) : ℕ :=
  q.runs.count (.immediate request) +
    ∑ switch ∈ Finset.range q.nextRequest, (q.requestsOf switch).count request

/-- Something is under way that settles the request: a run of its own switch, or of the
pending switch it waits for, or that switch's timer. -/
def Waits (q : Queue) (request : ℕ) : Prop :=
  .immediate request ∈ q.runs ∨
    ∃ switch pending, q.switches switch = some pending ∧ request ∈ pending.requests ∧
      (pending.timer = true ∨ .pending switch ∈ q.runs)

def Earned (q : Queue) (request : ℕ) : Prop :=
  .unnamed request ∈ q.log ∨
    ∃ switch, .joined request switch ∈ q.log ∧ (.ran switch ∈ q.log ∨ .restarting switch ∈ q.log)

def NotAfter (log : List Entry) : Prop :=
  log.Pairwise fun a b => ∀ switch, a.withdrawn? = some switch → b.started? ≠ some switch

structure Inv (q : Queue) : Prop where
  pendings : ∀ sessionId switch, q.pendingBySessionId.get sessionId = some switch →
    ∃ pending, q.switches switch = some pending ∧ pending.settled = false ∧
      pending.sessionId = sessionId
  registered : ∀ switch pending, q.switches switch = some pending → pending.settled = false →
    q.pendingBySessionId.get pending.sessionId = some switch
  fresh : ∀ switch, q.nextRequest ≤ switch →
    q.switches switch = none ∧ switch ∉ q.startedSwitches
  done : ∀ switch pending, q.switches switch = some pending → pending.settled = true →
    pending.requests = [] ∧ pending.timer = false
  armed : ∀ switch pending, q.switches switch = some pending → pending.settled = false →
    pending.timer = true ∨ .pending switch ∈ q.runs
  running : ∀ switch, .pending switch ∈ q.runs → switch ∈ q.startedSwitches
  known : ∀ switch, .pending switch ∈ q.runs → q.switches switch ≠ none
  answered : ∀ request,
    q.settledRequests.count request + q.waiting request = if request < q.nextRequest then 1 else 0
  joined : ∀ switch request, request ∈ q.requestsOf switch → .joined request switch ∈ q.log
  immediate : ∀ request, .immediate request ∈ q.runs → .joined request request ∈ q.log
  earned : ∀ request, .settled request true ∈ q.log → q.Earned request
  withdrawn : ∀ e ∈ q.log, ∀ switch, e.withdrawn? = some switch →
    ∃ pending, q.switches switch = some pending ∧ pending.settled = true
  notAfter : NotAfter q.log

theorem sum_count_update {n a : ℕ} {f g : ℕ → ℕ} (ha : a < n) (h : ∀ i, i ≠ a → g i = f i) :
    ∑ i ∈ Finset.range n, g i + f a = ∑ i ∈ Finset.range n, f i + g a := by
  have hmem := Finset.mem_range.mpr ha
  rw [← Finset.add_sum_erase _ f hmem, ← Finset.add_sum_erase _ g hmem,
    Finset.sum_congr rfl fun i hi => h i (Finset.ne_of_mem_erase hi)]
  ring

theorem requestsOf_some (h : q.switches switch = some pending) :
    q.requestsOf switch = pending.requests := by
  rw [requestsOf, h]
  rfl

theorem requestsOf_none (h : q.switches switch = none) : q.requestsOf switch = [] := by
  rw [requestsOf, h]
  rfl

theorem Earned.mono {q' : Queue} (h : q.Earned request) (hlog : q.log ⊆ q'.log) :
    q'.Earned request := by
  rcases h with h | ⟨switch, hjoined, h | h⟩
  · exact .inl (hlog h)
  · exact .inr ⟨switch, hlog hjoined, .inl (hlog h)⟩
  · exact .inr ⟨switch, hlog hjoined, .inr (hlog h)⟩

theorem notAfter_append {log entries : List Entry} (h : NotAfter log)
    (hentries : ∀ e ∈ entries, e.started? = none) : NotAfter (log ++ entries) := by
  refine List.pairwise_append.mpr
    ⟨h, List.pairwise_of_forall_mem_list ?_, fun a _ b hb switch _ => ?_⟩
  · intro a _ b hb switch _
    simp [hentries b hb]
  · simp [hentries b hb]

theorem notAfter_concat {log : List Entry} {e : Entry} (h : NotAfter log)
    (he : ∀ a ∈ log, ∀ switch, a.withdrawn? = some switch → e.started? ≠ some switch) :
    NotAfter (log ++ [e]) := by
  refine List.pairwise_append.mpr ⟨h, List.pairwise_singleton .., fun a ha b hb => ?_⟩
  rw [List.mem_singleton.mp hb]
  exact he a ha

theorem Inv.lt_of_some (hinv : q.Inv) (h : q.switches switch = some pending) :
    switch < q.nextRequest := by
  by_contra hle
  rw [(hinv.fresh switch (by omega)).1] at h
  cases h

theorem inv_init : ({} : Queue).Inv where
  pendings := by simp
  registered := by simp
  fresh := by simp [startedSwitches]
  done := by simp
  armed := by simp
  running := by simp
  known := by simp
  answered := by simp [settledRequests, waiting]
  joined := by simp [requestsOf]
  immediate := by simp
  earned := by simp
  withdrawn := by simp
  notAfter := .nil

theorem Inv.setTurns (h : q.Inv) (turns : Table SessionTurnState) :
    ({ q with turnStateBySessionId := turns } : Queue).Inv :=
  ⟨h.pendings, h.registered, h.fresh, h.done, h.armed, h.running, h.known,
    h.answered, h.joined, h.immediate, h.earned, h.withdrawn, h.notAfter⟩

theorem settlePending_log (hs : pending.settled = false) (resolve : Bool) :
    (q.settlePending switch pending resolve).log =
      q.log ++ pending.requests.map (Entry.settled · resolve) := by
  simp [settlePending, hs, record, setPending]

theorem filterMap_started_settled (requests : List ℕ) (resolve : Bool) :
    (requests.map (Entry.settled · resolve)).filterMap Entry.started? = [] := by
  simp [List.filterMap_eq_nil_iff, Entry.started?]

theorem filterMap_settled_settled (requests : List ℕ) (resolve : Bool) :
    (requests.map (Entry.settled · resolve)).filterMap Entry.settled? = requests := by
  induction requests with
  | nil => rfl
  | cons request requests ih => simpa [Entry.settled?] using ih

theorem Inv.settle (h : q.Inv) (hp : q.switches switch = some pending)
    (hs : pending.settled = false) {entries : List Entry} {runs : List SwitchRun} {resolve : Bool}
    (hstarted : ∀ e ∈ entries, e.started? = none) (hsettled : ∀ e ∈ entries, e.settled? = none)
    (hwithdrawn : ∀ e ∈ entries, ∀ i, e.withdrawn? = some i → i = switch)
    (hearned : resolve = true → .ran switch ∈ entries ∨ .restarting switch ∈ entries)
    (hsub : runs ⊆ q.runs) (hruns : ∀ run, run ≠ .pending switch → runs.count run = q.runs.count run) :
    (({ q.record entries with runs := runs } : Queue).settlePending switch pending resolve).Inv := by
  have hlt := h.lt_of_some hp
  have hstartedNil : entries.filterMap Entry.started? = [] := List.filterMap_eq_nil_iff.mpr hstarted
  have hsettledNil : entries.filterMap Entry.settled? = [] := List.filterMap_eq_nil_iff.mpr hsettled
  have hswitches : ∀ i, (({ q.record entries with runs := runs } : Queue).settlePending switch
      pending resolve).switches i = if i = switch then
        some { pending with settled := true, timer := false, requests := [] } else q.switches i := by
    intro i
    simp [settlePending, hs, record, setPending, Function.update_apply]
  have hof : ∀ i, (({ q.record entries with runs := runs } : Queue).settlePending switch
      pending resolve).requestsOf i = if i = switch then [] else q.requestsOf i := by
    intro i
    rw [requestsOf, hswitches]
    split_ifs <;> rfl
  have hlog : (({ q.record entries with runs := runs } : Queue).settlePending switch
      pending resolve).log = q.log ++ entries ++ pending.requests.map (Entry.settled · resolve) :=
    settlePending_log hs resolve
  have hget : ∀ sessionId, (({ q.record entries with runs := runs } : Queue).settlePending switch
      pending resolve).pendingBySessionId.get sessionId =
        if sessionId = pending.sessionId then none else q.pendingBySessionId.get sessionId := by
    intro sessionId
    simp [settlePending, hs, record, setPending, Table.get_delete]
  have hrunsEq : (({ q.record entries with runs := runs } : Queue).settlePending switch
      pending resolve).runs = runs := by
    simp [settlePending, hs, record, setPending]
  have hnext : (({ q.record entries with runs := runs } : Queue).settlePending switch
      pending resolve).nextRequest = q.nextRequest := by
    simp [settlePending, hs, record, setPending]
  generalize ({ q.record entries with runs := runs } : Queue).settlePending switch pending resolve = q'
    at *
  have hstartedSwitches : q'.startedSwitches = q.startedSwitches := by
    rw [startedSwitches, hlog, List.filterMap_append, List.filterMap_append, hstartedNil,
      filterMap_started_settled, List.append_nil, List.append_nil, startedSwitches]
  have hsettledRequests : q'.settledRequests = q.settledRequests ++ pending.requests := by
    rw [settledRequests, hlog, List.filterMap_append, List.filterMap_append, hsettledNil,
      filterMap_settled_settled, List.append_nil, settledRequests]
  have hsubset : q.log ⊆ q'.log := by
    rw [hlog, List.append_assoc]
    exact List.subset_append_left ..
  constructor
  case pendings =>
    intro sessionId i hi
    rw [hget] at hi
    split_ifs at hi with hid
    obtain ⟨p, hpi, hps, hpid⟩ := h.pendings sessionId i hi
    have hne : i ≠ switch := by
      rintro rfl
      exact hid (hpid.symm.trans (by rw [Option.some.inj (hpi.symm.trans hp)]))
    exact ⟨p, by rw [hswitches, if_neg hne, hpi], hps, hpid⟩
  case registered =>
    intro i p hi hps
    rw [hswitches] at hi
    split_ifs at hi with hne
    · cases hi
      cases hps
    · have hreg := h.registered i p hi hps
      rw [hget, if_neg, hreg]
      intro hid
      rw [hid, h.registered switch pending hp hs] at hreg
      exact hne (Option.some.inj hreg).symm
  case fresh =>
    intro i hi
    rw [hnext] at hi
    rw [hswitches, if_neg (by omega), hstartedSwitches]
    exact h.fresh i hi
  case done =>
    intro i p hi hps
    rw [hswitches] at hi
    split_ifs at hi
    · cases hi
      exact ⟨rfl, rfl⟩
    · exact h.done i p hi hps
  case armed =>
    intro i p hi hps
    rw [hswitches] at hi
    split_ifs at hi with hne
    · cases hi
      cases hps
    · rw [hrunsEq]
      refine (h.armed i p hi hps).imp_right fun hmem => ?_
      rw [← List.count_pos_iff] at hmem ⊢
      rwa [hruns _ (by simpa using hne)]
  case running =>
    intro i hi
    rw [hrunsEq] at hi
    rw [hstartedSwitches]
    exact h.running i (hsub hi)
  case known =>
    intro i hi
    rw [hrunsEq] at hi
    rw [hswitches]
    split_ifs
    · simp
    · exact h.known i (hsub hi)
  case answered =>
    intro request
    have hsum := sum_count_update (f := fun i => (q.requestsOf i).count request)
      (g := fun i => (q'.requestsOf i).count request) hlt
      (fun i hi => by simp only [hof, if_neg hi])
    have hq := h.answered request
    simp only [hof, if_pos, List.count_nil, requestsOf_some hp] at hsum
    simp only [waiting, hsettledRequests, hnext, hrunsEq, hruns (.immediate request) (by simp),
      List.count_append, hof] at hq ⊢
    omega
  case joined =>
    intro i request hi
    rw [hof] at hi
    split_ifs at hi
    · cases hi
    · exact hsubset (h.joined i request hi)
  case immediate =>
    intro request hi
    rw [hrunsEq] at hi
    exact hsubset (h.immediate request (hsub hi))
  case earned =>
    intro request hi
    rw [hlog, List.mem_append, List.mem_append] at hi
    rcases hi with (hi | hi) | hi
    · exact (h.earned request hi).mono hsubset
    · exact absurd (hsettled _ hi) (by simp [Entry.settled?])
    · obtain ⟨r, hr, heq⟩ := List.mem_map.mp hi
      cases heq
      refine .inr ⟨switch, hsubset (h.joined switch request (by rwa [requestsOf_some hp])), ?_⟩
      have hentries : entries ⊆ q'.log := by
        rw [hlog]
        exact fun e he => List.mem_append_left _ (List.mem_append_right _ he)
      exact (hearned rfl).imp (fun hi => hentries hi) fun hi => hentries hi
  case withdrawn =>
    intro e he i hi
    rw [hlog, List.mem_append, List.mem_append] at he
    rcases he with (he | he) | he
    · obtain ⟨p, hpi, hps⟩ := h.withdrawn e he i hi
      have hne : i ≠ switch := by
        rintro rfl
        rw [Option.some.inj (hpi.symm.trans hp), hs] at hps
        cases hps
      exact ⟨p, by rw [hswitches, if_neg hne, hpi], hps⟩
    · exact ⟨_, by rw [hswitches, if_pos (hwithdrawn e he i hi)], rfl⟩
    · obtain ⟨r, -, rfl⟩ := List.mem_map.mp he
      cases hi
  case notAfter =>
    rw [hlog, List.append_assoc]
    refine notAfter_append h.notAfter fun e he => ?_
    rcases List.mem_append.mp he with he | he
    · exact hstarted e he
    · obtain ⟨r, -, rfl⟩ := List.mem_map.mp he
      rfl

theorem Inv.execute (h : q.Inv) (hp : q.switches switch = some pending)
    (hs : pending.settled = false) (timedOut : Bool) :
    (q.executePendingSwitch switch pending timedOut).Inv := by
  have hlt := h.lt_of_some hp
  have hswitches : ∀ i, (q.executePendingSwitch switch pending timedOut).switches i =
      if i = switch then some { pending with timer := false } else q.switches i := by
    intro i
    simp [executePendingSwitch, hs, record, setPending, Function.update_apply]
  have hlog : (q.executePendingSwitch switch pending timedOut).log =
      q.log ++ [Entry.started switch timedOut (q.isTurnInFlight pending.sessionId)] := by
    simp [executePendingSwitch, hs, record, setPending]
  have hruns : (q.executePendingSwitch switch pending timedOut).runs =
      q.runs ++ [SwitchRun.pending switch] := by
    simp [executePendingSwitch, hs, record, setPending]
  have hget : (q.executePendingSwitch switch pending timedOut).pendingBySessionId =
      q.pendingBySessionId := by
    simp [executePendingSwitch, hs, record, setPending]
  have hnext : (q.executePendingSwitch switch pending timedOut).nextRequest = q.nextRequest := by
    simp [executePendingSwitch, hs, record, setPending]
  generalize q.executePendingSwitch switch pending timedOut = q' at *
  have hof : ∀ i, q'.requestsOf i = q.requestsOf i := by
    intro i
    rw [requestsOf, hswitches]
    split_ifs with hi
    · rw [hi, requestsOf_some hp]
      rfl
    · rfl
  have hstarted : q'.startedSwitches = q.startedSwitches ++ [switch] := by
    rw [startedSwitches, hlog, List.filterMap_append, startedSwitches]
    rfl
  have hsettled : q'.settledRequests = q.settledRequests := by
    rw [settledRequests, hlog, List.filterMap_append, settledRequests]
    exact List.append_nil _
  have hsubset : q.log ⊆ q'.log := hlog ▸ List.subset_append_left ..
  constructor
  case pendings =>
    intro sessionId i hi
    rw [hget] at hi
    obtain ⟨p, hpi, hps, hpid⟩ := h.pendings sessionId i hi
    by_cases hne : i = switch
    · subst hne
      obtain rfl := Option.some.inj (hpi.symm.trans hp)
      exact ⟨{ p with timer := false }, by rw [hswitches, if_pos rfl], hps, hpid⟩
    · exact ⟨p, by rw [hswitches, if_neg hne, hpi], hps, hpid⟩
  case registered =>
    intro i p hi hps
    rw [hswitches] at hi
    rw [hget]
    split_ifs at hi with hne
    · cases hi
      subst hne
      exact h.registered i pending hp hs
    · exact h.registered i p hi hps
  case fresh =>
    intro i hi
    rw [hnext] at hi
    have hne : i ≠ switch := by omega
    rw [hswitches, if_neg hne, hstarted, List.mem_append, List.mem_singleton]
    exact ⟨(h.fresh i hi).1, not_or.mpr ⟨(h.fresh i hi).2, hne⟩⟩
  case done =>
    intro i p hi hps
    rw [hswitches] at hi
    split_ifs at hi
    · cases hi
      rw [hs] at hps
      cases hps
    · exact h.done i p hi hps
  case armed =>
    intro i p hi hps
    rw [hswitches] at hi
    rw [hruns]
    split_ifs at hi with hne
    · exact .inr (List.mem_append_right _ (by simp [hne]))
    · exact (h.armed i p hi hps).imp_right (List.mem_append_left _)
  case running =>
    intro i hi
    rw [hruns] at hi
    rw [hstarted]
    rcases List.mem_append.mp hi with hi | hi
    · exact List.mem_append_left _ (h.running i hi)
    · exact List.mem_append_right _ (by simpa using hi)
  case known =>
    intro i hi
    rw [hruns] at hi
    rw [hswitches]
    split_ifs with hne
    · simp
    · exact h.known i (by simpa [hne] using hi)
  case answered =>
    intro request
    have hq := h.answered request
    have hcount : (q.runs ++ [SwitchRun.pending switch]).count (SwitchRun.immediate request) =
        q.runs.count (SwitchRun.immediate request) := by
      rw [List.count_append, List.count_eq_zero_of_not_mem (l := [_]) (by simp), Nat.add_zero]
    simpa only [waiting, hsettled, hruns, hnext, hof, hcount] using hq
  case joined =>
    intro i request hi
    rw [hof] at hi
    exact hsubset (h.joined i request hi)
  case immediate =>
    intro request hi
    rw [hruns] at hi
    exact hsubset (h.immediate request (by simpa using hi))
  case earned =>
    intro request hi
    rw [hlog] at hi
    exact (h.earned request (by simpa using hi)).mono hsubset
  case withdrawn =>
    intro e he i hi
    have he : e ∈ q.log := by
      rw [hlog] at he
      rcases List.mem_append.mp he with he | he
      · exact he
      · rw [List.mem_singleton.mp he] at hi
        cases hi
    obtain ⟨p, hpi, hps⟩ := h.withdrawn e he i hi
    have hne : i ≠ switch := by
      rintro rfl
      rw [Option.some.inj (hpi.symm.trans hp), hs] at hps
      cases hps
    exact ⟨p, by rw [hswitches, if_neg hne, hpi], hps⟩
  case notAfter =>
    rw [hlog]
    refine notAfter_concat h.notAfter fun a ha i hi heq => ?_
    obtain rfl : switch = i := by simpa [Entry.started?] using heq
    obtain ⟨p, hpi, hps⟩ := h.withdrawn a ha switch hi
    rw [Option.some.inj (hpi.symm.trans hp), hs] at hps
    cases hps

theorem Inv.requestsOf_next (h : q.Inv) {i : ℕ} (hi : q.nextRequest ≤ i) : q.requestsOf i = [] :=
  requestsOf_none (h.fresh i hi).1

theorem sum_requestsOf_succ (h : q.Inv) (request : ℕ) :
    ∑ i ∈ Finset.range (q.nextRequest + 1), (q.requestsOf i).count request =
      ∑ i ∈ Finset.range q.nextRequest, (q.requestsOf i).count request := by
  rw [Finset.sum_range_succ, h.requestsOf_next le_rfl, List.count_nil, Nat.add_zero]

theorem Inv.answer (h : q.Inv) {entries : List Entry} {fulfilled : Bool}
    (hentries : entries ⊆ [.unnamed q.nextRequest])
    (hfulfilled : fulfilled = true → .unnamed q.nextRequest ∈ entries) :
    (q.answer entries fulfilled).Inv := by
  have hlog : (q.answer entries fulfilled).log =
      q.log ++ (entries ++ [Entry.settled q.nextRequest fulfilled]) := rfl
  have hone : ∀ e ∈ entries, e = .unnamed q.nextRequest := fun e he => List.mem_singleton.mp (hentries he)
  have hstarted : (q.answer entries fulfilled).startedSwitches = q.startedSwitches := by
    have hnil : entries.filterMap Entry.started? = [] :=
      List.filterMap_eq_nil_iff.mpr fun e he => by rw [hone e he]; rfl
    rw [startedSwitches, hlog, List.filterMap_append, List.filterMap_append, hnil]
    exact List.append_nil _
  have hsettled : (q.answer entries fulfilled).settledRequests = q.settledRequests ++ [q.nextRequest] := by
    have hnil : entries.filterMap Entry.settled? = [] :=
      List.filterMap_eq_nil_iff.mpr fun e he => by rw [hone e he]; rfl
    rw [settledRequests, hlog, List.filterMap_append, List.filterMap_append, hnil, settledRequests]
    rfl
  have hsubset : q.log ⊆ (q.answer entries fulfilled).log := List.subset_append_left ..
  constructor
  case pendings => exact h.pendings
  case registered => exact h.registered
  case fresh =>
    intro i hi
    rw [hstarted]
    exact h.fresh i (Nat.le_of_succ_le hi)
  case done => exact h.done
  case armed => exact h.armed
  case running =>
    intro i hi
    rw [hstarted]
    exact h.running i hi
  case known => exact h.known
  case answered =>
    intro request
    have hq := h.answered request
    have hsum := sum_requestsOf_succ h request
    simp only [waiting] at hq
    rw [hsettled, List.count_append, List.count_singleton']
    change _ + (q.runs.count (.immediate request) +
      ∑ i ∈ Finset.range (q.nextRequest + 1), (q.requestsOf i).count request) =
        if request < q.nextRequest + 1 then 1 else 0
    rw [hsum]
    split_ifs at hq ⊢ <;> omega
  case joined =>
    intro i request hi
    exact hsubset (h.joined i request hi)
  case immediate =>
    intro request hi
    exact hsubset (h.immediate request hi)
  case earned =>
    intro request hi
    rw [hlog, List.mem_append, List.mem_append, List.mem_singleton] at hi
    rcases hi with hi | hi | hi
    · exact (h.earned request hi).mono hsubset
    · cases hone _ hi
    · cases hi
      exact .inl (List.mem_append_right _ (List.mem_append_left _ (hfulfilled rfl)))
  case withdrawn =>
    intro e he i hi
    rw [hlog, List.mem_append, List.mem_append, List.mem_singleton] at he
    rcases he with he | he | rfl
    · exact h.withdrawn e he i hi
    · rw [hone e he] at hi
      cases hi
    · cases hi
  case notAfter =>
    rw [hlog]
    refine notAfter_append h.notAfter fun e he => ?_
    rcases List.mem_append.mp he with he | he
    · rw [hone e he]
      rfl
    · rw [List.mem_singleton.mp he]
      rfl

theorem Inv.withdrawn_lt (h : q.Inv) {e : Entry} (he : e ∈ q.log) {i : ℕ} (hi : e.withdrawn? = some i) :
    i < q.nextRequest := by
  obtain ⟨p, hp, -⟩ := h.withdrawn e he i hi
  exact h.lt_of_some hp

theorem Inv.runNow (h : q.Inv) (sessionId : String) : (q.runNow sessionId).Inv := by
  have hlog : (q.runNow sessionId).log = q.log ++ [Entry.joined q.nextRequest q.nextRequest,
      .started q.nextRequest false (q.isTurnInFlight sessionId)] := rfl
  have hstarted : (q.runNow sessionId).startedSwitches = q.startedSwitches ++ [q.nextRequest] := by
    rw [startedSwitches, hlog, List.filterMap_append, startedSwitches]
    rfl
  have hsettled : (q.runNow sessionId).settledRequests = q.settledRequests := by
    rw [settledRequests, hlog, List.filterMap_append, settledRequests]
    exact List.append_nil _
  have hruns : (q.runNow sessionId).runs = q.runs ++ [SwitchRun.immediate q.nextRequest] := rfl
  have hsubset : q.log ⊆ (q.runNow sessionId).log := List.subset_append_left ..
  constructor
  case pendings => exact h.pendings
  case registered => exact h.registered
  case fresh =>
    intro i hi
    obtain ⟨hnone, hnot⟩ := h.fresh i (Nat.le_of_succ_le hi)
    rw [hstarted, List.mem_append, List.mem_singleton]
    exact ⟨hnone, not_or.mpr ⟨hnot, (Nat.lt_of_succ_le hi).ne'⟩⟩
  case done => exact h.done
  case armed =>
    intro i p hi hps
    exact (h.armed i p hi hps).imp_right (List.mem_append_left _)
  case running =>
    intro i hi
    rw [hruns] at hi
    rw [hstarted]
    exact List.mem_append_left _ (h.running i (by simpa using hi))
  case known =>
    intro i hi
    rw [hruns] at hi
    exact h.known i (by simpa using hi)
  case answered =>
    intro request
    have hq := h.answered request
    have hsum := sum_requestsOf_succ h request
    have hcount : (q.runs ++ [SwitchRun.immediate q.nextRequest]).count (SwitchRun.immediate request) =
        q.runs.count (SwitchRun.immediate request) + if q.nextRequest = request then 1 else 0 := by
      rw [List.count_append, List.count_singleton']
      simp
    simp only [waiting] at hq
    rw [hsettled]
    change _ + ((q.runs ++ [SwitchRun.immediate q.nextRequest]).count (SwitchRun.immediate request) +
      ∑ i ∈ Finset.range (q.nextRequest + 1), (q.requestsOf i).count request) =
        if request < q.nextRequest + 1 then 1 else 0
    rw [hsum, hcount]
    split_ifs at hq ⊢ <;> omega
  case joined =>
    intro i request hi
    exact hsubset (h.joined i request hi)
  case immediate =>
    intro request hi
    rw [hruns] at hi
    rcases List.mem_append.mp hi with hi | hi
    · exact hsubset (h.immediate request hi)
    · obtain rfl : request = q.nextRequest := by simpa using hi
      rw [hlog]
      simp
  case earned =>
    intro request hi
    rw [hlog] at hi
    exact (h.earned request (by simpa using hi)).mono hsubset
  case withdrawn =>
    intro e he i hi
    rw [hlog, List.mem_append] at he
    rcases he with he | he
    · exact h.withdrawn e he i hi
    · have hnone : e.withdrawn? = none := by
        simp only [List.mem_cons, List.not_mem_nil, or_false] at he
        rcases he with rfl | rfl <;> rfl
      rw [hnone] at hi
      cases hi
  case notAfter =>
    have hjoined : NotAfter (q.log ++ [Entry.joined q.nextRequest q.nextRequest]) :=
      notAfter_append h.notAfter fun e he => by rw [List.mem_singleton.mp he]; rfl
    rw [hlog, List.append_cons]
    refine notAfter_concat hjoined fun a ha i hi heq => ?_
    obtain rfl : q.nextRequest = i := by simpa [Entry.started?] using heq
    rcases List.mem_append.mp ha with ha | ha
    · exact absurd (h.withdrawn_lt ha hi) (lt_irrefl _)
    · rw [List.mem_singleton.mp ha] at hi
      cases hi

theorem Inv.defer (h : q.Inv) {sessionId : String} (hnone : q.pendingBySessionId.get sessionId = none)
    (input : SwitchRequest) : (q.defer sessionId input).Inv := by
  have hlog : (q.defer sessionId input).log = q.log ++ [Entry.joined q.nextRequest q.nextRequest] := rfl
  have hstarted : (q.defer sessionId input).startedSwitches = q.startedSwitches := by
    rw [startedSwitches, hlog, List.filterMap_append, startedSwitches]
    exact List.append_nil _
  have hsettled : (q.defer sessionId input).settledRequests = q.settledRequests := by
    rw [settledRequests, hlog, List.filterMap_append, settledRequests]
    exact List.append_nil _
  have hswitches : ∀ i, (q.defer sessionId input).switches i = if i = q.nextRequest then some {
      sessionId := sessionId
      source := input.source
      target := normalizeTarget input.target
      timer := true
      requests := [q.nextRequest]
      settled := false } else q.switches i := fun i => Function.update_apply ..
  have hof : ∀ i, (q.defer sessionId input).requestsOf i =
      if i = q.nextRequest then [q.nextRequest] else q.requestsOf i := by
    intro i
    rw [requestsOf, hswitches]
    split_ifs <;> rfl
  have hget : ∀ id, (q.defer sessionId input).pendingBySessionId.get id =
      if id = sessionId then some q.nextRequest else q.pendingBySessionId.get id :=
    fun id => Table.get_set ..
  have hruns : (q.defer sessionId input).runs = q.runs := rfl
  have hnext : (q.defer sessionId input).nextRequest = q.nextRequest + 1 := rfl
  have hsubset : q.log ⊆ (q.defer sessionId input).log := List.subset_append_left ..
  generalize q.defer sessionId input = q' at *
  constructor
  case pendings =>
    intro id i hi
    rw [hget] at hi
    split_ifs at hi with hid
    · cases hi
      exact ⟨_, by rw [hswitches, if_pos rfl], rfl, hid.symm⟩
    · obtain ⟨p, hpi, hps, hpid⟩ := h.pendings id i hi
      exact ⟨p, by rw [hswitches, if_neg (h.lt_of_some hpi).ne, hpi], hps, hpid⟩
  case registered =>
    intro i p hi hps
    rw [hswitches] at hi
    rw [hget]
    split_ifs at hi with hne
    · cases hi
      rw [if_pos rfl, hne]
    · have hreg := h.registered i p hi hps
      rw [if_neg, hreg]
      intro hid
      rw [hid, hnone] at hreg
      cases hreg
  case fresh =>
    intro i hi
    rw [hnext] at hi
    rw [hswitches, if_neg (by omega), hstarted]
    exact h.fresh i (by omega)
  case done =>
    intro i p hi hps
    rw [hswitches] at hi
    split_ifs at hi
    · cases hi
      cases hps
    · exact h.done i p hi hps
  case armed =>
    intro i p hi hps
    rw [hswitches] at hi
    rw [hruns]
    split_ifs at hi
    · cases hi
      exact .inl rfl
    · exact h.armed i p hi hps
  case running =>
    intro i hi
    rw [hruns] at hi
    rw [hstarted]
    exact h.running i hi
  case known =>
    intro i hi
    rw [hruns] at hi
    rw [hswitches]
    split_ifs
    · simp
    · exact h.known i hi
  case answered =>
    intro request
    have hq := h.answered request
    have hsum : ∑ i ∈ Finset.range (q.nextRequest + 1), (q'.requestsOf i).count request =
        ∑ i ∈ Finset.range q.nextRequest, (q.requestsOf i).count request +
          if q.nextRequest = request then 1 else 0 := by
      rw [Finset.sum_range_succ, hof, if_pos rfl, List.count_singleton']
      congr 1
      refine Finset.sum_congr rfl fun i hi => ?_
      rw [hof, if_neg (Finset.mem_range.mp hi).ne]
    simp only [waiting] at hq
    rw [hsettled, waiting, hruns, hnext, hsum]
    split_ifs at hq ⊢ <;> omega
  case joined =>
    intro i request hi
    rw [hof] at hi
    split_ifs at hi with hne
    · rw [List.mem_singleton.mp hi, hne, hlog]
      simp
    · exact hsubset (h.joined i request hi)
  case immediate =>
    intro request hi
    rw [hruns] at hi
    exact hsubset (h.immediate request hi)
  case earned =>
    intro request hi
    rw [hlog] at hi
    exact (h.earned request (by simpa using hi)).mono hsubset
  case withdrawn =>
    intro e he i hi
    rw [hlog] at he
    rcases List.mem_append.mp he with he | he
    · obtain ⟨p, hpi, hps⟩ := h.withdrawn e he i hi
      exact ⟨p, by rw [hswitches, if_neg (h.lt_of_some hpi).ne, hpi], hps⟩
    · rw [List.mem_singleton.mp he] at hi
      cases hi
  case notAfter =>
    rw [hlog]
    exact notAfter_append h.notAfter fun e he => by rw [List.mem_singleton.mp he]; rfl

theorem Inv.join (h : q.Inv) (hp : q.switches switch = some pending) (hs : pending.settled = false) :
    (q.join switch pending).Inv := by
  have hlt := h.lt_of_some hp
  have hlog : (q.join switch pending).log = q.log ++ [Entry.joined q.nextRequest switch] := rfl
  have hstarted : (q.join switch pending).startedSwitches = q.startedSwitches := by
    rw [startedSwitches, hlog, List.filterMap_append, startedSwitches]
    exact List.append_nil _
  have hsettled : (q.join switch pending).settledRequests = q.settledRequests := by
    rw [settledRequests, hlog, List.filterMap_append, settledRequests]
    exact List.append_nil _
  have hswitches : ∀ i, (q.join switch pending).switches i = if i = switch then
      some { pending with requests := pending.requests ++ [q.nextRequest] } else q.switches i :=
    fun i => Function.update_apply ..
  have hof : ∀ i, (q.join switch pending).requestsOf i =
      if i = switch then pending.requests ++ [q.nextRequest] else q.requestsOf i := by
    intro i
    rw [requestsOf, hswitches]
    split_ifs <;> rfl
  have hget : (q.join switch pending).pendingBySessionId = q.pendingBySessionId := rfl
  have hruns : (q.join switch pending).runs = q.runs := rfl
  have hnext : (q.join switch pending).nextRequest = q.nextRequest + 1 := rfl
  have hsubset : q.log ⊆ (q.join switch pending).log := List.subset_append_left ..
  generalize q.join switch pending = q' at *
  constructor
  case pendings =>
    intro sessionId i hi
    rw [hget] at hi
    obtain ⟨p, hpi, hps, hpid⟩ := h.pendings sessionId i hi
    by_cases hne : i = switch
    · subst hne
      obtain rfl := Option.some.inj (hpi.symm.trans hp)
      exact ⟨{ p with requests := p.requests ++ [q.nextRequest] }, by rw [hswitches, if_pos rfl],
        hps, hpid⟩
    · exact ⟨p, by rw [hswitches, if_neg hne, hpi], hps, hpid⟩
  case registered =>
    intro i p hi hps
    rw [hswitches] at hi
    rw [hget]
    split_ifs at hi with hne
    · cases hi
      subst hne
      exact h.registered i pending hp hs
    · exact h.registered i p hi hps
  case fresh =>
    intro i hi
    rw [hnext] at hi
    rw [hswitches, if_neg (by omega), hstarted]
    exact h.fresh i (by omega)
  case done =>
    intro i p hi hps
    rw [hswitches] at hi
    split_ifs at hi
    · cases hi
      rw [hs] at hps
      cases hps
    · exact h.done i p hi hps
  case armed =>
    intro i p hi hps
    rw [hswitches] at hi
    rw [hruns]
    split_ifs at hi with hne
    · cases hi
      subst hne
      exact h.armed i pending hp hs
    · exact h.armed i p hi hps
  case running =>
    intro i hi
    rw [hruns] at hi
    rw [hstarted]
    exact h.running i hi
  case known =>
    intro i hi
    rw [hruns] at hi
    rw [hswitches]
    split_ifs
    · simp
    · exact h.known i hi
  case answered =>
    intro request
    have hq := h.answered request
    have hsum := sum_count_update (f := fun i => (q.requestsOf i).count request)
      (g := fun i => (q'.requestsOf i).count request) hlt
      (fun i hi => by simp only [hof, if_neg hi])
    have hlast : (q'.requestsOf q.nextRequest).count request = 0 := by
      rw [hof, if_neg hlt.ne', h.requestsOf_next le_rfl, List.count_nil]
    simp only [requestsOf_some hp, hof switch, if_pos, List.count_append,
      List.count_singleton'] at hsum
    simp only [waiting] at hq
    rw [hsettled, waiting, hruns, hnext, Finset.sum_range_succ, hlast]
    split_ifs at hq hsum ⊢ <;> omega
  case joined =>
    intro i request hi
    rw [hof] at hi
    split_ifs at hi with hne
    · rcases List.mem_append.mp hi with hi | hi
      · exact hsubset (h.joined i request (by rwa [hne, requestsOf_some hp]))
      · rw [List.mem_singleton.mp hi, hne, hlog]
        simp
    · exact hsubset (h.joined i request hi)
  case immediate =>
    intro request hi
    rw [hruns] at hi
    exact hsubset (h.immediate request hi)
  case earned =>
    intro request hi
    rw [hlog] at hi
    exact (h.earned request (by simpa using hi)).mono hsubset
  case withdrawn =>
    intro e he i hi
    have he : e ∈ q.log := by
      rw [hlog] at he
      rcases List.mem_append.mp he with he | he
      · exact he
      · rw [List.mem_singleton.mp he] at hi
        cases hi
    obtain ⟨p, hpi, hps⟩ := h.withdrawn e he i hi
    have hne : i ≠ switch := by
      rintro rfl
      rw [Option.some.inj (hpi.symm.trans hp), hs] at hps
      cases hps
    exact ⟨p, by rw [hswitches, if_neg hne, hpi], hps⟩
  case notAfter =>
    rw [hlog]
    exact notAfter_append h.notAfter fun e he => by rw [List.mem_singleton.mp he]; rfl

theorem count_eraseIdx {runs : List SwitchRun} {i : ℕ} {run : SwitchRun} (h : runs[i]? = some run)
    (x : SwitchRun) : runs.count x = (runs.eraseIdx i).count x + if run = x then 1 else 0 := by
  obtain ⟨hi, rfl⟩ := List.getElem?_eq_some_iff.mp h
  rw [← (List.getElem_cons_eraseIdx_perm hi).count_eq x, List.count_cons]
  simp

theorem Inv.immediateEnds (h : q.Inv) {i : ℕ} (hi : q.runs[i]? = some (.immediate request)) (ok : Bool) :
    ({ q.record ((if ok then [Entry.ran request] else []) ++ [Entry.settled request ok]) with
      runs := q.runs.eraseIdx i } : Queue).Inv := by
  have hmem : SwitchRun.immediate request ∈ q.runs := List.mem_of_getElem? hi
  have hcount := count_eraseIdx hi
  have hsub : q.runs.eraseIdx i ⊆ q.runs := List.eraseIdx_subset
  have hpending : ∀ switch, .pending switch ∈ q.runs → .pending switch ∈ q.runs.eraseIdx i := by
    intro switch hswitch
    have := hcount (.pending switch)
    rw [if_neg (by simp)] at this
    rw [← List.count_pos_iff] at hswitch ⊢
    omega
  have hnone : ∀ e ∈ (if ok then [Entry.ran request] else []) ++ [Entry.settled request ok],
      e.started? = none ∧ e.withdrawn? = none := by
    cases ok <;> simp [Entry.started?, Entry.withdrawn?]
  have hsettledNew : ((if ok then [Entry.ran request] else []) ++ [Entry.settled request ok]).filterMap
      Entry.settled? = [request] := by
    cases ok <;> rfl
  have hearned : ok = true → Entry.ran request ∈
      (if ok then [Entry.ran request] else []) ++ [Entry.settled request ok] := by
    rintro rfl
    simp
  have hnew : ∀ r, Entry.settled r true ∈
      (if ok then [Entry.ran request] else []) ++ [Entry.settled request ok] →
      r = request ∧ ok = true := by
    cases ok <;> simp
  generalize (if ok then [Entry.ran request] else []) ++ [Entry.settled request ok] = entries at *
  have hstarted : ({ q.record entries with runs := q.runs.eraseIdx i } : Queue).startedSwitches =
      q.startedSwitches := by
    rw [startedSwitches, record, List.filterMap_append,
      List.filterMap_eq_nil_iff.mpr fun e he => (hnone e he).1]
    exact List.append_nil _
  have hsettled : ({ q.record entries with runs := q.runs.eraseIdx i } : Queue).settledRequests =
      q.settledRequests ++ [request] := by
    rw [settledRequests, record, List.filterMap_append, hsettledNew]
    rfl
  have hsubset : q.log ⊆ ({ q.record entries with runs := q.runs.eraseIdx i } : Queue).log :=
    List.subset_append_left ..
  constructor
  case pendings => exact h.pendings
  case registered => exact h.registered
  case fresh =>
    intro switch hswitch
    rw [hstarted]
    exact h.fresh switch hswitch
  case done => exact h.done
  case armed =>
    intro switch p hp hps
    exact (h.armed switch p hp hps).imp_right (hpending switch)
  case running =>
    intro switch hswitch
    rw [hstarted]
    exact h.running switch (hsub hswitch)
  case known =>
    intro switch hswitch
    exact h.known switch (hsub hswitch)
  case answered =>
    intro r
    have hq := h.answered r
    have hc := hcount (.immediate r)
    simp only [SwitchRun.immediate.injEq] at hc
    rw [waiting] at hq
    rw [hsettled, List.count_append, List.count_singleton']
    change _ + ((q.runs.eraseIdx i).count (.immediate r) +
      ∑ i ∈ Finset.range q.nextRequest, (q.requestsOf i).count r) = if r < q.nextRequest then 1 else 0
    omega
  case joined =>
    intro switch r hr
    exact hsubset (h.joined switch r hr)
  case immediate =>
    intro r hr
    exact hsubset (h.immediate r (hsub hr))
  case earned =>
    intro r hr
    rcases List.mem_append.mp hr with hr | hr
    · exact (h.earned r hr).mono hsubset
    · obtain ⟨rfl, hok⟩ := hnew r hr
      exact .inr ⟨r, hsubset (h.immediate r hmem), .inl (List.mem_append_right _ (hearned hok))⟩
  case withdrawn =>
    intro e he switch hswitch
    rcases List.mem_append.mp he with he | he
    · exact h.withdrawn e he switch hswitch
    · rw [(hnone e he).2] at hswitch
      cases hswitch
  case notAfter => exact notAfter_append h.notAfter fun e he => (hnone e he).1

theorem Inv.lateEnds (h : q.Inv) (hp : q.switches switch = some pending) (hs : pending.settled = true)
    {i : ℕ} (hi : q.runs[i]? = some (.pending switch)) (ok : Bool) :
    ({ q.record (if ok then [.ran switch] else []) with runs := q.runs.eraseIdx i } : Queue).Inv := by
  have hcount := count_eraseIdx hi
  have hsub : q.runs.eraseIdx i ⊆ q.runs := List.eraseIdx_subset
  have hnone : ∀ e ∈ if ok then [Entry.ran switch] else [],
      e.started? = none ∧ e.withdrawn? = none ∧ e.settled? = none := by
    cases ok <;> simp [Entry.started?, Entry.withdrawn?, Entry.settled?]
  generalize (if ok then [Entry.ran switch] else []) = entries at *
  have hstarted : ({ q.record entries with runs := q.runs.eraseIdx i } : Queue).startedSwitches =
      q.startedSwitches := by
    rw [startedSwitches, record, List.filterMap_append,
      List.filterMap_eq_nil_iff.mpr fun e he => (hnone e he).1]
    exact List.append_nil _
  have hsettled : ({ q.record entries with runs := q.runs.eraseIdx i } : Queue).settledRequests =
      q.settledRequests := by
    rw [settledRequests, record, List.filterMap_append,
      List.filterMap_eq_nil_iff.mpr fun e he => (hnone e he).2.2]
    exact List.append_nil _
  have hsubset : q.log ⊆ ({ q.record entries with runs := q.runs.eraseIdx i } : Queue).log :=
    List.subset_append_left ..
  constructor
  case pendings => exact h.pendings
  case registered => exact h.registered
  case fresh =>
    intro j hj
    rw [hstarted]
    exact h.fresh j hj
  case done => exact h.done
  case armed =>
    intro j p hpj hps
    refine (h.armed j p hpj hps).imp_right fun hmem => ?_
    have hne : switch ≠ j := by
      rintro rfl
      rw [Option.some.inj (hpj.symm.trans hp), hs] at hps
      cases hps
    have hc := hcount (.pending j)
    rw [if_neg (by simpa using hne), Nat.add_zero] at hc
    rw [← List.count_pos_iff, hc] at hmem
    exact List.count_pos_iff.mp hmem
  case running =>
    intro j hj
    rw [hstarted]
    exact h.running j (hsub hj)
  case known =>
    intro j hj
    exact h.known j (hsub hj)
  case answered =>
    intro r
    have hc := hcount (.immediate r)
    rw [if_neg (by simp), Nat.add_zero] at hc
    have hq := h.answered r
    rw [waiting, hc] at hq
    rw [hsettled]
    exact hq
  case joined =>
    intro j r hr
    exact hsubset (h.joined j r hr)
  case immediate =>
    intro r hr
    exact hsubset (h.immediate r (hsub hr))
  case earned =>
    intro r hr
    rcases List.mem_append.mp hr with hr | hr
    · exact (h.earned r hr).mono hsubset
    · exact absurd (hnone _ hr).2.2 (by simp [Entry.settled?])
  case withdrawn =>
    intro e he j hj
    rcases List.mem_append.mp he with he | he
    · exact h.withdrawn e he j hj
    · rw [(hnone e he).2.1] at hj
      cases hj
  case notAfter => exact notAfter_append h.notAfter fun e he => (hnone e he).1

theorem Inv.readTurnState (h : q.Inv) (sessionId : String) : (q.readTurnState sessionId).2.Inv := by
  rw [Queue.readTurnState]
  split
  · exact h
  · exact h.setTurns _

theorem Inv.withPending (h : q.Inv) (sessionId : String) {f : ℕ → PendingSwitch → Queue}
    (hf : ∀ switch pending, q.pendingBySessionId.get sessionId = some switch →
      q.switches switch = some pending → pending.settled = false → pending.sessionId = sessionId →
        (f switch pending).Inv) : (q.withPending sessionId f).Inv := by
  rw [Queue.withPending]
  split
  · exact h
  next switch hget =>
    obtain ⟨pending, hp, hs, hid⟩ := h.pendings sessionId switch hget
    rw [hp]
    exact hf switch pending hget hp hs hid

theorem Inv.withdraw (h : q.Inv) (hp : q.switches switch = some pending) (hs : pending.settled = false)
    {e : Entry} (he : e = .cancelled switch ∨ e = .superseded switch ∨ e = .restarting switch) :
    ((q.record [e]).settlePending switch pending (e = .restarting switch)).Inv := by
  refine h.settle hp hs ?_ ?_ ?_ ?_ (List.Subset.refl _) fun _ _ => rfl
  · rcases he with rfl | rfl | rfl <;> simp [Entry.started?]
  · rcases he with rfl | rfl | rfl <;> simp [Entry.settled?]
  · rcases he with rfl | rfl | rfl <;> simp [Entry.withdrawn?]
  · intro hres
    exact .inr (List.mem_singleton.mpr (of_decide_eq_true hres).symm)

theorem Inv.rejectPending (h : q.Inv) (hp : q.switches switch = some pending) :
    (q.rejectPending switch pending).Inv := by
  rw [Queue.rejectPending]
  split_ifs with hs
  · exact h
  · have hw := h.withdraw hp (by simpa using hs) (.inl rfl)
    simpa using hw

theorem Inv.deferRequest (h : q.Inv) (sessionId : String) (input : SwitchRequest) :
    (q.deferRequest sessionId input).Inv := by
  rw [Queue.deferRequest]
  split
  next hnone => exact h.defer hnone input
  next switch hget =>
    obtain ⟨pending, hp, hs, hid⟩ := h.pendings sessionId switch hget
    simp only [hp]
    split_ifs
    · exact h.join hp hs
    · exact h.answer (List.nil_subset _) nofun
    · exact h.join hp hs
    · have hw : (q.rejectSupersededPending switch pending).Inv := by
        rw [rejectSupersededPending, if_neg (by simp [hs])]
        have hw := h.withdraw hp hs (.inr (.inl rfl))
        simpa using hw
      refine hw.defer ?_ input
      rw [rejectSupersededPending, if_neg (by simp [hs])]
      simp [settlePending, hs, record, setPending, Table.get_delete, hid]

theorem Inv.requestSwitch (h : q.Inv) (disableDeferral : Bool) (input : SwitchRequest) :
    (q.requestSwitch disableDeferral input).Inv := by
  have hread : (q.shouldRunImmediately disableDeferral input).2.Inv := by
    rw [shouldRunImmediately]
    split_ifs
    · exact h
    · cases input.policy <;> exact h.readTurnState input.sessionId
  rw [Queue.requestSwitch]
  simp only
  split_ifs
  · exact h.answer (List.Subset.refl _) fun _ => List.mem_singleton_self _
  · exact hread.runNow _
  · exact hread.deferRequest _ _

theorem Inv.recordTurnLifecycleEvent (h : q.Inv) (sessionId : String) (event : TurnLifecycleEvent) :
    (q.recordTurnLifecycleEvent sessionId event).Inv := by
  rw [Queue.recordTurnLifecycleEvent]
  split_ifs
  · exact h
  have hset := (h.readTurnState (trim sessionId)).setTurns
  cases event with
  | promptOrSteer => exact hset _
  | taskStarted => exact hset _
  | assistantMessageEnd =>
      exact Inv.withPending (hset _) _ fun switch pending _ hp hs _ => (hset _).execute hp hs false
  | turnCancelled =>
      exact Inv.withPending (hset _) _ fun switch pending _ hp hs _ => (hset _).execute hp hs false

theorem Inv.timeout (h : q.Inv) (switch : ℕ) : (q.timeout switch).Inv := by
  rw [Queue.timeout]
  split
  · exact h
  next pending hp =>
    split_ifs with htimer
    · have hs : pending.settled = false := by
        by_contra hs
        have := (h.done switch pending hp (by simpa using hs)).2
        rw [htimer] at this
        cases this
      exact h.execute hp hs true
    · exact h

theorem Inv.runEnds (h : q.Inv) (run : ℕ) (ok : Bool) : (q.runEnds run ok).Inv := by
  rw [Queue.runEnds]
  split
  · exact h
  next request hi => exact h.immediateEnds hi ok
  next switch hi =>
    have hmem := List.mem_of_getElem? hi
    obtain ⟨pending, hp⟩ := Option.ne_none_iff_exists'.mp (h.known switch hmem)
    simp only [record, hp]
    cases hs : pending.settled with
    | true =>
        rw [settlePending, if_pos hs]
        exact h.lateEnds hp hs hi ok
    | false =>
        have hstarted : ∀ e ∈ if ok then [Entry.ran switch] else [], e.started? = none := by
          cases ok <;> simp [Entry.started?]
        refine h.settle hp hs hstarted ?_ ?_ ?_ List.eraseIdx_subset fun run hne => ?_
        · cases ok <;> simp [Entry.settled?]
        · cases ok <;> simp [Entry.withdrawn?]
        · rintro rfl
          exact .inl (List.mem_singleton_self _)
        · rw [count_eraseIdx hi run, if_neg hne.symm, Nat.add_zero]

theorem Inv.cancelSession (h : q.Inv) (sessionId : String) (reason : CancelReason) :
    (q.cancelSession sessionId reason).Inv := by
  rw [Queue.cancelSession]
  split_ifs
  · exact h
  have hdelete := h.setTurns (q.turnStateBySessionId.delete (trim sessionId))
  refine hdelete.withPending _ fun switch pending _ hp hs _ => ?_
  cases reason with
  | sessionTerminated => exact hdelete.rejectPending hp
  | sessionRestarting =>
      have hw := hdelete.withdraw hp hs (.inr (.inr rfl))
      simpa using hw

theorem Inv.cancelEntry (h : q.Inv) (switch : ℕ) : (q.cancelEntry switch).Inv := by
  rw [Queue.cancelEntry]
  split
  · exact h
  next hp => exact h.rejectPending hp

theorem Inv.cancelAll (h : q.Inv) : q.cancelAll.Inv := by
  have hfold : ∀ (switches : List ℕ) (q : Queue), q.Inv → (switches.foldl Queue.cancelEntry q).Inv := by
    intro switches
    induction switches with
    | nil => exact fun _ h => h
    | cons switch switches ih => exact fun _ h => ih _ (h.cancelEntry switch)
  exact hfold _ _ (h.setTurns _)

theorem inv_step (disableDeferral : Bool) (e : Event) (h : q.Inv) : (q.step disableDeferral e).Inv := by
  cases e with
  | requestSwitch input => exact h.requestSwitch disableDeferral input
  | recordTurnLifecycleEvent sessionId event => exact h.recordTurnLifecycleEvent sessionId event
  | timeout switch => exact h.timeout switch
  | runEnds run ok => exact h.runEnds run ok
  | cancelSession sessionId reason => exact h.cancelSession sessionId reason
  | cancelAll => exact h.cancelAll

end Queue

end DevPilot.Switching
