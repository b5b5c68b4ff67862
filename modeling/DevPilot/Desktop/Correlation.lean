import DevPilot.Desktop.RuntimeClient
import DevPilot.Lib.DottedIds

/-!
The runtime client settles each request by the first thing that decides it.
-/

namespace DevPilot

open PyJson LineFrames Runs

variable {F : Type}

/-- A request that is not refused. -/
structure MadeRequest where
  id : String
  promise : Nat
  method : String
  timed : Bool

namespace MadeRequest

def pending (r : MadeRequest) : PendingRequest := ⟨r.promise, r.timed⟩

def timer (r : MadeRequest) : RequestTimer := ⟨r.id, r.promise, r.method⟩

/-- What a frame decides: it may hold the response with the id of the request. -/
def decidesFrame (host : RuntimeHost F) (r : MadeRequest) (frame : List Char) :
    Option (RequestOutcome F) :=
  match (RuntimeClient.lineOf frame).bind host.parse with
  | some (.obj message) =>
      if (message.lookup "id").map host.text = some r.id then
        some (RuntimeClient.outcome host message)
      else none
  | _ => none

/-- What an event decides, if the client holds the beginning of a line. -/
def decides (host : RuntimeHost F) (r : MadeRequest) (held : List Char) :
    ClientEvent F → Option (RequestOutcome F)
  | .request _ => none
  | .stdout chunk => (frames '\n' (held ++ chunk.toList)).1.findSome? (r.decidesFrame host)
  | .timeout promise =>
      if promise = r.promise ∧ r.timed then some (.error (RuntimeClient.timeoutError r.method))
      else none
  | .writeError id message => if id = r.id then some (.error (.error message)) else none
  | .exit => some (.error (.error "DevPilot desktop runtime stopped."))
  | .childError message => some (.error (.error message))
  | .terminate message => some (.error (.error message))

def holds (held : List Char) : ClientEvent F → List Char
  | .stdout chunk => (frames '\n' (held ++ chunk.toList)).2
  | _ => held

def firstDecision (host : RuntimeHost F) (r : MadeRequest) :
    List Char → List (ClientEvent F) → Option (RequestOutcome F)
  | _, [] => none
  | held, e :: events =>
      (r.decides host held e).orElse fun _ => r.firstDecision host (holds held e) events

end MadeRequest

namespace RuntimeClient

def callsOf (s : RuntimeClient F) (promise : Nat) : List (RequestOutcome F) :=
  (s.settlements.filter (·.1 = promise)).map (·.2)

/-- A request waits for a decision, or has got one, behind some earlier calls. -/
structure Stands (s : RuntimeClient F) (r : MadeRequest) (earlier : List (RequestOutcome F))
    (decision : Option (RequestOutcome F)) : Prop where
  calls : s.callsOf r.promise = earlier ++ decision.toList
  byId : s.pending.filter (·.1 = r.id) = if decision.isSome then [] else [(r.id, r.pending)]
  byPromise : s.pending.filter (·.2.promise = r.promise) =
    if decision.isSome then [] else [(r.id, r.pending)]
  timer : s.timers.filter (·.promise = r.promise) =
    if decision.isSome || !r.timed then [] else [r.timer]
  timerById : s.timers.filter (·.id = r.id) =
    if decision.isSome || !r.timed then [] else [r.timer]
  issued : r.promise < s.promises
  named : ∀ k, s.sequence < k → requestId k ≠ r.id

/-- Ids and promises are those of the requests so far. -/
structure Issued (s : RuntimeClient F) : Prop where
  pending : ∀ p ∈ s.pending, (∃ k ≤ s.sequence, p.1 = requestId k) ∧ p.2.promise < s.promises
  timers : ∀ t ∈ s.timers, (∃ k ≤ s.sequence, t.id = requestId k) ∧ t.promise < s.promises
  settlements : ∀ x ∈ s.settlements, x.1 < s.promises

theorem requestId_injective : Function.Injective requestId := by
  intro m n h
  have hrepr : m.repr = n.repr := by simpa [requestId] using h
  have hdigits := congrArg String.toList hrepr
  rw [Nat.toList_repr, Nat.toList_repr] at hdigits
  exact DottedIds.toDigits_injective hdigits

variable {host : RuntimeHost F} {s s' : RuntimeClient F} {r : MadeRequest}
  {earlier : List (RequestOutcome F)} {decision : Option (RequestOutcome F)}

theorem callsOf_settle (s : RuntimeClient F) (promise n : Nat) (outcome : RequestOutcome F) :
    (s.settle promise outcome).callsOf n =
      s.callsOf n ++ if promise = n then [outcome] else [] := by
  rw [callsOf, callsOf, settle, List.filter_append, List.map_append]
  by_cases h : promise = n <;> simp [h]

theorem lookup_eq_head?_filter {β : Type} (ps : List (String × β)) (id : String) :
    ps.lookup id = ((ps.filter (·.1 = id)).head?).map (·.2) := by
  induction ps with
  | nil => rfl
  | cons p ps ih =>
      rw [Members.lookup_cons, ih]
      by_cases h : p.1 = id
      · simp [h]
      · simp [h, Ne.symm h]

theorem Stands.lookup (h : s.Stands r earlier decision) :
    s.pending.lookup r.id = if decision.isSome then none else some r.pending := by
  rw [lookup_eq_head?_filter, h.byId]
  cases decision <;> rfl

theorem Stands.promise_ne (h : s.Stands r earlier decision) {p : String × PendingRequest}
    (hp : p ∈ s.pending) (hid : p.1 ≠ r.id) : p.2.promise ≠ r.promise := by
  intro hpromise
  have hmem : p ∈ s.pending.filter (·.2.promise = r.promise) :=
    List.mem_filter.mpr ⟨hp, by simpa using hpromise⟩
  rw [h.byPromise] at hmem
  split_ifs at hmem
  · cases hmem
  · exact hid (by rw [List.mem_singleton.mp hmem])

theorem Stands.timer_ne (h : s.Stands r earlier decision) {t : RequestTimer}
    (ht : t ∈ s.timers) (hpromise : t.promise ≠ r.promise) : t.id ≠ r.id := by
  intro hid
  have hmem : t ∈ s.timers.filter (·.id = r.id) := List.mem_filter.mpr ⟨ht, by simpa using hid⟩
  rw [h.timerById] at hmem
  split_ifs at hmem
  · cases hmem
  · exact hpromise (by rw [List.mem_singleton.mp hmem]; rfl)

theorem clearTimeout_eq (s : RuntimeClient F) (p : PendingRequest) : s.clearTimeout p =
    { s with timers := if p.timeout then s.timers.filter (·.promise ≠ p.promise) else s.timers } := by
  rw [clearTimeout]
  split_ifs <;> rfl

theorem Stands.delete (h : s.Stands r earlier decision) {id : String} (hid : id ≠ r.id) :
    (s.delete id).Stands r earlier decision := by
  refine ⟨h.calls, ?_, ?_, h.timer, h.timerById, h.issued, h.named⟩
  · rw [RuntimeClient.delete, List.filter_comm, h.byId]
    split_ifs <;> simp [hid.symm]
  · rw [RuntimeClient.delete, List.filter_comm, h.byPromise]
    split_ifs <;> simp [hid.symm]

theorem Stands.filter_timers (h : s.Stands r earlier decision) {q : RequestTimer → Bool}
    (hq : q r.timer = true) : Stands { s with timers := s.timers.filter q } r earlier decision := by
  refine ⟨h.calls, h.byId, h.byPromise, ?_, ?_, h.issued, h.named⟩
  · rw [List.filter_comm, h.timer]
    split_ifs <;> simp [hq]
  · rw [List.filter_comm, h.timerById]
    split_ifs <;> simp [hq]

theorem Stands.clearTimeout (h : s.Stands r earlier decision) {p : PendingRequest}
    (hp : p.promise ≠ r.promise) : (s.clearTimeout p).Stands r earlier decision := by
  rw [RuntimeClient.clearTimeout]
  split_ifs
  · exact h.filter_timers (decide_eq_true (Ne.symm hp))
  · exact h

theorem Stands.settle (h : s.Stands r earlier decision) {promise : Nat}
    (hpromise : promise ≠ r.promise) (outcome : RequestOutcome F) :
    (s.settle promise outcome).Stands r earlier decision := by
  refine ⟨?_, h.byId, h.byPromise, h.timer, h.timerById, h.issued, h.named⟩
  rw [callsOf_settle, if_neg hpromise, List.append_nil]
  exact h.calls

theorem Stands.close (h : s.Stands r earlier none) (outcome : RequestOutcome F)
    (hpending : s'.pending = s.pending.filter (·.1 ≠ r.id))
    (htimers : s'.timers = s.timers.filter (·.promise ≠ r.promise))
    (hsettlements : s'.settlements = s.settlements ++ [(r.promise, outcome)])
    (hpromises : s'.promises = s.promises) (hsequence : s'.sequence = s.sequence) :
    s'.Stands r earlier (some outcome) := by
  refine ⟨?_, ?_, ?_, ?_, ?_, hpromises ▸ h.issued, hsequence ▸ h.named⟩
  · have hcalls : s.callsOf r.promise = earlier := by simpa using h.calls
    rw [callsOf] at hcalls
    rw [callsOf, hsettlements, List.filter_append, List.map_append, hcalls]
    simp
  · rw [hpending, List.filter_comm, h.byId]
    simp
  · rw [hpending, List.filter_comm, h.byPromise]
    simp
  · rw [htimers, List.filter_comm, h.timer]
    cases r.timed <;> simp [MadeRequest.timer]
  · rw [htimers, List.filter_comm, h.timerById]
    cases r.timed <;> simp [MadeRequest.timer]

theorem Stands.timers_clearTimeout (h : s.Stands r earlier none) :
    (s.clearTimeout r.pending).timers = s.timers.filter (·.promise ≠ r.promise) := by
  rw [RuntimeClient.clearTimeout]
  split_ifs with htimed
  · rfl
  · refine (List.filter_eq_self.mpr fun t ht => ?_).symm
    have hnone : s.timers.filter (·.promise = r.promise) = [] := by
      rw [h.timer, if_pos]
      simpa [MadeRequest.pending] using htimed
    have hne := List.filter_eq_nil_iff.mp hnone t ht
    simpa using hne

theorem Stands.conclude (h : s.Stands r earlier decision) (id : String)
    (outcome : RequestOutcome F) : (s.conclude id outcome).Stands r earlier
      (decision.orElse fun _ => if id = r.id then some outcome else none) := by
  rw [RuntimeClient.conclude]
  by_cases hid : id = r.id
  · subst hid
    rw [h.lookup]
    cases decision with
    | some decided => exact h
    | none =>
        have htimers := h.timers_clearTimeout
        rw [clearTimeout_eq] at htimers
        show (((s.delete r.id).clearTimeout r.pending).settle r.promise outcome).Stands r earlier _
        rw [if_pos rfl, clearTimeout_eq]
        exact h.close outcome rfl htimers rfl rfl rfl
  · rw [if_neg hid]
    have hdecision : (decision.orElse fun _ => none) = decision := by cases decision <;> rfl
    rw [hdecision]
    cases hp : s.pending.lookup id with
    | none => exact h
    | some p =>
        have hne := h.promise_ne (Members.mem_of_lookup hp) hid
        exact ((h.delete hid).clearTimeout hne).settle hne outcome

theorem Stands.timeout (h : s.Stands r earlier decision) (promise : Nat) :
    (s.timeout promise).Stands r earlier (decision.orElse fun _ =>
      if promise = r.promise ∧ r.timed then some (.error (timeoutError r.method)) else none) := by
  rw [RuntimeClient.timeout]
  by_cases hpromise : promise = r.promise
  · subst hpromise
    rw [← List.head?_filter, h.timer]
    cases decision with
    | some decided => exact h
    | none =>
        cases htimed : r.timed with
        | false => simpa using h
        | true =>
            simp only [and_self, if_true]
            exact h.close _ rfl rfl rfl rfl rfl
  · have hdecision : (decision.orElse fun _ => if promise = r.promise ∧ r.timed = true then
        some (.error (timeoutError r.method)) else none) = decision := by
      cases decision <;> simp [hpromise]
    rw [hdecision]
    cases ht : s.timers.find? (·.promise = promise) with
    | none => exact h
    | some t =>
        have hof : t.promise = promise := by simpa using List.find?_some ht
        have hid := h.timer_ne (List.mem_of_find?_eq_some ht) (hof ▸ hpromise)
        have hfiltered := h.filter_timers (q := (·.promise ≠ promise))
          (decide_eq_true (Ne.symm hpromise))
        exact (hfiltered.delete hid).settle hpromise _

theorem Stands.rejectAll (h : s.Stands r earlier decision) (message : String) :
    (s.rejectAll message).Stands r earlier
      (decision.orElse fun _ => some (.error (.error message))) := by
  rw [RuntimeClient.rejectAll, foldl_reject]
  have hcalls : ((s.pending.map fun p => (p.2.promise, (.error (.error message) :
      RequestOutcome F))).filter (·.1 = r.promise)).map (·.2) =
      if decision.isSome then [] else [.error (.error message)] := by
    rw [List.filter_map, List.map_map]
    show ((s.pending.filter (·.2.promise = r.promise)).map _) = _
    rw [h.byPromise]
    cases decision <;> simp
  have htimed : ∀ q : RequestTimer → Bool, (decision = none → r.timed = true → q r.timer = false) →
      (if decision.isSome || !r.timed then [] else [r.timer]).filter q = [] := by
    intro q hq
    split_ifs with hidle
    · rfl
    · obtain ⟨hnone, htimed⟩ : decision = none ∧ r.timed = true := by simpa using hidle
      rw [List.filter_cons, hq hnone htimed]
      rfl
  have hcleared : decision = none → r.timed = true →
      (s.pending.all fun p => !p.2.timeout || r.timer.promise ≠ p.2.promise) = false := by
    rintro rfl htimed
    have hmem : (r.id, r.pending) ∈ s.pending.filter (·.1 = r.id) := by
      rw [h.byId]
      exact List.mem_singleton_self _
    rw [List.all_eq_false]
    exact ⟨_, (List.mem_filter.mp hmem).1, by simp [MadeRequest.pending, MadeRequest.timer, htimed]⟩
  refine ⟨?_, ?_, ?_, ?_, ?_, h.issued, h.named⟩
  · rw [callsOf, List.filter_append, List.map_append, hcalls]
    have hold := h.calls
    rw [callsOf] at hold
    rw [hold]
    cases decision <;> simp
  · cases decision <;> rfl
  · cases decision <;> rfl
  · rw [List.filter_comm, h.timer, htimed _ hcleared]
    cases decision <;> rfl
  · rw [List.filter_comm, h.timerById, htimed _ hcleared]
    cases decision <;> rfl

theorem Stands.output (h : s.Stands r earlier decision) (stdoutLines : List String)
    (stdoutBuffer : List Char) (emitted : List (RuntimeEmission F)) :
    Stands { s with stdoutLines, stdoutBuffer, emitted } r earlier decision :=
  ⟨h.calls, h.byId, h.byPromise, h.timer, h.timerById, h.issued, h.named⟩

theorem Stands.readFrame (h : s.Stands r earlier decision) (frame : List Char) :
    (s.readFrame host frame).Stands r earlier
      (decision.orElse fun _ => r.decidesFrame host frame) := by
  have hnone : (decision.orElse fun _ => none) = decision := by cases decision <;> rfl
  rw [RuntimeClient.readFrame, MadeRequest.decidesFrame]
  cases lineOf frame with
  | none =>
      rw [Option.bind_none, hnone]
      exact h
  | some line =>
      rw [Option.bind_some]
      dsimp only
      rw [RuntimeClient.readLine]
      cases host.parse line with
      | none =>
          rw [hnone]
          exact h.output ..
      | some message =>
          cases message with
          | obj message =>
              dsimp only
              cases message.lookup "id" with
              | none =>
                  rw [Option.map_none, if_neg (by simp), hnone]
                  exact h.output ..
              | some id =>
                  have hlines := h.output (s.stdoutLines ++ [line]) s.stdoutBuffer s.emitted
                  simpa using hlines.conclude (host.text id) (outcome host message)
          | _ =>
              dsimp only
              rw [hnone]
              exact h.output ..

theorem Stands.foldl_readFrame (h : s.Stands r earlier decision) (cut : List (List Char)) :
    (cut.foldl (RuntimeClient.readFrame host) s).Stands r earlier
      (decision.orElse fun _ => cut.findSome? (r.decidesFrame host)) := by
  induction cut generalizing s decision with
  | nil => cases decision <;> exact h
  | cons frame cut ih =>
      have hframe : (s.readFrame host frame).Stands r earlier _ := h.readFrame frame
      have hcut := ih hframe
      have hdecision : (decision.orElse fun _ => (frame :: cut).findSome? (r.decidesFrame host)) =
          (decision.orElse fun _ => r.decidesFrame host frame).orElse
            fun _ => cut.findSome? (r.decidesFrame host) := by
        rw [List.findSome?_cons]
        cases decision <;> cases r.decidesFrame host frame <;> rfl
      rw [List.foldl_cons, hdecision]
      exact hcut

theorem requestId_succ_ne (h : s.Stands r earlier decision) :
    requestId (s.sequence + 1) ≠ r.id := h.named _ (Nat.lt_succ_self _)

theorem Stands.setTimeout (h : s.Stands r earlier decision) {id : String} (hid : id ≠ r.id)
    (call : RequestCall F) : (s.setTimeout id call).Stands r earlier decision := by
  have hpromise : s.promises ≠ r.promise := h.issued.ne'
  rw [RuntimeClient.setTimeout]
  split_ifs
  · refine ⟨h.calls, h.byId, h.byPromise, ?_, ?_, h.issued, h.named⟩
    · rw [List.filter_append, h.timer]
      simp [hpromise]
    · rw [List.filter_append, h.timerById]
      simp [hid]
  · exact h

theorem Stands.setPending (h : s.Stands r earlier decision) {id : String} (hid : id ≠ r.id)
    (call : RequestCall F) : (s.setPending id call).Stands r earlier decision := by
  have hpromise : s.promises ≠ r.promise := h.issued.ne'
  refine ⟨h.calls, ?_, ?_, h.timer, h.timerById, h.issued, h.named⟩
  · rw [RuntimeClient.setPending, Members.filter_insert, h.byId]
    · simpa using hid
    · rintro p - rfl
      simpa using hid
  · rw [RuntimeClient.setPending, Members.filter_insert, h.byPromise]
    · simpa using hpromise
    · rintro p hp rfl
      simpa using h.promise_ne hp hid

theorem Stands.write (h : s.Stands r earlier decision) (id : String) (call : RequestCall F) :
    (s.write id call).Stands r earlier decision := by
  rw [RuntimeClient.write]
  cases call.unserializable with
  | none => exact ⟨h.calls, h.byId, h.byPromise, h.timer, h.timerById, h.issued, h.named⟩
  | some message => exact h.settle h.issued.ne' _

theorem Stands.promised (h : s.Stands r earlier decision) : s.promised.Stands r earlier decision :=
  ⟨h.calls, h.byId, h.byPromise, h.timer, h.timerById, h.issued.trans (Nat.lt_succ_self _), h.named⟩

theorem Stands.request (h : s.Stands r earlier decision) (call : RequestCall F) :
    (s.request call).Stands r earlier decision := by
  have hid := requestId_succ_ne h
  rw [RuntimeClient.request]
  cases refusal call with
  | some error => exact (h.settle h.issued.ne' _).promised
  | none =>
      have hnext : Stands { s with sequence := s.sequence + 1 } r earlier decision :=
        ⟨h.calls, h.byId, h.byPromise, h.timer, h.timerById, h.issued,
          fun k hk => h.named k ((Nat.lt_succ_self _).trans hk)⟩
      exact (((hnext.setTimeout hid call).setPending hid call).write _ call).promised

theorem Stands.step (h : s.Stands r earlier decision) (e : ClientEvent F) :
    (s.step host e).Stands r earlier
      (decision.orElse fun _ => r.decides host s.stdoutBuffer e) := by
  cases e with
  | request call =>
      have hdecision : (decision.orElse fun _ => none) = decision := by cases decision <;> rfl
      rw [MadeRequest.decides, hdecision]
      exact h.request call
  | stdout chunk => exact (h.foldl_readFrame _).output ..
  | timeout promise => exact h.timeout promise
  | writeError id message => exact h.conclude id _
  | exit => exact h.rejectAll _
  | childError message => exact h.rejectAll message
  | terminate message => exact h.rejectAll message

theorem stdoutBuffer_step (s : RuntimeClient F) (e : ClientEvent F) :
    (s.step host e).stdoutBuffer = MadeRequest.holds s.stdoutBuffer e := by
  cases e with
  | request call => exact (sameOutput_request s call).stdoutBuffer
  | stdout chunk => rfl
  | timeout promise => exact (sameOutput_timeout s promise).stdoutBuffer
  | writeError id message => exact (sameOutput_conclude s id _).stdoutBuffer
  | exit => exact (sameOutput_rejectAll s _).stdoutBuffer
  | childError message => exact (sameOutput_rejectAll s message).stdoutBuffer
  | terminate message => exact (sameOutput_rejectAll s message).stdoutBuffer

theorem Stands.run (host : RuntimeHost F) (h : s.Stands r earlier decision) (events : List (ClientEvent F)) :
    (Runs.run (RuntimeClient.step host) s events).Stands r earlier
      (decision.orElse fun _ => r.firstDecision host s.stdoutBuffer events) := by
  induction events generalizing s decision with
  | nil => cases decision <;> exact h
  | cons e events ih =>
      have hstep : (s.step host e).Stands r earlier _ := h.step e
      have hrun := ih hstep
      rw [stdoutBuffer_step] at hrun
      cases decision <;> exact hrun

theorem Issued.of_subset (h : s.Issued) (hpending : s'.pending ⊆ s.pending)
    (htimers : s'.timers ⊆ s.timers)
    (hsettlements : ∀ x ∈ s'.settlements, x ∈ s.settlements ∨ x.1 < s.promises)
    (hsequence : s'.sequence = s.sequence) (hpromises : s'.promises = s.promises) : s'.Issued := by
  refine ⟨fun p hp => ?_, fun t ht => ?_, fun x hx => ?_⟩
  · rw [hsequence, hpromises]
    exact h.pending p (hpending hp)
  · rw [hsequence, hpromises]
    exact h.timers t (htimers ht)
  · rw [hpromises]
    exact (hsettlements x hx).elim (h.settlements x) id

theorem mem_settle {promise : Nat} {outcome : RequestOutcome F} (hpromise : promise < s.promises) :
    ∀ x ∈ (s.settle promise outcome).settlements, x ∈ s.settlements ∨ x.1 < s.promises := by
  intro x hx
  rcases List.mem_append.mp hx with hx | hx
  · exact .inl hx
  · cases List.mem_singleton.mp hx
    exact .inr hpromise

theorem Issued.conclude (h : s.Issued) (id : String) (outcome : RequestOutcome F) :
    (s.conclude id outcome).Issued := by
  rw [RuntimeClient.conclude]
  cases hp : s.pending.lookup id with
  | none => exact h
  | some p =>
      have hpromise := (h.pending _ (Members.mem_of_lookup hp)).2
      dsimp only
      rw [clearTimeout_eq]
      refine h.of_subset (List.filter_subset_self _) ?_ (mem_settle hpromise) rfl rfl
      show (if p.timeout then s.timers.filter (·.promise ≠ p.promise) else s.timers) ⊆ s.timers
      split_ifs
      · exact List.filter_subset_self _
      · exact List.Subset.refl _

theorem Issued.timeout (h : s.Issued) (promise : Nat) : (s.timeout promise).Issued := by
  rw [RuntimeClient.timeout]
  cases ht : s.timers.find? (·.promise = promise) with
  | none => exact h
  | some t =>
      have hof : t.promise = promise := by simpa using List.find?_some ht
      have hpromise := (h.timers t (List.mem_of_find?_eq_some ht)).2
      exact h.of_subset (List.filter_subset_self _) (List.filter_subset_self _)
        (mem_settle (hof ▸ hpromise)) rfl rfl

theorem Issued.rejectAll (h : s.Issued) (message : String) : (s.rejectAll message).Issued := by
  rw [RuntimeClient.rejectAll, foldl_reject]
  refine h.of_subset (List.nil_subset _) (List.filter_subset_self _) (fun x hx => ?_) rfl rfl
  rcases List.mem_append.mp hx with hx | hx
  · exact .inl hx
  · obtain ⟨p, hp, rfl⟩ := List.mem_map.mp hx
    exact .inr (h.pending p hp).2

theorem Issued.readFrame (h : s.Issued) (frame : List Char) : (s.readFrame host frame).Issued := by
  rw [RuntimeClient.readFrame]
  cases lineOf frame with
  | none => exact h
  | some line =>
      have hline : Issued { s with stdoutLines := s.stdoutLines ++ [line] } :=
        ⟨h.pending, h.timers, h.settlements⟩
      dsimp only
      rw [RuntimeClient.readLine]
      cases host.parse line with
      | none => exact ⟨h.pending, h.timers, h.settlements⟩
      | some message =>
          cases message with
          | obj message =>
              dsimp only
              cases message.lookup "id" with
              | none => exact ⟨h.pending, h.timers, h.settlements⟩
              | some id => exact hline.conclude _ _
          | _ => exact ⟨h.pending, h.timers, h.settlements⟩

theorem Issued.foldl_readFrame (h : s.Issued) (cut : List (List Char)) :
    (cut.foldl (RuntimeClient.readFrame host) s).Issued := by
  induction cut generalizing s with
  | nil => exact h
  | cons frame cut ih =>
      rw [List.foldl_cons]
      exact ih (h.readFrame frame)

theorem Issued.readStdout (h : s.Issued) (chunk : String) : (s.readStdout host chunk).Issued := by
  have hread : Issued ((frames '\n' (s.stdoutBuffer ++ chunk.toList)).1.foldl
      (RuntimeClient.readFrame host) s) := h.foldl_readFrame _
  exact ⟨hread.pending, hread.timers, hread.settlements⟩

theorem send_timers (s : RuntimeClient F) (id : String) (call : RequestCall F) :
    (s.send id call).timers = s.timers ++
      if 0 < call.timeoutMs then [⟨id, s.promises, call.method⟩] else [] := by
  rw [send, RuntimeClient.write, RuntimeClient.setPending, RuntimeClient.setTimeout]
  cases call.unserializable <;> split_ifs <;> simp [RuntimeClient.settle, RuntimeClient.promised]

theorem send_settlements (s : RuntimeClient F) (id : String) (call : RequestCall F) :
    (s.send id call).settlements = s.settlements ++
      (call.unserializable.map fun message => (s.promises, .error (.typeError message))).toList := by
  rw [send, RuntimeClient.write, RuntimeClient.setPending, RuntimeClient.setTimeout]
  cases call.unserializable <;> split_ifs <;> simp [RuntimeClient.settle, RuntimeClient.promised]

theorem send_pending (s : RuntimeClient F) (id : String) (call : RequestCall F) :
    (s.send id call).pending = Members.insert id ⟨s.promises, 0 < call.timeoutMs⟩ s.pending ∧
      (s.send id call).sequence = s.sequence + 1 ∧ (s.send id call).promises = s.promises + 1 := by
  rw [send, RuntimeClient.write, RuntimeClient.setPending, RuntimeClient.setTimeout]
  cases call.unserializable <;> split_ifs <;> exact ⟨rfl, rfl, rfl⟩

theorem fresh {id : String} (hid : ∃ k ≤ s.sequence, id = requestId k) :
    id ≠ requestId (s.sequence + 1) := by
  obtain ⟨k, hk, rfl⟩ := hid
  intro heq
  have := requestId_injective heq
  omega

theorem Issued.insert_pending (h : s.Issued) (p : PendingRequest) :
    Members.insert (requestId (s.sequence + 1)) p s.pending =
      s.pending ++ [(requestId (s.sequence + 1), p)] := by
  refine Members.insert_append_fresh p fun hmem => ?_
  obtain ⟨q, hq, hid⟩ := List.mem_map.mp hmem
  exact fresh (h.pending q hq).1 hid

theorem Issued.request (h : s.Issued) (call : RequestCall F) : (s.request call).Issued := by
  rw [RuntimeClient.request]
  cases refusal call with
  | some error =>
      refine ⟨fun p hp => ?_, fun t ht => ?_, fun x hx => ?_⟩
      · exact ⟨(h.pending p hp).1, (h.pending p hp).2.trans (Nat.lt_succ_self _)⟩
      · exact ⟨(h.timers t ht).1, (h.timers t ht).2.trans (Nat.lt_succ_self _)⟩
      · rcases List.mem_append.mp hx with hx | hx
        · exact (h.settlements x hx).trans (Nat.lt_succ_self _)
        · cases List.mem_singleton.mp hx
          exact Nat.lt_succ_self _
  | none =>
      obtain ⟨hpending, hsequence, hpromises⟩ := send_pending s (requestId (s.sequence + 1)) call
      rw [h.insert_pending] at hpending
      have hold : ∀ {id : String} {n : Nat}, (∃ k ≤ s.sequence, id = requestId k) ∧ n < s.promises →
          (∃ k ≤ s.sequence + 1, id = requestId k) ∧ n < s.promises + 1 := by
        rintro id n ⟨⟨k, hk, hid⟩, hn⟩
        exact ⟨⟨k, by omega, hid⟩, by omega⟩
      refine ⟨fun p hp => ?_, fun t ht => ?_, fun x hx => ?_⟩
      · rw [hsequence, hpromises]
        rw [hpending] at hp
        rcases List.mem_append.mp hp with hp | hp
        · exact hold (h.pending p hp)
        · cases List.mem_singleton.mp hp
          exact ⟨⟨_, le_rfl, rfl⟩, Nat.lt_succ_self _⟩
      · rw [hsequence, hpromises]
        rw [send_timers] at ht
        rcases List.mem_append.mp ht with ht | ht
        · exact hold (h.timers t ht)
        · split_ifs at ht
          · cases List.mem_singleton.mp ht
            exact ⟨⟨_, le_rfl, rfl⟩, Nat.lt_succ_self _⟩
          · cases ht
      · rw [hpromises]
        rw [send_settlements] at hx
        rcases List.mem_append.mp hx with hx | hx
        · exact (h.settlements x hx).trans (Nat.lt_succ_self _)
        · obtain ⟨message, -, rfl⟩ := Option.map_eq_some_iff.mp (Option.mem_toList.mp hx)
          exact Nat.lt_succ_self _

theorem Issued.step (h : s.Issued) (e : ClientEvent F) : (s.step host e).Issued := by
  cases e with
  | request call => exact h.request call
  | stdout chunk => exact h.readStdout chunk
  | timeout promise => exact h.timeout promise
  | writeError id message => exact h.conclude id _
  | exit => exact h.rejectAll _
  | childError message => exact h.rejectAll message
  | terminate message => exact h.rejectAll message

theorem Issued.stands (h : s.Issued) {call : RequestCall F} (hmade : refusal call = none) :
    (s.request call).Stands
      ⟨requestId (s.sequence + 1), s.promises, call.method, 0 < call.timeoutMs⟩
      (call.unserializable.map fun message => .error (.typeError message)).toList none := by
  have hsend : s.request call = s.send (requestId (s.sequence + 1)) call := by
    rw [RuntimeClient.request, hmade]
  obtain ⟨hpending, hsequence, hpromises⟩ := send_pending s (requestId (s.sequence + 1)) call
  rw [h.insert_pending] at hpending
  have hids : s.pending.filter (·.1 = requestId (s.sequence + 1)) = [] :=
    List.filter_eq_nil_iff.mpr fun p hp => by simpa using fresh (h.pending p hp).1
  have hpromised : s.pending.filter (·.2.promise = s.promises) = [] :=
    List.filter_eq_nil_iff.mpr fun p hp => by simpa using (h.pending p hp).2.ne
  have htimers : s.timers.filter (·.promise = s.promises) = [] :=
    List.filter_eq_nil_iff.mpr fun t ht => by simpa using (h.timers t ht).2.ne
  have htimerIds : s.timers.filter (·.id = requestId (s.sequence + 1)) = [] :=
    List.filter_eq_nil_iff.mpr fun t ht => by simpa using fresh (h.timers t ht).1
  have hcalls : s.settlements.filter (·.1 = s.promises) = [] :=
    List.filter_eq_nil_iff.mpr fun x hx => by simpa using (h.settlements x hx).ne
  rw [hsend]
  refine ⟨?_, ?_, ?_, ?_, ?_, ?_, ?_⟩
  · rw [callsOf, send_settlements, List.filter_append, hcalls]
    cases call.unserializable <;> simp
  · rw [hpending, List.filter_append, hids]
    simp [MadeRequest.pending]
  · rw [hpending, List.filter_append, hpromised]
    simp [MadeRequest.pending]
  · rw [send_timers, List.filter_append, htimers]
    by_cases htimed : 0 < call.timeoutMs <;> simp [htimed, MadeRequest.timer]
  · rw [send_timers, List.filter_append, htimerIds]
    by_cases htimed : 0 < call.timeoutMs <;> simp [htimed, MadeRequest.timer]
  · rw [hpromises]
    exact Nat.lt_succ_self _
  · rw [hsequence]
    exact fun k hk hid => hk.ne' (requestId_injective hid)

def settlementsDue (host : RuntimeHost F) (s : RuntimeClient F) (call : RequestCall F)
    (after : List (ClientEvent F)) : List (RequestOutcome F) :=
  let decision := MadeRequest.firstDecision host
    ⟨requestId (s.sequence + 1), s.promises, call.method, 0 < call.timeoutMs⟩ s.stdoutBuffer after
  match refusal call, call.unserializable with
  | some error, _ => [.error error]
  | none, some message => .error (.typeError message) :: decision.toList
  | none, none => decision.toList

theorem Issued.stands_refused (h : s.Issued) {call : RequestCall F} {error : RequestError F}
    (hrefused : refusal call = some error) :
    (s.request call).Stands ⟨"", s.promises, call.method, false⟩ [] (some (.error error)) := by
  have hrequest : s.request call = (s.settle s.promises (.error error)).promised := by
    rw [RuntimeClient.request, hrefused]
  have hname : ∀ k, requestId k ≠ "" := by
    intro k hk
    have hlength := congrArg String.length hk
    simp [requestId] at hlength
  have hnamed : ∀ {id : String}, (∃ k ≤ s.sequence, id = requestId k) → id ≠ "" := by
    rintro id ⟨k, -, rfl⟩
    exact hname k
  have hcalls : s.settlements.filter (·.1 = s.promises) = [] :=
    List.filter_eq_nil_iff.mpr fun x hx => by simpa using (h.settlements x hx).ne
  rw [hrequest]
  refine ⟨?_, ?_, ?_, ?_, ?_, Nat.lt_succ_self _, fun k _ => hname k⟩
  · show (s.settle s.promises (.error error)).callsOf s.promises = _
    rw [callsOf_settle, callsOf, hcalls]
    simp
  · exact List.filter_eq_nil_iff.mpr fun p hp => by simpa using hnamed (h.pending p hp).1
  · exact List.filter_eq_nil_iff.mpr fun p hp => by simpa using (h.pending p hp).2.ne
  · exact List.filter_eq_nil_iff.mpr fun t ht => by simpa using (h.timers t ht).2.ne
  · exact List.filter_eq_nil_iff.mpr fun t ht => by simpa using hnamed (h.timers t ht).1

theorem firstDecision_exit (host : RuntimeHost F) (r : MadeRequest) (held : List Char) (after : List (ClientEvent F)) :
    (r.firstDecision host held (after ++ [.exit])).isSome = true := by
  induction after generalizing held with
  | nil => rfl
  | cons e after ih =>
      rw [List.cons_append, MadeRequest.firstDecision]
      cases r.decides host held e with
      | none => exact ih _
      | some outcome => rfl

theorem Issued.settlementsDue (h : s.Issued) (call : RequestCall F)
    (after : List (ClientEvent F)) :
    (Runs.run (RuntimeClient.step host) s (.request call :: after)).callsOf s.promises =
      settlementsDue host s call after := by
  have hbuffer := (sameOutput_request s call).stdoutBuffer
  rw [RuntimeClient.settlementsDue, run_cons, RuntimeClient.step]
  cases hrefusal : refusal call with
  | some error => exact ((h.stands_refused hrefusal).run host after).calls
  | none =>
      have hcalls := ((h.stands hrefusal).run host after).calls
      rw [hbuffer] at hcalls
      cases hunserializable : call.unserializable with
      | none =>
          rw [hunserializable] at hcalls
          exact hcalls
      | some message =>
          rw [hunserializable] at hcalls
          exact hcalls

/-- Whatever the chunks are, the client reads the lines of the whole text, and each
request is settled by the first event that decides it, at the latest by the exit of
the child. -/
theorem client_settles (host : RuntimeHost F) (events before after : List (ClientEvent F))
    (call : RequestCall F) :
    (run (step host) {} events).HasRead host (textOf events) ∧
      (run (step host) {} (before ++ .request call :: after)).callsOf
          (run (step host) {} before).promises =
        settlementsDue host (run (step host) {} before) call after ∧
      settlementsDue host (run (step host) {} before) call (after ++ [.exit]) ≠ [] := by
  have hissued : (run (step host) ({} : RuntimeClient F) before).Issued :=
    run_invariant (I := Issued) (fun _ e h => h.step e) ⟨by simp, by simp, by simp⟩ before
  refine ⟨?_, ?_, ?_⟩
  · have hread : HasRead host ({} : RuntimeClient F) [] := ⟨rfl, rfl, rfl⟩
    exact hread.run events
  · rw [run, List.foldl_append]
    exact hissued.settlementsDue call after
  · rw [settlementsDue]
    have hexit := firstDecision_exit host
      ⟨requestId ((run (step host) {} before).sequence + 1), (run (step host) {} before).promises,
        call.method, 0 < call.timeoutMs⟩ (run (step host) {} before).stdoutBuffer after
    obtain ⟨outcome, houtcome⟩ := Option.isSome_iff_exists.mp hexit
    simp only [houtcome]
    cases refusal call <;> cases call.unserializable <;> simp

def literalRuntime : RuntimeHost FloatText where
  parse line := loads literalFormat line.toList
  text v := v.str?.getD ""
  isTruthy _ := true

def versionCall : RequestCall FloatText where
  method := "runtime.version"
  params := .obj []
  timeoutMs := 15000
  running := true
  unserializable := none

/-- A response that comes behind an error in writing its request settles nothing,
although neither the timeout nor the exit has come before. -/
theorem writeError_overtakes : ¬ ∀ (host : RuntimeHost FloatText) (call : RequestCall FloatText)
    (message chunk : String), refusal call = none → call.unserializable = none →
    (MadeRequest.decides host ⟨requestId 1, 0, call.method, 0 < call.timeoutMs⟩ []
      (.stdout chunk)).map Except.isOk = some true →
    ((run (step host) {} [.request call, .writeError (requestId 1) message, .stdout chunk]).callsOf
      0).map Except.isOk = [true] := by
  intro h
  have hcalls := h literalRuntime versionCall "write EPIPE" "\x7b\"id\":\"desktop-1\"\x7d\n"
    (by decide +kernel) rfl (by decide +kernel)
  revert hcalls
  decide +kernel

end RuntimeClient

end DevPilot
