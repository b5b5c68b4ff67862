import DevPilot.Desktop.Correlation
import DevPilot.Desktop.RuntimeServer
import DevPilot.Lib.JsonLines

/-!
The desktop client and the host of the runtime, with the pipes between them: what a
promise gets is what the handlers made of its own request, in every interleaving.
-/

namespace DevPilot

open PyJson LineFrames Runs DesktopProtocol

variable {F : Type}

/-- The client, the host, and what has passed between them. -/
structure RuntimeLink (F : Type) where
  client : RuntimeClient F := {}
  server : Server F := {}
  /-- The calls of `request`, by the promises they returned. -/
  calls : List (RequestCall F) := []
  /-- How many of the written requests the host has read. -/
  served : Nat := 0
  /-- How much of the output of the host the client has read. -/
  delivered : Nat := 0

inductive LinkEvent (F : Type)
  | client (e : ClientEvent F)
  | serve
  | server (e : ServerEvent F)
  | deliver (n : Nat)

/-- The request that the client writes. -/
def payloadOf (w : String × String × Json F) : Json F :=
  .obj [("id", .str w.1), ("method", .str w.2.1), ("params", w.2.2)]

namespace RuntimeLink

section

variable (host : RuntimeHost F) (fmt : FloatFormat F)

/-- The output of the host: one line for each frame. -/
def output (s : RuntimeLink F) : List Char :=
  s.server.stdout.flatMap fun frame => dumps fmt .compact frame ++ ['\n']

def step (s : RuntimeLink F) : LinkEvent F → RuntimeLink F
  -- output reaches the client and requests reach the host through the pipes alone
  | .client (.stdout _) | .server (.line _) => s
  | .client (.request call) =>
      { s with client := s.client.request call, calls := s.calls ++ [call] }
  | .client e => { s with client := s.client.step host e }
  | .serve => match s.client.written[s.served]? with
      | some w =>
          if s.server.serving && s.server.inFlight.isNone then
            { s with server := s.server.step (.line (some (payloadOf w))), served := s.served + 1 }
          else s
      | none => s
  | .server e => { s with server := s.server.step e }
  | .deliver n =>
      let chunk := ((s.output fmt).drop s.delivered).take n
      { s with
        client := s.client.readStdout host (String.ofList chunk)
        delivered := s.delivered + chunk.length }

end

/-- What the client makes of how a request was handled. -/
def outcomeOf : Handled F → RequestOutcome F
  | .returned result _ => .ok (.obj (sanitizeMapping result))
  | .refused error => .error (.protocol error.code (sanitizeText error.message)
      (.obj (sanitizeMapping error.details)))
  | .raised _ => .error (.protocol "internal_error"
      "DevPilot desktop runtime request failed." (.obj []))

/-- An outcome that only a response can have. -/
def FromRuntime : RequestOutcome F → Prop
  | .ok _ | .error (.protocol _ _ _) => True
  | .error _ => False

/-- The promise is settled by what the handlers made of the call that returned it. -/
def Explained (calls : List (RequestCall F)) (answered : List (Json F × Handled F))
    (settlement : Nat × RequestOutcome F) : Prop :=
  ∃ call id handled, calls[settlement.1]? = some call ∧
    (payloadOf (id, call.method, call.params), handled) ∈ answered ∧
    settlement.2 = outcomeOf handled

/-- What `JSON.parse` reads of each line of the host is the frame that was written. -/
def ReadsBack (host : RuntimeHost F) (fmt : FloatFormat F) (s : RuntimeLink F) : Prop :=
  ∀ frame ∈ s.server.stdout, host.parse (String.ofList (dumps fmt .compact frame)) = some frame

theorem frames_output (fmt : FloatFormat F) (s : RuntimeLink F) :
    frames '\n' (s.output fmt) = (s.server.stdout.map (dumps fmt .compact), []) := by
  have hlines : ∀ l ∈ s.server.stdout.map (dumps fmt .compact), '\n' ∉ l := by
    intro l hl hmem
    obtain ⟨frame, -, rfl⟩ := List.mem_map.mp hl
    exact absurd (printable_dumps rfl fmt frame _ hmem) (by decide)
  rw [← frames_lines hlines, List.flatMap_map]
  rfl

theorem lineOf_dumps (fmt : FloatFormat F) (p : String × Json F) (ms : Members F) :
    RuntimeClient.lineOf (dumps fmt .compact (.obj (p :: ms))) =
      some (String.ofList (dumps fmt .compact (.obj (p :: ms)))) := by
  obtain ⟨m, hm⟩ : ∃ m, dumps fmt .compact (.obj (p :: ms)) = '{' :: (m ++ ['}']) := by
    refine ⟨quote p.1 ++ (Layout.compact.keySep ++ (dump fmt .compact 1 p.2 ++
      dumpMembers fmt .compact 1 ms)), ?_⟩
    rw [dumps, dump]
    simp [Layout.brk]
  have htrim : jsTrim (String.ofList ('{' :: (m ++ ['}']))) = String.ofList ('{' :: (m ++ ['}'])) := by
    rw [jsTrim, String.toList_ofList, List.dropWhile_cons_of_neg (by decide), List.reverse_cons,
      List.reverse_append, List.reverse_singleton, List.singleton_append, List.cons_append,
      List.dropWhile_cons_of_neg (by decide)]
    simp
  rw [hm, RuntimeClient.lineOf]
  rw [htrim, if_neg]
  simp [String.isEmpty_iff]

section

variable {calls : List (RequestCall F)} {answered : List (Json F × Handled F)}
  {c c' : RuntimeClient F}

/-- Each pending request is written as its call has it, if at all, and what the runtime
has settled is explained. -/
structure Correct (calls : List (RequestCall F)) (answered : List (Json F × Handled F))
    (c : RuntimeClient F) : Prop where
  pending : ∀ p ∈ c.pending, ∃ call, calls[p.2.promise]? = some call ∧
    ∀ w ∈ c.written, w.1 = p.1 → w = (p.1, call.method, call.params)
  settled : ∀ x ∈ c.settlements, FromRuntime x.2 → Explained calls answered x

theorem Correct.settle (h : Correct calls answered c) (hpending : c'.pending ⊆ c.pending)
    (hwritten : c'.written = c.written) {new : List (Nat × RequestOutcome F)}
    (hsettlements : c'.settlements = c.settlements ++ new)
    (hnew : ∀ x ∈ new, FromRuntime x.2 → Explained calls answered x) : Correct calls answered c' :=
  ⟨fun p hp => hwritten ▸ h.pending p (hpending hp),
    hsettlements ▸ List.forall_mem_append.mpr ⟨h.settled, hnew⟩⟩

theorem Correct.mono (h : Correct calls answered c) {calls' : List (RequestCall F)}
    {answered' : List (Json F × Handled F)} (hcalls : calls <+: calls')
    (hanswered : answered <+: answered') : Correct calls' answered' c := by
  have hget : ∀ {i : Nat} {call : RequestCall F}, calls[i]? = some call →
      calls'[i]? = some call := by
    intro i call hi
    obtain ⟨more, rfl⟩ := hcalls
    rwa [List.getElem?_append_left (List.getElem?_eq_some_iff.mp hi).1]
  constructor
  · intro p hp
    obtain ⟨call, hcall, hwritten⟩ := h.pending p hp
    exact ⟨call, hget hcall, hwritten⟩
  · intro x hx hruntime
    obtain ⟨call, id, handled, hcall, hmem, heq⟩ := h.settled x hx hruntime
    exact ⟨call, id, handled, hget hcall, hanswered.subset hmem, heq⟩

/-- What only `request` changes. -/
structure Kept (c c' : RuntimeClient F) : Prop where
  written : c'.written = c.written
  promises : c'.promises = c.promises
  sequence : c'.sequence = c.sequence

theorem Correct.conclude (h : Correct calls answered c) {id : String} {outcome : RequestOutcome F}
    (hout : FromRuntime outcome → ∃ w ∈ c.written, w.1 = id ∧ ∃ handled,
      (payloadOf w, handled) ∈ answered ∧ outcome = outcomeOf handled) :
    Correct calls answered (c.conclude id outcome) ∧ Kept c (c.conclude id outcome) := by
  rw [RuntimeClient.conclude]
  cases hp : c.pending.lookup id with
  | none => exact ⟨h, rfl, rfl, rfl⟩
  | some p =>
      obtain ⟨call, hcall, hwritten⟩ := h.pending _ (Members.mem_of_lookup hp)
      dsimp only
      rw [RuntimeClient.clearTimeout_eq]
      refine ⟨h.settle (List.filter_subset_self _) rfl rfl
        (List.forall_mem_singleton.mpr fun hruntime => ?_), rfl, rfl, rfl⟩
      obtain ⟨w, hw, hid, handled, hanswered, houtcome⟩ := hout hruntime
      rw [hwritten w hw hid] at hanswered
      exact ⟨call, id, handled, hcall, hanswered, houtcome⟩

theorem Correct.timeout (h : Correct calls answered c) (promise : Nat) :
    Correct calls answered (c.timeout promise) ∧ Kept c (c.timeout promise) := by
  rw [RuntimeClient.timeout]
  cases c.timers.find? (·.promise = promise) with
  | none => exact ⟨h, rfl, rfl, rfl⟩
  | some t =>
      exact ⟨h.settle (List.filter_subset_self _) rfl rfl
        (List.forall_mem_singleton.mpr fun hruntime => hruntime.elim), rfl, rfl, rfl⟩

theorem Correct.rejectAll (h : Correct calls answered c) (message : String) :
    Correct calls answered (c.rejectAll message) ∧ Kept c (c.rejectAll message) := by
  rw [RuntimeClient.rejectAll, RuntimeClient.foldl_reject]
  exact ⟨h.settle (List.nil_subset _) rfl rfl
    (List.forall_mem_map.mpr fun p _ hruntime => hruntime.elim), rfl, rfl, rfl⟩

theorem response_members (host : RuntimeHost F) (id : String) (handled : Handled F) :
    ∃ p ms, response (some id) handled = .obj (p :: ms) ∧
      (p :: ms).lookup "id" = some (.str id) ∧
      RuntimeClient.outcome host (p :: ms) = outcomeOf handled := by
  have hrefused : ∀ error : ProtocolError F, ∃ p ms, response (some id) (.refused error) =
      .obj (p :: ms) ∧ (p :: ms).lookup "id" = some (.str id) ∧
        RuntimeClient.outcome host (p :: ms) = outcomeOf (.refused error) := fun _ =>
    ⟨_, _, rfl, rfl, rfl⟩
  cases handled with
  | returned result events => exact ⟨_, _, rfl, rfl, rfl⟩
  | refused error => exact hrefused error
  | raised message =>
      have htext : sanitizeText "DevPilot desktop runtime request failed." =
          "DevPilot desktop runtime request failed." := by decide +kernel
      obtain ⟨p, ms, hresponse, hid, houtcome⟩ :=
        hrefused ⟨"internal_error", "DevPilot desktop runtime request failed.", []⟩
      rw [outcomeOf, htext] at houtcome
      exact ⟨p, ms, hresponse, hid, houtcome⟩

/-- A frame that the host writes: an event, or the response to a request of the client. -/
def Told (written : List (String × String × Json F)) (answered : List (Json F × Handled F))
    (frame : Json F) : Prop :=
  (∃ e, frame = event e) ∨ ∃ w ∈ written, ∃ handled, (payloadOf w, handled) ∈ answered ∧
    frame = response (some w.1) handled

variable {host : RuntimeHost F} {fmt : FloatFormat F}

theorem Correct.readFrame (h : Correct calls answered c) (htext : ∀ id, host.text (.str id) = id)
    {frame : Json F} (htold : Told c.written answered frame)
    (hparse : host.parse (String.ofList (dumps fmt .compact frame)) = some frame) :
    Correct calls answered (c.readFrame host (dumps fmt .compact frame)) ∧
      Kept c (c.readFrame host (dumps fmt .compact frame)) := by
  rcases htold with ⟨e, rfl⟩ | ⟨w, hw, handled, hanswered, rfl⟩
  · rw [event] at hparse ⊢
    rw [RuntimeClient.readFrame, lineOf_dumps]
    dsimp only
    rw [RuntimeClient.readLine, hparse]
    exact ⟨⟨h.pending, h.settled⟩, rfl, rfl, rfl⟩
  · obtain ⟨p, ms, hresponse, hid, houtcome⟩ := response_members host w.1 handled
    rw [hresponse] at hparse ⊢
    rw [RuntimeClient.readFrame, lineOf_dumps]
    dsimp only
    rw [RuntimeClient.readLine, hparse]
    dsimp only
    rw [hid]
    dsimp only
    rw [htext, houtcome]
    have hline : Correct calls answered { c with
        stdoutLines := c.stdoutLines ++ [String.ofList (dumps fmt .compact (.obj (p :: ms)))] } :=
      ⟨h.pending, h.settled⟩
    have hsettles : FromRuntime (outcomeOf handled) → ∃ w' ∈ c.written, w'.1 = w.1 ∧
        ∃ handled', (payloadOf w', handled') ∈ answered ∧ outcomeOf handled = outcomeOf handled' :=
      fun _ => ⟨w, hw, rfl, handled, hanswered, rfl⟩
    obtain ⟨hcorrect, hkept⟩ := hline.conclude hsettles
    exact ⟨hcorrect, hkept.written, hkept.promises, hkept.sequence⟩

theorem Correct.foldl_readFrame (h : Correct calls answered c)
    (htext : ∀ id, host.text (.str id) = id) {frames : List (Json F)}
    (htold : ∀ frame ∈ frames, Told c.written answered frame)
    (hparse : ∀ frame ∈ frames, host.parse (String.ofList (dumps fmt .compact frame)) = some frame) :
    Correct calls answered ((frames.map (dumps fmt .compact)).foldl (RuntimeClient.readFrame host) c) ∧
      Kept c ((frames.map (dumps fmt .compact)).foldl (RuntimeClient.readFrame host) c) := by
  induction frames generalizing c with
  | nil => exact ⟨h, rfl, rfl, rfl⟩
  | cons frame frames ih =>
      obtain ⟨htoldFrame, htold⟩ := List.forall_mem_cons.mp htold
      obtain ⟨hparseFrame, hparse⟩ := List.forall_mem_cons.mp hparse
      obtain ⟨hcorrect, hkept⟩ := h.readFrame htext htoldFrame hparseFrame
      rw [List.map_cons, List.foldl_cons]
      generalize c.readFrame host (dumps fmt .compact frame) = c' at hcorrect hkept ⊢
      have htold' : ∀ frame ∈ frames, Told c'.written answered frame := by
        rw [hkept.written]
        exact htold
      obtain ⟨hall, hkeptAll⟩ := ih hcorrect htold' hparse
      exact ⟨hall, hkeptAll.written.trans hkept.written, hkeptAll.promises.trans hkept.promises,
        hkeptAll.sequence.trans hkept.sequence⟩

end

variable {host : RuntimeHost F} {fmt : FloatFormat F} {s : RuntimeLink F}

structure Linked (host : RuntimeHost F) (fmt : FloatFormat F) (s : RuntimeLink F) : Prop where
  issued : s.client.Issued
  calls : s.calls.length = s.client.promises
  written : ∀ w ∈ s.client.written, ∃ k ≤ s.client.sequence, w.1 = RuntimeClient.requestId k
  correct : Correct s.calls s.server.answered s.client
  answers : s.server.Answers
  served : ∀ payload ∈ s.server.read, ∃ w ∈ s.client.written, payload = payloadOf w
  delivered : s.delivered ≤ (s.output fmt).length
  heard : s.client.HasRead host ((s.output fmt).take s.delivered)

theorem Linked.told (h : s.Linked host fmt) :
    ∀ frame ∈ s.server.stdout, Told s.client.written s.server.answered frame := by
  intro frame hframe
  cases hresponse : Server.isResponse frame with
  | false => exact .inl (h.answers.events frame hframe hresponse)
  | true =>
      have hmem : frame ∈ s.server.stdout.filter Server.isResponse :=
        List.mem_filter.mpr ⟨hframe, hresponse⟩
      rw [h.answers.responses] at hmem
      obtain ⟨a, ha, rfl⟩ := List.mem_map.mp hmem
      have hread : a.1 ∈ s.server.read := by
        rw [h.answers.read]
        exact List.mem_append_left _ (List.mem_map_of_mem ha)
      obtain ⟨w, hw, hpayload⟩ := h.served _ hread
      refine .inr ⟨w, hw, a.2, hpayload ▸ ha, ?_⟩
      rw [hpayload]
      rfl

theorem Linked.deliver (h : s.Linked host fmt) (htext : ∀ id, host.text (.str id) = id)
    (hback : ReadsBack host fmt s) (n : Nat) : (s.step host fmt (.deliver n)).Linked host fmt := by
  rw [RuntimeLink.step]
  generalize hchunk : ((s.output fmt).drop s.delivered).take n = chunk
  have hprefix : chunk <+: (s.output fmt).drop s.delivered := hchunk ▸ List.take_prefix _ _
  have hlength := hprefix.length_le
  rw [List.length_drop] at hlength
  have htake : (s.output fmt).take s.delivered ++ chunk =
      (s.output fmt).take (s.delivered + chunk.length) := by
    rw [List.take_add, ← List.prefix_iff_eq_take.mp hprefix]
  have hheard := h.heard.readStdout (String.ofList chunk)
  rw [String.toList_ofList, htake] at hheard
  -- the frames that the chunk completes are lines of the output
  obtain ⟨before, behind, hlines⟩ : ∃ before behind, before ++
      (frames '\n' (s.client.stdoutBuffer ++ chunk)).1 ++ behind =
        s.server.stdout.map (dumps fmt .compact) := by
    have hwhole := frames_isPrefix '\n' ((s.output fmt).take (s.delivered + chunk.length))
      ((s.output fmt).drop (s.delivered + chunk.length))
    rw [List.take_append_drop, frames_output, ← htake, frames_append, ← h.heard.stdoutBuffer] at hwhole
    obtain ⟨behind, hbehind⟩ := hwhole
    exact ⟨_, behind, hbehind⟩
  obtain ⟨told, rest, hstdout, htold, -⟩ := List.map_eq_append_iff.mp hlines.symm
  obtain ⟨old, new, hnew, -, hcut⟩ := List.map_eq_append_iff.mp htold
  have hmem : ∀ frame ∈ new, frame ∈ s.server.stdout := by
    intro frame hframe
    rw [hstdout, hnew]
    exact List.mem_append_left _ (List.mem_append_right _ hframe)
  obtain ⟨hcorrect, hkept⟩ := h.correct.foldl_readFrame htext
    (fun frame hframe => h.told frame (hmem frame hframe))
    (fun frame hframe => hback frame (hmem frame hframe))
  rw [hcut] at hcorrect hkept
  have hissued : (s.client.readStdout host (String.ofList chunk)).Issued := h.issued.readStdout _
  rw [RuntimeClient.readStdout, String.toList_ofList] at hheard hissued ⊢
  exact { h with
    issued := hissued
    heard := hheard
    calls := h.calls.trans hkept.promises.symm
    written := hkept.written ▸ hkept.sequence ▸ h.written
    correct := ⟨hcorrect.pending, hcorrect.settled⟩
    served := hkept.written ▸ h.served
    delivered := by
      show s.delivered + chunk.length ≤ (s.output fmt).length
      have := h.delivered
      omega }

theorem output_isPrefix (fmt : FloatFormat F) {frames frames' : List (Json F)}
    (h : frames <+: frames') (s s' : RuntimeLink F) (hs : s.server.stdout = frames)
    (hs' : s'.server.stdout = frames') : s.output fmt <+: s'.output fmt := by
  obtain ⟨more, rfl⟩ := h
  rw [output, output, hs, hs', List.flatMap_append]
  exact List.prefix_append _ _

theorem Linked.server (h : s.Linked host fmt) {e : ServerEvent F}
    (hline : ∀ payload, e = .line (some payload) → ∃ w ∈ s.client.written, payload = payloadOf w)
    (served : Nat) : Linked host fmt { s with server := s.server.step e, served := served } := by
  obtain ⟨hstdout, hanswered⟩ := (Server.transition_step s.server e).grows
  obtain ⟨more, hmore⟩ := output_isPrefix fmt hstdout s
    { s with server := s.server.step e, served := served } rfl rfl
  have hlength : s.delivered ≤ (s.output fmt).length := h.delivered
  exact { h with
    correct := h.correct.mono List.prefix_rfl hanswered
    answers := h.answers.transition (Server.transition_step s.server e)
    served := by
      intro payload hpayload
      rcases (Server.transition_step s.server e).read with heq | ⟨payload', he, heq⟩
      · exact h.served payload (heq ▸ hpayload)
      · rcases List.mem_append.mp (heq ▸ hpayload) with hold | hnew
        · exact h.served payload hold
        · exact List.mem_singleton.mp hnew ▸ hline payload' he
    delivered := by
      rw [← hmore, List.length_append]
      exact hlength.trans (Nat.le_add_right _ _)
    heard := by
      rw [← hmore, List.take_append_of_le_length hlength]
      exact h.heard }

theorem refusal_local {call : RequestCall F} {error : RequestError F}
    (h : RuntimeClient.refusal call = some error) : ¬FromRuntime (.error error) := by
  rw [RuntimeClient.refusal] at h
  split_ifs at h <;> cases h <;> exact id

theorem send_written (c : RuntimeClient F) (id : String) (call : RequestCall F) :
    (c.send id call).written = c.written ++
      if call.unserializable.isNone then [(id, call.method, call.params)] else [] := by
  rw [RuntimeClient.send, RuntimeClient.write, RuntimeClient.setPending, RuntimeClient.setTimeout]
  cases call.unserializable <;> split_ifs <;>
    simp_all [RuntimeClient.settle, RuntimeClient.promised]

theorem Linked.send (h : s.Linked host fmt) (call : RequestCall F) :
    Correct (s.calls ++ [call]) s.server.answered
      (s.client.send (RuntimeClient.requestId (s.client.sequence + 1)) call) := by
  have hold := h.correct.mono (List.prefix_append s.calls [call]) List.prefix_rfl
  have hnew : ∀ w ∈ (s.client.send (RuntimeClient.requestId (s.client.sequence + 1)) call).written,
      w ∈ s.client.written ∨
        w = (RuntimeClient.requestId (s.client.sequence + 1), call.method, call.params) := by
    intro w hw
    rw [send_written] at hw
    rcases List.mem_append.mp hw with hw | hw
    · exact .inl hw
    · split_ifs at hw
      · exact .inr (List.mem_singleton.mp hw)
      · cases hw
  obtain ⟨hpending, -, -⟩ :=
    RuntimeClient.send_pending s.client (RuntimeClient.requestId (s.client.sequence + 1)) call
  rw [h.issued.insert_pending] at hpending
  constructor
  · intro p hp
    rw [hpending] at hp
    rcases List.mem_append.mp hp with hp | hp
    · obtain ⟨call', hcall, hwritten⟩ := hold.pending p hp
      refine ⟨call', hcall, fun w hw hid => ?_⟩
      rcases hnew w hw with hw | rfl
      · exact hwritten w hw hid
      · exact absurd hid.symm (RuntimeClient.fresh (h.issued.pending p hp).1)
    · obtain rfl := List.mem_singleton.mp hp
      refine ⟨call, ?_, fun w hw hid => ?_⟩
      · rw [← h.calls, List.getElem?_concat_length]
      · rcases hnew w hw with hw | rfl
        · exact absurd hid (RuntimeClient.fresh (h.written w hw))
        · rfl
  · intro x hx hruntime
    rw [RuntimeClient.send_settlements] at hx
    rcases List.mem_append.mp hx with hx | hx
    · exact hold.settled x hx hruntime
    · obtain ⟨message, -, rfl⟩ := Option.map_eq_some_iff.mp (Option.mem_toList.mp hx)
      exact hruntime.elim

theorem Linked.request (h : s.Linked host fmt) (call : RequestCall F) :
    Linked host fmt { s with client := s.client.request call, calls := s.calls ++ [call] } := by
  have hissued := h.issued.request call
  have hheard := h.heard.of_same (RuntimeClient.sameOutput_request s.client call)
  rw [RuntimeClient.request] at hissued hheard ⊢
  cases hrefusal : RuntimeClient.refusal call with
  | some error =>
      rw [hrefusal] at hissued hheard
      have hcorrect := h.correct.mono (List.prefix_append s.calls [call]) List.prefix_rfl
      exact { h with
        issued := hissued
        heard := hheard
        calls := by
          rw [List.length_append, h.calls]
          rfl
        correct := hcorrect.settle (List.Subset.refl _) rfl rfl
          (List.forall_mem_singleton.mpr fun hruntime => absurd hruntime (refusal_local hrefusal)) }
  | none =>
      rw [hrefusal] at hissued hheard
      obtain ⟨-, hsequence, hpromises⟩ :=
        RuntimeClient.send_pending s.client (RuntimeClient.requestId (s.client.sequence + 1)) call
      have hwritten := send_written s.client (RuntimeClient.requestId (s.client.sequence + 1)) call
      exact { h with
        issued := hissued
        heard := hheard
        calls := by
          rw [hpromises, List.length_append, h.calls]
          rfl
        written := by
          intro w hw
          rw [hwritten] at hw
          rw [hsequence]
          rcases List.mem_append.mp hw with hw | hw
          · obtain ⟨k, hk, hid⟩ := h.written w hw
            exact ⟨k, hk.trans (Nat.le_succ _), hid⟩
          · split_ifs at hw
            · obtain rfl := List.mem_singleton.mp hw
              exact ⟨_, le_rfl, rfl⟩
            · cases hw
        correct := h.send call
        served := fun payload hpayload => by
          obtain ⟨w, hw, hof⟩ := h.served payload hpayload
          exact ⟨w, hwritten ▸ List.mem_append_left _ hw, hof⟩ }

theorem Linked.client (h : s.Linked host fmt) {e : ClientEvent F}
    (hclient : Correct s.calls s.server.answered (s.client.step host e) ∧
      Kept s.client (s.client.step host e))
    (hsilent : RuntimeClient.textOf [e] = []) :
    Linked host fmt { s with client := s.client.step host e } := by
  obtain ⟨hcorrect, hkept⟩ := hclient
  have hheard := h.heard.step e
  rw [hsilent, List.append_nil] at hheard
  exact { h with
    issued := h.issued.step e
    heard := hheard
    calls := h.calls.trans hkept.promises.symm
    written := hkept.written ▸ hkept.sequence ▸ h.written
    correct := hcorrect
    served := hkept.written ▸ h.served }

theorem Linked.step (h : s.Linked host fmt) (htext : ∀ id, host.text (.str id) = id)
    (hback : ReadsBack host fmt s) (e : LinkEvent F) : (s.step host fmt e).Linked host fmt := by
  have hlocal : ∀ {error : RequestError F} {id : String}, ¬FromRuntime (.error error) →
      Correct s.calls s.server.answered (s.client.conclude id (.error error)) ∧
        Kept s.client (s.client.conclude id (.error error)) :=
    fun hno => h.correct.conclude fun hruntime => absurd hruntime hno
  cases e with
  | client e =>
      cases e with
      | request call => exact h.request call
      | stdout chunk => exact h
      | timeout promise => exact h.client (h.correct.timeout promise) rfl
      | writeError id message => exact h.client (hlocal fun hruntime => hruntime.elim) rfl
      | exit => exact h.client (h.correct.rejectAll _) rfl
      | childError message => exact h.client (h.correct.rejectAll _) rfl
      | terminate message => exact h.client (h.correct.rejectAll _) rfl
  | serve =>
      rw [RuntimeLink.step]
      cases hw : s.client.written[s.served]? with
      | none => exact h
      | some w =>
          dsimp only
          split_ifs
          · refine h.server (fun payload hpayload => ?_) _
            cases hpayload
            exact ⟨w, List.mem_of_getElem? hw, rfl⟩
          · exact h
  | server e =>
      cases e with
      | line payload => exact h
      | closed => exact h.server (by simp) s.served
      | dispatched handled => exact h.server (by simp) s.served
      | emitted e => exact h.server (by simp) s.served
  | deliver n => exact h.deliver htext hback n

theorem stdout_step (host : RuntimeHost F) (fmt : FloatFormat F) (s : RuntimeLink F)
    (e : LinkEvent F) : s.server.stdout <+: (s.step host fmt e).server.stdout := by
  have hserver := fun e => (Server.transition_step s.server e).grows.1
  cases e with
  | client e => cases e <;> exact List.prefix_rfl
  | serve =>
      rw [RuntimeLink.step]
      cases s.client.written[s.served]? with
      | none => exact List.prefix_rfl
      | some w =>
          dsimp only
          split_ifs
          · exact hserver _
          · exact List.prefix_rfl
  | server e =>
      cases e with
      | line payload => exact List.prefix_rfl
      | closed => exact hserver _
      | dispatched handled => exact hserver _
      | emitted e => exact hserver _
  | deliver n => exact List.prefix_rfl

theorem linked_run (htext : ∀ id, host.text (.str id) = id) (events : List (LinkEvent F))
    (hback : ReadsBack host fmt (run (step host fmt) {} events)) :
    (run (step host fmt) {} events).Linked host fmt := by
  induction events using List.reverseRecOn with
  | nil =>
      show Linked host fmt {}
      exact ⟨⟨by simp, by simp, by simp⟩, rfl, by simp, ⟨by simp, by simp⟩, Server.answers_run [],
        by simp, le_rfl, rfl, rfl, rfl⟩
  | append_singleton events e ih =>
      rw [run_append] at hback ⊢
      have hearlier : ReadsBack host fmt (run (step host fmt) {} events) := fun frame hframe =>
        hback frame ((stdout_step host fmt _ e).subset hframe)
      exact (ih hearlier).step htext hearlier e

/-- An event goes before the answer to a request, and both come in two chunks. -/
def versionEvents : List (LinkEvent FloatText) :=
  [LinkEvent.client (.request RuntimeClient.versionCall), LinkEvent.serve,
    LinkEvent.server (.emitted ⟨"runtime.status", [("state", .str "ready")]⟩),
    LinkEvent.server (.dispatched (.returned [("token", .str "abc")] [])), LinkEvent.deliver 70,
    LinkEvent.deliver 200]

theorem readsBack_version : ReadsBack RuntimeClient.literalRuntime literalFormat
    (run (step RuntimeClient.literalRuntime literalFormat) {} versionEvents) := by
  have hwf : ∀ frame ∈ (run (step RuntimeClient.literalRuntime literalFormat) {}
      versionEvents).server.stdout, frame.wf = true := by decide +kernel
  intro frame hframe
  rw [RuntimeClient.literalRuntime]
  dsimp only
  rw [String.toList_ofList]
  exact loads_dumps literalFormat .compact (hwf frame hframe)

def tells (frame : Json F) : Option (RuntimeEmission F) :=
  match frame with
  | .obj ms => if Server.isResponse frame then none else some (RuntimeClient.emission ms)
  | _ => none

theorem emissionOf_told {written : List (String × String × Json F)}
    {answered : List (Json F × Handled F)} {frame : Json F} (h : Told written answered frame)
    (hparse : host.parse (String.ofList (dumps fmt .compact frame)) = some frame) :
    (RuntimeClient.lineOf (dumps fmt .compact frame)).bind (RuntimeClient.emissionOf host) =
      tells frame := by
  rcases h with ⟨e, rfl⟩ | ⟨w, -, handled, -, rfl⟩
  · rw [event] at hparse ⊢
    rw [lineOf_dumps, Option.bind_some, RuntimeClient.emissionOf, hparse]
    rfl
  · have hresponds := Server.isResponse_response (some w.1) handled
    obtain ⟨p, ms, hresponse, hid, -⟩ := response_members host w.1 handled
    rw [hresponse] at hparse hresponds ⊢
    rw [lineOf_dumps, Option.bind_some, RuntimeClient.emissionOf, hparse, tells, if_pos hresponds]
    dsimp only
    rw [hid]
    rfl

/-- The owner of the client is told the events that the host has written, in their order,
none of them twice, and all of them once the output has been read. -/
theorem events_reach_owner (htext : ∀ id, host.text (.str id) = id)
    (events : List (LinkEvent F)) (hback : ReadsBack host fmt (run (step host fmt) {} events)) :
    ∃ heard, heard <+: (run (step host fmt) {} events).server.stdout ∧
      (run (step host fmt) {} events).client.emitted = heard.filterMap tells ∧
      ((run (step host fmt) {} events).delivered =
        ((run (step host fmt) {} events).output fmt).length →
          heard = (run (step host fmt) {} events).server.stdout) := by
  have h := linked_run htext events hback
  generalize run (step host fmt) {} events = s at h hback ⊢
  have hprefix := frames_isPrefix '\n' ((s.output fmt).take s.delivered)
    ((s.output fmt).drop s.delivered)
  rw [List.take_append_drop, frames_output] at hprefix
  obtain ⟨behind, hbehind⟩ := hprefix
  obtain ⟨heard, rest, hstdout, hheard, hrest⟩ := List.map_eq_append_iff.mp hbehind.symm
  refine ⟨heard, ⟨rest, hstdout.symm⟩, ?_, ?_⟩
  · rw [h.heard.emitted, RuntimeClient.linesOf, ← hheard, List.filterMap_map, List.filterMap_filterMap]
    refine List.filterMap_congr fun frame hframe => ?_
    have hmem : frame ∈ s.server.stdout := hstdout ▸ List.mem_append_left _ hframe
    have htells := emissionOf_told (h.told frame hmem) (hback frame hmem)
    rw [Function.comp_apply]
    exact htells
  · intro hall
    rw [hall, List.take_length, frames_output] at hheard
    have hlength := congrArg List.length hheard
    rw [List.length_map, List.length_map] at hlength
    exact List.IsPrefix.eq_of_length ⟨rest, hstdout.symm⟩ hlength

theorem version_event_reaches_owner :
    (run (step RuntimeClient.literalRuntime literalFormat) {} versionEvents).client.emitted =
      (run (step RuntimeClient.literalRuntime literalFormat) {}
        versionEvents).server.stdout.filterMap tells := by
  obtain ⟨heard, -, hemitted, hall⟩ :=
    events_reach_owner (fun _ => rfl) versionEvents readsBack_version
  rw [hemitted, hall (by decide +kernel)]

end RuntimeLink

end DevPilot
