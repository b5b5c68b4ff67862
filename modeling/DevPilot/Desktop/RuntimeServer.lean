import DevPilot.Desktop.Sanitizer
import DevPilot.Lib.Runs
import DevPilot.Lib.TextLines

/-!
The host of the desktop protocol: it reads requests, has them handled one after another,
and writes the answers and the events of the runtime.
-/

namespace DevPilot.DesktopProtocol

open PyJson Sanitizer Runs

variable {F : Type}

structure ProtocolError (F : Type) where
  code : String
  message : String
  details : Members F := []

structure Request (F : Type) where
  requestId : String
  method : String
  params : Members F

structure RuntimeEvent (F : Type) where
  name : String
  data : Members F

def invalidRequest (message : String) : ProtocolError F := ⟨"invalid_request", message, []⟩

def nonEmpty? (member : Option (Json F)) : Option String :=
  (member.bind Json.str?).filter fun s => !(TextLines.strip s.toList).isEmpty

def parseRequest : Json F → Except (ProtocolError F) (Request F)
  | .obj payload =>
      match nonEmpty? (payload.lookup "id"), nonEmpty? (payload.lookup "method"),
        (payload.lookup "params").getD (.obj []) with
      | none, _, _ => .error (invalidRequest "Protocol request id must be a non-empty string.")
      | _, none, _ => .error (invalidRequest "Protocol method must be a non-empty string.")
      | some requestId, some method, .obj params => .ok ⟨requestId, method, params⟩
      | _, _, _ => .error (invalidRequest "Protocol params must be an object.")
  | _ => .error (invalidRequest "Protocol request must be a JSON object.")

def sanitizeText (text : String) : String := redactText (containsMarker credentialMarkers) text

def sanitizeMapping (value : Members F) : Members F :=
  redactMembers (containsMarker credentialMarkers) (containsMarker sensitiveMarkers) value

def success (requestId : String) (result : Members F) : Json F :=
  .obj [("id", .str requestId), ("result", .obj (sanitizeMapping result))]

def failure (requestId : Option String) (error : ProtocolError F) : Json F :=
  .obj (("error", .obj [("code", .str error.code), ("message", .str (sanitizeText error.message)),
    ("details", .obj (sanitizeMapping error.details))]) ::
      (requestId.map fun id => ("id", Json.str id)).toList)

def event (e : RuntimeEvent F) : Json F :=
  .obj [("event", .str e.name), ("data", .obj (sanitizeMapping e.data))]

/-- How a handler ends: by a `DispatchResult`, a `ProtocolError` or another exception. -/
inductive Handled (F : Type)
  | returned (result : Members F) (events : List (RuntimeEvent F))
  | refused (error : ProtocolError F)
  | raised (message : String)

/-- The keys of `handlers`. -/
def methods : List String :=
  ["runtime.initialize", "runtime.status", "runtime.version", "runtime.shutdown", "auth.status",
    "auth.login", "auth.logout", "models.list", "project.open", "project.list", "project.get",
    "project.remove", "project.preflight", "conversation.create", "conversation.list",
    "conversation.get", "conversation.open", "conversation.rename", "conversation.pin",
    "conversation.archive", "conversation.delete", "conversation.resume", "conversation.send",
    "run.cancel", "run.resume", "run.status", "changes.list", "changes.diff",
    "migration.importLegacyWorkspace"]

structure Server (F : Type) where
  /-- The payload whose handler runs. -/
  inFlight : Option (Json F) := none
  shutdownRequested : Bool := false
  /-- `serve` has not returned. -/
  serving : Bool := true
  stdout : List (Json F) := []
  /-- The logged messages, without the prefix of their lines. -/
  stderr : List String := []
  /-- The payloads read, and those answered with how they were handled. -/
  read : List (Json F) := []
  answered : List (Json F × Handled F) := []

inductive ServerEvent (F : Type)
  /-- `readline` returns: what `json.loads` makes of the line, if it does. -/
  | line (payload : Option (Json F))
  | closed
  | dispatched (handled : Handled F)
  /-- The event sink is called. -/
  | emitted (e : RuntimeEvent F)

def requestIdOf (payload : Json F) : Option String := payload.getStr? "id"

def response (requestId : Option String) : Handled F → Json F
  -- a handler has only run for a request with an id
  | .returned result _ => success (requestId.getD "") result
  | .refused error => failure requestId error
  | .raised _ => failure requestId
      ⟨"internal_error", "DevPilot desktop runtime request failed.", []⟩

namespace Server

def send (s : Server F) (frames : List (Json F)) : Server F := { s with stdout := s.stdout ++ frames }

def log (s : Server F) (message : String) : Server F :=
  { s with stderr := s.stderr ++ [sanitizeText message] }

/-- The rest of `_dispatch_line` behind the handler: the loop of `serve` ends if a shutdown
has been requested. -/
def answer (s : Server F) (payload : Json F) (handled : Handled F) : Server F :=
  let logged := match handled with
    | .raised message => s.log ("desktop protocol request failed: " ++ sanitizeText message)
    | _ => s
  let events := match handled with
    | .returned _ events => events.map event
    | _ => []
  { logged.send (response (requestIdOf payload) handled :: events) with
    inFlight := none
    serving := !s.shutdownRequested
    answered := s.answered ++ [(payload, handled)] }

def dispatchLine (s : Server F) : Option (Json F) → Server F
  | none => s.log "Ignoring malformed desktop protocol JSON frame."
  | some payload =>
      let s := { s with read := s.read ++ [payload] }
      match parseRequest payload with
      | .error error => s.answer payload (Handled.refused error)
      | .ok request =>
          if request.method ∈ methods then
            { s with
              inFlight := some payload
              shutdownRequested := s.shutdownRequested || request.method == "runtime.shutdown" }
          else s.answer payload (Handled.refused ⟨"method_not_found",
            "Unsupported DevPilot desktop method: " ++ request.method, []⟩)

def step (s : Server F) : ServerEvent F → Server F
  | .line payload => if s.serving && s.inFlight.isNone then s.dispatchLine payload else s
  | .closed => if s.inFlight.isNone then { s with serving := false } else s
  | .dispatched handled => match s.inFlight with
      | none => s
      | some payload => s.answer payload handled
  | .emitted e => s.send [event e]

def asksShutdown (payload : Json F) : Bool :=
  match parseRequest payload with
  | .ok request => request.method == "runtime.shutdown"
  | .error _ => false

def receive (s : Server F) (payload : Json F) : Server F :=
  { s with
    read := s.read ++ [payload]
    inFlight := some payload
    shutdownRequested := s.shutdownRequested || asksShutdown payload }

inductive Transition (s : Server F) : ServerEvent F → Server F → Prop
  | ignored (e : ServerEvent F) : Transition s e s
  | logged (message : String) : Transition s (.line none) (s.log message)
  | closed : Transition s .closed { s with serving := false }
  | emitted (e : RuntimeEvent F) : Transition s (.emitted e) (s.send [event e])
  | received (payload : Json F) (hserving : s.serving = true) (hidle : s.inFlight = none) :
      Transition s (.line (some payload)) (s.receive payload)
  | refused (payload : Json F) (error : ProtocolError F) (hserving : s.serving = true)
      (hidle : s.inFlight = none) :
      Transition s (.line (some payload)) ((s.receive payload).answer payload (.refused error))
  | answered (payload : Json F) (handled : Handled F) (hflight : s.inFlight = some payload) :
      Transition s (.dispatched handled) (s.answer payload handled)

variable {s s' : Server F} {e : ServerEvent F}

theorem dispatchLine_cases (s : Server F) (payload : Json F) :
    s.dispatchLine (some payload) = s.receive payload ∨
      ∃ error, s.dispatchLine (some payload) = (s.receive payload).answer payload (.refused error) := by
  rw [dispatchLine]
  cases hparse : parseRequest payload with
  | error error =>
      refine .inr ⟨error, ?_⟩
      simp [Server.receive, Server.answer, send, asksShutdown, hparse]
  | ok request =>
      dsimp only
      split_ifs with hmethod
      · refine .inl ?_
        simp [Server.receive, asksShutdown, hparse]
      · refine .inr ⟨⟨"method_not_found",
          "Unsupported DevPilot desktop method: " ++ request.method, []⟩, ?_⟩
        have hother : (request.method == "runtime.shutdown") = false := by
          rw [beq_eq_false_iff_ne]
          rintro heq
          rw [heq] at hmethod
          exact hmethod (by decide)
        simp [Server.receive, Server.answer, send, asksShutdown, hparse, hother]

theorem transition_step (s : Server F) (e : ServerEvent F) : Transition s e (s.step e) := by
  cases e with
  | closed =>
      rw [Server.step]
      split_ifs
      · exact .closed
      · exact .ignored _
  | emitted e => exact .emitted e
  | dispatched handled =>
      rw [Server.step]
      cases hflight : s.inFlight with
      | none => exact .ignored _
      | some payload => exact .answered payload handled hflight
  | line payload =>
      rw [Server.step]
      split_ifs with hready
      · obtain ⟨hserving, hidle⟩ := Bool.and_eq_true_iff.mp hready
        rw [Option.isNone_iff_eq_none] at hidle
        cases payload with
        | none => exact .logged _
        | some payload =>
            rcases dispatchLine_cases s payload with heq | ⟨error, heq⟩
            · exact heq ▸ .received payload hserving hidle
            · exact heq ▸ .refused payload error hserving hidle
      · exact .ignored _

theorem answer_fields (s : Server F) (payload : Json F) (handled : Handled F) :
    (s.answer payload handled).read = s.read ∧
      (s.answer payload handled).answered = s.answered ++ [(payload, handled)] ∧
      (s.answer payload handled).inFlight = none ∧
      (s.answer payload handled).shutdownRequested = s.shutdownRequested ∧
      (s.answer payload handled).serving = !s.shutdownRequested ∧
      ∃ events : List (RuntimeEvent F), (s.answer payload handled).stdout =
        s.stdout ++ response (requestIdOf payload) handled :: events.map event := by
  cases handled with
  | returned result events => exact ⟨rfl, rfl, rfl, rfl, rfl, events, rfl⟩
  | refused error => exact ⟨rfl, rfl, rfl, rfl, rfl, [], rfl⟩
  | raised message => exact ⟨rfl, rfl, rfl, rfl, rfl, [], rfl⟩

theorem grows_answer (s : Server F) (payload : Json F) (handled : Handled F) :
    s.stdout <+: (s.answer payload handled).stdout ∧
      s.answered <+: (s.answer payload handled).answered := by
  obtain ⟨-, hanswered, -, -, -, events, hstdout⟩ := answer_fields s payload handled
  rw [hanswered, hstdout]
  exact ⟨List.prefix_append _ _, List.prefix_append _ _⟩

theorem Transition.grows (h : Transition s e s') : s.stdout <+: s'.stdout ∧ s.answered <+: s'.answered := by
  cases h with
  | ignored | logged | closed | received => exact ⟨List.prefix_rfl, List.prefix_rfl⟩
  | emitted e => exact ⟨List.prefix_append _ _, List.prefix_rfl⟩
  | refused payload error => exact grows_answer (s.receive payload) payload _
  | answered payload handled => exact grows_answer s payload handled

theorem Transition.read (h : Transition s e s') :
    s'.read = s.read ∨ ∃ payload, e = .line (some payload) ∧ s'.read = s.read ++ [payload] := by
  cases h with
  | ignored | logged | closed | emitted => exact .inl rfl
  | received payload => exact .inr ⟨payload, rfl, rfl⟩
  | refused payload error =>
      exact .inr ⟨payload, rfl, (answer_fields (s.receive payload) payload _).1⟩
  | answered payload handled => exact .inl (answer_fields s payload handled).1

def isResponse (frame : Json F) : Bool := (frame.get? "event").isNone

theorem isResponse_response (requestId : Option String) (handled : Handled F) :
    isResponse (response requestId handled) = true := by
  cases handled <;> cases requestId <;> rfl

theorem filter_isResponse_events (events : List (RuntimeEvent F)) :
    (events.map event).filter isResponse = [] := by
  rw [List.filter_map, List.map_eq_nil_iff]
  exact List.filter_eq_nil_iff.mpr fun e _ => by simp [isResponse, event, Json.get?]

structure Answers (s : Server F) : Prop where
  /-- What has been read is answered in order, or in flight. -/
  read : s.read = s.answered.map (·.1) ++ s.inFlight.toList
  responses : s.stdout.filter isResponse =
    s.answered.map fun a => response (requestIdOf a.1) a.2
  events : ∀ frame ∈ s.stdout, isResponse frame = false → ∃ e, frame = event e
  stops : s.shutdownRequested = true → s.serving = true → s.inFlight.isSome = true
  shutdown : s.shutdownRequested = false → ∀ payload ∈ s.read, asksShutdown payload = false
  /-- Behind a request to shut down no line is read. -/
  last : ∀ payload ∈ s.read.dropLast, asksShutdown payload = false

theorem Answers.answer (h : s.Answers) {payload : Json F} (hflight : s.inFlight = some payload)
    (handled : Handled F) : (s.answer payload handled).Answers := by
  obtain ⟨hread, hanswered, hidle, hshutdown, hserving, events, hstdout⟩ :=
    answer_fields s payload handled
  refine ⟨?_, ?_, ?_, ?_, ?_, ?_⟩
  · rw [hread, hanswered, hidle, h.read, hflight]
    simp
  · rw [hstdout, hanswered, List.filter_append, List.filter_cons_of_pos (isResponse_response _ _),
      filter_isResponse_events, h.responses, List.map_append]
    rfl
  · intro frame hframe hother
    rw [hstdout] at hframe
    rcases List.mem_append.mp hframe with hframe | hframe
    · exact h.events frame hframe hother
    · rcases List.mem_cons.mp hframe with rfl | hframe
      · rw [isResponse_response] at hother
        cases hother
      · obtain ⟨e, -, rfl⟩ := List.mem_map.mp hframe
        exact ⟨e, rfl⟩
  · rw [hshutdown, hserving]
    intro hrequested hstill
    simp [hrequested] at hstill
  · rw [hshutdown, hread]
    exact h.shutdown
  · rw [hread]
    exact h.last

theorem Answers.receive (h : s.Answers) (hserving : s.serving = true) (hidle : s.inFlight = none)
    (payload : Json F) : (s.receive payload).Answers := by
  have hrunning : s.shutdownRequested = false := by
    by_contra hrequested
    have hflight := h.stops (by simpa using hrequested) hserving
    rw [hidle] at hflight
    cases hflight
  have hall := h.shutdown hrunning
  refine ⟨?_, h.responses, h.events, fun _ _ => rfl, ?_, ?_⟩
  · rw [Server.receive, h.read, hidle]
    simp
  · intro hnone p hp
    rcases List.mem_append.mp hp with hp | hp
    · exact hall p hp
    · rw [List.mem_singleton.mp hp]
      exact (Bool.or_eq_false_iff.mp hnone).2
  · show ∀ p ∈ (s.read ++ [payload]).dropLast, _
    rwa [List.dropLast_concat]

theorem Answers.transition (h : s.Answers) (ht : Transition s e s') : s'.Answers := by
  cases ht with
  | ignored => exact h
  | logged => exact ⟨h.read, h.responses, h.events, h.stops, h.shutdown, h.last⟩
  | closed => exact ⟨h.read, h.responses, h.events, by simp, h.shutdown, h.last⟩
  | emitted e =>
      refine ⟨h.read, ?_, ?_, h.stops, h.shutdown, h.last⟩
      · show (s.stdout ++ [event e]).filter isResponse = _
        rw [List.filter_append, h.responses]
        exact List.append_nil _
      · intro frame hframe hother
        rcases List.mem_append.mp hframe with hframe | hframe
        · exact h.events frame hframe hother
        · exact ⟨e, List.mem_singleton.mp hframe⟩
  | received payload hserving hidle => exact h.receive hserving hidle payload
  | refused payload error hserving hidle => exact (h.receive hserving hidle payload).answer rfl _
  | answered payload handled hflight => exact h.answer hflight handled

theorem answers_run (events : List (ServerEvent F)) : (run step ({} : Server F) events).Answers :=
  run_invariant (fun s e h => h.transition (transition_step s e))
    ⟨rfl, rfl, by simp, by simp, by simp, by simp⟩ events

/-- In every run the responses are those of the payloads read, one for each in the order
of reading, up to the one in flight; behind a request to shut down nothing is read. -/
theorem answered_in_order (events : List (ServerEvent F)) :
    (run step ({} : Server F) events).read =
        (run step {} events).answered.map (·.1) ++ (run step {} events).inFlight.toList ∧
      (run step {} events).stdout.filter isResponse =
        (run step {} events).answered.map (fun a => response (requestIdOf a.1) a.2) ∧
      ∀ payload ∈ (run step {} events).read.dropLast, asksShutdown payload = false :=
  ⟨(answers_run events).read, (answers_run events).responses, (answers_run events).last⟩

end Server

mutual

/-- No text of the value has a credential marker, and what stands under a sensitive key is
redacted. -/
def isClean : Json F → Bool
  | .obj ms => isCleanMembers ms
  | .arr vs => isCleanItems vs
  | .str s => !containsMarker credentialMarkers s
  | _ => true

def isCleanItems : List (Json F) → Bool
  | [] => true
  | v :: vs => isClean v && isCleanItems vs

def isCleanMembers : Members F → Bool
  | [] => true
  | (k, v) :: ms => (!containsMarker sensitiveMarkers k || v.str? == some "[redacted]") && isClean v &&
      isCleanMembers ms

end

theorem noMarker_sanitizeText (s : String) :
    containsMarker credentialMarkers (sanitizeText s) = false := by
  rw [sanitizeText, redactText]
  split_ifs with h
  · decide
  · simpa using h

mutual

theorem isClean_redactValue : ∀ v : Json F, isClean (redactValue
    (containsMarker credentialMarkers) (containsMarker sensitiveMarkers) v) = true
  | .obj ms => by
      rw [redactValue, isClean]
      exact isClean_sanitizeMapping ms
  | .arr vs => by
      rw [redactValue, isClean]
      exact isClean_redactItems vs
  | .str s => by
      rw [redactValue, isClean, Bool.not_eq_true']
      exact noMarker_sanitizeText s
  | .null | .bool _ | .int _ | .float _ => rfl

theorem isClean_redactItems : ∀ vs : List (Json F), isCleanItems (redactItems
    (containsMarker credentialMarkers) (containsMarker sensitiveMarkers) vs) = true
  | [] => rfl
  | v :: vs => by
      rw [redactItems, isCleanItems, isClean_redactValue v, isClean_redactItems vs]
      rfl

theorem isClean_sanitizeMapping : ∀ ms : Members F, isCleanMembers (sanitizeMapping ms) = true
  | [] => rfl
  | (k, v) :: ms => by
      have hms := isClean_sanitizeMapping ms
      rw [sanitizeMapping] at hms ⊢
      rw [redactMembers, isCleanMembers, hms]
      cases hk : containsMarker sensitiveMarkers k with
      | true =>
          have hredacted : containsMarker credentialMarkers "[redacted]" = false := by decide
          simp [Json.str?, isClean, hredacted]
      | false => simp [isClean_redactValue v]

end

/-- A frame tells no secret beside its id, the name of its event and the code of its error. -/
structure Redacted (frame : Json F) : Prop where
  result : ∀ v, frame.get? "result" = some v → isClean v = true
  data : ∀ v, frame.get? "data" = some v → isClean v = true
  error : ∀ v k w, frame.get? "error" = some v → v.get? k = some w → k ≠ "code" → isClean w = true

theorem redacted_event (e : RuntimeEvent F) : Redacted (event e) := by
  refine ⟨?_, ?_, ?_⟩
  · intro v hv
    cases hv
  · intro v hv
    cases hv
    exact isClean_sanitizeMapping e.data
  · intro v k w hv
    cases hv

theorem redacted_failure (requestId : Option String) (error : ProtocolError F) :
    Redacted (failure requestId error) := by
  refine ⟨?_, ?_, ?_⟩
  · intro v hv
    cases requestId <;> cases hv
  · intro v hv
    cases requestId <;> cases hv
  · intro v k w hv hw hk
    have hv : v = .obj [("code", .str error.code), ("message", .str (sanitizeText error.message)),
        ("details", .obj (sanitizeMapping error.details))] := by
      cases requestId <;> cases hv <;> rfl
    rw [hv, Json.get?, Members.lookup_cons, if_neg hk] at hw
    rcases List.mem_cons.mp (Members.mem_of_lookup hw) with heq | hmem
    · obtain ⟨-, rfl⟩ := Prod.mk.inj heq
      rw [isClean, noMarker_sanitizeText]
      rfl
    · obtain ⟨-, rfl⟩ := Prod.mk.inj (List.mem_singleton.mp hmem)
      exact isClean_sanitizeMapping error.details

theorem redacted_response (requestId : Option String) (handled : Handled F) :
    Redacted (response requestId handled) := by
  cases handled with
  | returned result events =>
      refine ⟨?_, ?_, ?_⟩
      · intro v hv
        cases hv
        exact isClean_sanitizeMapping result
      · intro v hv
        cases hv
      · intro v k w hv
        cases hv
  | refused error => exact redacted_failure requestId error
  | raised message => exact redacted_failure requestId _

namespace Server

structure Discreet (s : Server F) : Prop where
  stdout : ∀ frame ∈ s.stdout, Redacted frame
  stderr : ∀ message ∈ s.stderr, containsMarker credentialMarkers message = false

variable {s s' : Server F} {e : ServerEvent F}

theorem Discreet.log (h : s.Discreet) (message : String) : (s.log message).Discreet :=
  ⟨h.stdout, List.forall_mem_append.mpr ⟨h.stderr,
    List.forall_mem_singleton.mpr (noMarker_sanitizeText message)⟩⟩

theorem Discreet.answer (h : s.Discreet) (payload : Json F) (handled : Handled F) :
    (s.answer payload handled).Discreet := by
  have hresponse := redacted_response (requestIdOf payload) handled
  cases handled with
  | returned result events =>
      refine ⟨List.forall_mem_append.mpr ⟨h.stdout, List.forall_mem_cons.mpr ⟨hresponse, ?_⟩⟩,
        h.stderr⟩
      exact List.forall_mem_map.mpr fun e _ => redacted_event e
  | refused error =>
      exact ⟨List.forall_mem_append.mpr ⟨h.stdout, List.forall_mem_singleton.mpr hresponse⟩, h.stderr⟩
  | raised message =>
      have hlog := h.log ("desktop protocol request failed: " ++ sanitizeText message)
      exact ⟨List.forall_mem_append.mpr ⟨h.stdout, List.forall_mem_singleton.mpr hresponse⟩,
        hlog.stderr⟩

theorem Discreet.transition (h : s.Discreet) (ht : Transition s e s') : s'.Discreet := by
  cases ht with
  | ignored => exact h
  | logged message => exact h.log message
  | closed | received => exact ⟨h.stdout, h.stderr⟩
  | emitted e =>
      exact ⟨List.forall_mem_append.mpr ⟨h.stdout, List.forall_mem_singleton.mpr (redacted_event e)⟩,
        h.stderr⟩
  | refused payload error =>
      have hreceive : (s.receive payload).Discreet := ⟨h.stdout, h.stderr⟩
      exact hreceive.answer payload _
  | answered payload handled => exact h.answer payload handled

end Server

end DevPilot.DesktopProtocol
