import DevPilot.Desktop.Store
import DevPilot.Lib.LineFrames

/-!
The client of the desktop runtime: it writes requests, reads the lines of the
runtime and settles the promises of the requests.
-/

namespace DevPilot

open PyJson LineFrames

variable {F : Type}

/-- What the client asks of its host: `JSON.parse`, `String` and which numbers are
truthy. -/
structure RuntimeHost (F : Type) where
  parse : String → Option (Json F)
  text : Json F → String
  isTruthy : F → Bool

inductive RequestError (F : Type)
  | typeError (message : String)
  | error (message : String)
  | protocol (code message : String) (details : Json F)

abbrev RequestOutcome (F : Type) := Except (RequestError F) (Json F)

structure PendingRequest where
  promise : Nat
  timeout : Bool
  deriving DecidableEq

structure RequestTimer where
  id : String
  promise : Nat
  method : String
  deriving DecidableEq

inductive RuntimeEmission (F : Type)
  | event (name : String) (data : Json F)
  | protocolError (message : String)

structure RuntimeClient (F : Type) where
  pending : List (String × PendingRequest) := []
  sequence : Nat := 0
  stdoutLines : List String := []
  stdoutBuffer : List Char := []
  timers : List RequestTimer := []
  promises : Nat := 0
  /-- The calls that resolve or reject a promise. The first one settles it. -/
  settlements : List (Nat × RequestOutcome F) := []
  written : List (String × String × Json F) := []
  emitted : List (RuntimeEmission F) := []

structure RequestCall (F : Type) where
  method : String
  params : Json F
  timeoutMs : Int
  /-- The child has not exited and its input is writable. -/
  running : Bool
  /-- The message of the exception, if `JSON.stringify` throws one. -/
  unserializable : Option String

inductive ClientEvent (F : Type)
  | request (call : RequestCall F)
  | stdout (chunk : String)
  | timeout (promise : Nat)
  | writeError (id message : String)
  | exit
  | childError (message : String)
  | terminate (message : String)

namespace RuntimeClient

variable (host : RuntimeHost F)

def requestId (sequence : Nat) : String := "desktop-" ++ toString sequence

def settle (s : RuntimeClient F) (promise : Nat) (outcome : RequestOutcome F) : RuntimeClient F :=
  { s with settlements := s.settlements ++ [(promise, outcome)] }

def clearTimeout (s : RuntimeClient F) (p : PendingRequest) : RuntimeClient F :=
  if p.timeout then { s with timers := s.timers.filter (·.promise ≠ p.promise) } else s

def delete (s : RuntimeClient F) (id : String) : RuntimeClient F :=
  { s with pending := s.pending.filter (·.1 ≠ id) }

/-- The error that `request` rejects a call with at once. -/
def refusal (call : RequestCall F) : Option (RequestError F) :=
  if (jsTrim call.method).isEmpty then some (.typeError "A desktop runtime method is required.")
  else if !call.params.isObj then
    some (.typeError "Desktop runtime params must be an object.")
  else if !call.running then some (.error "DevPilot desktop runtime is not running.")
  else none

def setTimeout (s : RuntimeClient F) (id : String) (call : RequestCall F) : RuntimeClient F :=
  if 0 < call.timeoutMs then { s with timers := s.timers ++ [⟨id, s.promises, call.method⟩] } else s

/-- `stdin.write`. The promise is rejected if there is nothing to write. -/
def write (s : RuntimeClient F) (id : String) (call : RequestCall F) : RuntimeClient F :=
  match call.unserializable with
  | none => { s with written := s.written ++ [(id, call.method, call.params)] }
  | some message => s.settle s.promises (.error (.typeError message))

def setPending (s : RuntimeClient F) (id : String) (call : RequestCall F) : RuntimeClient F :=
  { s with pending := Members.insert id ⟨s.promises, 0 < call.timeoutMs⟩ s.pending }

def promised (s : RuntimeClient F) : RuntimeClient F := { s with promises := s.promises + 1 }

def send (s : RuntimeClient F) (id : String) (call : RequestCall F) : RuntimeClient F :=
  ((({ s with sequence := s.sequence + 1 }.setTimeout id call).setPending id call).write id
    call).promised

def request (s : RuntimeClient F) (call : RequestCall F) : RuntimeClient F :=
  match refusal call with
  | some error => (s.settle s.promises (.error error)).promised
  | none => s.send (requestId (s.sequence + 1)) call

def timeoutError (method : String) : RequestError F :=
  .error ("DevPilot desktop runtime timed out while handling " ++ method ++ ".")

def timeout (s : RuntimeClient F) (promise : Nat) : RuntimeClient F :=
  match s.timers.find? (·.promise = promise) with
  | none => s
  | some t => ({ s with timers := s.timers.filter (·.promise ≠ promise) }.delete t.id).settle promise
      (.error (timeoutError t.method))

def conclude (s : RuntimeClient F) (id : String) (outcome : RequestOutcome F) : RuntimeClient F :=
  match s.pending.lookup id with
  | none => s
  | some p => ((s.delete id).clearTimeout p).settle p.promise outcome

def rejectAll (s : RuntimeClient F) (message : String) : RuntimeClient F :=
  { s.pending.foldl (fun s p => (s.clearTimeout p.2).settle p.2.promise (.error (.error message))) s
    with pending := [] }

def isTruthy : Option (Json F) → Bool
  | none | some .null => false
  | some (.bool b) => b
  | some (.int n) => n ≠ 0
  | some (.float x) => host.isTruthy x
  | some (.str s) => s ≠ ""
  | some (.arr _) | some (.obj _) => true

def outcome (message : Members F) : RequestOutcome F :=
  if isTruthy host (message.lookup "error") then
    let error := (readObject (message.lookup "error")).getD (.obj [])
    .error (.protocol ((error.getStr? "code").getD "runtime_error")
      ((error.getStr? "message").getD "DevPilot desktop runtime request failed.")
      ((readObject (error.get? "details")).getD (.obj [])))
  else .ok ((readObject (message.lookup "result")).getD (.obj []))

def emit (s : RuntimeClient F) (emission : RuntimeEmission F) : RuntimeClient F :=
  { s with emitted := s.emitted ++ [emission] }

def emission (message : Members F) : RuntimeEmission F :=
  match (message.lookup "event").bind Json.str? with
  | none | some "" =>
      .protocolError "DevPilot desktop runtime emitted an unsupported protocol envelope."
  | some event => .event event ((readObject (message.lookup "data")).getD (.obj []))

def readLine (s : RuntimeClient F) (line : String) : RuntimeClient F :=
  match host.parse line with
  | none => s.emit (.protocolError "DevPilot desktop runtime emitted an invalid protocol frame.")
  | some (.obj message) => match message.lookup "id" with
      | some id => s.conclude (host.text id) (outcome host message)
      | none => s.emit (emission message)
  | some _ =>
      s.emit (.protocolError "DevPilot desktop runtime emitted an invalid protocol envelope.")

def lineOf (frame : List Char) : Option String :=
  let line := jsTrim (String.ofList frame)
  if line.isEmpty then none else some line

def readFrame (s : RuntimeClient F) (frame : List Char) : RuntimeClient F :=
  match lineOf frame with
  | none => s
  | some line => { s with stdoutLines := s.stdoutLines ++ [line] }.readLine host line

def readStdout (s : RuntimeClient F) (chunk : String) : RuntimeClient F :=
  let cut := frames '\n' (s.stdoutBuffer ++ chunk.toList)
  { cut.1.foldl (readFrame host) s with stdoutBuffer := cut.2 }

def step (s : RuntimeClient F) : ClientEvent F → RuntimeClient F
  | .request call => s.request call
  | .stdout chunk => s.readStdout host chunk
  | .timeout promise => s.timeout promise
  | .writeError id message => s.conclude id (.error (.error message))
  | .exit => s.rejectAll "DevPilot desktop runtime stopped."
  | .childError message => s.rejectAll message
  | .terminate message => s.rejectAll message

end RuntimeClient

end DevPilot

/-!
The runtime client reads the same lines, and tells its owner the same, in whatever
chunks their text arrives.
-/

namespace DevPilot

open PyJson LineFrames Runs

variable {F : Type}

namespace RuntimeClient

def textOf (events : List (ClientEvent F)) : List Char :=
  events.flatMap fun
    | .stdout chunk => chunk.toList
    | _ => []

def linesOf (text : List Char) : List String := (frames '\n' text).1.filterMap lineOf

def emissionOf (host : RuntimeHost F) (line : String) : Option (RuntimeEmission F) :=
  match host.parse line with
  | none => some (.protocolError "DevPilot desktop runtime emitted an invalid protocol frame.")
  | some (.obj message) =>
      if (message.lookup "id").isSome then none else some (emission message)
  | some _ =>
      some (.protocolError "DevPilot desktop runtime emitted an invalid protocol envelope.")

/-- The client has read a text, whatever its chunks were. -/
structure HasRead (host : RuntimeHost F) (s : RuntimeClient F) (text : List Char) : Prop where
  stdoutBuffer : s.stdoutBuffer = (frames '\n' text).2
  stdoutLines : s.stdoutLines = linesOf text
  emitted : s.emitted = (linesOf text).filterMap (emissionOf host)

structure SameOutput (s s' : RuntimeClient F) : Prop where
  stdoutBuffer : s'.stdoutBuffer = s.stdoutBuffer
  stdoutLines : s'.stdoutLines = s.stdoutLines
  emitted : s'.emitted = s.emitted

variable {host : RuntimeHost F} {s s' : RuntimeClient F}

theorem HasRead.of_same {text : List Char} (h : s.HasRead host text) (hsame : SameOutput s s') :
    s'.HasRead host text :=
  ⟨hsame.stdoutBuffer.trans h.stdoutBuffer, hsame.stdoutLines.trans h.stdoutLines,
    hsame.emitted.trans h.emitted⟩

theorem sameOutput_clearTimeout (s : RuntimeClient F) (p : PendingRequest) :
    SameOutput s (s.clearTimeout p) := by
  rw [clearTimeout]
  split_ifs <;> exact ⟨rfl, rfl, rfl⟩

theorem sameOutput_conclude (s : RuntimeClient F) (id : String) (outcome : RequestOutcome F) :
    SameOutput s (s.conclude id outcome) := by
  rw [conclude]
  cases s.pending.lookup id with
  | none => exact ⟨rfl, rfl, rfl⟩
  | some p =>
      have hclear := sameOutput_clearTimeout (s.delete id) p
      exact ⟨hclear.stdoutBuffer, hclear.stdoutLines, hclear.emitted⟩

theorem sameOutput_timeout (s : RuntimeClient F) (promise : Nat) :
    SameOutput s (s.timeout promise) := by
  rw [timeout]
  cases s.timers.find? (·.promise = promise) <;> exact ⟨rfl, rfl, rfl⟩

theorem sameOutput_request (s : RuntimeClient F) (call : RequestCall F) :
    SameOutput s (s.request call) := by
  rw [request]
  cases refusal call with
  | some error => exact ⟨rfl, rfl, rfl⟩
  | none =>
      dsimp only
      rw [send, write, setPending, setTimeout]
      cases call.unserializable <;> split_ifs <;> exact ⟨rfl, rfl, rfl⟩

theorem foldl_reject (error : RequestError F) (ps : List (String × PendingRequest))
    (s : RuntimeClient F) :
    ps.foldl (fun s p => (s.clearTimeout p.2).settle p.2.promise (.error error)) s =
      { s with
        timers := s.timers.filter fun t => ps.all fun p => !p.2.timeout || t.promise ≠ p.2.promise
        settlements := s.settlements ++ ps.map fun p => (p.2.promise, .error error) } := by
  induction ps generalizing s with
  | nil => simp
  | cons p ps ih =>
      rw [List.foldl_cons, ih]
      cases hp : p.2.timeout <;> simp [clearTimeout, settle, hp, List.filter_filter, Bool.and_comm]

theorem sameOutput_rejectAll (s : RuntimeClient F) (message : String) :
    SameOutput s (s.rejectAll message) := by
  rw [rejectAll, foldl_reject]
  exact ⟨rfl, rfl, rfl⟩

theorem readFrame_output (host : RuntimeHost F) (s : RuntimeClient F) (frame : List Char) :
    (s.readFrame host frame).stdoutLines = s.stdoutLines ++ (lineOf frame).toList ∧
      (s.readFrame host frame).emitted =
        s.emitted ++ ((lineOf frame).bind (emissionOf host)).toList := by
  rw [readFrame]
  cases lineOf frame with
  | none => simp
  | some line =>
      simp only [readLine, Option.bind_some, emissionOf]
      cases host.parse line with
      | none => exact ⟨rfl, rfl⟩
      | some message =>
          cases message with
          | obj message =>
              dsimp only
              cases message.lookup "id" with
              | none => exact ⟨rfl, rfl⟩
              | some id =>
                  have hsame := sameOutput_conclude { s with stdoutLines := s.stdoutLines ++ [line] }
                    (host.text id) (outcome host message)
                  exact ⟨hsame.stdoutLines, hsame.emitted.trans (List.append_nil _).symm⟩
          | _ => exact ⟨rfl, rfl⟩

theorem foldl_readFrame_output (host : RuntimeHost F) (cut : List (List Char)) (s : RuntimeClient F) :
    (cut.foldl (readFrame host) s).stdoutLines = s.stdoutLines ++ cut.filterMap lineOf ∧
      (cut.foldl (readFrame host) s).emitted =
        s.emitted ++ (cut.filterMap lineOf).filterMap (emissionOf host) := by
  induction cut generalizing s with
  | nil => simp
  | cons frame cut ih =>
      obtain ⟨hlines, hemitted⟩ := readFrame_output host s frame
      obtain ⟨ihlines, ihemitted⟩ := ih (s.readFrame host frame)
      rw [List.foldl_cons, ihlines, ihemitted, hlines, hemitted]
      cases hline : lineOf frame with
      | none => simp [hline]
      | some line => cases hemission : emissionOf host line <;> simp [hline, hemission]

theorem HasRead.readStdout {text : List Char} (h : s.HasRead host text) (chunk : String) :
    (s.readStdout host chunk).HasRead host (text ++ chunk.toList) := by
  have happend := frames_append '\n' text chunk.toList
  rw [← h.stdoutBuffer] at happend
  obtain ⟨hlines, hemitted⟩ := foldl_readFrame_output host
    (frames '\n' (s.stdoutBuffer ++ chunk.toList)).1 s
  have hlinesOf : linesOf (text ++ chunk.toList) = linesOf text ++
      (frames '\n' (s.stdoutBuffer ++ chunk.toList)).1.filterMap lineOf := by
    rw [linesOf, happend, List.filterMap_append]
    rfl
  refine ⟨?_, ?_, ?_⟩
  · rw [happend]
    rfl
  · rw [hlinesOf, ← h.stdoutLines]
    exact hlines
  · rw [hlinesOf, List.filterMap_append, ← h.emitted]
    exact hemitted

theorem HasRead.step {text : List Char} (h : s.HasRead host text) (e : ClientEvent F) :
    (s.step host e).HasRead host (text ++ textOf [e]) := by
  cases e with
  | stdout chunk => simpa [textOf, RuntimeClient.step] using h.readStdout chunk
  | request call => simpa [textOf, RuntimeClient.step] using h.of_same (sameOutput_request s call)
  | timeout promise => simpa [textOf, RuntimeClient.step] using h.of_same (sameOutput_timeout s promise)
  | writeError id message => simpa [textOf, RuntimeClient.step] using h.of_same (sameOutput_conclude s id _)
  | exit => simpa [textOf, RuntimeClient.step] using h.of_same (sameOutput_rejectAll s _)
  | childError message => simpa [textOf, RuntimeClient.step] using h.of_same (sameOutput_rejectAll s message)
  | terminate message => simpa [textOf, RuntimeClient.step] using h.of_same (sameOutput_rejectAll s message)

theorem HasRead.run {text : List Char} (h : s.HasRead host text) (events : List (ClientEvent F)) :
    (Runs.run (RuntimeClient.step host) s events).HasRead host (text ++ textOf events) := by
  induction events generalizing s text with
  | nil =>
      rw [textOf, List.flatMap_nil, List.append_nil]
      exact h
  | cons e events ih =>
      have hrun := ih (h.step e)
      rwa [List.append_assoc, textOf, textOf, ← List.flatMap_append] at hrun

end RuntimeClient

end DevPilot
