import DevPilot.Lib.Runs

/-!
The session client of the startup: its writes wait in a buffer till a target is attached,
and then drain into it, one call and one `await` at a time.
-/

namespace DevPilot.Startup

inductive WriteKind
  | sendSessionEvent
  | sendClaudeSessionMessage
  | recordClaudeJsonlMessageConsumed
  | sendAgentMessage
  | sendAgentMessageCommitted
  | sendCodexMessage
  | sendUserTextMessage
  | updateMetadata
  | updateAgentState
  | refreshSessionSnapshotFromServerBestEffort
  | sendSessionDeath
deriving DecidableEq, Repr

namespace WriteKind

def hint : WriteKind → String
  | sendSessionEvent => "sendSessionEvent"
  | sendClaudeSessionMessage => "sendClaudeSessionMessage"
  | recordClaudeJsonlMessageConsumed => "recordClaudeJsonlMessageConsumed"
  | sendAgentMessage => "sendAgentMessage"
  | sendAgentMessageCommitted => "sendAgentMessageCommitted"
  | sendCodexMessage => "sendCodexMessage"
  | sendUserTextMessage => "sendUserTextMessage"
  | updateMetadata => "updateMetadata"
  | updateAgentState => "updateAgentState"
  | refreshSessionSnapshotFromServerBestEffort => "refreshSessionSnapshotFromServerBestEffort"
  | sendSessionDeath => "sendSessionDeath"

/-- A buffered call of this kind returns a promise of its own, and its `flush` is an
`async` function. -/
def deferred : WriteKind → Bool
  | sendAgentMessageCommitted | updateMetadata | updateAgentState
  | refreshSessionSnapshotFromServerBestEffort => true
  | _ => false

/-- An error rejects the promise. Without `onError`, `onDrop` resolves it. -/
def rejects : WriteKind → Bool
  | updateMetadata | updateAgentState => true
  | _ => false

end WriteKind

def approxBytesForHint (hint : String) : ℤ := 64 + hint.length

structure Limits where
  maxEntries : ℤ
  maxBytes : ℤ

structure BufferEntry where
  call : ℕ
  kind : WriteKind
deriving DecidableEq, Repr

def BufferEntry.approxBytes (e : BufferEntry) : ℤ := approxBytesForHint e.kind.hint

/-- Where a drain is. Up to its first `await`, it runs inside `attach`. -/
inductive DrainStage
  | registering
  | warningOverflow
  | warningErrors
  | calling (target : ℕ) (entry : BufferEntry) (rest : List BufferEntry) (hadError : Bool)
  | awaiting (target : ℕ) (entry : BufferEntry) (rest : List BufferEntry) (hadError : Bool)
  /-- The promise of `flushBufferedCalls` has resolved. -/
  | resuming
  | returned
  | done
deriving DecidableEq, Repr

structure Drain where
  inAttach : Bool
  stage : DrainStage
deriving DecidableEq, Repr

inductive Entry
  | reached (call : ℕ) (target : ℕ)
  | dropped (call : ℕ)
  | promised (call : ℕ)
  | settled (call : ℕ) (fulfilled : Bool)
deriving DecidableEq, Repr

structure Client where
  target : Option ℕ := none
  attachPromise : Bool := false
  flushInFlight : Option ℕ := none
  buffer : List BufferEntry := []
  bufferBytes : ℤ := 0
  overflowed : Bool := false
  overflowWarningSent : Bool := false
  flushHadErrors : Bool := false
  flushErrorWarningSent : Bool := false
  cancelled : Bool := false
  drains : List Drain := []
  nextCall : ℕ := 0
  log : List Entry := []

inductive Event
  | write (kind : WriteKind)
  | attach (target : ℕ)
  | cancel
  /-- A drain takes its next step. `ok` tells how the call, or its promise, has ended. -/
  | proceed (drain : ℕ) (ok : Bool)

namespace Client

variable (limits : Limits) (s : Client)

def record (entries : List Entry) : Client := { s with log := s.log ++ entries }

def settle (e : BufferEntry) (fulfilled : Bool) : List Entry :=
  if e.kind.deferred then [.settled e.call fulfilled] else []

def drop (e : BufferEntry) : List Entry := .dropped e.call :: settle e true

/-- The loop of `enforceBufferLimits`: what is dropped, and what is left. -/
def overLimit (bytes : ℤ) : List BufferEntry → List BufferEntry × List BufferEntry
  | [] => ([], [])
  | e :: entries =>
    if limits.maxEntries < entries.length + 1 ∨ limits.maxBytes < bytes then
      let (dropped, kept) := overLimit (bytes - e.approxBytes) entries
      (e :: dropped, kept)
    else ([], e :: entries)

def enforceBufferLimits : Client :=
  let (dropped, kept) := overLimit limits s.bufferBytes s.buffer
  record { s with
    buffer := kept
    bufferBytes := s.bufferBytes - (dropped.map (·.approxBytes)).sum
    overflowed := s.overflowed || !dropped.isEmpty } (dropped.flatMap drop)

def pushBufferedCall (e : BufferEntry) : Client :=
  enforceBufferLimits limits { s with
    buffer := s.buffer ++ [e]
    bufferBytes := s.bufferBytes + e.approxBytes }

def write (kind : WriteKind) : Client :=
  let e : BufferEntry := ⟨s.nextCall, kind⟩
  let s' := { s with nextCall := s.nextCall + 1 }
  match s.target, s.flushInFlight with
  | some target, none => s'.record [.reached e.call target]
  | _, _ =>
    if s.cancelled then s'.record (drop e)
    else
      (s'.record (if kind.deferred then [.promised e.call] else [])).pushBufferedCall limits e

/-- The drain's next stage. With its first `await` or its end, `attach` goes on. -/
def goto (drain : ℕ) (d : Drain) (stage : DrainStage) (suspends : Bool) : Client :=
  let s := { s with drains := s.drains.set drain ⟨d.inAttach && !suspends, stage⟩ }
  if d.inAttach && suspends then { s with flushInFlight := some drain, attachPromise := true } else s

/-- The loop of `flushBufferedCalls`, where it goes on with these entries. -/
def flushNext (drain : ℕ) (d : Drain) (target : ℕ) (entries : List BufferEntry) (hadError : Bool) :
    Client :=
  match entries with
  | [] => goto { s with flushHadErrors := s.flushHadErrors || hadError } drain d .resuming true
  | e :: rest => (s.record [.reached e.call target]).goto drain d (.calling target e rest hadError) false

def flushBufferedCalls (drain : ℕ) (d : Drain) : Client :=
  match s.target with
  | none => s.goto drain d .resuming true
  | some target => flushNext { s with buffer := [], bufferBytes := 0 } drain d target s.buffer false

def drainBuffer (drain : ℕ) (d : Drain) : Client :=
  if s.buffer = [] then s.goto drain d .returned true
  else s.flushBufferedCalls drain d

def warnErrors (drain : ℕ) (d : Drain) : Client :=
  if s.flushHadErrors && !s.flushErrorWarningSent then
    goto { s with flushErrorWarningSent := true } drain d .warningErrors false
  else s.drainBuffer drain d

def drainLoop (drain : ℕ) (d : Drain) : Client :=
  if s.cancelled then s.goto drain d .returned true
  else if s.overflowed && !s.overflowWarningSent then
    goto { s with overflowWarningSent := true } drain d .warningOverflow false
  else s.warnErrors drain d

def advance (drain : ℕ) (d : Drain) (ok : Bool) : Client :=
  match d.stage with
  | .registering => s.drainLoop drain d
  | .warningOverflow => s.warnErrors drain d
  | .warningErrors => s.drainBuffer drain d
  | .calling target e rest hadError =>
    if ok || e.kind.deferred then s.goto drain d (.awaiting target e rest hadError) true
    else s.flushNext drain d target rest true
  | .awaiting target e rest hadError =>
    if ok then (s.record (settle e true)).flushNext drain d target rest hadError
    else (s.record (settle e (!e.kind.rejects))).flushNext drain d target rest true
  | .resuming => s.drainLoop drain d
  | .returned => { s with flushInFlight := none, drains := s.drains.set drain { d with stage := .done } }
  | .done => s

def attach (target : ℕ) : Client :=
  if s.attachPromise then s
  else if s.cancelled then { s with attachPromise := true }
  else { s with target := some target, drains := s.drains ++ [⟨true, .registering⟩] }

def cancel : Client :=
  if s.cancelled then s
  else record { s with cancelled := true, buffer := [], bufferBytes := 0 } (s.buffer.flatMap drop)

def step (limits : Limits) (s : Client) : Event → Client
  | .write kind => s.write limits kind
  | .attach target => s.attach target
  | .cancel => s.cancel
  | .proceed drain ok =>
    match s.drains[drain]? with
    | none => s
    | some d => s.advance drain d ok

end Client

end DevPilot.Startup
