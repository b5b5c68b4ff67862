import Mathlib.Data.List.AList
import DevPilot.Lib.Runs

/-!
The responder of server-routed transfers: its active transfers and their
timeouts, and the handlers that wait while other envelopes arrive.
-/

namespace DevPilot.Transfer

abbrev Bytes := List UInt8

/-- The number of an ack, as JSON has it; a number that is no integer is its text. -/
inductive AckSequence
  | integer (n : ℤ)
  | other (text : String)
deriving DecidableEq, Repr

/-- An `open` envelope. Its fields come unchecked from a peer, so that each may be missing. -/
structure OpenEnvelope where
  transferId : String
  manifestHash : String
  recipientPublicKeyBase64 : Option String
  openPayloadBase64 : Option String
deriving DecidableEq, Repr

structure ChunkEnvelope where
  transferId : String
  sequence : ℕ
  payloadBase64 : String
  encryptedDataKeyEnvelopeBase64 : Option String
deriving DecidableEq, Repr

inductive Envelope
  | opening (envelope : OpenEnvelope)
  | chunk (envelope : ChunkEnvelope)
  | ack (transferId : String) (nextSequence : AckSequence)
  | finish (transferId manifestHash : String)
  | abort (transferId reason : String)
deriving DecidableEq, Repr

def Envelope.transferId : Envelope → String
  | .opening envelope => envelope.transferId
  | .chunk envelope => envelope.transferId
  | .ack transferId _ => transferId
  | .finish transferId _ => transferId
  | .abort transferId _ => transferId

structure SendEnvelope where
  targetMachineId : String
  envelope : Envelope
deriving DecidableEq, Repr

def isBase64TrimChar (c : Char) : Bool := c.toNat ≤ 0x20 || c.toNat = 0xfeff

def estimateBase64DecodedBytes (value : String) : ℕ :=
  let trimmed := (value.toList.dropWhile isBase64TrimChar).reverse.dropWhile isBase64TrimChar
  -- the text stands reversed, so that its padding comes first
  let paddingBytes := match trimmed with
    | '=' :: '=' :: _ => 2
    | '=' :: _ => 1
    | _ => 0
  trimmed.length * 3 / 4 - paddingBytes

def maxEncodedChars (bytes : ℕ) : ℕ := (bytes + 2) / 3 * 4

/-- What Node offers: base64 and JSON, hashing, and the encryption of chunks for the
holder of a key. -/
structure Host where
  decodeBase64 : String → Bytes
  parsesAsJson : Bytes → Bool
  createTransferManifestHash : Bytes → String
  parsesAsRecipientKey : String → Bool
  /-- `createEncryptedTransferChunkEnvelope`, with its random bytes. -/
  encryptChunk : (randomBytes : Bytes) → (transferId : String) → (sequence : ℕ) → (payload : Bytes) →
    (recipientPublicKeyBase64 : String) → String × String
  /-- `decryptEncryptedTransferChunkEnvelope`; it may throw. -/
  decryptChunk : (recipientSecretKeySeed : Bytes) → (transferId : String) → (sequence : ℕ) →
    (payloadBase64 encryptedDataKeyEnvelopeBase64 : String) → Option Bytes

inductive SourceKind
  | buffer
  | file
deriving DecidableEq, Repr

/-- A payload source; `bytes` is its buffer, or what its file has. -/
structure TransferPayloadSource where
  kind : SourceKind
  bytes : Bytes
  sizeBytes : Option ℕ := none
  manifestHash : Option String := none
deriving DecidableEq, Repr

namespace TransferPayloadSource

variable (source : TransferPayloadSource)

def resolveSizeBytes : ℕ := source.sizeBytes.getD source.bytes.length

def resolveManifestHash (host : Host) : String :=
  match source.manifestHash with
  | some manifestHash =>
    if manifestHash = "" then host.createTransferManifestHash source.bytes else manifestHash
  | none => host.createTransferManifestHash source.bytes

def readChunk (offset length : ℕ) : Bytes := (source.bytes.drop offset).take length

end TransferPayloadSource

def isServerRoutedTransferOverSizeLimit (sizeBytes : ℕ) (maxBytes : Option ℕ) : Bool :=
  maxBytes.any fun maxBytes => maxBytes < sizeBytes

/-- The limits of a responder. The size of its chunks has been clamped. -/
structure ResponderParams where
  chunkBytes : ℕ
  chunkBytes_pos : 0 < chunkBytes
  maxActiveTransfers : ℕ
  maxBytes : Option ℕ
  inMemoryMaxBytes : ℕ
  openPayloadMaxBytes : ℕ

structure LoadedSource extends TransferPayloadSource where
  serial : ℕ
deriving DecidableEq, Repr

structure Timeout where
  serial : ℕ
  transferId : String
  nonce : ℕ
deriving DecidableEq, Repr

structure ActiveTransferState where
  targetMachineId : String
  payloadSource : LoadedSource
  manifestHash : String
  chunkBytes : ℕ
  totalChunks : ℕ
  nextSequenceToSend : ℕ
  recipientPublicKeyBase64 : String
  timeoutNonce : ℕ
  timeout : Option Timeout
deriving DecidableEq, Repr

inductive SourceEvent
  | loaded (serial : ℕ)
  | read (serial : ℕ)
  | disposed (serial : ℕ)
deriving DecidableEq, Repr

def SourceEvent.serial : SourceEvent → ℕ
  | .loaded serial => serial
  | .read serial => serial
  | .disposed serial => serial

/-- A handler at one of its awaits; `sourceMachineId` sent the envelope it handles. -/
inductive Task
  | loading (sourceMachineId : String) (envelope : OpenEnvelope)
  /-- Before an unexpected failure of the load is answered, the logger is loaded. -/
  | reporting (sourceMachineId : String) (transferId : String)
  | sizing (sourceMachineId : String) (envelope : OpenEnvelope) (source : LoadedSource)
  | hashing (sourceMachineId : String) (envelope : OpenEnvelope) (source : LoadedSource) (totalChunks : ℕ)
  /-- The `finally` of an open that has failed, or was refused. -/
  | disposing (sourceMachineId : String) (transferId : String) (failed : Bool)
  | sendingFirst (sourceMachineId : String) (transferId : String) (state : ActiveTransferState)
  | sendingNext (sourceMachineId : String) (transferId : String) (rearmedCurrent : ActiveTransferState)
      (nextSequence : ℕ)
  | failing (sourceMachineId : String) (transferId : String)
deriving DecidableEq, Repr

inductive LoadError
  | invalidOpenRequest
  | abortTransfer (reason : String)
  | other
deriving DecidableEq, Repr

/-- How an await ends; the value of a load, and the random bytes for a chunk. -/
inductive Outcome
  | resolved (source : Option TransferPayloadSource) (randomBytes : Bytes)
  | rejected (error : LoadError)
deriving DecidableEq, Repr

structure State where
  activeTransfers : AList fun _ : String => ActiveTransferState := ∅
  pendingOpenTransfers : List String := []
  tasks : List Task := []
  /-- The timeouts that are armed, and how many have been. -/
  timers : List Timeout := []
  armed : ℕ := 0
  sent : List SendEnvelope := []
  loads : ℕ := 0
  log : List SourceEvent := []

/-- The abort reason for an `open` that is malformed. -/
def OpenEnvelope.invalidReason (host : Host) (params : ResponderParams) (envelope : OpenEnvelope) : Option String :=
  match envelope.recipientPublicKeyBase64 with
  | none => some "invalid_open_request:recipient_public_key_missing"
  | some key =>
    if key = "" then some "invalid_open_request:recipient_public_key_missing"
    else if 128 < key.length then some "invalid_open_request:recipient_public_key_too_long"
    else if estimateBase64DecodedBytes key ≠ 32 then some "invalid_open_request:recipient_public_key_invalid"
    else if !host.parsesAsRecipientKey key then some "invalid_open_request:recipient_public_key_invalid"
    else
      match envelope.openPayloadBase64 with
      | none => none
      | some payload =>
        if payload = "" then none
        else if maxEncodedChars params.openPayloadMaxBytes < payload.length ∨
            params.openPayloadMaxBytes < estimateBase64DecodedBytes payload ∨
            params.openPayloadMaxBytes < (host.decodeBase64 payload).length then
          some "invalid_open_request:open_payload_too_large"
        else if !host.parsesAsJson (host.decodeBase64 payload) then some "invalid_open_request:open_payload_invalid"
        else none

namespace State

variable (host : Host) (params : ResponderParams) (s : State)

def spawn (task : Task) : State := { s with tasks := s.tasks ++ [task] }

def send (targetMachineId : String) (envelope : Envelope) : State :=
  { s with sent := s.sent ++ [⟨targetMachineId, envelope⟩] }

def note (event : SourceEvent) : State := { s with log := s.log ++ [event] }

def clearTimeout (timeout : Option Timeout) : State :=
  { s with timers := s.timers.filter fun armed => some armed ≠ timeout }

def set (transferId : String) (state : ActiveTransferState) : State :=
  { s with activeTransfers := s.activeTransfers.insert transferId state }

def cleanupTransfer (transferId : String) : Option ActiveTransferState → State
  | none => s
  | some state =>
    { s.clearTimeout state.timeout with activeTransfers := s.activeTransfers.erase transferId }.note
      (.disposed state.payloadSource.serial)

def rearmed (transferId : String) (state : ActiveTransferState) : ActiveTransferState :=
  { state with
    timeoutNonce := state.timeoutNonce + 1
    timeout := some ⟨s.armed, transferId, state.timeoutNonce + 1⟩ }

def setRearmed (transferId : String) (state : ActiveTransferState) : State :=
  { (s.clearTimeout state.timeout).set transferId (s.rearmed transferId state) with
    timers := (s.clearTimeout state.timeout).timers ++ [⟨s.armed, transferId, state.timeoutNonce + 1⟩]
    armed := s.armed + 1 }

/-- `sendTransferChunk`, up to its await: the `finish` is sent, or the read begins. -/
def beginSend (transferId : String) (state : ActiveTransferState) : State :=
  if state.totalChunks ≤ state.nextSequenceToSend then
    s.send state.targetMachineId (.finish transferId state.manifestHash)
  else s.note (.read state.payloadSource.serial)

def endSend (transferId : String) (state : ActiveTransferState) (randomBytes : Bytes) : State :=
  if state.totalChunks ≤ state.nextSequenceToSend then s
  else
    let payload := state.payloadSource.readChunk (state.nextSequenceToSend * state.chunkBytes) state.chunkBytes
    let encrypted := host.encryptChunk randomBytes transferId state.nextSequenceToSend payload
      state.recipientPublicKeyBase64
    s.send state.targetMachineId
      (.chunk ⟨transferId, state.nextSequenceToSend, encrypted.1, some encrypted.2⟩)

def endOpen (transferId : String) : State :=
  { s with pendingOpenTransfers := s.pendingOpenTransfers.erase transferId }

/-- The inner `finally` of an open that still has its source. -/
def disposeOpen (sourceMachineId transferId : String) (source : LoadedSource) (failed : Bool) : State :=
  (s.note (.disposed source.serial)).spawn (.disposing sourceMachineId transferId failed)

def receiveOpen (sourceMachineId : String) (envelope : OpenEnvelope) : State :=
  let transferId := envelope.transferId
  let abort (reason : String) := s.send sourceMachineId (.abort transferId reason)
  if transferId.length = 0 ∨ 256 < transferId.length then
    abort "invalid_open_request:transfer_id_out_of_range"
  else if transferId ∈ s.activeTransfers then s
  else if transferId ∈ s.pendingOpenTransfers then s
  else if params.maxActiveTransfers ≤ s.activeTransfers.entries.length + s.pendingOpenTransfers.length then
    abort "active-transfer-limit"
  else
    match envelope.invalidReason host params with
    | some reason => abort reason
    | none =>
      { s with pendingOpenTransfers := s.pendingOpenTransfers ++ [transferId] }.spawn
        (.loading sourceMachineId envelope)

def receiveAbort (sourceMachineId transferId : String) : State :=
  match s.activeTransfers.lookup transferId with
  | none => s
  | some current =>
    if current.targetMachineId ≠ sourceMachineId then s else s.cleanupTransfer transferId (some current)

def receiveAck (sourceMachineId transferId : String) (nextSequence : AckSequence) : State :=
  match s.activeTransfers.lookup transferId with
  | none => s
  | some current =>
    if current.targetMachineId ≠ sourceMachineId then s
    else
      let rearmedCurrent := s.rearmed transferId current
      let s := s.setRearmed transferId current
      let invalid (text : String) := (s.cleanupTransfer transferId (some rearmedCurrent)).send sourceMachineId
        (.abort transferId s!"invalid_ack_sequence:{text}")
      match nextSequence with
      | .other text => invalid text
      | .integer n =>
        if n < 0 then invalid (toString n)
        else if n.toNat ≤ current.nextSequenceToSend then s
        else if rearmedCurrent.totalChunks < n.toNat then invalid (toString n)
        else
          (s.beginSend transferId { rearmedCurrent with nextSequenceToSend := n.toNat }).spawn
            (.sendingNext sourceMachineId transferId rearmedCurrent n.toNat)

def receive (sourceMachineId : String) : Envelope → State
  | .opening envelope => s.receiveOpen host params sourceMachineId envelope
  | .abort transferId _ => s.receiveAbort sourceMachineId transferId
  | .ack transferId nextSequence => s.receiveAck sourceMachineId transferId nextSequence
  | .chunk _ | .finish .. => s

def loaded (sourceMachineId : String) (envelope : OpenEnvelope) (source : TransferPayloadSource) : State :=
  ({ s with loads := s.loads + 1 }.note (.loaded s.loads)).spawn
    (.sizing sourceMachineId envelope { source with serial := s.loads })

def sized (sourceMachineId : String) (envelope : OpenEnvelope) (source : LoadedSource) : State :=
  let transferSizeBytes := source.resolveSizeBytes
  let abort (reason : String) := (s.send sourceMachineId (.abort envelope.transferId reason)).disposeOpen
    sourceMachineId envelope.transferId source false
  if isServerRoutedTransferOverSizeLimit transferSizeBytes params.maxBytes then
    abort s!"Transfer exceeds the server-routed transfer size limit:{params.maxBytes.getD 0}"
  else if source.kind = .buffer ∧ params.inMemoryMaxBytes < transferSizeBytes then
    abort s!"Transfer exceeds the in-memory transfer size limit:{params.inMemoryMaxBytes}"
  else
    -- `existing` is null here, so there is nothing to clean up
    let totalChunks := max 1 ((transferSizeBytes + params.chunkBytes - 1) / params.chunkBytes)
    s.spawn (.hashing sourceMachineId envelope source totalChunks)

def hashed (sourceMachineId : String) (envelope : OpenEnvelope) (source : LoadedSource) (totalChunks : ℕ) : State :=
  let stateBase : ActiveTransferState := {
    targetMachineId := sourceMachineId
    payloadSource := source
    manifestHash := source.resolveManifestHash host
    chunkBytes := params.chunkBytes
    totalChunks := totalChunks
    nextSequenceToSend := 0
    recipientPublicKeyBase64 := envelope.recipientPublicKeyBase64.getD ""
    timeoutNonce := 0
    timeout := none }
  let state := s.rearmed envelope.transferId stateBase
  ((s.setRearmed envelope.transferId stateBase).beginSend envelope.transferId state).spawn
    (.sendingFirst sourceMachineId envelope.transferId state)

def sentNext (transferId : String) (nextState : ActiveTransferState) : State :=
  if nextState.totalChunks ≤ nextState.nextSequenceToSend then s.cleanupTransfer transferId (some nextState)
  else s.setRearmed transferId nextState

def resume (outcome : Outcome) : Task → State
  | .loading sourceMachineId envelope =>
    let abort (reason : String) :=
      (s.send sourceMachineId (.abort envelope.transferId reason)).endOpen envelope.transferId
    match outcome with
    | .resolved (some source) _ => s.loaded sourceMachineId envelope source
    | .resolved none _ => abort "transfer_not_found"
    | .rejected .invalidOpenRequest => abort "invalid_open_request:open_payload_invalid"
    | .rejected (.abortTransfer reason) => abort reason
    | .rejected .other => s.spawn (.reporting sourceMachineId envelope.transferId)
  | .reporting sourceMachineId transferId =>
    (s.send sourceMachineId (.abort transferId "internal_error")).endOpen transferId
  | .sizing sourceMachineId envelope source =>
    match outcome with
    | .resolved .. => s.sized params sourceMachineId envelope source
    | .rejected _ => s.disposeOpen sourceMachineId envelope.transferId source true
  | .hashing sourceMachineId envelope source totalChunks =>
    match outcome with
    | .resolved .. => s.hashed host params sourceMachineId envelope source totalChunks
    | .rejected _ => s.disposeOpen sourceMachineId envelope.transferId source true
  | .disposing sourceMachineId transferId failed =>
    if failed then (s.endOpen transferId).spawn (.failing sourceMachineId transferId) else s.endOpen transferId
  | .sendingFirst sourceMachineId transferId state =>
    match outcome with
    | .resolved _ randomBytes => (s.endSend host transferId state randomBytes).endOpen transferId
    | .rejected _ => (s.endOpen transferId).spawn (.failing sourceMachineId transferId)
  | .sendingNext sourceMachineId transferId rearmedCurrent nextSequence =>
    match outcome with
    | .resolved _ randomBytes =>
      let nextState := { rearmedCurrent with nextSequenceToSend := nextSequence }
      (s.endSend host transferId nextState randomBytes).sentNext transferId nextState
    | .rejected _ => s.spawn (.failing sourceMachineId transferId)
  | .failing sourceMachineId transferId =>
    (s.cleanupTransfer transferId (s.activeTransfers.lookup transferId)).send sourceMachineId
      (.abort transferId "transfer_failed")

def expire (timeout : Timeout) : State :=
  let s := { s with timers := s.timers.filter (· ≠ timeout) }
  match s.activeTransfers.lookup timeout.transferId with
  | none => s
  | some current =>
    if current.timeoutNonce ≠ timeout.nonce then s
    else (s.cleanupTransfer timeout.transferId (some current)).send current.targetMachineId
      (.abort timeout.transferId "timeout")

end State

inductive Event
  | receive (sourceMachineId : String) (envelope : Envelope)
  /-- What the handler at this place awaits is there. -/
  | resume (index : ℕ) (outcome : Outcome)
  | timeout (index : ℕ)

namespace State

def step (host : Host) (params : ResponderParams) (s : State) : Event → State
  | .receive sourceMachineId envelope => s.receive host params sourceMachineId envelope
  | .resume index outcome =>
    match s.tasks[index]? with
    | none => s
    | some task => { s with tasks := s.tasks.eraseIdx index }.resume host params outcome task
  | .timeout index =>
    match s.timers[index]? with
    | none => s
    | some timeout => s.expire timeout

end State

end DevPilot.Transfer
