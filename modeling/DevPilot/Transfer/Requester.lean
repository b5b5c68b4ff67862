import DevPilot.Transfer.Responder

/-!
The requester of a server-routed transfer to a file, its sink, and the network
between it and the responder.
-/

namespace DevPilot.Transfer

/-- `createTransferPayloadFileSink`: what was written to the temporary file and what the
hash was fed, and the file at the destination. -/
structure FileSink where
  content : Bytes := []
  hashed : Bytes := []
  sizeBytes : ℕ := 0
  isClosed : Bool := false
  temporary : Bool := true
  destination : Option Bytes := none
  handed : List Bytes := []
deriving DecidableEq, Repr

namespace FileSink

variable (sink : FileSink)

def write (chunk : Bytes) : FileSink :=
  { sink with
    content := sink.content.take sink.sizeBytes ++ chunk ++ sink.content.drop (sink.sizeBytes + chunk.length)
    sizeBytes := sink.sizeBytes + chunk.length }

def close : FileSink := { sink with isClosed := true }

def rm : FileSink := { sink with temporary := false }

def rename : FileSink := { sink with temporary := false, destination := some sink.content }

end FileSink

structure RequesterParams where
  transferId : String
  sourceMachineId : String
  recipientSecretKeySeed : Bytes
  recipientPublicKeyBase64 : String
  openPayloadBase64 : Option String
  /-- `readTransferChunkBytes()`, and the limit of the policy. -/
  chunkBytes : ℕ
  maxBytes : Option ℕ

inductive Handling
  | appending (chunk : Bytes) (sequence : ℕ)
  /-- `sink.finalize`: the file is closed, renamed, or removed after a failure. -/
  | closing (manifestHash : String)
  | renaming
  | renamed
  | removing
  | failing
deriving DecidableEq, Repr

/-- `sink.abort()`, and what it is called for. -/
inductive AbortStage
  | closing
  | removing
  | removed
deriving DecidableEq, Repr

structure SinkAbort where
  stage : AbortStage
  /-- The promise of the transfer is rejected behind it. -/
  rejects : Bool
deriving DecidableEq, Repr

inductive Promise
  | pending
  | resolved
  | rejected
deriving DecidableEq, Repr

structure Request where
  settled : Bool := false
  timeout : Bool := true
  nextExpectedSequence : ℕ := 0
  receivedBytes : ℕ := 0
  /-- The bytes that `requestServerRoutedTransferToFile` counts. -/
  fileBytes : ℕ := 0
  envelopeQueue : List Envelope := []
  handling : Option Handling := none
  sink : FileSink := {}
  aborts : List SinkAbort := []
  promise : Promise := .pending
  sent : List Envelope

namespace Request

variable (host : Host) (params : RequesterParams) (r : Request)

def opened : Request where
  sent := [.opening {
    transferId := params.transferId
    manifestHash := "sha256:" ++ String.ofList (List.replicate 64 '0')
    recipientPublicKeyBase64 := some params.recipientPublicKeyBase64
    openPayloadBase64 := params.openPayloadBase64 }]

def armTimeout : Request := { r with timeout := r.timeout || !r.settled }

def cleanup : Request := { r with settled := true, timeout := false }

def send (envelope : Envelope) : Request := { r with sent := r.sent ++ [envelope] }

def await (handling : Handling) : Request := { r with handling := some handling }

/-- `sink.abort()`, up to its first await. -/
def abortSink (rejects : Bool) : Request :=
  { r with sink := r.sink.close, aborts := r.aborts ++ [⟨.closing, rejects⟩] }

def receive (sourceMachineId : String) (envelope : Envelope) : Request :=
  if r.settled then r
  else if sourceMachineId ≠ params.sourceMachineId then r
  else if envelope.transferId ≠ params.transferId then r
  else { r.armTimeout with envelopeQueue := r.envelopeQueue ++ [envelope] }

def ack : Request :=
  (r.send (.ack params.transferId (.integer r.nextExpectedSequence))).armTimeout

def oversized (payloadBase64 encryptedDataKeyEnvelopeBase64 : String) : Bool :=
  let maxEncryptedPayloadBytes := params.chunkBytes + 29
  let estimatedEncryptedPayloadBytes := estimateBase64DecodedBytes payloadBase64
  decide (0 < params.chunkBytes) &&
    (decide (maxEncodedChars maxEncryptedPayloadBytes < payloadBase64.length) ||
      decide (maxEncodedChars 1024 < encryptedDataKeyEnvelopeBase64.length) ||
      decide (maxEncryptedPayloadBytes < estimatedEncryptedPayloadBytes) ||
      decide (1024 < estimateBase64DecodedBytes encryptedDataKeyEnvelopeBase64) ||
      params.maxBytes.any fun maxBytes => decide (0 < maxBytes) &&
        isServerRoutedTransferOverSizeLimit (r.receivedBytes + (estimatedEncryptedPayloadBytes - 29)) (some maxBytes))

/-- `onChunk`, up to the write of its chunk. -/
def onChunk (chunk : Bytes) (sequence : ℕ) : Request :=
  let nextBytes := r.fileBytes + chunk.length
  if isServerRoutedTransferOverSizeLimit nextBytes params.maxBytes then r.await .failing
  else
    let r := { r with fileBytes := nextBytes, sink := { r.sink with handed := r.sink.handed ++ [chunk] } }
    if r.sink.isClosed then r.await .failing
    else { r with sink := { r.sink with hashed := r.sink.hashed ++ chunk } }.await (.appending chunk sequence)

def handleChunk (envelope : ChunkEnvelope) : Request :=
  if envelope.sequence < r.nextExpectedSequence then r.ack params
  else if r.nextExpectedSequence < envelope.sequence then r.await .failing
  else
    match envelope.encryptedDataKeyEnvelopeBase64 with
    | none => r.await .failing
    | some encryptedDataKeyEnvelopeBase64 =>
      if encryptedDataKeyEnvelopeBase64 = "" then r.await .failing
      else if r.oversized params envelope.payloadBase64 encryptedDataKeyEnvelopeBase64 then r.await .failing
      else
        match host.decryptChunk params.recipientSecretKeySeed params.transferId envelope.sequence
            envelope.payloadBase64 encryptedDataKeyEnvelopeBase64 with
        | none => r.await .failing
        | some decrypted => r.onChunk params decrypted envelope.sequence

def handleFinish (manifestHash : String) : Request :=
  if manifestHash.length = 0 ∨ 128 < manifestHash.length then r.await .failing
  else if isServerRoutedTransferOverSizeLimit r.fileBytes params.maxBytes then r.await .failing
  else { r with sink := r.sink.close }.await (.closing manifestHash)

/-- The next envelope of the queue is handled, once the one before it is done. -/
def handle : Request :=
  match r.handling, r.envelopeQueue with
  | none, envelope :: envelopeQueue =>
    let r := { r with envelopeQueue := envelopeQueue }
    if r.settled then r
    else
      match envelope with
      | .chunk envelope => r.handleChunk host params envelope
      | .abort .. => r.await .failing
      | .finish _ manifestHash => r.handleFinish params manifestHash
      | .opening _ | .ack .. => r
  | _, _ => r

/-- The handler goes on; `resolved` says whether what it awaits has gone well. -/
def resume (resolved : Bool) : Request :=
  match r.handling with
  | none => r
  | some (.appending chunk sequence) =>
    if resolved then
      { r with
        handling := none
        sink := r.sink.write chunk
        receivedBytes := r.receivedBytes + chunk.length
        nextExpectedSequence := sequence + 1 }.ack params
    else r.await .failing
  | some (.closing manifestHash) =>
    if resolved ∧ host.createTransferManifestHash r.sink.hashed = manifestHash then r.await .renaming
    else r.await .removing
  | some .renaming =>
    if resolved ∧ r.sink.temporary then { r with sink := r.sink.rename }.await .renamed else r.await .removing
  | some .renamed =>
    { r with
      handling := none
      promise := if r.promise = Promise.pending then .resolved else r.promise }.cleanup
  | some .removing => { r with sink := r.sink.rm }.await .failing
  | some .failing =>
    let r := { r with handling := none }
    if r.settled then r
    else ((r.send (.abort params.transferId "recipient_error")).cleanup).abortSink true

/-- A call of `sink.abort()` goes on. -/
def resumeAbort (index : ℕ) : Request :=
  match r.aborts[index]? with
  | none => r
  | some abort =>
    let r := { r with aborts := r.aborts.eraseIdx index }
    match abort.stage with
    | .closing => { r with aborts := r.aborts ++ [⟨.removing, abort.rejects⟩] }
    | .removing => { r with sink := r.sink.rm, aborts := r.aborts ++ [⟨.removed, abort.rejects⟩] }
    | .removed =>
      -- the `catch` around the request aborts the sink once more
      if abort.rejects ∧ r.promise = Promise.pending then { r with promise := .rejected }.abortSink false else r

def expire : Request :=
  if r.timeout ∧ !r.settled then
    (r.cleanup.send (.abort params.transferId "timeout")).abortSink true
  else r

end Request

structure System where
  responder : State := {}
  request : Request

/-- An envelope that was sent arrives any number of times, at any time, or never. -/
inductive NetworkEvent
  | toResponder (index : ℕ)
  | toRequester (index : ℕ)
  /-- An envelope of another machine reaches the requester. -/
  | stranger (sourceMachineId : String) (envelope : Envelope)
  /-- The responder goes on by itself, or has an envelope of any other origin. -/
  | responder (event : Event)
  | handle
  | resume (resolved : Bool)
  | resumeAbort (index : ℕ)
  | timeout

def System.step (host : Host) (responderParams : ResponderParams) (params : RequesterParams) (machineId : String)
    (s : System) : NetworkEvent → System
  | .toResponder index =>
    match s.request.sent[index]? with
    | none => s
    | some envelope => { s with responder := s.responder.step host responderParams (.receive machineId envelope) }
  | .toRequester index =>
    match s.responder.sent[index]? with
    | none => s
    | some payload =>
      if payload.targetMachineId ≠ machineId then s
      else { s with request := s.request.receive params params.sourceMachineId payload.envelope }
  | .stranger sourceMachineId envelope =>
    if sourceMachineId = params.sourceMachineId then s
    else { s with request := s.request.receive params sourceMachineId envelope }
  | .responder event => { s with responder := s.responder.step host responderParams event }
  | .handle => { s with request := s.request.handle host params }
  | .resume resolved => { s with request := s.request.resume host params resolved }
  | .resumeAbort index => { s with request := s.request.resumeAbort index }
  | .timeout => { s with request := s.request.expire params }

end DevPilot.Transfer
