import DevPilot.Transfer.Requester

/-!
Whatever the network does, the sink of a request gets the chunks of the payload
in order, and a request that resolves has left the payload at its destination.
-/

namespace DevPilot.Transfer

/-- The chunk sequence of a payload. An empty payload has one empty chunk. -/
def chunkCount (payload : Bytes) (chunkBytes : ℕ) : ℕ := max 1 ((payload.length + chunkBytes - 1) / chunkBytes)

def payloadChunk (payload : Bytes) (chunkBytes n : ℕ) : Bytes := (payload.drop (n * chunkBytes)).take chunkBytes

def payloadChunks (payload : Bytes) (chunkBytes : ℕ) : List Bytes :=
  (List.range (chunkCount payload chunkBytes)).map (payloadChunk payload chunkBytes)

theorem flatten_range_payloadChunk (payload : Bytes) (chunkBytes n : ℕ) :
    ((List.range n).map (payloadChunk payload chunkBytes)).flatten = payload.take (n * chunkBytes) := by
  induction n with
  | zero => simp
  | succ n ih =>
      rw [List.range_succ, List.map_append, List.flatten_append, ih, Nat.succ_mul, List.take_add]
      simp [payloadChunk]

theorem payloadChunks_flatten (payload : Bytes) {chunkBytes : ℕ} (hpos : 0 < chunkBytes) :
    (payloadChunks payload chunkBytes).flatten = payload := by
  rw [payloadChunks, flatten_range_payloadChunk, List.take_of_length_le]
  have hceil : payload.length ≤ (payload.length + chunkBytes - 1) / chunkBytes * chunkBytes := by
    have hdiv := Nat.div_add_mod (payload.length + chunkBytes - 1) chunkBytes
    have hmod := Nat.mod_lt (payload.length + chunkBytes - 1) hpos
    rw [Nat.mul_comm] at hdiv
    omega
  exact hceil.trans (Nat.mul_le_mul_right _ (Nat.le_max_right _ _))

/-- What decrypts under the id and the sequence it was encrypted for is what was encrypted. -/
def Host.Authentic (host : Host) (recipientSecretKeySeed : Bytes) : Prop :=
  ∀ randomBytes transferId sequence payload key decrypted,
    host.decryptChunk recipientSecretKeySeed transferId sequence
      (host.encryptChunk randomBytes transferId sequence payload key).1
      (host.encryptChunk randomBytes transferId sequence payload key).2 = some decrypted → decrypted = payload

structure TransferPayloadSource.Serves (host : Host) (payload : Bytes) (source : TransferPayloadSource) : Prop where
  bytes : source.bytes = payload
  size : source.resolveSizeBytes = payload.length
  hash : source.resolveManifestHash host = host.createTransferManifestHash payload

/-- What the responder loads for the requester under the transfer id is the payload. -/
def System.Serves (host : Host) (machineId transferId : String) (payload : Bytes) (s : System) : NetworkEvent → Prop
  | .responder (.resume index (.resolved (some source) _)) =>
    ∀ envelope, s.responder.tasks[index]? = some (.loading machineId envelope) →
      envelope.transferId = transferId → source.Serves host payload
  | _ => True

section

variable (host : Host) (chunkBytes : ℕ) (machineId transferId : String) (payload : Bytes)

structure ActiveTransferState.Sends (state : ActiveTransferState) : Prop where
  bytes : state.payloadSource.bytes = payload
  width : state.chunkBytes = chunkBytes
  count : state.totalChunks = chunkCount payload chunkBytes
  manifestHash : state.manifestHash = host.createTransferManifestHash payload

/-- A transfer to the requester under the transfer id sends the payload. -/
def ActiveTransferState.Good (id : String) (state : ActiveTransferState) : Prop :=
  id = transferId → state.targetMachineId = machineId → state.Sends host chunkBytes payload

def Task.Good : Task → Prop
  | .sizing sourceMachineId envelope source =>
    sourceMachineId = machineId → envelope.transferId = transferId → source.Serves host payload
  | .hashing sourceMachineId envelope source total =>
    sourceMachineId = machineId → envelope.transferId = transferId →
      source.Serves host payload ∧ total = chunkCount payload chunkBytes
  | .sendingFirst _ id state => state.Good host chunkBytes machineId transferId payload id
  | .sendingNext _ id rearmedCurrent _ => rearmedCurrent.Good host chunkBytes machineId transferId payload id
  | _ => True

/-- An envelope of the transfer has a chunk of the payload, or its hash. -/
def Envelope.Genuine : Envelope → Prop
  | .chunk envelope => envelope.transferId = transferId →
      envelope.sequence < chunkCount payload chunkBytes ∧ ∃ randomBytes key,
        let encrypted := host.encryptChunk randomBytes transferId envelope.sequence
          (payloadChunk payload chunkBytes envelope.sequence) key
        envelope.payloadBase64 = encrypted.1 ∧ envelope.encryptedDataKeyEnvelopeBase64 = some encrypted.2
  | .finish id manifestHash => id = transferId → manifestHash = host.createTransferManifestHash payload
  | _ => True

/-- What the responder has, has on the way and has sent to the requester is of the payload. -/
structure State.Genuine (s : State) : Prop where
  active : ∀ id state, s.activeTransfers.lookup id = some state →
    state.Good host chunkBytes machineId transferId payload id
  tasks : ∀ task ∈ s.tasks, task.Good host chunkBytes machineId transferId payload
  sent : ∀ payload' ∈ s.sent, payload'.targetMachineId = machineId →
    payload'.envelope.Genuine host chunkBytes transferId payload

variable {host : Host} {responderParams : ResponderParams} {machineId transferId : String} {payload : Bytes}
  {s : State} {id : String} {state : ActiveTransferState}

theorem ActiveTransferState.Good.of_eq {chunkBytes : ℕ} {state' : ActiveTransferState}
    (h : state.Good host chunkBytes machineId transferId payload id)
    (htarget : state'.targetMachineId = state.targetMachineId) (hsource : state'.payloadSource = state.payloadSource)
    (hbytes : state'.chunkBytes = state.chunkBytes) (htotal : state'.totalChunks = state.totalChunks)
    (hhash : state'.manifestHash = state.manifestHash) : state'.Good host chunkBytes machineId transferId payload id := by
  intro hid hmachine
  obtain ⟨h1, h2, h3, h4⟩ := h hid (htarget ▸ hmachine)
  exact ⟨hsource ▸ h1, hbytes.trans h2, htotal.trans h3, hhash.trans h4⟩

namespace State.Genuine

variable {chunkBytes : ℕ} (h : s.Genuine host chunkBytes machineId transferId payload)

include h

theorem spawn {task : Task} (htask : task.Good host chunkBytes machineId transferId payload) :
    (s.spawn task).Genuine host chunkBytes machineId transferId payload where
  active := h.active
  tasks := by
    intro t hmem
    rcases List.mem_append.mp hmem with hold | hnew
    · exact h.tasks t hold
    · exact List.mem_singleton.mp hnew ▸ htask
  sent := h.sent

theorem send {target : String} {envelope : Envelope}
    (henvelope : target = machineId → envelope.Genuine host chunkBytes transferId payload) :
    (s.send target envelope).Genuine host chunkBytes machineId transferId payload where
  active := h.active
  tasks := h.tasks
  sent := by
    intro p hmem
    rcases List.mem_append.mp hmem with hold | hnew
    · exact h.sent p hold
    · rw [List.mem_singleton.mp hnew]
      exact henvelope

theorem sendAbort {target aborted reason : String} :
    (s.send target (.abort aborted reason)).Genuine host chunkBytes machineId transferId payload :=
  h.send fun _ => trivial

theorem note (event : SourceEvent) : (s.note event).Genuine host chunkBytes machineId transferId payload :=
  ⟨h.active, h.tasks, h.sent⟩

theorem endOpen : (s.endOpen id).Genuine host chunkBytes machineId transferId payload :=
  ⟨h.active, h.tasks, h.sent⟩

theorem cleanup (current : Option ActiveTransferState) :
    (s.cleanupTransfer id current).Genuine host chunkBytes machineId transferId payload := by
  cases current with
  | none => exact h
  | some current =>
      refine ⟨fun other st hlookup => h.active other st ?_, h.tasks, h.sent⟩
      by_cases hid : other = id
      · subst hid
        have hnone : (s.activeTransfers.erase other).lookup other = some st := hlookup
        rw [AList.lookup_erase] at hnone
        cases hnone
      · exact (AList.lookup_erase_ne hid).symm.trans hlookup

theorem setRearmed (hstate : state.Good host chunkBytes machineId transferId payload id) :
    (s.setRearmed id state).Genuine host chunkBytes machineId transferId payload := by
  refine ⟨fun other st hlookup => ?_, h.tasks, h.sent⟩
  have hinsert : (s.activeTransfers.insert id (s.rearmed id state)).lookup other = some st := hlookup
  by_cases hid : other = id
  · subst hid
    rw [AList.lookup_insert, Option.some.injEq] at hinsert
    exact hinsert ▸ hstate.of_eq rfl rfl rfl rfl rfl
  · rw [AList.lookup_insert_ne hid] at hinsert
    exact h.active other st hinsert

theorem beginSend (hstate : state.Good host chunkBytes machineId transferId payload id) :
    (s.beginSend id state).Genuine host chunkBytes machineId transferId payload := by
  unfold State.beginSend
  split
  · exact h.send fun htarget hid => (hstate hid htarget).manifestHash
  · exact h.note _

theorem endSend (hstate : state.Good host chunkBytes machineId transferId payload id) (randomBytes : Bytes) :
    (s.endSend host id state randomBytes).Genuine host chunkBytes machineId transferId payload := by
  unfold State.endSend
  split
  · exact h
  · next hunfinished =>
    refine h.send fun htarget hid => ?_
    obtain ⟨hbytes, hchunk, htotal, -⟩ := hstate hid htarget
    refine ⟨by simpa [htotal] using hunfinished, randomBytes, state.recipientPublicKeyBase64, ?_⟩
    have hid' : id = transferId := hid
    simp only [TransferPayloadSource.readChunk, hbytes, hchunk, hid', payloadChunk, and_self]

end State.Genuine

theorem genuine_receive (sourceMachineId : String) (envelope : Envelope)
    (h : s.Genuine host responderParams.chunkBytes machineId transferId payload) :
    (s.receive host responderParams sourceMachineId envelope).Genuine host responderParams.chunkBytes machineId
      transferId payload := by
  cases envelope with
  | opening envelope =>
      simp only [State.receive, State.receiveOpen]
      split
      · exact h.sendAbort
      · split
        · exact h
        · split
          · exact h
          · split
            · exact h.sendAbort
            · split
              · exact h.sendAbort
              · refine State.Genuine.spawn ?_ ?_
                · exact ⟨h.active, h.tasks, h.sent⟩
                · trivial
  | abort id reason =>
      simp only [State.receive, State.receiveAbort]
      split
      · exact h
      · split
        · exact h
        · exact h.cleanup _
  | ack id nextSequence =>
      simp only [State.receive, State.receiveAck]
      split
      · exact h
      · next current hcurrent =>
        have hgood := h.active id current hcurrent
        have hset := h.setRearmed hgood
        split
        · exact h
        · split
          · exact (hset.cleanup _).sendAbort
          · split
            · exact (hset.cleanup _).sendAbort
            · split
              · exact hset
              · split
                · exact (hset.cleanup _).sendAbort
                · refine State.Genuine.spawn (State.Genuine.beginSend hset ?_) ?_
                  · exact hgood.of_eq rfl rfl rfl rfl rfl
                  · exact hgood.of_eq rfl rfl rfl rfl rfl
  | chunk => exact h
  | finish => exact h

theorem genuine_resume (outcome : Outcome) (task : Task)
    (h : s.Genuine host responderParams.chunkBytes machineId transferId payload)
    (htask : task.Good host responderParams.chunkBytes machineId transferId payload)
    (hserves : ∀ source randomBytes envelope, outcome = .resolved (some source) randomBytes →
      task = .loading machineId envelope → envelope.transferId = transferId → source.Serves host payload) :
    (s.resume host responderParams outcome task).Genuine host responderParams.chunkBytes machineId transferId
      payload := by
  cases task with
  | loading sourceMachineId envelope =>
      simp only [State.resume]
      split
      · next source randomBytes =>
        rw [State.loaded]
        refine State.Genuine.spawn ?_ ?_
        · exact ⟨h.active, h.tasks, h.sent⟩
        · rintro rfl hid
          exact hserves source randomBytes envelope rfl rfl hid
      · exact h.sendAbort.endOpen
      · exact h.sendAbort.endOpen
      · exact h.sendAbort.endOpen
      · exact h.spawn trivial
  | reporting sourceMachineId id => exact h.sendAbort.endOpen
  | sizing sourceMachineId envelope source =>
      cases outcome with
      | resolved =>
          simp only [State.resume, State.sized]
          split
          · exact (h.sendAbort.note _).spawn trivial
          · split
            · exact (h.sendAbort.note _).spawn trivial
            · refine h.spawn fun hmachine hid => ?_
              have hsource := htask hmachine hid
              exact ⟨hsource, by rw [hsource.size, chunkCount]⟩
      | rejected => exact (h.note _).spawn trivial
  | hashing sourceMachineId envelope source total =>
      cases outcome with
      | resolved =>
          simp only [State.resume, State.hashed]
          generalize hbase : (ActiveTransferState.mk sourceMachineId source (source.resolveManifestHash host)
            responderParams.chunkBytes total 0 (envelope.recipientPublicKeyBase64.getD "") 0 none) = stateBase
          have hgood : stateBase.Good host responderParams.chunkBytes machineId transferId payload
              envelope.transferId := by
            subst hbase
            intro hid hmachine
            obtain ⟨hsource, htotal⟩ := htask hmachine hid
            exact ⟨hsource.bytes, rfl, htotal, hsource.hash⟩
          refine State.Genuine.spawn (State.Genuine.beginSend (h.setRearmed hgood) ?_) ?_
          · exact hgood.of_eq rfl rfl rfl rfl rfl
          · exact hgood.of_eq rfl rfl rfl rfl rfl
      | rejected => exact (h.note _).spawn trivial
  | disposing sourceMachineId id failed =>
      cases failed with
      | false => exact h.endOpen
      | true => exact h.endOpen.spawn trivial
  | sendingFirst sourceMachineId id state =>
      cases outcome with
      | resolved _ randomBytes => exact (h.endSend htask randomBytes).endOpen
      | rejected => exact h.endOpen.spawn trivial
  | sendingNext sourceMachineId id rearmedCurrent nextSequence =>
      cases outcome with
      | resolved _ randomBytes =>
          have hgood : ({ rearmedCurrent with nextSequenceToSend := nextSequence }).Good host
              responderParams.chunkBytes machineId transferId payload id := htask.of_eq rfl rfl rfl rfl rfl
          simp only [State.resume, State.sentNext]
          split
          · exact (h.endSend hgood randomBytes).cleanup _
          · exact (h.endSend hgood randomBytes).setRearmed hgood
      | rejected => exact h.spawn trivial
  | failing sourceMachineId id => exact (h.cleanup _).sendAbort

theorem genuine_step {e : Event} (h : s.Genuine host responderParams.chunkBytes machineId transferId payload)
    (hserves : ∀ index source randomBytes envelope, e = .resume index (.resolved (some source) randomBytes) →
      s.tasks[index]? = some (.loading machineId envelope) → envelope.transferId = transferId →
      source.Serves host payload) :
    (s.step host responderParams e).Genuine host responderParams.chunkBytes machineId transferId payload := by
  cases e with
  | receive sourceMachineId envelope => exact genuine_receive sourceMachineId envelope h
  | resume index outcome =>
      simp only [State.step]
      split
      · exact h
      · next task htask =>
        refine genuine_resume outcome task ⟨h.active, fun t hmem => h.tasks t (List.mem_of_mem_eraseIdx hmem), h.sent⟩
          (h.tasks task (List.mem_of_getElem? htask)) ?_
        rintro source randomBytes envelope rfl rfl hid
        exact hserves index source randomBytes envelope rfl htask hid
  | timeout index =>
      simp only [State.step]
      split
      · exact h
      · next timeout htimeout =>
        have hfired : ({ s with timers := s.timers.filter (· ≠ timeout) }).Genuine host responderParams.chunkBytes
            machineId transferId payload := ⟨h.active, h.tasks, h.sent⟩
        simp only [State.expire]
        split
        · exact hfired
        · split
          · exact hfired
          · exact (hfired.cleanup _).sendAbort

end

structure FileSink.Has (sink : FileSink) (handed written : List Bytes) : Prop where
  chunks : sink.handed = handed
  hashed : sink.hashed = handed.flatten
  content : sink.content = written.flatten
  size : sink.sizeBytes = written.flatten.length

section

variable (host : Host) (chunkBytes : ℕ) (payload : Bytes)

/-- How far the sink is while the request waits, or handles an envelope. -/
def Request.Progress (r : Request) : Prop :=
  match r.handling with
  | none => r.settled = false →
      let received := (payloadChunks payload chunkBytes).take r.nextExpectedSequence
      r.sink.Has received received
  | some (.appending chunk sequence) =>
      sequence = r.nextExpectedSequence ∧ sequence < chunkCount payload chunkBytes ∧
        chunk = payloadChunk payload chunkBytes sequence ∧
        r.sink.Has ((payloadChunks payload chunkBytes).take (sequence + 1))
          ((payloadChunks payload chunkBytes).take sequence)
  | some (.closing manifestHash) =>
      r.sink.content = r.sink.hashed ∧ manifestHash = host.createTransferManifestHash payload
  | some .renaming => r.sink.content = payload
  | some .renamed => r.sink.destination = some payload
  | some .removing => True
  | some .failing => True

structure Request.Faithful (params : RequesterParams) (r : Request) : Prop where
  queue : ∀ envelope ∈ r.envelopeQueue, envelope.Genuine host chunkBytes params.transferId payload ∧
    envelope.transferId = params.transferId
  handed : r.sink.handed <+: payloadChunks payload chunkBytes
  progress : r.Progress host chunkBytes payload
  resolved : r.promise = .resolved → r.sink.destination = some payload

end

section

variable {host : Host} {chunkBytes : ℕ} {payload : Bytes} {params : RequesterParams} {r : Request}

theorem take_succ_chunks {n : ℕ} (h : n < chunkCount payload chunkBytes) :
    (payloadChunks payload chunkBytes).take (n + 1) =
      (payloadChunks payload chunkBytes).take n ++ [payloadChunk payload chunkBytes n] := by
  have hlength : n < (payloadChunks payload chunkBytes).length := by simpa [payloadChunks] using h
  rw [List.take_succ_eq_append_getElem hlength]
  simp [payloadChunks]

theorem FileSink.Has.write {sink : FileSink} {handed written : List Bytes} (h : sink.Has handed written)
    (chunk : Bytes) : (sink.write chunk).Has handed (written ++ [chunk]) where
  chunks := h.chunks
  hashed := h.hashed
  content := by
    have hlength : sink.sizeBytes = sink.content.length := by rw [h.size, h.content]
    rw [FileSink.write, hlength, List.take_length, List.drop_eq_nil_of_le (Nat.le_add_right _ _), List.append_nil,
      List.flatten_append, List.flatten_singleton, h.content]
  size := by
    rw [FileSink.write, List.flatten_append, List.flatten_singleton, List.length_append, h.size]

theorem FileSink.Has.frame {sink sink' : FileSink} {handed written : List Bytes} (h : sink.Has handed written)
    (hhanded : sink'.handed = sink.handed) (hhashed : sink'.hashed = sink.hashed)
    (hcontent : sink'.content = sink.content) (hsize : sink'.sizeBytes = sink.sizeBytes) : sink'.Has handed written :=
  ⟨hhanded.trans h.chunks, hhashed.trans h.hashed, hcontent.trans h.content, hsize.trans h.size⟩

theorem Request.Faithful.frame {r' : Request} (h : r.Faithful host chunkBytes payload params)
    (hqueue : r'.envelopeQueue = r.envelopeQueue) (hhandling : r'.handling = r.handling)
    (hnext : r'.nextExpectedSequence = r.nextExpectedSequence) (hsettled : r'.settled = false → r.settled = false)
    (hsink : r'.sink.handed = r.sink.handed ∧ r'.sink.hashed = r.sink.hashed ∧ r'.sink.content = r.sink.content ∧
      r'.sink.sizeBytes = r.sink.sizeBytes ∧ r'.sink.destination = r.sink.destination)
    (hpromise : r'.promise = .resolved → r.promise = .resolved) : r'.Faithful host chunkBytes payload params := by
  obtain ⟨hhanded, hhashed, hcontent, hsize, hdestination⟩ := hsink
  refine ⟨hqueue ▸ h.queue, hhanded ▸ h.handed, ?_, fun hresolved => hdestination.trans (h.resolved (hpromise hresolved))⟩
  have hprogress := h.progress
  rw [Request.Progress, hhandling, hnext, hcontent, hhashed, hdestination]
  rw [Request.Progress] at hprogress
  split at hprogress
  · exact fun hopen => (hprogress (hsettled hopen)).frame hhanded hhashed hcontent hsize
  · exact ⟨hprogress.1, hprogress.2.1, hprogress.2.2.1, hprogress.2.2.2.frame hhanded hhashed hcontent hsize⟩
  · exact hprogress
  · exact hprogress
  · exact hprogress
  · trivial
  · trivial

theorem Request.Faithful.receive (h : r.Faithful host chunkBytes payload params) {sourceMachineId : String}
    {envelope : Envelope} (henvelope : sourceMachineId = params.sourceMachineId →
      envelope.Genuine host chunkBytes params.transferId payload) :
    (r.receive params sourceMachineId envelope).Faithful host chunkBytes payload params := by
  unfold Request.receive
  split
  · exact h
  · split
    · exact h
    · next hsource =>
      split
      · exact h
      · next htransfer =>
        refine ⟨fun e hmem => ?_, h.handed, h.progress, h.resolved⟩
        rcases List.mem_append.mp hmem with hold | hnew
        · exact h.queue e hold
        · rw [List.mem_singleton.mp hnew]
          exact ⟨henvelope (not_not.mp hsource), not_not.mp htransfer⟩

theorem Request.Faithful.expire (h : r.Faithful host chunkBytes payload params) :
    (r.expire params).Faithful host chunkBytes payload params := by
  unfold Request.expire
  split
  · exact h.frame rfl rfl rfl nofun ⟨rfl, rfl, rfl, rfl, rfl⟩ id
  · exact h

theorem Request.Faithful.resumeAbort (h : r.Faithful host chunkBytes payload params) (index : ℕ) :
    (r.resumeAbort index).Faithful host chunkBytes payload params := by
  unfold Request.resumeAbort
  split
  · exact h
  · simp only
    split
    · exact h.frame rfl rfl rfl id ⟨rfl, rfl, rfl, rfl, rfl⟩ id
    · exact h.frame rfl rfl rfl id ⟨rfl, rfl, rfl, rfl, rfl⟩ id
    · split
      · exact h.frame rfl rfl rfl id ⟨rfl, rfl, rfl, rfl, rfl⟩ nofun
      · exact h.frame rfl rfl rfl id ⟨rfl, rfl, rfl, rfl, rfl⟩ id

theorem Request.Faithful.fail (h : r.Faithful host chunkBytes payload params) {handling : Handling}
    (hhandling : handling = .failing ∨ handling = .removing) :
    (r.await handling).Faithful host chunkBytes payload params := by
  refine ⟨h.queue, h.handed, ?_, h.resolved⟩
  rcases hhandling with rfl | rfl <;> trivial

theorem Request.Faithful.ack (h : r.Faithful host chunkBytes payload params) :
    (r.ack params).Faithful host chunkBytes payload params :=
  h.frame rfl rfl rfl id ⟨rfl, rfl, rfl, rfl, rfl⟩ id

theorem Request.Faithful.onChunk (h : r.Faithful host chunkBytes payload params) (hidle : r.handling = none)
    (hopen : r.settled = false) {sequence : ℕ} (hnext : sequence = r.nextExpectedSequence)
    (hcount : sequence < chunkCount payload chunkBytes) :
    (r.onChunk params (payloadChunk payload chunkBytes sequence) sequence).Faithful host chunkBytes payload params := by
  have hprogress := h.progress
  rw [Request.Progress, hidle] at hprogress
  have hhas := hprogress hopen
  rw [← hnext] at hhas
  have hhanded : r.sink.handed ++ [payloadChunk payload chunkBytes sequence] =
      (payloadChunks payload chunkBytes).take (sequence + 1) := by
    rw [hhas.chunks, take_succ_chunks hcount]
  have hstarts : r.sink.handed ++ [payloadChunk payload chunkBytes sequence] <+: payloadChunks payload chunkBytes :=
    hhanded ▸ List.take_prefix _ _
  unfold Request.onChunk
  simp only
  split
  · exact h.fail (Or.inl rfl)
  · split
    · exact ⟨h.queue, hstarts, trivial, h.resolved⟩
    · have hhashed : r.sink.hashed ++ payloadChunk payload chunkBytes sequence =
          ((payloadChunks payload chunkBytes).take (sequence + 1)).flatten := by
        rw [take_succ_chunks hcount, List.flatten_append, List.flatten_singleton, ← hhas.hashed]
      exact ⟨h.queue, hstarts, ⟨hnext, hcount, rfl, hhanded, hhashed, hhas.content, hhas.size⟩, h.resolved⟩

theorem Request.Faithful.handleChunk (hauthentic : host.Authentic params.recipientSecretKeySeed)
    (h : r.Faithful host chunkBytes payload params) (hidle : r.handling = none) (hopen : r.settled = false)
    {envelope : ChunkEnvelope} (hgenuine : (Envelope.chunk envelope).Genuine host chunkBytes params.transferId payload)
    (htransfer : envelope.transferId = params.transferId) :
    (r.handleChunk host params envelope).Faithful host chunkBytes payload params := by
  obtain ⟨hcount, randomBytes, key, hpayload, hkey⟩ := hgenuine htransfer
  unfold Request.handleChunk
  split
  · exact h.ack
  · split
    · exact h.fail (Or.inl rfl)
    · rw [hkey]
      simp only
      split
      · exact h.fail (Or.inl rfl)
      · split
        · exact h.fail (Or.inl rfl)
        · split
          · exact h.fail (Or.inl rfl)
          · next decrypted hdecrypted =>
            rw [hpayload] at hdecrypted
            rw [hauthentic _ _ _ _ _ _ hdecrypted]
            exact h.onChunk hidle hopen (by omega) hcount

theorem Request.Faithful.handleFinish (h : r.Faithful host chunkBytes payload params) (hidle : r.handling = none)
    (hopen : r.settled = false) :
    (r.handleFinish params (host.createTransferManifestHash payload)).Faithful host chunkBytes payload params := by
  have hprogress := h.progress
  rw [Request.Progress, hidle] at hprogress
  have hhas := hprogress hopen
  unfold Request.handleFinish
  split
  · exact h.fail (Or.inl rfl)
  · split
    · exact h.fail (Or.inl rfl)
    · exact ⟨h.queue, h.handed, ⟨hhas.content.trans hhas.hashed.symm, rfl⟩, h.resolved⟩

theorem Request.Faithful.handle (hauthentic : host.Authentic params.recipientSecretKeySeed)
    (h : r.Faithful host chunkBytes payload params) :
    (r.handle host params).Faithful host chunkBytes payload params := by
  unfold Request.handle
  split
  · next envelope envelopeQueue hidle hqueue =>
    obtain ⟨hgenuine, htransfer⟩ := h.queue envelope (by simp [hqueue])
    have hrest : ({ r with envelopeQueue := envelopeQueue }).Faithful host chunkBytes payload params := by
      refine ⟨fun e hmem => h.queue e (hqueue ▸ List.mem_cons_of_mem _ hmem), h.handed, ?_, h.resolved⟩
      simpa only [Request.Progress, hidle] using h.progress
    simp only
    split
    · exact hrest
    · next hopen =>
      have hopen' : r.settled = false := by simpa using hopen
      split
      · next chunk => exact hrest.handleChunk hauthentic hidle hopen' hgenuine htransfer
      · exact hrest.fail (Or.inl rfl)
      · next id manifestHash =>
        rw [hgenuine htransfer]
        exact hrest.handleFinish hidle hopen'
      · exact hrest
      · exact hrest
  · exact h

theorem Request.Faithful.resume (hinjective : Function.Injective host.createTransferManifestHash)
    (h : r.Faithful host chunkBytes payload params) (resolved : Bool) :
    (r.resume host params resolved).Faithful host chunkBytes payload params := by
  have hprogress := h.progress
  unfold Request.resume
  split
  · exact h
  · next chunk sequence hhandling =>
    simp only [Request.Progress, hhandling] at hprogress
    obtain ⟨hnext, hcount, hchunk, hhas⟩ := hprogress
    split
    · refine Request.Faithful.ack ⟨h.queue, h.handed, fun _ => ?_, h.resolved⟩
      have hwritten := hhas.write chunk
      rw [hchunk, ← take_succ_chunks hcount, ← hchunk] at hwritten
      exact hwritten
    · exact h.fail (Or.inl rfl)
  · next manifestHash hhandling =>
    simp only [Request.Progress, hhandling] at hprogress
    split
    · next hsame =>
      refine ⟨h.queue, h.handed, ?_, h.resolved⟩
      exact hprogress.1.trans (hinjective (hsame.2.trans hprogress.2))
    · exact h.fail (Or.inr rfl)
  · next hhandling =>
    simp only [Request.Progress, hhandling] at hprogress
    have hdestination : some r.sink.content = some payload := congrArg some hprogress
    split
    · exact ⟨h.queue, h.handed, hdestination, fun _ => hdestination⟩
    · exact h.fail (Or.inr rfl)
  · next hhandling =>
    simp only [Request.Progress, hhandling] at hprogress
    exact ⟨h.queue, h.handed, nofun, fun _ => hprogress⟩
  · next hhandling => exact ⟨h.queue, h.handed, trivial, h.resolved⟩
  · next hhandling =>
    simp only
    split
    · next hsettled =>
      refine ⟨h.queue, h.handed, fun hopen => ?_, h.resolved⟩
      rw [show r.settled = true from hsettled] at hopen
      cases hopen
    · exact ⟨h.queue, h.handed, nofun, h.resolved⟩

end

/-- However envelopes are lost, repeated and reordered, and whenever timeouts fire, the
chunks that the sink is handed are a prefix of those of the payload, and where the request
resolves, its destination has the payload. -/
theorem transfer_integrity (host : Host) (responderParams : ResponderParams) (params : RequesterParams)
    (machineId : String) (payload : Bytes) (events : List NetworkEvent)
    (hauthentic : host.Authentic params.recipientSecretKeySeed)
    (hinjective : Function.Injective host.createTransferManifestHash)
    (hserves : Runs.Along (System.step host responderParams params machineId)
      (System.Serves host machineId params.transferId payload) { request := .opened params } events) :
    let s := Runs.run (System.step host responderParams params machineId) { request := .opened params } events
    s.request.sink.handed <+: payloadChunks payload responderParams.chunkBytes ∧
      (s.request.promise = .resolved → s.request.sink.destination = some payload) := by
  let I (s : System) : Prop :=
    s.responder.Genuine host responderParams.chunkBytes machineId params.transferId payload ∧
      s.request.Faithful host responderParams.chunkBytes payload params
  have hstart : I { request := .opened params } := by
    refine ⟨⟨nofun, nofun, nofun⟩, ⟨nofun, List.nil_prefix, fun _ => ⟨rfl, rfl, rfl, rfl⟩, nofun⟩⟩
  have hrun := Runs.run_invariant_along (I := I) (fun s e hs he => ?_) hstart hserves
  · exact ⟨hrun.2.handed, hrun.2.resolved⟩
  · obtain ⟨hresponder, hrequest⟩ := hs
    cases e with
    | toResponder index =>
        simp only [System.step]
        split
        · exact ⟨hresponder, hrequest⟩
        · next envelope henvelope =>
          have hreceived := genuine_receive machineId envelope hresponder
          exact ⟨hreceived, hrequest⟩
    | toRequester index =>
        simp only [System.step]
        split
        · exact ⟨hresponder, hrequest⟩
        · next sent hsent =>
          split
          · exact ⟨hresponder, hrequest⟩
          · next htarget =>
            exact ⟨hresponder, hrequest.receive fun _ =>
              hresponder.sent sent (List.mem_of_getElem? hsent) (not_not.mp htarget)⟩
    | stranger sourceMachineId envelope =>
        simp only [System.step]
        split
        · exact ⟨hresponder, hrequest⟩
        · next hstranger => exact ⟨hresponder, hrequest.receive fun hsource => absurd hsource hstranger⟩
    | responder event =>
        refine ⟨genuine_step hresponder ?_, hrequest⟩
        rintro index source randomBytes envelope rfl htask hid
        exact he envelope htask hid
    | handle => exact ⟨hresponder, hrequest.handle hauthentic⟩
    | resume resolved => exact ⟨hresponder, hrequest.resume hinjective resolved⟩
    | resumeAbort index => exact ⟨hresponder, hrequest.resumeAbort index⟩
    | timeout => exact ⟨hresponder, hrequest.expire⟩

instance (host : Host) (payload : Bytes) (source : TransferPayloadSource) :
    Decidable (source.Serves host payload) :=
  decidable_of_iff (source.bytes = payload ∧ source.resolveSizeBytes = payload.length ∧
      source.resolveManifestHash host = host.createTransferManifestHash payload)
    ⟨fun ⟨hbytes, hsize, hhash⟩ => ⟨hbytes, hsize, hhash⟩, fun h => ⟨h.bytes, h.size, h.hash⟩⟩

def NetworkEvent.loads? : NetworkEvent → Option TransferPayloadSource
  | .responder (.resume _ (.resolved source _)) => source
  | _ => none

theorem along_serves {host : Host} {responderParams : ResponderParams} {params : RequesterParams}
    {machineId : String} {payload : Bytes} {events : List NetworkEvent} {s : System}
    (h : ∀ source ∈ events.filterMap NetworkEvent.loads?, source.Serves host payload) :
    Runs.Along (System.step host responderParams params machineId)
      (System.Serves host machineId params.transferId payload) s events := by
  have hloads : ∀ e ∈ events, ∀ source ∈ e.loads?, source.Serves host payload := fun e he source hsource =>
    h source (List.mem_filterMap.mpr ⟨e, he, hsource⟩)
  refine Runs.along_of_along (I := fun _ => True) (fun s e _ hserves => ?_) (fun _ _ _ _ => trivial) trivial
    (Runs.along_iff_forall_mem.mpr hloads)
  unfold System.Serves
  split
  · next index source randomBytes => exact fun envelope htask hid => hserves source rfl
  · trivial

def bytesText (bytes : Bytes) : String := String.ofList (bytes.map fun byte => Char.ofNat byte.toNat)

def textBytes (text : String) : Bytes := text.toList.map fun c => UInt8.ofNat c.toNat

theorem textBytes_bytesText (bytes : Bytes) : textBytes (bytesText bytes) = bytes := by
  rw [textBytes, bytesText, String.toList_ofList, List.map_map]
  refine (List.map_congr_left fun byte _ => ?_).trans (List.map_id bytes)
  have hbyte : byte.toNat < 256 := byte.toNat_lt
  have hvalid : byte.toNat.isValidChar := Or.inl (by omega)
  have hchar : (Char.ofNat byte.toNat).toNat = byte.toNat := by
    rw [Char.ofNat, dif_pos hvalid]
    rfl
  simp [hchar]

def clearHost : Host where
  decodeBase64 := fun _ => []
  parsesAsJson := fun _ => true
  createTransferManifestHash := bytesText
  parsesAsRecipientKey := fun _ => true
  encryptChunk := fun _ _ _ payload _ => (bytesText payload, "key")
  decryptChunk := fun _ _ _ payloadBase64 _ => some (textBytes payloadBase64)

def pairsParams : ResponderParams where
  chunkBytes := 2
  chunkBytes_pos := by decide
  maxActiveTransfers := 4
  maxBytes := some 1000
  inMemoryMaxBytes := 1000
  openPayloadMaxBytes := 1000

def fileParams : RequesterParams where
  transferId := "transfer-1"
  sourceMachineId := "machine-2"
  recipientSecretKeySeed := []
  recipientPublicKeyBase64 := "AAAAAAAAAAAAAAAAAAAAAAAAAAAAAAAAAAAAAAAAAAA="
  openPayloadBase64 := none
  chunkBytes := 2
  maxBytes := some 1000

def exchange : List NetworkEvent :=
  let next : NetworkEvent := .responder (.resume 0 (.resolved none []))
  [.toResponder 0, .responder (.resume 0 (.resolved (some { kind := .file, bytes := [1, 2, 3] }) [])), next, next, next,
    .toRequester 0, .handle, .resume true, .toResponder 1, next,
    .toRequester 1, .handle, .resume true, .toResponder 2, next,
    .toRequester 2, .handle, .resume true, .resume true, .resume true]

theorem transfer_integrity_exchange :
    (Runs.run (System.step clearHost pairsParams fileParams "machine-1") { request := .opened fileParams }
      exchange).request.sink.destination = some [1, 2, 3] := by
  have hintegrity := transfer_integrity clearHost pairsParams fileParams "machine-1" [1, 2, 3] exchange
    (fun _ _ _ payload _ decrypted h => by
      rw [← textBytes_bytesText payload]
      exact (Option.some.inj h).symm)
    (Function.LeftInverse.injective textBytes_bytesText)
    (along_serves (by decide))
  exact hintegrity.2 (by decide)

end DevPilot.Transfer
