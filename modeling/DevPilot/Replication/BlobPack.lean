import DevPilot.Lib.Bytes

/-!
Blob packs: the file format that carries blobs between two content-addressed
stores, its writer and its streaming reader.
-/

namespace DevPilot.Replication

open Bytes

inductive FormatErrorCode
  | invalidBlobPackFormat
  | blobDigestMismatch
  | blobTooLarge
deriving DecidableEq

structure FormatError where
  code : FormatErrorCode
  message : String
deriving DecidableEq

def invalidFormat (message : String) : FormatError := ⟨.invalidBlobPackFormat, message⟩

def blobPackMagic : ByteString := [0x48, 0x57, 0x52, 0x50]

def blobPackVersion : UInt8 := 0x01
def blobRecordType : UInt8 := 0x01
def blobPackEndMarker : UInt8 := 0xFF
def blobAlgorithmSha256 : UInt8 := 0x01
def blobPackHeaderBytes : Nat := 8
def blobRecordHeaderBytes : Nat := 44
def blobPackEndMarkerBytes : Nat := 8
def maxSafeInteger : Nat := 2 ^ 53 - 1

def digestPrefix : List Char := "sha256:".toList

def digestText (hash : ByteString) : String := String.ofList (digestPrefix ++ hexOf hash)

def isDigestHex (cs : List Char) : Bool := cs.length == 64 && cs.all fun c => (hexValue? c).isSome

def decodeDigestBytes (digest : String) : Except FormatError ByteString :=
  if digestPrefix.isPrefixOf digest.toList then
    let digestHex := digest.toList.drop digestPrefix.length
    if isDigestHex digestHex then .ok ((bytesOfHex? digestHex).getD [])
    else .error (invalidFormat ("Workspace replication blob pack digest is invalid: " ++ digest))
  else .error (invalidFormat ("Workspace replication blob pack digest is unsupported: " ++ digest))

def createBlobPackHeader : ByteString := blobPackMagic ++ [blobPackVersion, 0, 0, 0]

def createBlobRecordHeader (digest : String) (sizeBytes : Nat) : Except FormatError ByteString :=
  if maxSafeInteger < sizeBytes then
    .error (invalidFormat ("Workspace replication blob pack size is invalid: " ++ toString sizeBytes))
  else do
    let hash ← decodeDigestBytes digest
    return [blobRecordType, blobAlgorithmSha256, 0, 0] ++ writeBE 8 sizeBytes ++ hash

def createBlobPackEndMarker : ByteString := [blobPackEndMarker, 0, 0, 0, 0, 0, 0, 0]

def throwIf {ε : Type} (p : Prop) [Decidable p] (e : ε) : Except ε Unit :=
  if p then .error e else .ok ()

def assertBufferLength (buffer : ByteString) (expectedLength : Nat) (label : String) :
    Except FormatError Unit :=
  if buffer.length = expectedLength then .ok ()
  else .error (invalidFormat ("Workspace replication blob pack " ++ label ++ " has invalid length"))

def parseBlobPackHeader (buffer : ByteString) : Except FormatError Unit := do
  assertBufferLength buffer blobPackHeaderBytes "header"
  throwIf (buffer.take 4 ≠ blobPackMagic)
    (invalidFormat "Workspace replication blob pack magic is invalid")
  throwIf (buffer[4]? ≠ some blobPackVersion)
    (invalidFormat "Workspace replication blob pack version is unsupported")
  throwIf (buffer.drop 5 ≠ [0, 0, 0])
    (invalidFormat "Workspace replication blob pack header reserved bytes must be zero")

structure RecordHeader where
  digest : String
  sizeBytes : Nat
deriving DecidableEq

def parseBlobRecordHeader (buffer : ByteString) : Except FormatError RecordHeader := do
  assertBufferLength buffer blobRecordHeaderBytes "blob record header"
  throwIf (buffer[0]? ≠ some blobRecordType)
    (invalidFormat "Workspace replication blob pack record type is unsupported")
  throwIf (buffer[1]? ≠ some blobAlgorithmSha256)
    (invalidFormat "Workspace replication blob pack digest algorithm is unsupported")
  throwIf (buffer[2]? ≠ some 0 ∨ buffer[3]? ≠ some 0)
    (invalidFormat "Workspace replication blob pack record reserved bytes must be zero")
  let sizeBytes := readBE ((buffer.drop 4).take 8)
  throwIf (maxSafeInteger < sizeBytes)
    (invalidFormat "Workspace replication blob pack blob size exceeds supported range")
  return ⟨digestText (buffer.drop 12), sizeBytes⟩

def parseBlobPackEndMarker (buffer : ByteString) : Except FormatError Unit := do
  assertBufferLength buffer blobPackEndMarkerBytes "end marker"
  throwIf (buffer[0]? ≠ some blobPackEndMarker)
    (invalidFormat "Workspace replication blob pack end marker is invalid")
  throwIf (buffer.drop 1 ≠ [0, 0, 0, 0, 0, 0, 0])
    (invalidFormat "Workspace replication blob pack end marker reserved bytes must be zero")

abbrev CasStore := String → Option ByteString

inductive PackError
  | format (e : FormatError)
  | missingCasBlob (digest : String)
  | casDigest (digest : String)
  /-- `commitFile` hashed other bytes than the digest names. -/
  | casDigestMismatch
deriving DecidableEq

/-- `resolveBlobPath` gives a path. -/
def isCasDigest (digest : String) : Bool :=
  digestPrefix.isPrefixOf digest.toList && isDigestHex (digest.toList.drop digestPrefix.length)

def createBlobRecord (cas : CasStore) (digest : String) : Except PackError ByteString :=
  if isCasDigest digest then
    match cas digest with
    | none => .error (.missingCasBlob digest)
    | some content =>
        match createBlobRecordHeader digest content.length with
        | .error e => .error (.format e)
        | .ok header => .ok (header ++ content)
  else .error (.casDigest digest)

/-- The file behind `createWorkspaceReplicationBlobPackPayloadSource`. -/
def createBlobPackPayload (cas : CasStore) (digests : List String) : Except PackError ByteString := do
  let records ← digests.mapM (createBlobRecord cas)
  return createBlobPackHeader ++ records.flatten ++ createBlobPackEndMarker

def readExactBytes (f : File) (position length : Nat) : ByteString :=
  let bytesRead := f.read position length
  if _h : 0 < bytesRead then
    f.slice position bytesRead ++ readExactBytes f (position + bytesRead) (length - bytesRead)
  else []
termination_by length
decreasing_by
  have hle := f.read_le position length
  omega

def blobPackStreamChunkBytes : Nat := 64 * 1024

def readPayload (f : File) (position remainingBytes : Nat) : Except FormatError ByteString :=
  if _h : 0 < remainingBytes then
    let chunkLength := min remainingBytes blobPackStreamChunkBytes
    let chunk := readExactBytes f position chunkLength
    if chunk.length ≠ chunkLength then
      .error (invalidFormat "Workspace replication blob pack ended before a blob payload completed")
    else do
      let rest ← readPayload f (position + chunkLength) (remainingBytes - chunkLength)
      return chunk ++ rest
  else .ok []
termination_by remainingBytes
decreasing_by
  have hchunk : 0 < blobPackStreamChunkBytes := by decide
  omega

structure ReceiveResult where
  receivedDigests : List String
  committedDigests : List String
  transferredBytes : Nat
  transferredBlobs : Nat
deriving DecidableEq

structure Receiving where
  cas : CasStore
  result : ReceiveResult

/-- What `crypto` computes: 32 bytes for every byte string. -/
structure Sha256 where
  hash : ByteString → ByteString
  length_hash : ∀ content, (hash content).length = 32

/-- `commitFile`: the bytes are hashed again before they get their name. -/
def commitFile (sha : Sha256) (cas : CasStore) (digest : String) (content : ByteString) :
    Except PackError CasStore :=
  if digestText (sha.hash content) = digest then .ok (Function.update cas digest (some content))
  else .error .casDigestMismatch

def acceptBlob (sha : Sha256) (r : Receiving) (digest : String) (content : ByteString) :
    Except PackError Receiving :=
  if digestText (sha.hash content) ≠ digest then
    .error (.format ⟨.blobDigestMismatch,
      "Workspace replication blob digest mismatch: " ++ digest⟩)
  else
    let received := { r.result with receivedDigests := r.result.receivedDigests ++ [digest] }
    if (r.cas digest).isSome then .ok { r with result := received }
    else do
      let cas ← commitFile sha r.cas digest content
      return {
        cas
        result := { received with
          committedDigests := received.committedDigests ++ [digest]
          transferredBytes := received.transferredBytes + content.length
          transferredBlobs := received.transferredBlobs + 1 } }

/-- A blob record whose lead byte has been read, up to its acceptance; the next
record starts at the position that comes with the store. -/
def receiveRecord (sha : Sha256) (maxSingleBlobBytes : Nat) (f : File) (position : Nat)
    (leadByte : ByteString) (r : Receiving) : Except PackError (Nat × Receiving) := do
  let rest := readExactBytes f position (blobRecordHeaderBytes - 1)
  throwIf (rest.length ≠ blobRecordHeaderBytes - 1)
    (.format (invalidFormat
      "Workspace replication blob pack ended before a blob record header completed"))
  let header ← (parseBlobRecordHeader (leadByte ++ rest)).mapError .format
  let position := position + rest.length
  throwIf (maxSingleBlobBytes < header.sizeBytes)
    (.format ⟨.blobTooLarge,
      "Workspace replication blob exceeds max single-blob bytes: " ++ header.digest⟩)
  let content ← (readPayload f position header.sizeBytes).mapError .format
  let r ← acceptBlob sha r header.digest content
  return (position + content.length, r)

def receiveEnd (f : File) (position : Nat) (leadByte : ByteString) : Except FormatError Unit := do
  let rest := readExactBytes f position (blobPackEndMarkerBytes - 1)
  throwIf (rest.length ≠ blobPackEndMarkerBytes - 1)
    (invalidFormat "Workspace replication blob pack ended before the end marker completed")
  parseBlobPackEndMarker (leadByte ++ rest)
  throwIf ((readExactBytes f (position + rest.length) 1).length > 0)
    (invalidFormat "Workspace replication blob pack has trailing bytes after the end marker")

theorem bind_eq_ok_iff {ε α β : Type} {x : Except ε α} {f : α → Except ε β} {b : β} :
    (x >>= f) = .ok b ↔ ∃ a, x = .ok a ∧ f a = .ok b := by
  cases x with
  | error e => exact ⟨fun h => (by cases h), fun ⟨_, h, _⟩ => (by cases h)⟩
  | ok a => exact ⟨fun h => ⟨a, rfl, h⟩, fun ⟨_, ha, h⟩ => (Except.ok.inj ha) ▸ h⟩

theorem mapError_eq_ok_iff {ε ε' α : Type} {x : Except ε α} {f : ε → ε'} {a : α} :
    x.mapError f = .ok a ↔ x = .ok a := by
  cases x with
  | error e => exact ⟨fun h => (by cases h), fun h => (by cases h)⟩
  | ok b => exact ⟨fun h => congrArg _ (Except.ok.inj h), fun h => congrArg _ (Except.ok.inj h)⟩

theorem throwIf_eq_ok_iff {ε : Type} {p : Prop} [Decidable p] {e : ε} {u : Unit} :
    throwIf p e = .ok u ↔ ¬p := by
  rw [throwIf]
  split_ifs with hp
  · exact ⟨fun h => (by cases h), fun h => absurd hp h⟩
  · exact ⟨fun _ => hp, fun _ => rfl⟩

theorem throwIf_bind_eq_ok_iff {ε α : Type} {p : Prop} [Decidable p] {e : ε}
    {k : Unit → Except ε α} {a : α} : (throwIf p e >>= k) = .ok a ↔ ¬p ∧ k () = .ok a := by
  rw [bind_eq_ok_iff]
  simp only [throwIf_eq_ok_iff]
  exact ⟨fun ⟨_, hp, hk⟩ => ⟨hp, hk⟩, fun ⟨hp, hk⟩ => ⟨(), hp, hk⟩⟩

theorem lt_of_receiveRecord {sha : Sha256} {maxSingleBlobBytes : Nat} {f : File}
    {position position' : Nat} {leadByte : ByteString} {r r' : Receiving}
    (h : receiveRecord sha maxSingleBlobBytes f position leadByte r = .ok (position', r')) :
    position < position' := by
  rw [receiveRecord, throwIf_bind_eq_ok_iff] at h
  obtain ⟨hrest, h⟩ := h
  obtain ⟨header, -, h⟩ := bind_eq_ok_iff.mp h
  obtain ⟨-, h⟩ := throwIf_bind_eq_ok_iff.mp h
  obtain ⟨content, -, h⟩ := bind_eq_ok_iff.mp h
  obtain ⟨r'', -, h⟩ := bind_eq_ok_iff.mp h
  have hposition := (Prod.mk.inj (Except.ok.inj h)).1
  have hheader : 0 < blobRecordHeaderBytes - 1 := by decide
  omega

theorem readExactBytes_of_end {f : File} {position : Nat} (h : f.bytes.length ≤ position)
    (length : Nat) : readExactBytes f position length = [] := by
  have hle := f.read_le position length
  rw [readExactBytes, dif_neg (by omega)]

def receiveRecords (sha : Sha256) (maxSingleBlobBytes : Nat) (f : File) (position : Nat)
    (r : Receiving) : Except PackError ReceiveResult × CasStore :=
  let leadByte := readExactBytes f position 1
  if _hlead : leadByte = [] then
    (.error (.format (invalidFormat
      "Workspace replication blob pack ended before the end marker")), r.cas)
  else if leadByte[0]? = some blobPackEndMarker then
    match receiveEnd f (position + 1) leadByte with
    | .error e => (.error (.format e), r.cas)
    | .ok () => (.ok r.result, r.cas)
  else
    match _hrecord : receiveRecord sha maxSingleBlobBytes f (position + 1) leadByte r with
    | .error e => (.error e, r.cas)
    | .ok (position', r') => receiveRecords sha maxSingleBlobBytes f position' r'
termination_by f.bytes.length - position
decreasing_by
  have hlt := lt_of_receiveRecord _hrecord
  have hmore : position < f.bytes.length := by
    by_contra hend
    exact _hlead (readExactBytes_of_end (by omega) 1)
  omega

/-- `receiveWorkspaceReplicationBlobPack`: what it returns or throws, and the
target store afterwards. -/
def receiveBlobPack (sha : Sha256) (maxSingleBlobBytes : Nat) (cas : CasStore) (packFile : File) :
    Except PackError ReceiveResult × CasStore :=
  let packHeader := readExactBytes packFile 0 blobPackHeaderBytes
  if packHeader.length ≠ blobPackHeaderBytes then
    (.error (.format (invalidFormat
      "Workspace replication blob pack ended before the header completed")), cas)
  else
    match parseBlobPackHeader packHeader with
    | .error e => (.error (.format e), cas)
    | .ok () =>
        receiveRecords sha maxSingleBlobBytes packFile packHeader.length ⟨cas, ⟨[], [], 0, 0⟩⟩

end DevPilot.Replication
