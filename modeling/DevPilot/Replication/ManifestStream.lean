import DevPilot.Lib.JsonLines
import DevPilot.Lib.ReadLines
import DevPilot.Replication.ManifestComparison

/-!
Manifests and source offers as files of one JSON document for each line.
-/

namespace DevPilot.Replication

open PathText PyJson ReadLines

/-- What the host knows of its numbers that are no integer literals. -/
structure JsonHost (F : Type) where
  format : FloatFormat F
  finite : F → Bool
  whole? : F → Option Nat

variable {F : Type}

mutual

def finiteJson (finite : F → Bool) : Json F → Bool
  | .float x => finite x
  | .arr vs => finiteItems finite vs
  | .obj ms => finiteMembers finite ms
  | _ => true

def finiteItems (finite : F → Bool) : List (Json F) → Bool
  | [] => true
  | v :: vs => finiteJson finite v && finiteItems finite vs

def finiteMembers (finite : F → Bool) : Members F → Bool
  | [] => true
  | (_, v) :: ms => finiteJson finite v && finiteMembers finite ms

end

def stringify (host : JsonHost F) (v : Json F) : Text := dumps host.format .compact v

/-- `JSON.parse(text)`, which knows no `NaN` and no `Infinity`. -/
def jsonParse (host : JsonHost F) (t : Text) : Option (Json F) :=
  (loads host.format t).filter (finiteJson host.finite)

def textJson (t : Text) : Json F := .str (String.ofList t)

def textAt? (v : Json F) (key : String) : Option Text := (v.getStr? key).map String.toList

/-- A drive letter, as in `/^[a-zA-Z]:[\\/]/`. -/
def startsWithDrive : Text → Bool
  | letter :: ':' :: c :: _ => letter.isAlpha && (c = '\\' || c = '/')
  | _ => false

def WorkspaceManifestRelativePathSchema (value : Text) : Bool :=
  !value.isEmpty && !(value.head? = some '/') && !(value.head? = some '\\') &&
    !startsWithDrive value &&
    (value.splitOnP fun c => c = '\\' || c = '/').all fun segment =>
      !segment.isEmpty && segment ≠ dot && segment ≠ dotdot

def WorkspaceManifestEntry.accepted : WorkspaceManifestEntry → Bool
  | directory path => WorkspaceManifestRelativePathSchema path
  | file path digest _ _ => WorkspaceManifestRelativePathSchema path && !digest.isEmpty
  | symlink path target => WorkspaceManifestRelativePathSchema path && !target.isEmpty

def strictKeys (v : Json F) (keys : List String) : Bool :=
  match v with
  | .obj ms => (Members.keys ms).all (· ∈ keys)
  | _ => false

def natural? (host : JsonHost F) : Json F → Option Nat
  | .int n => if 0 ≤ n then some n.toNat else none
  | .float x => host.whole? x
  | _ => none

def bool? : Json F → Option Bool
  | .bool b => some b
  | _ => none

def ReplicationManifestEntrySchema (host : JsonHost F) (v : Json F) :
    Option WorkspaceManifestEntry := do
  let path ← textAt? v "relativePath"
  let entry ← match v.getStr? "kind" with
    | some "directory" =>
        if strictKeys v ["relativePath", "kind"] then some (.directory path) else none
    | some "file" => do
        let digest ← textAt? v "digest"
        let sizeBytes ← (v.get? "sizeBytes").bind (natural? host)
        let executable ← (v.get? "executable").bind bool?
        if strictKeys v ["relativePath", "kind", "digest", "sizeBytes", "executable"] then
          some (.file path digest sizeBytes executable)
        else none
    | some "symlink" => do
        let target ← textAt? v "target"
        if strictKeys v ["relativePath", "kind", "target"] then some (.symlink path target)
        else none
    | _ => none
  if entry.accepted then some entry else none

def fingerprintPrefix : Text := "sha256:".toList

def ReplicationManifestFingerprintSchema (value : Text) : Bool :=
  value.take 7 = fingerprintPrefix && value.length = 71 &&
    (value.drop 7).all fun c => c.isDigit || ('a' ≤ c && c ≤ 'f')

def optionalText (v : Json F) (key : String) (accepts : Text → Bool) : Option (Option Text) :=
  match v.get? key with
  | none => some none
  | some w => do
      let t ← w.str?
      if accepts t.toList then some (some t.toList) else none

def WorkspaceReplicationManifestHeaderSchema (v : Json F) : Option (Option Text) := do
  let fingerprint ← optionalText v "manifestFingerprint" ReplicationManifestFingerprintSchema
  if strictKeys v ["manifestFingerprint"] then some fingerprint else none

def entryJson : WorkspaceManifestEntry → Json F
  | .directory path => .obj [("relativePath", textJson path), ("kind", .str "directory")]
  | .file path digest sizeBytes executable =>
      .obj [("relativePath", textJson path), ("kind", .str "file"), ("digest", textJson digest),
        ("sizeBytes", .int sizeBytes), ("executable", .bool executable)]
  | .symlink path target =>
      .obj [("relativePath", textJson path), ("kind", .str "symlink"), ("target", textJson target)]

def entryLines (host : JsonHost F) (entries : List WorkspaceManifestEntry) : Text :=
  entries.flatMap fun entry => stringify host (entryJson entry) ++ ['\n']

def writeStream (host : JsonHost F) (magic : Text) (header : Json F)
    (entries : List WorkspaceManifestEntry) : Text :=
  magic ++ '\n' :: (stringify host header ++ '\n' :: entryLines host entries)

def readEntries (host : JsonHost F) : List Text → Option (List WorkspaceManifestEntry)
  | [] => some []
  | line :: lines =>
      if isBlankLine line then readEntries host lines
      else do
        let entry ← (jsonParse host (trim line)).bind (ReplicationManifestEntrySchema host)
        let entries ← readEntries host lines
        return entry :: entries

def readStream {H : Type} (host : JsonHost F) (magic : Text) (headerSchema : Json F → Option H)
    (text : Text) : Option (H × List WorkspaceManifestEntry) :=
  if magic.isPrefixOf text then
    match readLines text with
    | first :: headerLine :: lines =>
        if trim first = magic then do
          let header ← (jsonParse host headerLine).bind headerSchema
          let entries ← readEntries host lines
          return (header, entries)
        else none
    | _ => none
  else none

def manifestMagic : Text := "HAPPIER_WORKSPACE_REPLICATION_MANIFEST_V1".toList

def utf8Length (t : Text) : Nat := (t.map fun c => c.utf8Size).sum

def manifestHeader (m : WorkspaceManifest) : Json F :=
  .obj (m.fingerprint.toList.map fun t => ("manifestFingerprint", textJson t))

def writeWorkspaceReplicationManifestToFile (host : JsonHost F) (m : WorkspaceManifest) : Text :=
  writeStream host manifestMagic (manifestHeader m) m.entries

/-- `none` is the error `Invalid workspace replication manifest`. -/
def readWorkspaceReplicationManifestFromFile (host : JsonHost F) (text : Text)
    (sizeBytes : Option Nat) : Option WorkspaceManifest :=
  if sizeBytes.any (· ≠ utf8Length text) then none
  else (readStream host manifestMagic WorkspaceReplicationManifestHeaderSchema text).map
    fun p => { entries := p.2, fingerprint := p.1 }

def WorkspaceManifest.accepted (m : WorkspaceManifest) : Bool :=
  m.entries.all WorkspaceManifestEntry.accepted &&
    m.fingerprint.all ReplicationManifestFingerprintSchema

structure WorkspaceReplicationSourceOfferBlob where
  digest : Text
  sizeBytes : Nat
deriving DecidableEq, Repr

structure WorkspaceReplicationSourceOffer (F : Type) where
  offerId : Text
  relationshipId : Text
  directionId : Text
  sourceFingerprint : Text
  manifest : WorkspaceManifest
  blobIndex : List WorkspaceReplicationSourceOfferBlob
  sourceControllerMetadata : Option (Members F)

/-- The first blob of each digest, in the order of the entries. -/
def blobIndexOf (entries : List WorkspaceManifestEntry) :
    List WorkspaceReplicationSourceOfferBlob :=
  entries.foldl (fun index entry =>
    match entry with
    | .file _ digest sizeBytes _ =>
        if index.any (·.digest = digest) then index else index ++ [⟨digest, sizeBytes⟩]
    | _ => index) []

def offerMagic : Text := "HAPPIER_WORKSPACE_REPLICATION_SOURCE_OFFER_V1".toList

def offerHeader (o : WorkspaceReplicationSourceOffer F) : Json F :=
  .obj ([("offerId", textJson o.offerId), ("relationshipId", textJson o.relationshipId),
      ("directionId", textJson o.directionId),
      ("sourceFingerprint", textJson o.sourceFingerprint)] ++
    o.manifest.fingerprint.toList.map (fun t => ("manifestFingerprint", textJson t)) ++
    o.sourceControllerMetadata.toList.map fun ms => ("sourceControllerMetadata", .obj ms))

structure OfferHeader (F : Type) where
  offerId : Text
  relationshipId : Text
  directionId : Text
  sourceFingerprint : Text
  manifestFingerprint : Option Text
  sourceControllerMetadata : Option (Members F)

def nonemptyAt? (v : Json F) (key : String) : Option Text :=
  (textAt? v key).filter fun t => !t.isEmpty

def WorkspaceReplicationSourceOfferHeaderSchema (v : Json F) : Option (OfferHeader F) := do
  let offerId ← nonemptyAt? v "offerId"
  let relationshipId ← nonemptyAt? v "relationshipId"
  let directionId ← nonemptyAt? v "directionId"
  let sourceFingerprint ← (textAt? v "sourceFingerprint").filter ReplicationManifestFingerprintSchema
  let manifestFingerprint ←
    optionalText v "manifestFingerprint" ReplicationManifestFingerprintSchema
  let sourceControllerMetadata ← match v.get? "sourceControllerMetadata" with
    | none => some none
    | some (.obj ms) => some (some ms)
    | some _ => none
  if strictKeys v ["offerId", "relationshipId", "directionId", "sourceFingerprint",
      "manifestFingerprint", "sourceControllerMetadata"] then
    some { offerId, relationshipId, directionId, sourceFingerprint, manifestFingerprint,
           sourceControllerMetadata }
  else none

def writeWorkspaceReplicationSourceOfferToFile (host : JsonHost F)
    (o : WorkspaceReplicationSourceOffer F) : Text :=
  writeStream host offerMagic (offerHeader o) o.manifest.entries

/-- `none` is the error of an invalid or a legacy file. -/
def readWorkspaceReplicationSourceOfferFromFile (host : JsonHost F) (text : Text) :
    Option (WorkspaceReplicationSourceOffer F) :=
  (readStream host offerMagic WorkspaceReplicationSourceOfferHeaderSchema text).map
    fun (header, entries) =>
      { offerId := header.offerId
        relationshipId := header.relationshipId
        directionId := header.directionId
        sourceFingerprint := header.sourceFingerprint
        manifest := { entries, fingerprint := header.manifestFingerprint }
        blobIndex := blobIndexOf entries
        sourceControllerMetadata := header.sourceControllerMetadata }

/-- The offer has a header that its schema accepts, and metadata of JSON values. -/
structure WorkspaceReplicationSourceOffer.Accepted (host : JsonHost F)
    (o : WorkspaceReplicationSourceOffer F) : Prop where
  offerId : o.offerId ≠ []
  relationshipId : o.relationshipId ≠ []
  directionId : o.directionId ≠ []
  sourceFingerprint : ReplicationManifestFingerprintSchema o.sourceFingerprint = true
  manifest : o.manifest.accepted = true
  metadata : ∀ ms, o.sourceControllerMetadata = some ms →
    (Json.obj ms).wf = true ∧ finiteJson host.finite (.obj ms) = true

end DevPilot.Replication
