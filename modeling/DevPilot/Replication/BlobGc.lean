import DevPilot.Replication.JobRecord
import DevPilot.Lib.FileTree
import DevPilot.Lib.JsonValue
import DevPilot.Lib.Runs

/-!
The collector of unreferenced blobs, in steps of one file operation each, among
jobs that start, negotiate, apply and save baselines.
-/

namespace DevPilot.Replication

open PyJson FileTree

variable {F : Type}

def isHex (n : Nat) (s : String) : Bool :=
  s.toList.length = n && s.toList.all fun c => "0123456789abcdef".toList.contains c

def sha256Digest (hex : String) : String := "sha256:" ++ hex

def isSha256Digest (s : String) : Bool :=
  "sha256:".toList.isPrefixOf s.toList && 7 < s.toList.length

/-- `resolveWorkspaceReplicationCasBlobPath`, below `cas/sha256`. -/
def resolveCasBlobPath (digest : String) : Option (List String) :=
  if "sha256:".toList.isPrefixOf digest.toList then
    let hex := String.ofList (digest.toList.drop 7)
    if isHex 64 hex then some [String.ofList (hex.toList.take 2), hex] else none
  else none

inductive ManifestEntry
  | directory (relativePath : String)
  | file (relativePath digest : String)
  | symlink (relativePath target : String)
deriving DecidableEq, Repr

def parseManifestEntry (v : Json F) : Option ManifestEntry := do
  let relativePath ← v.getStr? "relativePath"
  match ← v.getStr? "kind" with
  | "directory" => return .directory relativePath
  | "file" => return .file relativePath (← v.getStr? "digest")
  | "symlink" => return .symlink relativePath (← v.getStr? "target")
  | _ => none

def manifestEntries (v : Json F) : Option (List (Json F)) := do
  match ← (← (← v.get? "baseline").get? "manifest").get? "entries" with
  | .arr items => return items
  | _ => none

/-- `readPersistedWorkspaceReplicationBaseline`; `accepts` stands for what the
schema asks beyond the entries of the manifest. -/
def loadBaseline (accepts : Json F → Bool) (v : Json F) : Option (List ManifestEntry) := do
  if accepts v then (← manifestEntries v).mapM parseManifestEntry else none

def referencedBlobs (entries : List ManifestEntry) : List String :=
  entries.filterMap fun
    | .file _ digest => some digest
    | _ => none

/-- What `collectBaselineReferencedDigests` takes from an entry. -/
def referencedDigest (v : Json F) : Option String :=
  if v.getStr? "kind" = some "file" then (v.getStr? "digest").filter isSha256Digest else none

/-- What `collectBaselineReferencedDigests` takes from a baseline file. -/
def collectDigests (v : Json F) : List String :=
  ((manifestEntries v).getD []).filterMap referencedDigest

structure GcOptions where
  nowMs : Nat
  unreferencedTtlMs : Nat
  maxBytes : Option Nat := none
deriving DecidableEq, Repr

/-- A file below `cas/sha256` that has the name of a blob. -/
structure BlobCandidate where
  hex : String
  path : List String
  isHex : isHex 64 hex = true
deriving DecidableEq, Repr

structure BlobInfo where
  sizeBytes : Nat
  mtimeMs : Nat
deriving DecidableEq, Repr

structure UnreferencedBlob where
  digest : String
  path : List String
  sizeBytes : Nat
  mtimeMs : Nat
deriving DecidableEq, Repr

def oldestFirst : List UnreferencedBlob → List UnreferencedBlob :=
  List.insertionSort fun a b => a.mtimeMs ≤ b.mtimeMs

/-- The blobs that have not been touched for longer than the limit, oldest first. -/
def ttlCandidates (o : GcOptions) (unreferenced : List UnreferencedBlob) : List UnreferencedBlob :=
  if 0 < o.unreferencedTtlMs then
    oldestFirst (unreferenced.filter fun b => o.unreferencedTtlMs < o.nowMs - b.mtimeMs)
  else []

def takeOver (maxBytes : Nat) : Nat → List UnreferencedBlob → List UnreferencedBlob
  | _, [] => []
  | totalBytes, b :: blobs =>
      if totalBytes ≤ maxBytes then [] else b :: takeOver maxBytes (totalBytes - b.sizeBytes) blobs

/-- The blobs that are deleted, in order: those past their time, then the oldest
of the rest while there are too many bytes. -/
def condemn (o : GcOptions) (unreferenced : List UnreferencedBlob) (totalBytes : Nat) :
    List UnreferencedBlob :=
  let expired := ttlCandidates o unreferenced
  let rest := unreferenced.filter fun b => b.digest ∉ expired.map UnreferencedBlob.digest
  let left := totalBytes - (expired.map UnreferencedBlob.sizeBytes).sum
  match o.maxBytes with
  | some maxBytes =>
      if 0 < maxBytes then
        expired ++ takeOver maxBytes left (oldestFirst rest)
      else expired
  | none => expired

inductive GcPhase
  | listingJobs
  /-- `hasActiveWorkspaceReplicationJobs`, with the jobs still to be read. -/
  | checkingJobs (todo : List String)
  /-- `collectBaselineReferencedDigests`, with what is still to be visited. -/
  | collecting (todo : List (Pending String))
  | listingCas
  | listingShards (todo : List (String × Bool)) (candidates : List BlobCandidate)
  | statting (todo : List BlobCandidate) (unreferenced : List UnreferencedBlob) (totalBytes : Nat)
  | deleting (condemned : List UnreferencedBlob)
  | finished (skippedDueToActiveJobs : Bool)

structure CasGc where
  options : GcOptions
  phase : GcPhase := .listingJobs
  referencedDigests : List String := []
  removedDigests : List String := []

/-- The files that the collector and the jobs share. -/
structure ReplicationFiles (F : Type) where
  jobs : AList fun _ : String => Option JobRecord := ∅
  /-- Below `relationships`; a file may hold no JSON. -/
  relationships : Files String (Option (Json F)) := ∅
  /-- Below `cas/sha256`. -/
  cas : Files String BlobInfo := ∅

/-- A shard's directory holds blobs whose names begin with its own. -/
def shardCandidate (shard : String) (entry : String × Bool) : Option BlobCandidate :=
  if h : isHex 64 entry.1 = true then
    if entry.2 && shard.toList.isPrefixOf entry.1.toList then some ⟨entry.1, [shard, entry.1], h⟩
    else none
  else none

namespace CasGc

variable (f : ReplicationFiles F)

def step (g : CasGc) : ReplicationFiles F × CasGc :=
  match g.phase with
  | .listingJobs => (f, { g with phase := .checkingJobs f.jobs.keys })
  | .checkingJobs [] => (f, { g with phase := .collecting [.directory []] })
  | .checkingJobs (job :: todo) =>
      match (f.jobs.lookup job).join with
      | none => (f, { g with phase := .finished true })
      | some record =>
          if record.isTerminal then (f, { g with phase := .checkingJobs todo })
          else (f, { g with phase := .finished true })
  | .collecting [] => (f, { g with phase := .listingCas })
  | .collecting (.directory p :: todo) =>
      (f, { g with phase := .collecting (visits f.relationships p ++ todo) })
  | .collecting (.file p :: todo) =>
      let digests := if p.getLast? = some "baseline.json" then
          ((f.relationships.lookup p).join.map collectDigests).getD []
        else []
      (f, { g with
        phase := .collecting todo
        referencedDigests := g.referencedDigests ++ digests })
  | .listingCas => (f, { g with phase := .listingShards (readdir f.cas []) [] })
  | .listingShards [] candidates => (f, { g with phase := .statting candidates [] 0 })
  | .listingShards ((name, isFile) :: todo) candidates =>
      let found :=
        if isFile then if h : isHex 64 name = true then [⟨name, [name], h⟩] else []
        else if isHex 2 name then (readdir f.cas [name]).filterMap (shardCandidate name)
        else []
      (f, { g with phase := .listingShards todo (candidates ++ found) })
  | .statting [] unreferenced totalBytes =>
      (f, { g with phase := .deleting (condemn g.options unreferenced totalBytes) })
  | .statting (candidate :: todo) unreferenced totalBytes =>
      match f.cas.lookup candidate.path with
      | none => (f, { g with phase := .statting todo unreferenced totalBytes })
      | some info =>
          let digest := sha256Digest candidate.hex
          let blob := ⟨digest, candidate.path, info.sizeBytes, info.mtimeMs⟩
          let unreferenced :=
            if digest ∈ g.referencedDigests then unreferenced else unreferenced ++ [blob]
          (f, { g with phase := .statting todo unreferenced (totalBytes + info.sizeBytes) })
  | .deleting [] => (f, { g with phase := .finished false })
  | .deleting (blob :: condemned) =>
      ({ f with cas := f.cas.erase blob.path }, { g with
        phase := .deleting condemned
        removedDigests := g.removedDigests ++ [blob.digest] })
  | .finished _ => (f, g)

/-- The next operation of a call fails, with another error than that there is
no such file. -/
def fail (g : CasGc) : CasGc :=
  match g.phase with
  | .checkingJobs [] | .collecting [] | .listingShards [] _ | .statting [] .. | .deleting []
  | .finished _ => g
  | .checkingJobs (_ :: _) => { g with phase := .finished true }
  | .collecting (.file _ :: todo) => { g with phase := .collecting todo }
  | .statting (_ :: todo) unreferenced totalBytes =>
      { g with phase := .statting todo unreferenced totalBytes }
  | .deleting (blob :: condemned) =>
      { g with phase := .deleting condemned, removedDigests := g.removedDigests ++ [blob.digest] }
  -- The call throws.
  | .listingJobs | .collecting (.directory _ :: _) | .listingCas | .listingShards (_ :: _) _ =>
      { g with phase := .finished false }

end CasGc

structure BlobSystem (F : Type) where
  files : ReplicationFiles F := {}
  /-- The jobs with the digests that their negotiation has found present and
  that they have not applied yet. -/
  present : List (String × String) := []
  gcs : List CasGc := []

inductive BlobEvent (F : Type)
  | writeJob (job : String) (content : Option JobRecord)
  | removeJob (job : String)
  /-- The negotiation of a job asks the store for a blob. -/
  | negotiate (job digest : String)
  | applied (job : String)
  /-- A baseline or another file of a relationship is saved. -/
  | saveFile (path : List String) (content : Option (Json F))
  | commitBlob (path : List String) (info : BlobInfo)
  | startGc (o : GcOptions)
  | advance (i : Nat)
  | fail (i : Nat)

namespace BlobSystem

def contains (s : BlobSystem F) (digest : String) : Bool :=
  ((resolveCasBlobPath digest).bind fun path => s.files.cas.lookup path).isSome

def step (s : BlobSystem F) : BlobEvent F → BlobSystem F
  | .writeJob job content => { s with files := { s.files with jobs := s.files.jobs.insert job content } }
  | .removeJob job => { s with files := { s.files with jobs := s.files.jobs.erase job } }
  | .negotiate job digest =>
      if s.contains digest then { s with present := (job, digest) :: s.present } else s
  | .applied job => { s with present := s.present.filter fun p => p.1 ≠ job }
  | .saveFile path content =>
      { s with files := { s.files with relationships := s.files.relationships.insert path content } }
  | .commitBlob path info => { s with files := { s.files with cas := s.files.cas.insert path info } }
  | .startGc o => { s with gcs := s.gcs ++ [{ options := o }] }
  | .advance i =>
      match s.gcs[i]? with
      | none => s
      | some g =>
          let (files, g') := g.step s.files
          { s with files := files, gcs := s.gcs.set i g' }
  | .fail i =>
      match s.gcs[i]? with
      | none => s
      | some g => { s with gcs := s.gcs.set i g.fail }

end BlobSystem

end DevPilot.Replication
