import DevPilot.Lib.Ties

/-!
Dividing the blobs of an offer into packs, counting the packs, and the check that the
other machine makes on the request for one.
-/

namespace DevPilot.Replication.BlobPartition

open Comparisons

section Guarded

variable {α β ε : Type} (bad : α → Option ε) (place : β → α → β)

def guarded (b : β) (a : α) : Except ε β :=
  match bad a with
  | some e => .error e
  | none => .ok (place b a)

theorem foldlM_guarded (l : List α) (b : β) :
    l.foldlM (guarded bad place) b = match l.findSome? bad with
      | some e => .error e
      | none => .ok (l.foldl place b) := by
  induction l generalizing b with
  | nil => rfl
  | cons a l ih =>
      rw [List.foldlM_cons, List.findSome?_cons, guarded]
      cases bad a with
      | some e => rfl
      | none => exact ih (place b a)

end Guarded

structure Blob where
  digest : String
  sizeBytes : Nat
deriving DecidableEq, Repr

structure Limits where
  blobPackTargetBytes : Nat
  blobPackMaxBlobs : Nat
  blobPackMaxSingleBlobBytes : Nat
deriving DecidableEq, Repr

structure BlobPack where
  packId : String
  digests : List String
  totalBytes : Nat
deriving DecidableEq, Repr

/-- The collation of digests and the id of a pack. -/
structure Host where
  localeCompare : String → String → Ordering
  createPackIdForDigests : List String → String
  collation : Collation localeCompare

variable (host : Host) (limits : Limits)

def compareBlobsByDigest (left right : Blob) : Ordering := host.localeCompare left.digest right.digest

def compareBlobIndexesByDigest (blobs : List Blob) (left right : Fin blobs.length) : Ordering :=
  compareBlobsByDigest host (blobs.get left) (blobs.get right)

def createSortedBlobIndexes (blobs : List Blob) : List (Fin blobs.length) :=
  sort (compareBlobIndexesByDigest host blobs) (List.finRange blobs.length)

def createBlobPack (digests : List String) (totalBytes : Nat) : BlobPack :=
  ⟨host.createPackIdForDigests digests, digests, totalBytes⟩

/-- The error for a blob that is too large, where it is. -/
def tooLarge (blob : Blob) : Option String :=
  if limits.blobPackMaxSingleBlobBytes < blob.sizeBytes then
    some ("Workspace replication blob exceeds max single-blob bytes: " ++ blob.digest)
  else none

structure Counting where
  packCount : Nat := 0
  currentPackBlobs : Nat := 0
  currentPackBytes : Nat := 0

def Counting.flushCurrentPack (c : Counting) : Counting :=
  if c.currentPackBlobs = 0 then c else ⟨c.packCount + 1, 0, 0⟩

def Counting.place (c : Counting) (blob : Blob) : Counting :=
  let exceedsTargetBytes := limits.blobPackTargetBytes < c.currentPackBytes + blob.sizeBytes
  let exceedsMaxBlobs := limits.blobPackMaxBlobs ≤ c.currentPackBlobs
  let c := if 0 < c.currentPackBlobs ∧ (exceedsTargetBytes ∨ exceedsMaxBlobs) then c.flushCurrentPack else c
  if limits.blobPackTargetBytes < blob.sizeBytes then { c with packCount := c.packCount + 1 }
  else { c with
    currentPackBlobs := c.currentPackBlobs + 1
    currentPackBytes := c.currentPackBytes + blob.sizeBytes }

def countBlobPackPartitions (blobs : List Blob) (sortedBlobIndexes : List (Fin blobs.length)) :
    Except String Nat := do
  let c ← sortedBlobIndexes.foldlM
    (fun c blobIndex => guarded (tooLarge limits) (Counting.place limits) c (blobs.get blobIndex)) {}
  return c.flushCurrentPack.packCount

def countWorkspaceReplicationBlobPacks (blobs : List Blob) : Except String Nat :=
  countBlobPackPartitions limits blobs (createSortedBlobIndexes host blobs)

structure Building where
  packs : List BlobPack := []
  currentPackDigests : List String := []
  currentPackBytes : Nat := 0

def Building.flushCurrentPack (b : Building) : Building :=
  if b.currentPackDigests.length = 0 then b
  else ⟨b.packs ++ [createBlobPack host b.currentPackDigests b.currentPackBytes], [], 0⟩

def Building.place (b : Building) (blob : Blob) : Building :=
  let exceedsTargetBytes := limits.blobPackTargetBytes < b.currentPackBytes + blob.sizeBytes
  let exceedsMaxBlobs := limits.blobPackMaxBlobs ≤ b.currentPackDigests.length
  let b := if 0 < b.currentPackDigests.length ∧ (exceedsTargetBytes ∨ exceedsMaxBlobs) then
      b.flushCurrentPack host
    else b
  if limits.blobPackTargetBytes < blob.sizeBytes then
    { b with packs := b.packs ++ [createBlobPack host [blob.digest] blob.sizeBytes] }
  else { b with
    currentPackDigests := b.currentPackDigests ++ [blob.digest]
    currentPackBytes := b.currentPackBytes + blob.sizeBytes }

def buildWorkspaceReplicationBlobPacks (blobs : List Blob) : Except String (List BlobPack) := do
  let b ← (createSortedBlobIndexes host blobs).foldlM
    (fun b blobIndex => guarded (tooLarge limits) (Building.place host limits) b (blobs.get blobIndex)) {}
  return (b.flushCurrentPack host).packs

def addDigest (digestIndex : String → Option Nat) (totalBytes : Nat) (digest : String) :
    Except String Nat :=
  match digestIndex digest with
  | none => .error ("Workspace replication digest not in manifest: " ++ digest)
  | some sizeBytes =>
      if limits.blobPackMaxSingleBlobBytes < sizeBytes then
        .error ("Workspace replication blob exceeds max single-blob bytes: " ++ digest)
      else .ok (totalBytes + sizeBytes)

def assertWorkspaceReplicationBlobPackRequestWithinLimits (digestIndex : String → Option Nat)
    (digests : List String) : Except String Nat := do
  let totalBytes ← digests.foldlM (addDigest limits digestIndex) 0
  if 1 < digests.length ∧ limits.blobPackTargetBytes < totalBytes then
    .error "Workspace replication blob pack exceeds target bytes"
  else .ok totalBytes

def digestIndexOf (blobs : List Blob) (digest : String) : Option Nat :=
  (blobs.find? fun blob => blob.digest = digest).map Blob.sizeBytes

structure Partitions (blobs : List Blob) (packs : List BlobPack) : Prop where
  once : (packs.flatMap BlobPack.digests).Perm (blobs.map Blob.digest)
  maxBlobs : ∀ pack ∈ packs, pack.digests.length ≤ limits.blobPackMaxBlobs
  targetBytes : ∀ pack ∈ packs,
    pack.digests.length = 1 ∨ pack.totalBytes ≤ limits.blobPackTargetBytes
  accepted : ∀ pack ∈ packs, assertWorkspaceReplicationBlobPackRequestWithinLimits limits
    (digestIndexOf blobs) pack.digests = .ok pack.totalBytes
  totalBytes : ∀ pack ∈ packs, ∃ packed ⊆ blobs, packed.map Blob.digest = pack.digests ∧
    (packed.map Blob.sizeBytes).sum = pack.totalBytes
  count : countWorkspaceReplicationBlobPacks host limits blobs = .ok packs.length

def Exceeds (blobs : List Blob) : Prop :=
  ∃ blob ∈ blobs, limits.blobPackMaxSingleBlobBytes < blob.sizeBytes

structure Packs (blobs : List Blob) : Prop where
  throws : (∃ message, buildWorkspaceReplicationBlobPacks host limits blobs = .error message) ↔
    Exceeds limits blobs
  partitions : ∀ packs, buildWorkspaceReplicationBlobPacks host limits blobs = .ok packs →
    Partitions host limits blobs packs
  order : ∀ blobs' : List Blob, blobs.Perm blobs' →
    (buildWorkspaceReplicationBlobPacks host limits blobs').toOption =
      (buildWorkspaceReplicationBlobPacks host limits blobs).toOption

def DigestsApart (blobs : List Blob) : Prop :=
  ∀ a ∈ blobs, ∀ b ∈ blobs, host.localeCompare a.digest b.digest = .eq → a.digest = b.digest

theorem collation_digest : Collation (compareBlobsByDigest host) :=
  ⟨fun a b => host.collation.swap a.digest b.digest,
    fun a b c => host.collation.trans a.digest b.digest c.digest⟩

theorem map_createSortedBlobIndexes (blobs : List Blob) :
    (createSortedBlobIndexes host blobs).map blobs.get = sort (compareBlobsByDigest host) blobs := by
  have hmap := List.map_insertionSort
    (fun i j => (compareBlobIndexesByDigest host blobs i j).isLE = true)
    (fun a b => (compareBlobsByDigest host a b).isLE = true) blobs.get (List.finRange blobs.length)
    (fun _ _ _ _ => Iff.rfl)
  rw [List.map_get_finRange] at hmap
  exact hmap

def sortedBlobs (blobs : List Blob) : List Blob := sort (compareBlobsByDigest host) blobs

theorem perm_sortedBlobs (blobs : List Blob) : (sortedBlobs host blobs).Perm blobs := perm_sort blobs

theorem map_digest_sortedBlobs (blobs : List Blob) :
    (sortedBlobs host blobs).map Blob.digest = sort host.localeCompare (blobs.map Blob.digest) :=
  List.map_insertionSort (fun a b => (compareBlobsByDigest host a b).isLE = true)
    (fun a b => (host.localeCompare a b).isLE = true) Blob.digest blobs (fun _ _ _ _ => Iff.rfl)

def stop (blobs : List Blob) : Option String := (sortedBlobs host blobs).findSome? (tooLarge limits)

def built (blobs : List Blob) : Building := (sortedBlobs host blobs).foldl (Building.place host limits) {}

def counted (blobs : List Blob) : Counting := (sortedBlobs host blobs).foldl (Counting.place limits) {}

theorem build_eq (blobs : List Blob) :
    buildWorkspaceReplicationBlobPacks host limits blobs = match stop host limits blobs with
      | some message => .error message
      | none => .ok ((built host limits blobs).flushCurrentPack host).packs := by
  have hmap : ((createSortedBlobIndexes host blobs).map blobs.get).foldlM
      (guarded (tooLarge limits) (Building.place host limits)) {} = _ := List.foldlM_map
  rw [map_createSortedBlobIndexes, foldlM_guarded] at hmap
  rw [buildWorkspaceReplicationBlobPacks, ← hmap, stop, built, sortedBlobs]
  cases (sort (compareBlobsByDigest host) blobs).findSome? (tooLarge limits) <;> rfl

theorem count_eq (blobs : List Blob) :
    countWorkspaceReplicationBlobPacks host limits blobs = match stop host limits blobs with
      | some message => .error message
      | none => .ok (counted host limits blobs).flushCurrentPack.packCount := by
  have hmap : ((createSortedBlobIndexes host blobs).map blobs.get).foldlM
      (guarded (tooLarge limits) (Counting.place limits)) {} = _ := List.foldlM_map
  rw [map_createSortedBlobIndexes, foldlM_guarded] at hmap
  rw [countWorkspaceReplicationBlobPacks, countBlobPackPartitions, ← hmap, stop, counted, sortedBlobs]
  cases (sort (compareBlobsByDigest host) blobs).findSome? (tooLarge limits) <;> rfl

theorem stop_eq_none_iff {blobs : List Blob} : stop host limits blobs = none ↔ ¬Exceeds limits blobs := by
  simp only [stop, List.findSome?_eq_none_iff, (perm_sortedBlobs host blobs).mem_iff, Exceeds, tooLarge]
  simp

structure Counts (c : Counting) (b : Building) : Prop where
  packCount : c.packCount = b.packs.length
  currentPackBlobs : c.currentPackBlobs = b.currentPackDigests.length
  currentPackBytes : c.currentPackBytes = b.currentPackBytes

variable {host limits} {c : Counting} {b : Building} {done : List Blob}

theorem Counts.flush (h : Counts c b) : Counts c.flushCurrentPack (b.flushCurrentPack host) := by
  rw [Counting.flushCurrentPack, Building.flushCurrentPack, h.currentPackBlobs]
  split_ifs
  · exact h
  · exact ⟨by simp [h.packCount], rfl, rfl⟩

theorem Counts.place (h : Counts c b) (blob : Blob) :
    Counts (c.place limits blob) (b.place host limits blob) := by
  have hflush : ∀ p : Prop, [Decidable p] →
      Counts (if p then c.flushCurrentPack else c) (if p then b.flushCurrentPack host else b) := by
    intro p _
    split_ifs
    · exact h.flush
    · exact h
  unfold Counting.place Building.place
  rw [h.currentPackBlobs, h.currentPackBytes]
  dsimp only
  obtain ⟨hcount, hblobs, hbytes⟩ := hflush (0 < b.currentPackDigests.length ∧
    (limits.blobPackTargetBytes < b.currentPackBytes + blob.sizeBytes ∨
      limits.blobPackMaxBlobs ≤ b.currentPackDigests.length))
  split_ifs
  · exact ⟨by simp_all, by simp_all, by simp_all⟩
  · exact ⟨by simp_all, by simp_all, by simp_all⟩
  · exact ⟨by simp_all, by simp_all, by simp_all⟩
  · exact ⟨by simp_all, by simp_all, by simp_all⟩

theorem counts_foldl (h : Counts c b) (blobs : List Blob) :
    Counts (blobs.foldl (Counting.place limits) c) (blobs.foldl (Building.place host limits) b) := by
  induction blobs generalizing c b with
  | nil => exact h
  | cons blob blobs ih => exact ih (h.place blob)

theorem counts_counted (blobs : List Blob) :
    Counts (counted host limits blobs).flushCurrentPack
      ((built host limits blobs).flushCurrentPack host) :=
  (counts_foldl ⟨rfl, rfl, rfl⟩ _).flush

/-- The digests are those of some of the blobs, and the bytes are theirs. -/
def Holds (blobs : List Blob) (digests : List String) (bytes : Nat) : Prop :=
  ∃ packed ⊆ blobs, packed.map Blob.digest = digests ∧ (packed.map Blob.sizeBytes).sum = bytes

theorem Holds.mono {blobs more : List Blob} {digests : List String} {bytes : Nat}
    (h : Holds blobs digests bytes) (hsub : blobs ⊆ more) : Holds more digests bytes := by
  obtain ⟨packed, hpacked, hdigests, hbytes⟩ := h
  exact ⟨packed, List.Subset.trans hpacked hsub, hdigests, hbytes⟩

structure Packed (limits : Limits) (blobs : List Blob) (pack : BlobPack) : Prop where
  maxBlobs : pack.digests.length ≤ limits.blobPackMaxBlobs
  targetBytes : pack.digests.length = 1 ∨ pack.totalBytes ≤ limits.blobPackTargetBytes
  holds : Holds blobs pack.digests pack.totalBytes

structure Built (limits : Limits) (done : List Blob) (b : Building) : Prop where
  digests : b.packs.flatMap BlobPack.digests ++ b.currentPackDigests = done.map Blob.digest
  packs : ∀ pack ∈ b.packs, Packed limits done pack
  holds : Holds done b.currentPackDigests b.currentPackBytes
  maxBlobs : b.currentPackDigests.length ≤ limits.blobPackMaxBlobs
  targetBytes : b.currentPackBytes ≤ limits.blobPackTargetBytes

theorem built_empty : Built limits [] {} :=
  ⟨rfl, nofun, ⟨[], List.Subset.refl _, rfl, rfl⟩, Nat.zero_le _, Nat.zero_le _⟩

theorem Built.flush (h : Built limits done b) : Built limits done (b.flushCurrentPack host) := by
  rw [Building.flushCurrentPack]
  split_ifs with hempty
  · exact h
  · refine ⟨?_, fun pack hpack => ?_, ⟨[], List.nil_subset _, rfl, rfl⟩, Nat.zero_le _, Nat.zero_le _⟩
    · simpa [createBlobPack] using h.digests
    · rcases List.mem_append.mp hpack with hpack | hpack
      · exact h.packs pack hpack
      · obtain rfl := List.mem_singleton.mp hpack
        exact ⟨h.maxBlobs, .inr h.targetBytes, h.holds⟩

theorem flushed_digests (b : Building) : (b.flushCurrentPack host).currentPackDigests = [] := by
  rw [Building.flushCurrentPack]
  split_ifs with hempty
  · exact List.length_eq_zero_iff.mp hempty
  · rfl

theorem Built.bytes_eq_zero (h : Built limits done b) (hempty : b.currentPackDigests = []) :
    b.currentPackBytes = 0 := by
  obtain ⟨packed, -, hdigests, hbytes⟩ := h.holds
  rw [hempty, List.map_eq_nil_iff] at hdigests
  rw [← hbytes, hdigests]
  rfl

theorem Built.single (h : Built limits done b) (hmax : 0 < limits.blobPackMaxBlobs) (blob : Blob)
    (hempty : b.currentPackDigests = []) :
    Built limits (done ++ [blob])
      { b with packs := b.packs ++ [createBlobPack host [blob.digest] blob.sizeBytes] } := by
  have hsub : done ⊆ done ++ [blob] := List.subset_append_left ..
  refine ⟨?_, fun pack hpack => ?_, h.holds.mono hsub, h.maxBlobs, h.targetBytes⟩
  · have hdigests := h.digests
    simp only [hempty, List.append_nil] at hdigests
    simp [hempty, hdigests, createBlobPack]
  · rcases List.mem_append.mp hpack with hpack | hpack
    · have hold := h.packs pack hpack
      exact ⟨hold.maxBlobs, hold.targetBytes, hold.holds.mono hsub⟩
    · obtain rfl := List.mem_singleton.mp hpack
      exact ⟨hmax, .inl rfl, [blob], List.subset_append_right .., rfl, by simp [createBlobPack]⟩

theorem Built.add (h : Built limits done b) (blob : Blob)
    (hbytes : b.currentPackBytes + blob.sizeBytes ≤ limits.blobPackTargetBytes)
    (hblobs : b.currentPackDigests.length < limits.blobPackMaxBlobs) :
    Built limits (done ++ [blob])
      { b with
        currentPackDigests := b.currentPackDigests ++ [blob.digest]
        currentPackBytes := b.currentPackBytes + blob.sizeBytes } := by
  have hsub : done ⊆ done ++ [blob] := List.subset_append_left ..
  refine ⟨?_, fun pack hpack => ?_, ?_, by simpa using hblobs, hbytes⟩
  · simp [← h.digests]
  · have hold := h.packs pack hpack
    exact ⟨hold.maxBlobs, hold.targetBytes, hold.holds.mono hsub⟩
  · obtain ⟨packed, hpacked, hdigests, hsum⟩ := h.holds
    refine ⟨packed ++ [blob], ?_, by simp [hdigests], by simp [hsum]⟩
    exact List.append_subset.mpr ⟨List.Subset.trans hpacked hsub, List.subset_append_right ..⟩

theorem Built.place (h : Built limits done b) (hmax : 0 < limits.blobPackMaxBlobs) (blob : Blob) :
    Built limits (done ++ [blob]) (b.place host limits blob) := by
  unfold Building.place
  dsimp only
  by_cases hflush : 0 < b.currentPackDigests.length ∧
      (limits.blobPackTargetBytes < b.currentPackBytes + blob.sizeBytes ∨
        limits.blobPackMaxBlobs ≤ b.currentPackDigests.length)
  · rw [if_pos hflush]
    have hflushed : Built limits done (b.flushCurrentPack host) := h.flush
    have hempty := @flushed_digests host b
    split_ifs with hlarge
    · exact hflushed.single hmax blob hempty
    · refine hflushed.add blob ?_ (by simpa [hempty] using hmax)
      rw [hflushed.bytes_eq_zero hempty]
      omega
  · rw [if_neg hflush]
    rcases Nat.eq_zero_or_pos b.currentPackDigests.length with hzero | hpos
    · have hempty := List.length_eq_zero_iff.mp hzero
      have hbytes := h.bytes_eq_zero hempty
      split_ifs with hlarge
      · exact h.single hmax blob hempty
      · exact h.add blob (by omega) (by omega)
    · have hfits : ¬(limits.blobPackTargetBytes < b.currentPackBytes + blob.sizeBytes ∨
          limits.blobPackMaxBlobs ≤ b.currentPackDigests.length) := fun hfull => hflush ⟨hpos, hfull⟩
      rw [if_neg (by omega)]
      exact h.add blob (by omega) (by omega)

theorem built_foldl (hmax : 0 < limits.blobPackMaxBlobs) (h : Built limits done b) (blobs : List Blob) :
    Built limits (done ++ blobs) (blobs.foldl (Building.place host limits) b) := by
  induction blobs generalizing done b with
  | nil => simpa using h
  | cons blob blobs ih => simpa using ih (h.place hmax blob)

theorem built_built (hmax : 0 < limits.blobPackMaxBlobs) (blobs : List Blob) :
    Built limits (sortedBlobs host blobs) ((built host limits blobs).flushCurrentPack host) :=
  (built_foldl hmax built_empty _).flush

theorem digestIndexOf_digest {blobs : List Blob} (hnodup : (blobs.map Blob.digest).Nodup) {blob : Blob}
    (hblob : blob ∈ blobs) : digestIndexOf blobs blob.digest = some blob.sizeBytes := by
  have hinj := List.inj_on_of_nodup_map hnodup
  cases hfind : blobs.find? fun other => other.digest = blob.digest with
  | none => exact absurd (List.find?_eq_none.mp hfind blob hblob) (by simp)
  | some other =>
      have hdigest : other.digest = blob.digest := by simpa using List.find?_some hfind
      have heq := hinj (List.mem_of_find?_eq_some hfind) hblob hdigest
      rw [digestIndexOf, hfind, Option.map_some, heq]

theorem foldlM_addDigest {digestIndex : String → Option Nat} {packed : List Blob}
    (hindex : ∀ blob ∈ packed, digestIndex blob.digest = some blob.sizeBytes ∧
      blob.sizeBytes ≤ limits.blobPackMaxSingleBlobBytes) (totalBytes : Nat) :
    (packed.map Blob.digest).foldlM (addDigest limits digestIndex) totalBytes =
      .ok (totalBytes + (packed.map Blob.sizeBytes).sum) := by
  induction packed generalizing totalBytes with
  | nil => rfl
  | cons blob packed ih =>
      obtain ⟨⟨hblob, hsize⟩, hpacked⟩ := List.forall_mem_cons.mp hindex
      have hadd : addDigest limits digestIndex totalBytes blob.digest = .ok (totalBytes + blob.sizeBytes) := by
        rw [addDigest, hblob]
        exact if_neg (by omega)
      rw [List.map_cons, List.foldlM_cons, hadd, List.map_cons, List.sum_cons, ← Nat.add_assoc]
      exact ih hpacked _

theorem accepted_of_packed {blobs : List Blob} {pack : BlobPack} (hnodup : (blobs.map Blob.digest).Nodup)
    (hsmall : ¬Exceeds limits blobs) (hpack : Packed limits blobs pack) :
    assertWorkspaceReplicationBlobPackRequestWithinLimits limits (digestIndexOf blobs) pack.digests =
      .ok pack.totalBytes := by
  obtain ⟨packed, hpacked, hdigests, hbytes⟩ := hpack.holds
  have hindex : ∀ blob ∈ packed, digestIndexOf blobs blob.digest = some blob.sizeBytes ∧
      blob.sizeBytes ≤ limits.blobPackMaxSingleBlobBytes := fun blob hblob =>
    ⟨digestIndexOf_digest hnodup (hpacked hblob),
      not_lt.mp fun hlarge => hsmall ⟨blob, hpacked hblob, hlarge⟩⟩
  have hfold := foldlM_addDigest hindex 0
  rw [hdigests, hbytes, Nat.zero_add] at hfold
  rw [assertWorkspaceReplicationBlobPackRequestWithinLimits, hfold]
  refine if_neg ?_
  rintro ⟨hmany, hover⟩
  rcases hpack.targetBytes with hone | htarget
  · omega
  · omega

variable {blobs : List Blob}

theorem flatMap_digests (hmax : 0 < limits.blobPackMaxBlobs) (blobs : List Blob) :
    ((built host limits blobs).flushCurrentPack host).packs.flatMap BlobPack.digests =
      (sortedBlobs host blobs).map Blob.digest := by
  have hdigests := (@built_built host limits hmax blobs).digests
  rwa [flushed_digests, List.append_nil] at hdigests

theorem partitions_built (hmax : 0 < limits.blobPackMaxBlobs) (hnodup : (blobs.map Blob.digest).Nodup)
    (hsmall : ¬Exceeds limits blobs) :
    Partitions host limits blobs ((built host limits blobs).flushCurrentPack host).packs := by
  have hbuilt := @built_built host limits hmax blobs
  have hsub := (perm_sortedBlobs host blobs).subset
  have hpacked : ∀ pack ∈ ((built host limits blobs).flushCurrentPack host).packs,
      Packed limits blobs pack := fun pack hpack =>
    have hold := hbuilt.packs pack hpack
    ⟨hold.maxBlobs, hold.targetBytes, hold.holds.mono hsub⟩
  refine ⟨?_, fun pack hpack => (hpacked pack hpack).maxBlobs,
    fun pack hpack => (hpacked pack hpack).targetBytes,
    fun pack hpack => accepted_of_packed hnodup hsmall (hpacked pack hpack),
    fun pack hpack => (hpacked pack hpack).holds, ?_⟩
  · rw [flatMap_digests hmax]
    exact (perm_sortedBlobs host blobs).map _
  · rw [count_eq, (stop_eq_none_iff host limits).mpr hsmall]
    exact congrArg Except.ok (counts_counted blobs).packCount

theorem exceeds_perm {blobs' : List Blob} (hperm : blobs.Perm blobs') :
    Exceeds limits blobs' ↔ Exceeds limits blobs := by
  simp only [Exceeds, hperm.mem_iff]

theorem order_iff (hmax : 0 < limits.blobPackMaxBlobs) (hnodup : (blobs.map Blob.digest).Nodup)
    (hsmall : ¬Exceeds limits blobs) :
    (∀ blobs' : List Blob, blobs.Perm blobs' →
      (buildWorkspaceReplicationBlobPacks host limits blobs').toOption =
        (buildWorkspaceReplicationBlobPacks host limits blobs).toOption) ↔
      DigestsApart host blobs := by
  have hbuild : ∀ blobs' : List Blob, blobs.Perm blobs' →
      buildWorkspaceReplicationBlobPacks host limits blobs' =
        .ok ((built host limits blobs').flushCurrentPack host).packs := by
    intro blobs' hperm
    have hsmall' : ¬Exceeds limits blobs' := (exceeds_perm hperm).not.mpr hsmall
    rw [build_eq, (stop_eq_none_iff host limits).mpr hsmall']
  have hinj := List.inj_on_of_nodup_map hnodup
  constructor
  · intro horder a ha b hb htied
    by_contra hne
    have hab : a ≠ b := fun heq => hne (congrArg Blob.digest heq)
    -- the two blobs in front, in either order
    obtain ⟨rest, hrest⟩ : ∃ rest, blobs.Perm (a :: b :: rest) := by
      refine ⟨(blobs.erase a).erase b, (List.perm_cons_erase ha).trans (List.Perm.cons a ?_)⟩
      exact List.perm_cons_erase ((List.mem_erase_of_ne (Ne.symm hab)).mpr hb)
    have hswapped : blobs.Perm (b :: a :: rest) := hrest.trans (List.Perm.swap b a rest)
    have hpacks := (horder _ hrest).trans (horder _ hswapped).symm
    rw [hbuild _ hrest, hbuild _ hswapped] at hpacks
    have hdigests := congrArg (List.flatMap BlobPack.digests) (Option.some.inj hpacks)
    rw [flatMap_digests hmax, flatMap_digests hmax] at hdigests
    rw [map_digest_sortedBlobs, map_digest_sortedBlobs] at hdigests
    have hfilter := (host.collation.sort_eq_iff ((List.Perm.swap b a rest).map _)).mp hdigests
      a.digest (by simp)
    have hself : host.localeCompare a.digest a.digest = .eq := host.collation.self_eq a.digest
    have hheads := congrArg List.head? hfilter
    simp only [List.map_cons, List.filter_cons, Collation.tied, hself, htied, beq_self_eq_true, if_true,
      List.head?_cons, Option.some.injEq] at hheads
    exact hne hheads
  · intro hapart blobs' hperm
    have hsorted : sortedBlobs host blobs' = sortedBlobs host blobs := by
      refine (sort_eq_of_perm ((collation_digest host).orderOn _) (fun a ha b hb htied => ?_) hperm).symm
      exact hinj ha hb (hapart a ha b hb htied)
    rw [hbuild _ hperm, hbuild _ (List.Perm.refl _), built, built, hsorted]

theorem packs_iff (hmax : 0 < limits.blobPackMaxBlobs) (hnodup : (blobs.map Blob.digest).Nodup) :
    Packs host limits blobs ↔ Exceeds limits blobs ∨ DigestsApart host blobs := by
  by_cases hsmall : Exceeds limits blobs
  · have herror : ∀ blobs' : List Blob, blobs.Perm blobs' →
        ∃ message, buildWorkspaceReplicationBlobPacks host limits blobs' = .error message := by
      intro blobs' hperm
      cases hstop : stop host limits blobs' with
      | none => exact absurd ((exceeds_perm hperm).mpr hsmall) ((stop_eq_none_iff host limits).mp hstop)
      | some message => exact ⟨message, by rw [build_eq, hstop]⟩
    obtain ⟨message, hmessage⟩ := herror blobs (List.Perm.refl _)
    refine iff_of_true ⟨iff_of_true ⟨message, hmessage⟩ hsmall, fun packs hpacks => ?_,
      fun blobs' hperm => ?_⟩ (.inl hsmall)
    · rw [hmessage] at hpacks
      cases hpacks
    · obtain ⟨message', hmessage'⟩ := herror blobs' hperm
      rw [hmessage, hmessage']
      rfl
  · have hbuild : buildWorkspaceReplicationBlobPacks host limits blobs =
        .ok ((built host limits blobs).flushCurrentPack host).packs := by
      rw [build_eq, (stop_eq_none_iff host limits).mpr hsmall]
    rw [or_iff_right hsmall, ← order_iff hmax hnodup hsmall]
    refine ⟨Packs.order, fun horder => ⟨iff_of_false ?_ hsmall, fun packs hpacks => ?_, horder⟩⟩
    · rintro ⟨message, hmessage⟩
      rw [hbuild] at hmessage
      cases hmessage
    · rw [hbuild] at hpacks
      rw [← Except.ok.inj hpacks]
      exact partitions_built hmax hnodup hsmall

def decompose (digest : String) : String :=
  String.ofList (digest.toList.flatMap fun c => if c = 'é' then ['e', Char.ofNat 0x301] else [c])

/-- A collation that takes the two spellings of an accented letter as equal. -/
def accentHost : Host where
  localeCompare a b := compare (decompose a) (decompose b)
  createPackIdForDigests := String.join
  collation := ⟨fun _ _ => Std.OrientedCmp.eq_swap, fun _ _ _ => Std.TransCmp.isLE_trans⟩

def roomyLimits : Limits := ⟨10, 2, 10⟩

theorem packs_aligned :
    Packs accentHost roomyLimits [⟨"b", 4⟩, ⟨"a", 6⟩] ↔
      Exceeds roomyLimits [⟨"b", 4⟩, ⟨"a", 6⟩] ∨ DigestsApart accentHost [⟨"b", 4⟩, ⟨"a", 6⟩] :=
  packs_iff (by decide) (by decide)

/-- Two digests that are spelled in different ways stand in the pack as they stood in the
offer. -/
theorem spellings_in_order_of_offer :
    ¬Packs accentHost roomyLimits [⟨"é", 4⟩, ⟨decompose "é", 6⟩] := by
  intro h
  have horder := h.order [⟨decompose "é", 6⟩, ⟨"é", 4⟩] (List.Perm.swap ..)
  revert horder
  decide

end DevPilot.Replication.BlobPartition
