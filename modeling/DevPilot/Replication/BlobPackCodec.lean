import DevPilot.Replication.BlobPack

/-!
The reader of a blob pack inverts its writer and accepts nothing else.
-/

namespace DevPilot.Replication

open Bytes

theorem length_slice (f : File) (position length : Nat) :
    (f.slice position length).length = min length (f.bytes.length - position) := by
  rw [File.slice, List.length_take, List.length_drop]

theorem slice_add (f : File) (position n m : Nat) :
    f.slice position (n + m) = f.slice position n ++ f.slice (position + n) m := by
  rw [File.slice, File.slice, File.slice, List.take_add, List.drop_drop]

theorem readExactBytes_eq (f : File) (position length : Nat) :
    readExactBytes f position length = f.slice position length := by
  induction length using Nat.strong_induction_on generalizing position with
  | _ length ih =>
      have hle := f.read_le position length
      rw [readExactBytes]
      by_cases hread : 0 < f.read position length
      · rw [dif_pos hread, ih _ (by omega), ← slice_add]
        congr 1
        omega
      · rw [dif_neg hread]
        have hend : length = 0 ∨ f.bytes.length ≤ position := by
          by_contra hmore
          have hpos := f.read_pos position length (by omega) (by omega)
          omega
        refine (List.length_eq_zero_iff.mp ?_).symm
        rw [length_slice]
        omega

theorem readPayload_eq (f : File) (position remainingBytes : Nat) :
    readPayload f position remainingBytes =
      if (f.slice position remainingBytes).length = remainingBytes then
        .ok (f.slice position remainingBytes)
      else .error (invalidFormat
        "Workspace replication blob pack ended before a blob payload completed") := by
  have hchunk : 0 < blobPackStreamChunkBytes := by decide
  induction remainingBytes using Nat.strong_induction_on generalizing position with
  | _ remainingBytes ih =>
      rw [readPayload]
      by_cases hmore : 0 < remainingBytes
      · rw [dif_pos hmore]
        simp only [readExactBytes_eq]
        generalize hc : min remainingBytes blobPackStreamChunkBytes = chunkLength
        have hsplit := slice_add f position chunkLength (remainingBytes - chunkLength)
        rw [show chunkLength + (remainingBytes - chunkLength) = remainingBytes by omega] at hsplit
        rw [ih _ (by omega) (position + chunkLength)]
        have hlen := length_slice f position remainingBytes
        have hlen₁ := length_slice f position chunkLength
        have hlen₂ := length_slice f (position + chunkLength) (remainingBytes - chunkLength)
        by_cases hfull : (f.slice position remainingBytes).length = remainingBytes
        · rw [if_neg (by omega), if_pos (by omega), if_pos hfull, hsplit]
          rfl
        · rw [if_neg hfull]
          split_ifs with h₁ h₂
          · rfl
          · omega
          · rfl
      · rw [dif_neg hmore]
        obtain rfl : remainingBytes = 0 := by omega
        rfl

theorem digestText_inj {a b : ByteString} (h : digestText a = digestText b) : a = b := by
  have hhex : hexOf a = hexOf b := List.append_cancel_left (String.ofList_injective h)
  have hbytes := congrArg bytesOfHex? hhex
  rw [bytesOfHex?_hexOf, bytesOfHex?_hexOf] at hbytes
  exact Option.some.inj hbytes

def blobRecord (sha : Sha256) (content : ByteString) : ByteString :=
  [blobRecordType, blobAlgorithmSha256, 0, 0] ++ writeBE 8 content.length ++ sha.hash content ++ content

def blobPack (sha : Sha256) (contents : List ByteString) : ByteString :=
  createBlobPackHeader ++ contents.flatMap (blobRecord sha) ++ createBlobPackEndMarker

def Fits (maxSingleBlobBytes : Nat) (content : ByteString) : Prop :=
  content.length ≤ maxSingleBlobBytes ∧ content.length ≤ maxSafeInteger

def Receiving.accept (sha : Sha256) (r : Receiving) (content : ByteString) : Receiving :=
  let digest := digestText (sha.hash content)
  let received := { r.result with receivedDigests := r.result.receivedDigests ++ [digest] }
  if (r.cas digest).isSome then { r with result := received }
  else {
    cas := Function.update r.cas digest (some content)
    result := { received with
      committedDigests := received.committedDigests ++ [digest]
      transferredBytes := received.transferredBytes + content.length
      transferredBlobs := received.transferredBlobs + 1 } }

theorem acceptBlob_eq_ok_iff {sha : Sha256} {r r' : Receiving} {hash content : ByteString} :
    acceptBlob sha r (digestText hash) content = .ok r' ↔
      sha.hash content = hash ∧ r.accept sha content = r' := by
  rw [acceptBlob]
  by_cases hhash : sha.hash content = hash
  · subst hhash
    rw [if_neg (by simp), Receiving.accept]
    simp only [commitFile, if_true, true_and]
    split_ifs
    · exact ⟨Except.ok.inj, congrArg _⟩
    · exact ⟨Except.ok.inj, congrArg _⟩
  · rw [if_pos fun h => hhash (digestText_inj h)]
    exact ⟨fun h => (by cases h), fun h => absurd h.1 hhash⟩

theorem parseBlobRecordHeader_eq_ok_iff {buffer : ByteString} {header : RecordHeader} :
    parseBlobRecordHeader buffer = .ok header ↔ ∃ sizeBytes hash, sizeBytes ≤ maxSafeInteger ∧
      hash.length = 32 ∧
      buffer = [blobRecordType, blobAlgorithmSha256, 0, 0] ++ writeBE 8 sizeBytes ++ hash ∧
      header = ⟨digestText hash, sizeBytes⟩ := by
  rw [parseBlobRecordHeader, bind_eq_ok_iff]
  simp only [throwIf_bind_eq_ok_iff, assertBufferLength]
  constructor
  · rintro ⟨_, hlength, htype, halgorithm, hreserved, hsize, hheader⟩
    have hlen : buffer.length = 44 := by
      split_ifs at hlength with h
      exact h
    rcases buffer with _ | ⟨b₀, _ | ⟨b₁, _ | ⟨b₂, _ | ⟨b₃, rest⟩⟩⟩⟩
    iterate 4 simp at hlen
    simp only [List.length_cons] at hlen
    simp only [List.getElem?_cons_zero, List.getElem?_cons_succ, ne_eq, Option.some.injEq,
      Decidable.not_not, not_or] at htype halgorithm hreserved
    obtain ⟨rfl, rfl⟩ := hreserved
    subst htype halgorithm
    have hrest : rest.length = 40 := by omega
    have hsizeLength : (rest.take 8).length = 8 := by rw [List.length_take]; omega
    have hsizeBytes := writeBE_readBE (rest.take 8)
    rw [hsizeLength] at hsizeBytes
    refine ⟨readBE (rest.take 8), rest.drop 8, not_lt.mp hsize, by rw [List.length_drop]; omega, ?_,
      (Except.ok.inj hheader).symm⟩
    rw [hsizeBytes, List.append_assoc, List.take_append_drop]
    rfl
  · rintro ⟨sizeBytes, hash, hsize, hhash, rfl, rfl⟩
    have hmax : maxSafeInteger < 256 ^ 8 := by decide
    have htake : ((([blobRecordType, blobAlgorithmSha256, 0, 0] ++ writeBE 8 sizeBytes ++ hash).drop
        4).take 8) = writeBE 8 sizeBytes :=
      List.take_left' (length_writeBE 8 sizeBytes)
    have hdrop : ([blobRecordType, blobAlgorithmSha256, 0, 0] ++ writeBE 8 sizeBytes ++ hash).drop 12 =
        hash := List.drop_left' (by simp)
    refine ⟨(), if_pos ?_, ?_, ?_, ?_, ?_, ?_⟩
    · simp [hhash, blobRecordHeaderBytes]
    · simp
    · simp
    · simp
    · rw [htake, readBE_writeBE (by omega)]
      exact not_lt.mpr hsize
    · rw [htake, readBE_writeBE (by omega), hdrop]
      rfl

theorem drop_eq_slice_append (f : File) (position length : Nat) :
    f.bytes.drop position = f.slice position length ++ f.bytes.drop (position + length) := by
  rw [File.slice, ← List.drop_drop, List.take_append_drop]

theorem receiveRecord_eq_ok_iff {sha : Sha256} {maxSingleBlobBytes : Nat} {f : File}
    {position position' : Nat} {b : UInt8} {r r' : Receiving} :
    receiveRecord sha maxSingleBlobBytes f position [b] r = .ok (position', r') ↔
      ∃ content, Fits maxSingleBlobBytes content ∧
        b :: f.bytes.drop position = blobRecord sha content ++ f.bytes.drop position' ∧
        position' = position + 43 + content.length ∧ r.accept sha content = r' := by
  rw [receiveRecord, throwIf_bind_eq_ok_iff]
  simp only [readExactBytes_eq, bind_eq_ok_iff, throwIf_eq_ok_iff, exists_const, mapError_eq_ok_iff,
    parseBlobRecordHeader_eq_ok_iff, readPayload_eq, blobRecordHeaderBytes, Nat.reduceSub, not_not]
  constructor
  · rintro ⟨hrest, header, ⟨sizeBytes, hash, hsafe, hhash, hbuffer, rfl⟩, hmax, content, hcontent, r'',
      haccept, hresult⟩
    obtain ⟨rfl, rfl⟩ := Prod.mk.inj (Except.ok.inj hresult)
    dsimp only at hmax hcontent haccept
    rw [hrest] at hcontent
    split_ifs at hcontent with hsize
    have hslice := Except.ok.inj hcontent
    rw [hslice] at hsize
    subst hsize
    obtain ⟨rfl, rfl⟩ := acceptBlob_eq_ok_iff.mp haccept
    refine ⟨content, ⟨not_lt.mp hmax, hsafe⟩, ?_, by rw [hrest], rfl⟩
    rw [hrest, drop_eq_slice_append f position 43,
      drop_eq_slice_append f (position + 43) content.length, hslice, ← List.singleton_append,
      ← List.append_assoc, hbuffer, blobRecord]
    simp only [List.append_assoc]
  · rintro ⟨content, ⟨hmax, hsafe⟩, hbytes, rfl, rfl⟩
    have hhash := sha.length_hash content
    have hlen := congrArg List.length hbytes
    simp only [blobRecord, List.length_cons, List.length_append, List.length_drop, length_writeBE,
      List.length_nil, hhash] at hlen
    have hrest : f.slice position 43 = ([blobAlgorithmSha256, 0, 0] ++ writeBE 8 content.length ++
        sha.hash content) := by
      have htake := congrArg (fun bytes => (bytes.drop 1).take 43) hbytes
      simp only [List.drop_one, List.tail_cons] at htake
      rw [File.slice, htake, blobRecord]
      simp [hhash, List.take_append]
    have hcontent : f.slice (position + 43) content.length = content := by
      have hdrop := congrArg (fun bytes => (bytes.drop 44).take content.length) hbytes
      simp only [List.drop_succ_cons, List.drop_drop] at hdrop
      rw [File.slice, hdrop, blobRecord]
      simp [hhash, List.drop_append, List.take_append]
    have hb : b = blobRecordType := by
      have hhead := congrArg List.head? hbytes
      simpa [blobRecord] using hhead
    refine ⟨by rw [hrest]; simp [hhash], ⟨digestText (sha.hash content), content.length⟩,
      ⟨content.length, sha.hash content, hsafe, hhash, by rw [hrest, hb]; rfl, rfl⟩, not_lt.mpr hmax,
      content, ?_, r.accept sha content, acceptBlob_eq_ok_iff.mpr ⟨rfl, rfl⟩, ?_⟩
    · have hrestLength : (f.slice position 43).length = 43 := by rw [hrest]; simp [hhash]
      rw [hrestLength, hcontent, if_pos rfl]
    · have hrestLength : (f.slice position 43).length = 43 := by rw [hrest]; simp [hhash]
      rw [hrestLength]
      rfl

theorem parseBlobPackEndMarker_eq_ok_iff {buffer : ByteString} {u : Unit} :
    parseBlobPackEndMarker buffer = .ok u ↔ buffer = createBlobPackEndMarker := by
  rw [parseBlobPackEndMarker, bind_eq_ok_iff]
  simp only [throwIf_bind_eq_ok_iff, throwIf_eq_ok_iff, assertBufferLength, not_not]
  constructor
  · rintro ⟨_, -, hhead, htail⟩
    cases buffer with
    | nil => cases hhead
    | cons b rest =>
        simp only [List.getElem?_cons_zero, Option.some.injEq] at hhead
        rw [List.drop_succ_cons, List.drop_zero] at htail
        rw [hhead, htail]
        rfl
  · rintro rfl
    exact ⟨(), rfl, rfl, rfl⟩

theorem parseBlobPackHeader_eq_ok_iff {buffer : ByteString} {u : Unit} :
    parseBlobPackHeader buffer = .ok u ↔ buffer = createBlobPackHeader := by
  rw [parseBlobPackHeader, bind_eq_ok_iff]
  simp only [throwIf_bind_eq_ok_iff, throwIf_eq_ok_iff, assertBufferLength, not_not]
  constructor
  · rintro ⟨_, -, hmagic, hversion, hreserved⟩
    have hdrop : buffer.drop 4 = [blobPackVersion, 0, 0, 0] := by
      rw [List.drop_eq_getElem?_toList_append, hversion, hreserved]
      rfl
    calc buffer = buffer.take 4 ++ buffer.drop 4 := (List.take_append_drop 4 buffer).symm
      _ = createBlobPackHeader := by rw [hmagic, hdrop]; rfl
  · rintro rfl
    exact ⟨(), rfl, rfl, rfl, rfl⟩

theorem receiveEnd_eq_ok_iff {f : File} {position : Nat} {b : UInt8} {u : Unit} :
    receiveEnd f position [b] = .ok u ↔ b :: f.bytes.drop position = createBlobPackEndMarker := by
  rw [receiveEnd, throwIf_bind_eq_ok_iff]
  simp only [readExactBytes_eq, bind_eq_ok_iff, throwIf_eq_ok_iff, parseBlobPackEndMarker_eq_ok_iff,
    blobPackEndMarkerBytes, Nat.reduceSub, not_not, exists_const, gt_iff_lt, length_slice]
  constructor
  · rintro ⟨hrest, hmarker, hend⟩
    have htail : f.bytes.drop (position + 7) = [] := by
      rw [List.drop_eq_nil_iff]
      omega
    rw [drop_eq_slice_append f position 7, htail, List.append_nil]
    exact hmarker
  · intro hbytes
    have hlen := congrArg List.length hbytes
    rw [List.length_cons, List.length_drop, show createBlobPackEndMarker.length = 8 from rfl] at hlen
    refine ⟨by omega, ?_, by omega⟩
    rw [File.slice, List.take_of_length_le (by rw [List.length_drop]; omega)]
    exact hbytes

theorem blobRecord_head (sha : Sha256) (content : ByteString) :
    ∃ rest, blobRecord sha content = blobRecordType :: rest := ⟨_, rfl⟩

theorem receiveRecords_end {sha : Sha256} {maxSingleBlobBytes : Nat} {f : File} {position : Nat}
    {r : Receiving} (hlead : readExactBytes f position 1 ≠ [])
    (hmarker : (readExactBytes f position 1)[0]? = some blobPackEndMarker) :
    receiveRecords sha maxSingleBlobBytes f position r =
      match receiveEnd f (position + 1) (readExactBytes f position 1) with
      | .error e => (.error (.format e), r.cas)
      | .ok () => (.ok r.result, r.cas) := by
  rw [receiveRecords, dif_neg hlead]
  exact if_pos hmarker

theorem receiveRecords_record {sha : Sha256} {maxSingleBlobBytes : Nat} {f : File} {position : Nat}
    {r : Receiving} (hlead : readExactBytes f position 1 ≠ [])
    (hmarker : ¬(readExactBytes f position 1)[0]? = some blobPackEndMarker) :
    receiveRecords sha maxSingleBlobBytes f position r =
      match receiveRecord sha maxSingleBlobBytes f (position + 1) (readExactBytes f position 1) r with
      | .error e => (.error e, r.cas)
      | .ok (position', r') => receiveRecords sha maxSingleBlobBytes f position' r' := by
  rw [receiveRecords, dif_neg hlead, if_neg hmarker]
  split <;> rename_i h <;> simp only [h]

theorem exists_lead {f : File} {position : Nat} (h : readExactBytes f position 1 ≠ []) :
    ∃ b, readExactBytes f position 1 = [b] ∧
      f.bytes.drop position = b :: f.bytes.drop (position + 1) := by
  rw [readExactBytes_eq] at h ⊢
  have hlen := length_slice f position 1
  have hpos := List.length_pos_iff.mpr h
  obtain ⟨b, hb⟩ := List.length_eq_one_iff.mp (show (f.slice position 1).length = 1 by omega)
  exact ⟨b, hb, by rw [drop_eq_slice_append f position 1, hb]; rfl⟩

theorem receiveRecords_of_records {sha : Sha256} {maxSingleBlobBytes : Nat} {f : File}
    {contents : List ByteString} (hfits : ∀ c ∈ contents, Fits maxSingleBlobBytes c) {position : Nat}
    (r : Receiving) (hbytes : f.bytes.drop position =
      contents.flatMap (blobRecord sha) ++ createBlobPackEndMarker) :
    receiveRecords sha maxSingleBlobBytes f position r =
      (.ok (contents.foldl (Receiving.accept sha) r).result,
        (contents.foldl (Receiving.accept sha) r).cas) := by
  induction contents generalizing position r with
  | nil =>
      rw [List.flatMap_nil, List.nil_append] at hbytes
      have hlead : f.slice position 1 = [blobPackEndMarker] := by rw [File.slice, hbytes]; rfl
      have hrest : blobPackEndMarker :: f.bytes.drop (position + 1) = createBlobPackEndMarker := by
        rw [← List.drop_drop, hbytes]
        rfl
      have hend : receiveEnd f (position + 1) [blobPackEndMarker] = .ok () :=
        receiveEnd_eq_ok_iff.mpr hrest
      rw [← readExactBytes_eq] at hlead
      rw [receiveRecords_end (by rw [hlead]; exact List.cons_ne_nil _ _) (by rw [hlead]; rfl), hlead,
        hend]
      rfl
  | cons content contents ih =>
      obtain ⟨hcontent, hcontents⟩ := List.forall_mem_cons.mp hfits
      rw [List.flatMap_cons, List.append_assoc] at hbytes
      obtain ⟨rest, hrest⟩ := blobRecord_head sha content
      have hlead : f.slice position 1 = [blobRecordType] := by
        rw [File.slice, hbytes, hrest]
        rfl
      have hlength : (blobRecord sha content).length = 44 + content.length := by
        simp only [blobRecord, List.length_append, length_writeBE, sha.length_hash, List.length_cons,
          List.length_nil]
      have hnext : f.bytes.drop (position + 1 + 43 + content.length) =
          contents.flatMap (blobRecord sha) ++ createBlobPackEndMarker := by
        rw [show position + 1 + 43 + content.length = position + (44 + content.length) by omega,
          ← List.drop_drop, hbytes, List.drop_left' hlength]
      have hrecord : receiveRecord sha maxSingleBlobBytes f (position + 1) [blobRecordType] r =
          .ok (position + 1 + 43 + content.length, r.accept sha content) := by
        refine receiveRecord_eq_ok_iff.mpr ⟨content, hcontent, ?_, rfl, rfl⟩
        rw [hnext, ← List.drop_drop, hbytes, hrest]
        rfl
      rw [← readExactBytes_eq] at hlead
      rw [receiveRecords_record (by rw [hlead]; exact List.cons_ne_nil _ _) (by rw [hlead]; decide),
        hlead, hrecord]
      exact ih hcontents _ hnext

theorem records_of_receiveRecords {sha : Sha256} {maxSingleBlobBytes : Nat} {f : File}
    {position : Nat} {r : Receiving} {result : ReceiveResult}
    (h : (receiveRecords sha maxSingleBlobBytes f position r).1 = .ok result) :
    ∃ contents : List ByteString, (∀ c ∈ contents, Fits maxSingleBlobBytes c) ∧
      f.bytes.drop position = contents.flatMap (blobRecord sha) ++ createBlobPackEndMarker := by
  induction position, r using receiveRecords.induct sha maxSingleBlobBytes f with
  | case1 position r leadByte hlead =>
      rw [receiveRecords, dif_pos hlead] at h
      cases h
  | case2 position r leadByte hlead hmarker e he =>
      rw [receiveRecords_end hlead hmarker, he] at h
      cases h
  | case3 position r leadByte hlead hmarker he =>
      obtain ⟨b, hb, hbytes⟩ := exists_lead hlead
      refine ⟨[], by simp, ?_⟩
      rw [show leadByte = [b] from hb] at he
      rw [hbytes, receiveEnd_eq_ok_iff.mp he]
      rfl
  | case4 position r leadByte hlead hmarker e he =>
      rw [receiveRecords_record hlead hmarker, he] at h
      cases h
  | case5 position r leadByte hlead hmarker position' r' he ih =>
      rw [receiveRecords_record hlead hmarker, he] at h
      obtain ⟨contents, hfits, hrest⟩ := ih h
      obtain ⟨b, hb, hbytes⟩ := exists_lead hlead
      rw [show leadByte = [b] from hb] at he
      obtain ⟨content, hcontent, hrecord, -, -⟩ := receiveRecord_eq_ok_iff.mp he
      refine ⟨content :: contents, List.forall_mem_cons.mpr ⟨hcontent, hfits⟩, ?_⟩
      rw [hbytes, hrecord, hrest, List.flatMap_cons, List.append_assoc]

theorem receiveBlobPack_eq_ok_iff {sha : Sha256} {maxSingleBlobBytes : Nat} {cas : CasStore}
    {f : File} {result : ReceiveResult} :
    (receiveBlobPack sha maxSingleBlobBytes cas f).1 = .ok result ↔
      f.slice 0 8 = createBlobPackHeader ∧
        (receiveRecords sha maxSingleBlobBytes f 8 ⟨cas, ⟨[], [], 0, 0⟩⟩).1 = .ok result := by
  rw [receiveBlobPack, readExactBytes_eq, blobPackHeaderBytes]
  split_ifs with hlength
  · refine ⟨fun h => (by cases h), fun h => ?_⟩
    rw [h.1] at hlength
    exact absurd rfl hlength
  · rw [not_not] at hlength
    rw [hlength]
    cases hparse : parseBlobPackHeader (f.slice 0 8) with
    | error e =>
        refine ⟨fun h => (by cases h), fun h => ?_⟩
        rw [parseBlobPackHeader_eq_ok_iff (u := ()) |>.mpr h.1] at hparse
        cases hparse
    | ok u => exact (and_iff_right (parseBlobPackHeader_eq_ok_iff.mp hparse)).symm

theorem receiveBlobPack_accepts_iff (sha : Sha256) (maxSingleBlobBytes : Nat) (cas : CasStore)
    (f : File) : (∃ result, (receiveBlobPack sha maxSingleBlobBytes cas f).1 = .ok result) ↔
      ∃ contents : List ByteString, (∀ c ∈ contents, Fits maxSingleBlobBytes c) ∧
        f.bytes = blobPack sha contents := by
  simp only [receiveBlobPack_eq_ok_iff]
  have hcut : f.bytes = f.slice 0 8 ++ f.bytes.drop 8 := drop_eq_slice_append f 0 8
  constructor
  · rintro ⟨result, hheader, hrecords⟩
    obtain ⟨contents, hfits, hbytes⟩ := records_of_receiveRecords hrecords
    refine ⟨contents, hfits, ?_⟩
    rw [hcut, hheader, hbytes, blobPack, List.append_assoc]
  · rintro ⟨contents, hfits, hbytes⟩
    have hheader : f.slice 0 8 = createBlobPackHeader := by
      rw [File.slice, List.drop_zero, hbytes, blobPack, List.append_assoc]
      exact List.take_left' rfl
    have hrest : f.bytes.drop 8 = contents.flatMap (blobRecord sha) ++ createBlobPackEndMarker := by
      rw [hbytes, blobPack, List.append_assoc]
      exact List.drop_left' rfl
    exact ⟨_, hheader, by rw [receiveRecords_of_records hfits _ hrest]⟩

def Sound (sha : Sha256) (cas : CasStore) : Prop :=
  ∀ digest, ∀ content ∈ cas digest, digestText (sha.hash content) = digest

theorem cas_accept (sha : Sha256) (r : Receiving) (content : ByteString) (digest : String) :
    (r.accept sha content).cas digest =
      if digest = digestText (sha.hash content) then r.cas digest <|> some content
      else r.cas digest := by
  rw [Receiving.accept]
  by_cases hd : digest = digestText (sha.hash content)
  · subst hd
    cases hcas : r.cas (digestText (sha.hash content)) <;> simp [hcas]
  · split_ifs
    · rfl
    · simp [hd]

theorem mem_cas_accept {sha : Sha256} {r : Receiving} {content content' : ByteString} {digest : String}
    (h : content' ∈ (r.accept sha content).cas digest) :
    content' ∈ r.cas digest ∨ content' = content ∧ digest = digestText (sha.hash content) := by
  rw [cas_accept] at h
  split_ifs at h with hd
  · cases hcas : r.cas digest with
    | none =>
        rw [hcas] at h
        exact .inr ⟨(Option.mem_some_iff.mp h).symm, hd⟩
    | some c =>
        rw [hcas] at h
        exact .inl h
  · exact .inl h

theorem sound_accept {sha : Sha256} {r : Receiving} (h : Sound sha r.cas) (content : ByteString) :
    Sound sha (r.accept sha content).cas := by
  intro digest content' hmem
  rcases mem_cas_accept hmem with hold | ⟨rfl, rfl⟩
  · exact h digest content' hold
  · rfl

theorem sound_receiveRecords {sha : Sha256} {maxSingleBlobBytes : Nat} {f : File} {position : Nat}
    {r : Receiving} (h : Sound sha r.cas) :
    Sound sha (receiveRecords sha maxSingleBlobBytes f position r).2 := by
  induction position, r using receiveRecords.induct sha maxSingleBlobBytes f with
  | case1 position r leadByte hlead =>
      rw [receiveRecords, dif_pos hlead]
      exact h
  | case2 position r leadByte hlead hmarker e he =>
      rw [receiveRecords_end hlead hmarker, he]
      exact h
  | case3 position r leadByte hlead hmarker he =>
      rw [receiveRecords_end hlead hmarker, he]
      exact h
  | case4 position r leadByte hlead hmarker e he =>
      rw [receiveRecords_record hlead hmarker, he]
      exact h
  | case5 position r leadByte hlead hmarker position' r' he ih =>
      rw [receiveRecords_record hlead hmarker, he]
      obtain ⟨b, hb, -⟩ := exists_lead hlead
      rw [show leadByte = [b] from hb] at he
      obtain ⟨content, -, -, -, rfl⟩ := receiveRecord_eq_ok_iff.mp he
      exact ih (sound_accept h content)

theorem sound_receiveBlobPack {sha : Sha256} {cas : CasStore} (h : Sound sha cas)
    (maxSingleBlobBytes : Nat) (f : File) :
    Sound sha (receiveBlobPack sha maxSingleBlobBytes cas f).2 := by
  rw [receiveBlobPack]
  split
  · exact h
  · split
    · exact h
    · exact sound_receiveRecords h

theorem receivedDigests_foldl_accept (sha : Sha256) (contents : List ByteString) (r : Receiving) :
    (contents.foldl (Receiving.accept sha) r).result.receivedDigests =
      r.result.receivedDigests ++ contents.map fun c => digestText (sha.hash c) := by
  induction contents generalizing r with
  | nil => simp
  | cons content contents ih =>
      have hone : (r.accept sha content).result.receivedDigests =
          r.result.receivedDigests ++ [digestText (sha.hash content)] := by
        rw [Receiving.accept]
        split_ifs <;> rfl
      rw [List.foldl_cons, ih, hone, List.map_cons, List.append_assoc]
      rfl

theorem isSome_cas_accept (sha : Sha256) (r : Receiving) (content : ByteString) {digest : String}
    (h : (r.cas digest).isSome = true ∨ digest = digestText (sha.hash content)) :
    ((r.accept sha content).cas digest).isSome = true := by
  rw [cas_accept]
  split_ifs with hd
  · cases r.cas digest <;> rfl
  · exact h.resolve_right hd

theorem contains_foldl_accept (sha : Sha256) (contents : List ByteString) (r : Receiving)
    {digest : String}
    (h : (r.cas digest).isSome = true ∨ ∃ c ∈ contents, digestText (sha.hash c) = digest) :
    ((contents.foldl (Receiving.accept sha) r).cas digest).isSome = true := by
  induction contents generalizing r with
  | nil => simpa using h
  | cons content contents ih =>
      apply ih
      rcases h with h | ⟨c, hc, rfl⟩
      · exact .inl (isSome_cas_accept sha r content (.inl h))
      · rcases List.mem_cons.mp hc with rfl | hc
        · exact .inl (isSome_cas_accept sha r c (.inr rfl))
        · exact .inr ⟨c, hc, rfl⟩

theorem origin_foldl_accept (sha : Sha256) {contents : List ByteString} (r : Receiving)
    {digest : String} {content : ByteString}
    (h : content ∈ (contents.foldl (Receiving.accept sha) r).cas digest) :
    content ∈ r.cas digest ∨ content ∈ contents := by
  induction contents generalizing r with
  | nil => exact .inl h
  | cons c contents ih =>
      rcases ih (r.accept sha c) h with h | h
      · rcases mem_cas_accept h with hold | ⟨rfl, -⟩
        · exact .inl hold
        · exact .inr List.mem_cons_self
      · exact .inr (List.mem_cons_of_mem c h)

theorem decodeDigestBytes_digestText {hash : ByteString} (h : hash.length = 32) :
    decodeDigestBytes (digestText hash) = .ok hash ∧ isCasDigest (digestText hash) = true := by
  have hlist : (digestText hash).toList = digestPrefix ++ hexOf hash := String.toList_ofList
  have hhex : isDigestHex (hexOf hash) = true := by
    have hlen := length_hexOf hash
    have hchars : ∀ c ∈ hexOf hash, (hexValue? c).isSome = true := by
      intro c hc
      obtain ⟨b, -, hb⟩ := List.mem_flatMap.mp hc
      have hlt := b.toNat_lt
      simp only [List.mem_cons, List.not_mem_nil, or_false] at hb
      rcases hb with rfl | rfl
      · rw [hexValue?_hexChar (by omega)]
        rfl
      · rw [hexValue?_hexChar (by omega)]
        rfl
    rw [isDigestHex, hlen, h, List.all_eq_true.mpr hchars]
    rfl
  have hdrop : (digestPrefix ++ hexOf hash).drop digestPrefix.length = hexOf hash :=
    List.drop_left' rfl
  have hstarts : digestPrefix.isPrefixOf (digestPrefix ++ hexOf hash) = true :=
    List.isPrefixOf_iff_prefix.mpr (List.prefix_append _ _)
  constructor
  · rw [decodeDigestBytes, hlist, if_pos hstarts, hdrop]
    simp only [hhex, if_true, bytesOfHex?_hexOf, Option.getD_some]
  · rw [isCasDigest, hlist, hstarts, hdrop, hhex]
    rfl

theorem createBlobRecord_of_sound {sha : Sha256} {source : CasStore} (hsound : Sound sha source)
    {digest : String} {content : ByteString} (hmem : content ∈ source digest)
    (hsafe : content.length ≤ maxSafeInteger) :
    createBlobRecord source digest = .ok (blobRecord sha content) := by
  obtain rfl := hsound digest content hmem
  obtain ⟨hdecode, hcas⟩ := decodeDigestBytes_digestText (sha.length_hash content)
  rw [createBlobRecord, if_pos hcas, Option.mem_def.mp hmem]
  simp only [createBlobRecordHeader, if_neg (not_lt.mpr hsafe), hdecode]
  rfl

theorem createBlobPackPayload_of_sound {sha : Sha256} {source : CasStore} (hsound : Sound sha source)
    {digests : List String} {contents : List ByteString}
    (hmem : List.Forall₂ (fun digest content => content ∈ source digest) digests contents)
    (hsafe : ∀ c ∈ contents, c.length ≤ maxSafeInteger) :
    createBlobPackPayload source digests = .ok (blobPack sha contents) := by
  have hrecords : digests.mapM (createBlobRecord source) = .ok (contents.map (blobRecord sha)) := by
    induction hmem with
    | nil => rfl
    | cons hhead htail ih =>
        obtain ⟨hcontent, hcontents⟩ := List.forall_mem_cons.mp hsafe
        rw [List.mapM_cons, createBlobRecord_of_sound hsound hhead hcontent, ih hcontents]
        rfl
  rw [createBlobPackPayload, hrecords, blobPack, List.flatMap_def]
  rfl

/-- No blob of one store has the hash of a different blob of the other. -/
def NoCollision (sha : Sha256) (source target : CasStore) : Prop :=
  ∀ d d', ∀ c ∈ source d, ∀ c' ∈ target d', sha.hash c = sha.hash c' → c = c'

theorem receiveBlobPack_of_payload {sha : Sha256} {maxSingleBlobBytes : Nat} {source target : CasStore}
    (hsource : Sound sha source) (htarget : Sound sha target) (hcollision : NoCollision sha source target)
    {digests : List String} (hfits : ∀ d ∈ digests, ∃ c ∈ source d, Fits maxSingleBlobBytes c) :
    ∃ bytes, createBlobPackPayload source digests = .ok bytes ∧ ∀ f : File, f.bytes = bytes →
      ∃ result cas, receiveBlobPack sha maxSingleBlobBytes target f = (.ok result, cas) ∧
        result.receivedDigests = digests ∧ ∀ d ∈ digests, cas d = source d := by
  have hget : ∀ d ∈ digests, source d = some ((source d).getD []) := by
    intro d hd
    obtain ⟨c, hc, -⟩ := hfits d hd
    rw [Option.mem_def.mp hc, Option.getD_some]
  generalize hcontents : digests.map (fun d => (source d).getD []) = contents
  have hmem : List.Forall₂ (fun digest content => content ∈ source digest) digests contents := by
    rw [← hcontents, List.forall₂_map_right_iff, List.forall₂_same]
    exact fun d hd => hget d hd
  have hfit : ∀ c ∈ contents, Fits maxSingleBlobBytes c := by
    intro c hc
    rw [← hcontents] at hc
    obtain ⟨d, hd, rfl⟩ := List.mem_map.mp hc
    obtain ⟨c, hc, hfits⟩ := hfits d hd
    rwa [Option.mem_def.mp hc, Option.getD_some]
  refine ⟨blobPack sha contents, createBlobPackPayload_of_sound hsource hmem fun c hc => (hfit c hc).2,
    fun f hf => ?_⟩
  have hrest : f.bytes.drop 8 = contents.flatMap (blobRecord sha) ++ createBlobPackEndMarker := by
    rw [hf, blobPack, List.append_assoc]
    exact List.drop_left' rfl
  have hrun : receiveBlobPack sha maxSingleBlobBytes target f =
      receiveRecords sha maxSingleBlobBytes f 8 ⟨target, ⟨[], [], 0, 0⟩⟩ := by
    have hheader : f.slice 0 8 = createBlobPackHeader := by
      rw [File.slice, List.drop_zero, hf, blobPack, List.append_assoc]
      exact List.take_left' rfl
    rw [receiveBlobPack, readExactBytes_eq, blobPackHeaderBytes, hheader]
    rfl
  have hsound := sound_receiveBlobPack htarget maxSingleBlobBytes f
  rw [hrun, receiveRecords_of_records hfit _ hrest] at hsound
  refine ⟨_, _, by rw [hrun, receiveRecords_of_records hfit _ hrest], ?_, fun d hd => ?_⟩
  · rw [receivedDigests_foldl_accept, List.nil_append, ← hcontents, List.map_map]
    refine (List.map_congr_left fun d hd => ?_).trans (List.map_id digests)
    exact hsource d _ (hget d hd)
  · have hdigest := hsource d _ (hget d hd)
    obtain ⟨c, hc⟩ := Option.isSome_iff_exists.mp <|
      contains_foldl_accept sha contents ⟨target, ⟨[], [], 0, 0⟩⟩
        (.inr ⟨(source d).getD [], hcontents ▸ List.mem_map_of_mem hd, hdigest⟩)
    rw [hc, hget d hd]
    congr 1
    have hname := hsound d c hc
    rcases origin_foldl_accept sha _ hc with hold | hnew
    · have hhash := digestText_inj (hdigest.trans hname.symm)
      exact (hcollision d d _ (hget d hd) c hold hhash).symm
    · rw [← hcontents] at hnew
      obtain ⟨d', hd', rfl⟩ := List.mem_map.mp hnew
      rw [hsource d' _ (hget d' hd')] at hname
      rw [hname]

def abc : ByteString := [0x61, 0x62, 0x63]

def abcHash : ByteString :=
  [0xba, 0x78, 0x16, 0xbf, 0x8f, 0x01, 0xcf, 0xea, 0x41, 0x41, 0x40, 0xde, 0x5d, 0xae, 0x22, 0x23,
    0xb0, 0x03, 0x61, 0xa3, 0x96, 0x17, 0x7a, 0x9c, 0xb4, 0x10, 0xff, 0x61, 0xf2, 0x00, 0x15, 0xad]

def literalSha256 : Sha256 where
  hash content := if content = abc then abcHash else List.replicate 32 0
  length_hash content := by split_ifs <;> rfl

end DevPilot.Replication
