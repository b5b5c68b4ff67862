import DevPilot.Replication.ManifestStream

/-!
When a stream reads back as what was written: `JSON.stringify` leaves U+2028
and U+2029 as they are, and the reader ends a line there.
-/

namespace DevPilot.Replication

open PathText PyJson ReadLines

variable {F : Type} {host : JsonHost F}

def isSeparator (c : Char) : Bool := c == '\u2028' || c == '\u2029'

def WorkspaceManifestEntry.texts : WorkspaceManifestEntry → List Text
  | directory path => [path]
  | file path digest _ _ => [path, digest]
  | symlink path target => [path, target]

def WorkspaceManifestEntry.hasSeparator (e : WorkspaceManifestEntry) : Bool :=
  e.texts.any fun t => t.any isSeparator

theorem isSeparator_ascii {c : Char} (h : c.toNat < 128) : isSeparator c = false := by
  have hc : c ≠ '\u2028' ∧ c ≠ '\u2029' := by
    constructor <;> (rintro rfl; exact absurd h (by decide))
  simp [isSeparator, hc.1, hc.2]

theorem isLineEnd_eq_isSeparator {c : Char} (h : 32 ≤ c.toNat) : isLineEnd c = isSeparator c := by
  have hn : (c == '\n') = false := beq_eq_false_iff_ne.mpr (by rintro rfl; exact absurd h (by decide))
  have hr : (c == '\r') = false := beq_eq_false_iff_ne.mpr (by rintro rfl; exact absurd h (by decide))
  rw [isLineEnd, isSeparator, hn, hr, Bool.false_or, Bool.false_or]

theorem anyChar_entryJson (e : WorkspaceManifestEntry) :
    (entryJson e : Json F).anyChar isSeparator = e.hasSeparator := by
  have hkey (k : String) (h : k.toList.all (fun c => c.toNat < 128) = true) :
      k.toList.any isSeparator = false := by
    rw [List.any_eq_false]
    intro c hc
    simpa using isSeparator_ascii (of_decide_eq_true (List.all_eq_true.mp h c hc))
  have h₁ := hkey "relativePath" (by decide)
  have h₂ := hkey "kind" (by decide)
  have h₃ := hkey "digest" (by decide)
  have h₄ := hkey "sizeBytes" (by decide)
  have h₅ := hkey "executable" (by decide)
  have h₆ := hkey "target" (by decide)
  have h₇ := hkey "directory" (by decide)
  have h₈ := hkey "file" (by decide)
  have h₉ := hkey "symlink" (by decide)
  cases e <;>
    simp only [entryJson, textJson, Json.anyChar, Json.anyString, Json.anyStringMembers, h₁, h₂,
      h₃, h₄, h₅, h₆, h₇, h₈, h₉, String.toList_ofList, WorkspaceManifestEntry.hasSeparator,
      WorkspaceManifestEntry.texts, List.any_cons, List.any_nil, Bool.or_false, Bool.false_or]

theorem jsonParse_stringify {v : Json F} (hwf : v.wf = true)
    (hfinite : finiteJson host.finite v = true) : jsonParse host (stringify host v) = some v := by
  rw [jsonParse, stringify, loads_dumps host.format .compact hwf, Option.filter_some, if_pos hfinite]

theorem schema_entryJson {e : WorkspaceManifestEntry} (h : e.accepted = true) :
    ReplicationManifestEntrySchema host (entryJson e) = some e := by
  cases e <;>
    simp [ReplicationManifestEntrySchema, entryJson, textJson, textAt?, Json.getStr?, strictKeys,
      Members.keys, natural?, bool?, List.lookup_cons, h]

theorem wf_entryJson (e : WorkspaceManifestEntry) : (entryJson e : Json F).wf = true := by
  cases e <;> simp [entryJson, textJson, Json.wf, Json.wfMembers, Members.keys]

theorem finite_entryJson (e : WorkspaceManifestEntry) :
    finiteJson host.finite (entryJson e) = true := by
  cases e <;> simp [entryJson, textJson, finiteJson, finiteMembers]

theorem stringify_obj (host : JsonHost F) (ms : Members F) :
    ∃ inner, stringify host (.obj ms) = '{' :: (inner ++ ['}']) := by
  cases ms with
  | nil => exact ⟨[], rfl⟩
  | cons p ms =>
      obtain ⟨k, v⟩ := p
      refine ⟨quote k ++ (Layout.compact.keySep ++ (dump host.format .compact 1 v ++
        dumpMembers host.format .compact 1 ms)), ?_⟩
      simp [stringify, dumps, dump, Layout.brk]

theorem entryJson_eq_obj (e : WorkspaceManifestEntry) : ∃ ms, (entryJson e : Json F) = .obj ms := by
  cases e <;> exact ⟨_, rfl⟩

theorem return_notMem_stringify (v : Json F) : '\r' ∉ stringify host v := fun h =>
  absurd (printable_dumps rfl host.format v _ h) (by decide)

theorem isLineEnd_of_stringify {v : Json F} {c : Char} (hc : c ∈ stringify host v) :
    isLineEnd c = isSeparator c :=
  isLineEnd_eq_isSeparator (printable_dumps rfl host.format v c hc)

theorem stringify_noEnd {v : Json F} (h : v.anyChar isSeparator = false) :
    (stringify host v).all (fun c => !isLineEnd c) = true := by
  have hno : (stringify host v).any isSeparator = false :=
    noChar_dumps rfl (fun _ => isSeparator_ascii) host.format h
  refine List.all_eq_true.mpr fun c hc => ?_
  rw [isLineEnd_of_stringify hc]
  simpa using List.any_eq_false.mp hno c hc

theorem trim_braces (inner : Text) : trim ('{' :: (inner ++ ['}'])) = '{' :: (inner ++ ['}']) := by
  have hopen : isBlank '{' = false := by decide
  have hclose : isBlank '}' = false := by decide
  rw [trim, List.dropWhile_cons, if_neg (by simp [hopen]), trimEnd, ← List.cons_append,
    List.reverse_append, List.reverse_singleton, List.singleton_append, List.dropWhile_cons,
    if_neg (by simp [hclose])]
  simp

theorem readEntries_stringify {entries : List WorkspaceManifestEntry}
    (h : entries.all WorkspaceManifestEntry.accepted = true) :
    readEntries host (entries.map fun e => stringify host (entryJson e)) = some entries := by
  induction entries with
  | nil => rfl
  | cons e entries ih =>
      rw [List.all_cons, Bool.and_eq_true] at h
      obtain ⟨ms, hms⟩ := entryJson_eq_obj (F := F) e
      obtain ⟨inner, hinner⟩ := stringify_obj host ms
      have htrim : trim (stringify host (entryJson e)) = stringify host (entryJson e) := by
        rw [hms, hinner, trim_braces]
      have hblank : isBlankLine (stringify host (entryJson e)) = false := by
        rw [isBlankLine, htrim, hms, hinner]
        rfl
      rw [List.map_cons, readEntries, hblank, htrim,
        jsonParse_stringify (wf_entryJson e) (finite_entryJson e), ih h.2]
      simp [schema_entryJson h.1]

theorem readLines_entryLines {entries : List WorkspaceManifestEntry}
    (h : ∀ e ∈ entries, e.hasSeparator = false) :
    readLines (entryLines host entries) = entries.map fun e => stringify host (entryJson e) := by
  induction entries with
  | nil => rfl
  | cons e entries ih =>
      rw [List.forall_mem_cons] at h
      have hno : (stringify host (entryJson e)).all (fun c => !isLineEnd c) = true :=
        stringify_noEnd (by rw [anyChar_entryJson]; exact h.1)
      rw [entryLines, List.flatMap_cons, List.append_assoc, List.singleton_append,
        readLines_line hno rfl (by decide), List.map_cons]
      exact congrArg _ (ih h.2)

theorem isSeparator_end {c : Char} (h : isSeparator c = true) : isLineEnd c = true ∧ c ≠ '\r' := by
  refine ⟨?_, ?_⟩
  · rw [isLineEnd, Bool.or_assoc, ← isSeparator, h, Bool.or_true]
  · rintro rfl
    revert h
    decide

theorem not_separator {c d : Char} (h : isSeparator c = true) (hd : isSeparator d = false) :
    d ≠ c := by
  rintro rfl
  simp [h] at hd

theorem filled_obj (host : JsonHost F) (ms : Members F) :
    1 ≤ (filled (readLines (stringify host (.obj ms) ++ ['\n']))).length := by
  obtain ⟨inner, htext⟩ := stringify_obj host ms
  have hreturn : '\r' ∉ stringify host (.obj ms) ++ ['\n'] := by
    simp [return_notMem_stringify]
  refine List.length_pos_iff.mpr (filled_ne_nil hreturn (c := '{') ?_ (by decide) (by decide))
  simp [htext]

theorem filled_obj_separator (host : JsonHost F) {ms : Members F}
    (h : (Json.obj ms).anyChar isSeparator = true) :
    2 ≤ (filled (readLines (stringify host (.obj ms) ++ ['\n']))).length := by
  obtain ⟨inner, htext⟩ := stringify_obj host ms
  have hany : (stringify host (.obj ms)).any isSeparator = true :=
    any_dump (fun _ => isSeparator_ascii) .compact host.format 0 _ h
  obtain ⟨c, hc, hsep⟩ := List.any_eq_true.mp hany
  obtain ⟨t, s, hts⟩ := List.append_of_mem hc
  have hreturn : '\r' ∉ t ++ c :: s := hts ▸ return_notMem_stringify _
  have ht : '\r' ∉ t := fun h => hreturn (List.mem_append_left _ h)
  have hs : '\r' ∉ s := fun h => hreturn (List.mem_append_right _ (List.mem_cons_of_mem _ h))
  have hopen : '{' ∈ t := by
    have heq := hts.symm.trans htext
    cases t with
    | nil => exact absurd (List.cons.inj heq).1.symm (not_separator hsep (by decide))
    | cons d t => rw [(List.cons.inj heq).1]; exact List.mem_cons_self
  have hclose : '}' ∈ s := by
    have heq : (t ++ c :: s).getLast? = some '}' := by
      rw [← hts, htext, ← List.cons_append, List.getLast?_concat]
    rcases List.eq_nil_or_concat s with rfl | ⟨s, d, rfl⟩
    · simp only [List.getLast?_concat, Option.some.injEq] at heq
      exact absurd heq.symm (not_separator hsep (by decide))
    · rw [List.concat_eq_append, ← List.cons_append, ← List.append_assoc, List.getLast?_concat,
        Option.some.injEq] at heq
      simp [heq]
  obtain ⟨hend, hr⟩ := isSeparator_end hsep
  have hfirst : filled (readLines (t ++ [c])) ≠ [] :=
    filled_ne_nil (c := '{') (by simp [ht, Ne.symm hr]) (by simp [hopen]) (by decide) (by decide)
  have hrest : filled (readLines (s ++ ['\n'])) ≠ [] :=
    filled_ne_nil (c := '}') (by simp [hs]) (by simp [hclose]) (by decide) (by decide)
  rw [hts, List.append_assoc, List.cons_append, readLines_append ht hend hr, filled,
    List.filter_append, List.length_append]
  have := List.length_pos_iff.mpr hfirst
  have := List.length_pos_iff.mpr hrest
  unfold filled at *
  omega

theorem filled_append (ls ls' : List Text) : filled (ls ++ ls') = filled ls ++ filled ls' :=
  List.filter_append ls ls'

theorem length_filled_entryLines (host : JsonHost F) (entries : List WorkspaceManifestEntry) :
    entries.length ≤ (filled (readLines (entryLines host entries))).length ∧
      (entries.any WorkspaceManifestEntry.hasSeparator = true →
        entries.length < (filled (readLines (entryLines host entries))).length) := by
  induction entries with
  | nil => exact ⟨Nat.zero_le _, by simp⟩
  | cons e entries ih =>
      obtain ⟨ms, hms⟩ := entryJson_eq_obj (F := F) e
      have hlines : readLines (entryLines host (e :: entries)) =
          readLines (stringify host (.obj ms) ++ ['\n']) ++ readLines (entryLines host entries) := by
        rw [entryLines, List.flatMap_cons, List.append_assoc, List.singleton_append, hms,
          readLines_append (return_notMem_stringify _) rfl (by decide)]
        rfl
      have hone := filled_obj host ms
      have htwo (h : e.hasSeparator = true) :=
        filled_obj_separator host (by rw [← hms, anyChar_entryJson, h])
      rw [hlines, filled_append, List.length_append, List.length_cons, List.any_cons,
        Bool.or_eq_true]
      refine ⟨by omega, fun h => ?_⟩
      rcases h with h | h
      · have := htwo h
        omega
      · have := ih.2 h
        omega

theorem length_readEntries {lines : List Text} {entries : List WorkspaceManifestEntry}
    (h : readEntries host lines = some entries) : entries.length = (filled lines).length := by
  induction lines generalizing entries with
  | nil =>
      cases h
      rfl
  | cons line lines ih =>
      rw [readEntries] at h
      split_ifs at h with hblank
      · rw [ih h, filled, filled, List.filter_cons, if_neg (by simp [hblank])]
      · simp only [Option.bind_eq_bind, Option.pure_def, Option.bind_eq_some_iff,
          Option.some.injEq] at h
        obtain ⟨e, -, rest, hrest, rfl⟩ := h
        rw [List.length_cons, ih hrest, filled, filled, List.filter_cons, if_pos (by simp [hblank]),
          List.length_cons]

section

variable {H : Type} {magic : Text} {headerSchema : Json F → Option H} {ms : Members F} {header : H}
  {entries : List WorkspaceManifestEntry}

structure Readable (host : JsonHost F) (magic : Text) (headerSchema : Json F → Option H)
    (ms : Members F) (header : H) (entries : List WorkspaceManifestEntry) : Prop where
  magicLine : magic.all (fun c => !isLineEnd c) = true
  trimMagic : trim magic = magic
  wf : (Json.obj ms).wf = true
  finite : finiteJson host.finite (.obj ms) = true
  schema : headerSchema (.obj ms) = some header
  entries : entries.all WorkspaceManifestEntry.accepted = true

theorem readStream_written (h : Readable host magic headerSchema ms header entries)
    (hheader : (Json.obj ms).anyChar isSeparator = false)
    (hentries : entries.any WorkspaceManifestEntry.hasSeparator = false) :
    readStream host magic headerSchema (writeStream host magic (.obj ms) entries) =
      some (header, entries) := by
  have hnone : ∀ e ∈ entries, e.hasSeparator = false := fun e he => by
    simpa using List.any_eq_false.mp hentries e he
  have hlines : readLines (writeStream host magic (.obj ms) entries) =
      magic :: stringify host (.obj ms) ::
        entries.map fun e => stringify host (entryJson e) := by
    rw [writeStream, readLines_line h.magicLine rfl (by decide),
      readLines_line (stringify_noEnd hheader) rfl (by decide), readLines_entryLines hnone]
  have hmagic : magic.isPrefixOf (writeStream host magic (.obj ms) entries) = true :=
    List.isPrefixOf_iff_prefix.mpr (List.prefix_append _ _)
  rw [readStream, if_pos hmagic, hlines]
  simp [h.trimMagic, jsonParse_stringify h.wf h.finite, h.schema, readEntries_stringify h.entries]

theorem no_separator_of_readStream (h : Readable host magic headerSchema ms header entries)
    (hread : readStream host magic headerSchema (writeStream host magic (.obj ms) entries) =
      some (header, entries)) :
    (Json.obj ms).anyChar isSeparator = false ∧
      entries.any WorkspaceManifestEntry.hasSeparator = false := by
  have hrest : readLines (writeStream host magic (.obj ms) entries) =
      magic :: readLines (stringify host (.obj ms) ++ '\n' :: entryLines host entries) := by
    rw [writeStream, readLines_line h.magicLine rfl (by decide)]
  have hsplit : readLines (stringify host (.obj ms) ++ '\n' :: entryLines host entries) =
      readLines (stringify host (.obj ms) ++ ['\n']) ++ readLines (entryLines host entries) :=
    readLines_append (return_notMem_stringify _) rfl (by decide) _
  rw [readStream, hrest] at hread
  split_ifs at hread with hmagic
  split at hread
  · next first headerLine lines heq =>
      split_ifs at hread with hfirst
      simp only [Option.bind_eq_bind, Option.pure_def, Option.bind_eq_some_iff, Option.some.injEq,
        Prod.mk.injEq] at hread
      obtain ⟨-, -, read, hread, -, rfl⟩ := hread
      have hcount := length_readEntries hread
      have hfilled : (filled (readLines (stringify host (.obj ms) ++ ['\n']))).length +
          (filled (readLines (entryLines host read))).length ≤ 1 + read.length := by
        rw [← List.length_append, ← filled_append, ← hsplit, (List.cons.inj heq).2, hcount, filled,
          List.filter_cons]
        split_ifs
        · rw [List.length_cons, filled]
          omega
        · rw [filled]
          omega
      have hone := filled_obj host ms
      have hmany := length_filled_entryLines host read
      refine ⟨Bool.eq_false_iff.mpr fun hsep => ?_, Bool.eq_false_iff.mpr fun hsep => ?_⟩
      · have := filled_obj_separator host hsep
        omega
      · have := hmany.2 hsep
        omega
  · cases hread

theorem readStream_iff (h : Readable host magic headerSchema ms header entries) :
    readStream host magic headerSchema (writeStream host magic (.obj ms) entries) =
        some (header, entries) ↔
      (Json.obj ms).anyChar isSeparator = false ∧
        entries.any WorkspaceManifestEntry.hasSeparator = false :=
  ⟨no_separator_of_readStream h, fun hno => readStream_written h hno.1 hno.2⟩

end

theorem not_separator_of_fingerprint {t : Text}
    (h : ReplicationManifestFingerprintSchema t = true) : t.any isSeparator = false := by
  rw [ReplicationManifestFingerprintSchema, Bool.and_eq_true, Bool.and_eq_true] at h
  obtain ⟨⟨hsha, -⟩, hhex⟩ := h
  rw [← List.take_append_drop 7 t, of_decide_eq_true hsha, List.any_append, Bool.or_eq_false_iff]
  refine ⟨by decide, List.any_eq_false.mpr fun c hc => ?_⟩
  have hc := List.all_eq_true.mp hhex c hc
  rintro hsep
  rw [isSeparator, Bool.or_eq_true, beq_iff_eq, beq_iff_eq] at hsep
  rcases hsep with rfl | rfl <;> exact absurd hc (by decide)

theorem readable_manifest (host : JsonHost F) {m : WorkspaceManifest} (h : m.accepted = true) :
    Readable host manifestMagic WorkspaceReplicationManifestHeaderSchema
      (m.fingerprint.toList.map fun t => ("manifestFingerprint", textJson t)) m.fingerprint
      m.entries := by
  rw [WorkspaceManifest.accepted, Bool.and_eq_true] at h
  refine ⟨by decide, by decide, ?_, ?_, ?_, h.1⟩
  · cases m.fingerprint <;> simp [Json.wf, Json.wfMembers, textJson, Members.keys]
  · cases m.fingerprint <;> simp [finiteJson, finiteMembers, textJson]
  · cases hfp : m.fingerprint with
    | none => simp [WorkspaceReplicationManifestHeaderSchema, optionalText, strictKeys, Members.keys]
    | some t =>
        have ht : ReplicationManifestFingerprintSchema t = true := by simpa [hfp] using h.2
        simp [WorkspaceReplicationManifestHeaderSchema, optionalText, strictKeys, Members.keys,
          textJson, ht]

theorem anyChar_manifestHeader {m : WorkspaceManifest} (h : m.accepted = true) :
    (manifestHeader m : Json F).anyChar isSeparator = false := by
  rw [WorkspaceManifest.accepted, Bool.and_eq_true] at h
  cases hfp : m.fingerprint with
  | none => simp [manifestHeader, hfp, Json.anyChar, Json.anyString, Json.anyStringMembers]
  | some t =>
      have ht := not_separator_of_fingerprint (t := t) (by simpa [hfp] using h.2)
      have hkey : "manifestFingerprint".toList.any isSeparator = false := by decide
      simp only [manifestHeader, hfp, Option.toList_some, List.map_cons, List.map_nil, Json.anyChar,
        Json.anyString, Json.anyStringMembers, textJson, String.toList_ofList, hkey, ht,
        Bool.or_false]

def offerMembers (o : WorkspaceReplicationSourceOffer F) : Members F :=
  [("offerId", textJson o.offerId), ("relationshipId", textJson o.relationshipId),
      ("directionId", textJson o.directionId),
      ("sourceFingerprint", textJson o.sourceFingerprint)] ++
    o.manifest.fingerprint.toList.map (fun t => ("manifestFingerprint", textJson t)) ++
    o.sourceControllerMetadata.toList.map fun ms => ("sourceControllerMetadata", .obj ms)

def offerHeaderOf (o : WorkspaceReplicationSourceOffer F) : OfferHeader F :=
  { offerId := o.offerId
    relationshipId := o.relationshipId
    directionId := o.directionId
    sourceFingerprint := o.sourceFingerprint
    manifestFingerprint := o.manifest.fingerprint
    sourceControllerMetadata := o.sourceControllerMetadata }

theorem readable_offer {o : WorkspaceReplicationSourceOffer F} (h : o.Accepted host) :
    Readable host offerMagic WorkspaceReplicationSourceOfferHeaderSchema (offerMembers o)
      (offerHeaderOf o) o.manifest.entries := by
  have hm := h.manifest
  rw [WorkspaceManifest.accepted, Bool.and_eq_true] at hm
  have hfp (t : Text) (ht : o.manifest.fingerprint = some t) :
      ReplicationManifestFingerprintSchema t = true := by simpa [ht] using hm.2
  have hid₁ := h.offerId
  have hid₂ := h.relationshipId
  have hid₃ := h.directionId
  have hsource := h.sourceFingerprint
  have hmeta := h.metadata
  refine ⟨by decide, by decide, ?_, ?_, ?_, hm.1⟩
  · cases hf : o.manifest.fingerprint <;> cases hmd : o.sourceControllerMetadata <;>
      simp_all [offerMembers, Json.wf, Json.wfMembers, textJson, Members.keys]
  · cases hf : o.manifest.fingerprint <;> cases hmd : o.sourceControllerMetadata <;>
      simp_all [offerMembers, finiteJson, finiteMembers, textJson]
  · cases hf : o.manifest.fingerprint <;> cases hmd : o.sourceControllerMetadata <;>
      simp_all [offerMembers, offerHeaderOf, WorkspaceReplicationSourceOfferHeaderSchema,
        optionalText, nonemptyAt?, textAt?, strictKeys, Members.keys, textJson, Json.getStr?,
        List.lookup_cons, Option.filter_some]

def WorkspaceReplicationSourceOffer.headerHasSeparator (o : WorkspaceReplicationSourceOffer F) :
    Bool :=
  o.offerId.any isSeparator || o.relationshipId.any isSeparator ||
    o.directionId.any isSeparator ||
    o.sourceControllerMetadata.any fun ms => (Json.obj ms).anyChar isSeparator

theorem anyChar_offerMembers {o : WorkspaceReplicationSourceOffer F} (h : o.Accepted host) :
    (Json.obj (offerMembers o)).anyChar isSeparator = o.headerHasSeparator := by
  have hm := h.manifest
  rw [WorkspaceManifest.accepted, Bool.and_eq_true] at hm
  have hsource := not_separator_of_fingerprint h.sourceFingerprint
  have h₁ : "offerId".toList.any isSeparator = false := by decide
  have h₂ : "relationshipId".toList.any isSeparator = false := by decide
  have h₃ : "directionId".toList.any isSeparator = false := by decide
  have h₄ : "sourceFingerprint".toList.any isSeparator = false := by decide
  have h₅ : "manifestFingerprint".toList.any isSeparator = false := by decide
  have h₆ : "sourceControllerMetadata".toList.any isSeparator = false := by decide
  have hfp : o.manifest.fingerprint.all (fun t => !t.any isSeparator) = true := by
    cases hf : o.manifest.fingerprint with
    | none => rfl
    | some t => simpa using not_separator_of_fingerprint (t := t) (by simpa [hf] using hm.2)
  cases hf : o.manifest.fingerprint <;> cases hmd : o.sourceControllerMetadata <;>
    simp only [hf, Option.all_some, Bool.not_eq_true'] at hfp <;>
    simp only [offerMembers, hf, hmd, hfp, Option.toList_some, Option.toList_none,
      List.map_cons, List.map_nil, List.cons_append, List.nil_append, Json.anyChar,
      Json.anyString, Json.anyStringMembers, textJson, String.toList_ofList, h₁, h₂, h₃, h₄, h₅,
      h₆, hsource, WorkspaceReplicationSourceOffer.headerHasSeparator, Option.any_some,
      Option.any_none, Bool.or_false, Bool.false_or, Bool.or_assoc]

theorem readManifest_iff {m : WorkspaceManifest} (h : m.accepted = true) {sizeBytes : Option Nat}
    (hsize : sizeBytes.all (· = utf8Length (writeWorkspaceReplicationManifestToFile host m))) :
    readWorkspaceReplicationManifestFromFile host (writeWorkspaceReplicationManifestToFile host m)
        sizeBytes = some m ↔
      m.entries.any WorkspaceManifestEntry.hasSeparator = false := by
  have hlength : (sizeBytes.any
      (· ≠ utf8Length (writeWorkspaceReplicationManifestToFile host m))) = false := by
    cases sizeBytes with
    | none => rfl
    | some n => simpa using hsize
  have hiff := readStream_iff (readable_manifest host h)
  have hheader : (Json.obj (m.fingerprint.toList.map fun t => ("manifestFingerprint", textJson t)) :
      Json F).anyChar isSeparator = false := anyChar_manifestHeader h
  rw [hheader, eq_self, true_and] at hiff
  rw [readWorkspaceReplicationManifestFromFile, if_neg (by simp only [hlength, Bool.false_eq_true,
    not_false_eq_true]), Option.map_eq_some_iff, ← hiff]
  constructor
  · rintro ⟨⟨fingerprint, entries⟩, hread, rfl⟩
    exact hread
  · intro hread
    exact ⟨_, hread, rfl⟩

theorem readOffer_iff {o : WorkspaceReplicationSourceOffer F} (h : o.Accepted host)
    (hindex : o.blobIndex = blobIndexOf o.manifest.entries) :
    readWorkspaceReplicationSourceOfferFromFile host
        (writeWorkspaceReplicationSourceOfferToFile host o) = some o ↔
      o.headerHasSeparator = false ∧
        o.manifest.entries.any WorkspaceManifestEntry.hasSeparator = false := by
  have hiff := readStream_iff (readable_offer h)
  rw [anyChar_offerMembers h] at hiff
  rw [readWorkspaceReplicationSourceOfferFromFile, Option.map_eq_some_iff, ← hiff]
  obtain ⟨offerId, relationshipId, directionId, sourceFingerprint, ⟨entries, fingerprint⟩,
    blobIndex, metadata⟩ := o
  constructor
  · rintro ⟨⟨header, read⟩, hread, heq⟩
    cases header
    rw [WorkspaceReplicationSourceOffer.mk.injEq, WorkspaceManifest.mk.injEq] at heq
    obtain ⟨rfl, rfl, rfl, rfl, ⟨rfl, rfl⟩, -, rfl⟩ := heq
    exact hread
  · intro hread
    obtain rfl : blobIndex = blobIndexOf entries := hindex
    exact ⟨_, hread, rfl⟩

/-- Manifests and offers are read as they were written if and only if none of
their texts holds a line or a paragraph separator. -/
theorem read_written_iff :
    (∀ (m : WorkspaceManifest) (sizeBytes : Option Nat), m.accepted = true →
      sizeBytes.all (· = utf8Length (writeWorkspaceReplicationManifestToFile host m)) = true →
        (readWorkspaceReplicationManifestFromFile host
            (writeWorkspaceReplicationManifestToFile host m) sizeBytes = some m ↔
          m.entries.any WorkspaceManifestEntry.hasSeparator = false)) ∧
      ∀ o : WorkspaceReplicationSourceOffer F, o.Accepted host →
        o.blobIndex = blobIndexOf o.manifest.entries →
          (readWorkspaceReplicationSourceOfferFromFile host
              (writeWorkspaceReplicationSourceOfferToFile host o) = some o ↔
            o.headerHasSeparator = false ∧
              o.manifest.entries.any WorkspaceManifestEntry.hasSeparator = false) :=
  ⟨fun _ _ h hsize => readManifest_iff h hsize, fun _ h hindex => readOffer_iff h hindex⟩

/-- Numbers as their texts, none of which is taken for a natural number. -/
def textHost : JsonHost FloatText where
  format := literalFormat
  finite x := match x with
    | .literal _ => true
    | _ => false
  whole? _ := none

def plainManifest : WorkspaceManifest where
  entries := [.directory "src".toList, .file "src/a.ts".toList "d1".toList 3 false]

def plainOffer : WorkspaceReplicationSourceOffer FloatText where
  offerId := "o1".toList
  relationshipId := "r1".toList
  directionId := "ab".toList
  sourceFingerprint := fingerprintPrefix ++ List.replicate 64 '0'
  manifest := plainManifest
  blobIndex := [⟨"d1".toList, 3⟩]
  sourceControllerMetadata := none

theorem plain_read_written :
    readWorkspaceReplicationManifestFromFile textHost
        (writeWorkspaceReplicationManifestToFile textHost plainManifest) none =
        some plainManifest ∧
      readWorkspaceReplicationSourceOfferFromFile textHost
        (writeWorkspaceReplicationSourceOfferToFile textHost plainOffer) = some plainOffer :=
  ⟨(read_written_iff.1 plainManifest none (by decide) rfl).mpr (by decide),
    (read_written_iff.2 plainOffer
      ⟨by decide, by decide, by decide, by decide, by decide, nofun⟩ (by decide)).mpr
      ⟨by decide, by decide⟩⟩

def separatedManifest : WorkspaceManifest where
  entries := [.directory ['a', '\u2028', 'b']]

theorem separated_not_read : separatedManifest.accepted = true ∧
    readWorkspaceReplicationManifestFromFile textHost
      (writeWorkspaceReplicationManifestToFile textHost separatedManifest) none = none := by
  decide +kernel

end DevPilot.Replication
