import DevPilot.Protocol.SettingsSecrets

/-!
When the secrets of a settings value survive: sealed and unsealed with one key,
and resealed with another, they keep their plaintexts.
-/

namespace DevPilot.Protocol

open Bytes PathText PyJson

variable (host : SecretHost) {F R : Type}

theorem decodeBase64_encode (bytes : ByteString) :
    decodeBase64 (Base64.encode bytes) = some bytes := by
  have hcanonical : (Base64.canonicalLength? (Base64.encode bytes)).isSome = true := by
    rw [Base64.canonicalLength?_encode]
    rfl
  rw [decodeBase64, normalizeBase64ForDecoding, if_pos hcanonical, Base64.decode_encode]

theorem textDecode_textEncode (t : Text) : textDecode host (textEncode t) = dropMark t := by
  have hdecode : (textEncode t).toByteArray.utf8Decode? = some t.toArray :=
    List.utf8Decode?_utf8Encode
  rw [textDecode, hdecode]

theorem decrypt_encrypt (value : Text) (key : SecretKey) (randomBytes : R → Nonce × R) (s : R) :
    decryptSecretStringV1 host (encryptSecretStringV1 host value key randomBytes s).1 key =
      some (dropMark value) := by
  have hlength : ¬((randomBytes s).1.bytes ++
      host.secretbox (textEncode value) (randomBytes s).1 key).length < 24 + 16 := by
    rw [List.length_append, (randomBytes s).1.length_eq, host.length_secretbox]
    omega
  rw [decryptSecretStringV1, encryptSecretStringV1]
  simp only [decodeBase64_encode, Option.bind_eq_bind, Option.bind_some, dif_neg hlength,
    List.take_left' (randomBytes s).1.length_eq, List.drop_left' (randomBytes s).1.length_eq,
    host.open_secretbox, textDecode_textEncode]

theorem encrypted_ne_nil (value : Text) (key : SecretKey) (randomBytes : R → Nonce × R) (s : R) :
    (encryptSecretStringV1 host value key randomBytes s).1.c ≠ [] := by
  intro h
  have hcanonical := Base64.canonicalLength?_encode
    ((randomBytes s).1.bytes ++ host.secretbox (textEncode value) (randomBytes s).1 key)
  change Base64.encode _ = [] at h
  rw [h, List.length_append, (randomBytes s).1.length_eq] at hcanonical
  have := Option.some.inj (show some 0 = _ from hcanonical)
  omega

theorem dropMark_trim (t : Text) : dropMark (trim t) = trim t := by
  rw [trim]
  cases hdrop : t.dropWhile isBlank with
  | nil => rfl
  | cons c rest =>
      have hblank : isBlank c = false := by
        have := List.head?_dropWhile_not isBlank t
        rw [hdrop] at this
        simpa using this
      have hmark : c ≠ byteOrderMark := by
        rintro rfl
        exact absurd hblank (by decide)
      rw [trimEnd_cons hblank, dropMark, if_neg hmark]

theorem text?_json (t : Text) : text? (Text.json t : Json F) = some t := by
  rw [text?, Text.json, Json.str?_str, Option.map_some, String.toList_ofList]

theorem schema_json {enc : EncryptedStringV1} (h : enc.c ≠ []) :
    EncryptedStringV1Schema (enc.json : Json F) = some enc := by
  have hc : (enc.json : Json F).get? "c" = some (Text.json enc.c) := rfl
  have ht : (enc.json : Json F).getStr? "t" = some "enc-v1" := rfl
  have hfilter : (some enc.c).filter (fun c => !c.isEmpty) = some enc.c := by
    rw [Option.filter_some, if_pos (by simpa using h)]
  rw [EncryptedStringV1Schema, if_pos ht, hc, Option.bind_some, text?_json, hfilter]
  rfl

variable {host}

theorem secretString_sealed {enc : EncryptedStringV1} (h : enc.c ≠ []) (ms : Members F) :
    secretString (Members.insert "encryptedValue" enc.json (Members.without "value" ms)) =
      ⟨none, some enc⟩ := by
  have hvalue : (Members.insert "encryptedValue" enc.json (Members.without "value" ms)).lookup
      "value" = none := by
    rw [Members.lookup_insert_ne (by decide), Members.lookup_without, if_pos rfl]
  rw [secretString, hvalue, Members.lookup_insert_self, Option.bind_some, schema_json h]
  rfl

theorem secretString_resealed {enc : EncryptedStringV1} (h : enc.c ≠ []) (ms : Members F) :
    secretString (Members.insert "encryptedValue" enc.json ms) =
      ⟨(secretString ms).value, some enc⟩ := by
  rw [secretString, Members.lookup_insert_self, Members.lookup_insert_ne (by decide),
    Option.bind_some, schema_json h]
  rfl

theorem secretString_without_value (ms : Members F) :
    secretString (Members.without "value" ms) = ⟨none, (secretString ms).encryptedValue⟩ := by
  rw [secretString, Members.lookup_without, Members.lookup_without, if_pos rfl,
    if_neg (by decide)]
  rfl

theorem secretString_unsealed (t : Text) (ms : Members F) :
    secretString (Members.insert "value" (Text.json t) (Members.without "encryptedValue" ms)) =
      ⟨some t, none⟩ := by
  have hencrypted : (Members.insert "value" (Text.json t)
      (Members.without "encryptedValue" ms)).lookup "encryptedValue" = none := by
    rw [Members.lookup_insert_ne (by decide), Members.lookup_without, if_pos rfl]
  rw [secretString, hencrypted, Members.lookup_insert_self, Option.bind_some, text?_json]
  rfl

theorem isSecret_congr {ms ms' : Members F}
    (h : ms'.lookup "_isSecretValue" = ms.lookup "_isSecretValue") :
    isSecret ms' = isSecret ms := by
  rw [isSecret, isSecret, h]

theorem isSecret_insert {k : String} (hk : "_isSecretValue" ≠ k) (v : Json F) (ms : Members F) :
    isSecret (Members.insert k v ms) = isSecret ms :=
  isSecret_congr (Members.lookup_insert_ne hk v ms)

theorem isSecret_without {k : String} (hk : "_isSecretValue" ≠ k) (ms : Members F) :
    isSecret (Members.without k ms) = isSecret ms :=
  isSecret_congr (by rw [Members.lookup_without, if_neg hk])

theorem isSecret_sealSecret (key : SecretKey) (randomBytes : R → Nonce × R) (ms : Members F)
    (s : R) : isSecret (sealSecret host key randomBytes ms s).1 = isSecret ms := by
  rw [sealSecret]
  split
  · split_ifs
    · rw [isSecret_insert (by decide), isSecret_without (by decide)]
    · rw [isSecret_without (by decide)]
  · rfl

theorem isSecret_unsealSecret (keys : List (Option SecretKey)) (ms : Members F) :
    isSecret (unsealSecret host keys ms) = isSecret ms := by
  rw [unsealSecret]
  split_ifs
  · rfl
  · rw [isSecret_without (by decide)]
  · split
    · rfl
    · split
      · rfl
      · split_ifs
        · rfl
        · rw [isSecret_insert (by decide), isSecret_without (by decide)]

theorem isSecret_resealSecret (readKeys : List (Option SecretKey)) (writeKey : SecretKey)
    (randomBytes : R → Nonce × R) (ms : Members F) (s : R) :
    isSecret (resealSecret host readKeys writeKey randomBytes ms s).1 = isSecret ms := by
  rw [resealSecret]
  split_ifs
  · rw [isSecret_insert (by decide), isSecret_without (by decide)]
  · split
    · rfl
    · split_ifs
      · rfl
      · split
        · rfl
        · rw [isSecret_insert (by decide)]

variable (host)

def plaintext (keys : List (Option SecretKey)) (ms : Members F) : Option Text :=
  (decryptSecretValueWithKeysV1 host (secretString ms) keys).filter fun t => !isBlankText t

def plaintextAt (keys : List (Option SecretKey)) (v : Json F) (path : JsonPath) : Option Text :=
  ((v.at? path).bind fun w => w.marked? isSecret).bind fun ms => plaintext host keys ms

def Apart (writeKey : SecretKey) (readKeys : List (Option SecretKey)) (v : Json F) : Prop :=
  ∀ path ms q, v.at? path = some (.obj ms) → isSecret ms = true → q ≠ [] →
    ∀ key, some key ∈ some writeKey :: readKeys → plaintextAt host [some key] v (path ++ q) = none

/-- A value that is to be sealed and resealed: secrets lie apart from each
other, their texts have no outer blanks, and none that has to be encrypted
again begins with a byte order mark. -/
structure Resealable (writeKey : SecretKey) (readKeys : List (Option SecretKey)) (v : Json F) :
    Prop where
  trimmed : ∀ path t, plaintextAt host [] v path = some t → trim t = t
  unmarked : ∀ path t, plaintextAt host [] v path = none →
    plaintextAt host [some writeKey] v path = none →
      plaintextAt host (some writeKey :: readKeys) v path = some t → dropMark t = t
  apart : Apart host writeKey readKeys v

def SealedWith (writeKey : SecretKey) (v : Json F) : Prop :=
  ∀ path ms, v.at? path = some (.obj ms) → isSecret ms = true →
    plaintext host [] ms = none ∧ ∀ enc, (secretString ms).encryptedValue = some enc →
      (decryptSecretStringV1 host enc writeKey).isSome = true

structure SecretsSurvive (writeKey : SecretKey) (readKeys : List (Option SecretKey)) (v : Json F) :
    Prop where
  unsealed : ∀ key, some key ∈ some writeKey :: readKeys →
    ∀ (R : Type) (randomBytes : R → Nonce × R) (s : R) path t,
      plaintextAt host [some key] v path = some t →
        plaintextAt host [] (unsealSecretsDeepV1 host (some key)
          (sealSecretsDeepV1 host (some key) randomBytes v s).1) path = some t
  hidden : ∀ key, some key ∈ some writeKey :: readKeys →
    ∀ (R : Type) (randomBytes : R → Nonce × R) (s : R) path,
      plaintextAt host [] (sealSecretsDeepV1 host (some key) randomBytes v s).1 path = none
  resealed : ∀ (R : Type) (randomBytes : R → Nonce × R) (s : R) path t,
    plaintextAt host (some writeKey :: readKeys) v path = some t →
      plaintextAt host [some writeKey]
        (resealSecretsDeepV1 host readKeys writeKey randomBytes v s).1.value path = some t
  unchanged : SealedWith host writeKey v → ∀ (R : Type) (randomBytes : R → Nonce × R) (s : R),
    resealSecretsDeepV1 host readKeys writeKey randomBytes v s = (⟨v, false⟩, s)

variable {host}

theorem isBlankText_of_plaintext {keys : List (Option SecretKey)} {ms : Members F} {t : Text}
    (h : plaintext host keys ms = some t) : isBlankText t = false := by
  simpa using (Option.filter_eq_some_iff.mp h).2

theorem plaintext_of_value {keys : List (Option SecretKey)} {ms : Members F} {t : Text}
    (h : plaintext host [] ms = some t) : plaintext host keys ms = some t := by
  have hblank := isBlankText_of_plaintext h
  rw [plaintext, decryptSecretValueWithKeysV1] at h ⊢
  cases hvalue : (secretString ms).value.filter fun t => !isBlankText t with
  | some t' =>
      rw [hvalue] at h
      exact h
  | none =>
      rw [hvalue] at h
      cases henc : (secretString ms).encryptedValue <;>
        simp [henc, decryptSecretStringWithKeysV1] at h

theorem plaintext_nil (ms : Members F) :
    plaintext host [] ms = (secretString ms).value.filter fun t => !isBlankText t := by
  rw [plaintext, decryptSecretValueWithKeysV1]
  cases hvalue : (secretString ms).value.filter fun t => !isBlankText t with
  | some t => exact Option.filter_some.trans (if_pos (Option.filter_eq_some_iff.mp hvalue).2)
  | none => cases (secretString ms).encryptedValue <;> rfl

theorem plaintext_of_none {keys : List (Option SecretKey)} {ms : Members F}
    (h : plaintext host [] ms = none) :
    plaintext host keys ms = ((secretString ms).encryptedValue.bind fun enc =>
      decryptSecretStringWithKeysV1 host enc keys).filter fun t => !isBlankText t := by
  rw [plaintext_nil] at h
  rw [plaintext, decryptSecretValueWithKeysV1, h]

theorem value_of_plaintext {ms : Members F} {t : Text} (h : plaintext host [] ms = some t) :
    (secretString ms).value = some t := by
  rw [plaintext_nil, Option.filter_eq_some_iff] at h
  exact h.1

theorem isBlankText_of_value {ms : Members F} {t : Text} (h : plaintext host [] ms = none)
    (hvalue : (secretString ms).value = some t) : isBlankText t = true := by
  rw [plaintext_nil, hvalue, Option.filter_some] at h
  split_ifs at h with hblank
  simpa using hblank

theorem plaintext_sealSecret (key : SecretKey) (randomBytes : R → Nonce × R) (ms : Members F)
    (s : R) : plaintext host [] (sealSecret host key randomBytes ms s).1 = none := by
  rw [plaintext_nil, sealSecret]
  split
  · split_ifs
    · rw [secretString_sealed (encrypted_ne_nil host _ key randomBytes s)]
      rfl
    · rw [secretString_without_value]
      rfl
  · next hvalue => rw [hvalue]; rfl

variable (host) in
theorem secretString_sealSecret (key : SecretKey) (randomBytes : R → Nonce × R) (ms : Members F)
    (s : R) : secretString (sealSecret host key randomBytes ms s).1 =
      match plaintext host [] ms with
      | some t => ⟨none, some (encryptSecretStringV1 host t key randomBytes s).1⟩
      | none => ⟨none, (secretString ms).encryptedValue⟩ := by
  rw [sealSecret]
  cases hplain : plaintext host [] ms with
  | some t =>
      have hblank := isBlankText_of_plaintext hplain
      rw [value_of_plaintext hplain]
      simp only [hblank, Bool.not_false, if_true]
      exact secretString_sealed (encrypted_ne_nil host _ key randomBytes s) ms
  | none =>
      cases hvalue : (secretString ms).value with
      | some t =>
          have hblank := isBlankText_of_value hplain hvalue
          simp only [hblank, Bool.not_true, Bool.false_eq_true, if_false]
          exact secretString_without_value ms
      | none =>
          change (⟨(secretString ms).value, _⟩ : SecretStringV1) = _
          rw [hvalue]
          rfl

theorem keys_singleton (enc : EncryptedStringV1) (key : SecretKey) :
    decryptSecretStringWithKeysV1 host enc [some key] = decryptSecretStringV1 host enc key := by
  rw [decryptSecretStringWithKeysV1, List.findSome?_cons, Option.bind_some]
  cases decryptSecretStringV1 host enc key <;> rfl

theorem keys_cons (enc : EncryptedStringV1) (key : SecretKey) (keys : List (Option SecretKey)) :
    decryptSecretStringWithKeysV1 host enc (some key :: keys) =
      (decryptSecretStringV1 host enc key).or (decryptSecretStringWithKeysV1 host enc keys) := by
  rw [decryptSecretStringWithKeysV1, List.findSome?_cons, Option.bind_some]
  cases decryptSecretStringV1 host enc key <;> rfl

theorem filter_of_plaintext {keys : List (Option SecretKey)} {ms : Members F} {t : Text}
    (h : plaintext host keys ms = some t) :
    (some t).filter (fun t => !isBlankText t) = some t := by
  rw [Option.filter_some, if_pos (by simp [isBlankText_of_plaintext h])]

theorem plaintext_encrypted {ms' : Members F} {value : Text} {key : SecretKey}
    {randomBytes : R → Nonce × R} {s : R} (h : secretString ms' =
      ⟨none, some (encryptSecretStringV1 host value key randomBytes s).1⟩) :
    plaintext host [some key] ms' =
      (some (dropMark value)).filter fun t => !isBlankText t := by
  rw [plaintext, h, decryptSecretValueWithKeysV1]
  change Option.filter _ (Option.bind (some _) _) = _
  rw [Option.bind_some, keys_singleton, decrypt_encrypt]

theorem plaintext_sealed {key : SecretKey} {ms : Members F} {t : Text}
    (h : plaintext host [some key] ms = some t) (hmark : plaintext host [] ms = some t → dropMark t = t)
    (randomBytes : R → Nonce × R) (s : R) :
    plaintext host [some key] (sealSecret host key randomBytes ms s).1 = some t := by
  have hsealed := secretString_sealSecret host key randomBytes ms s
  cases hplain : plaintext host [] ms with
  | some t' =>
      obtain rfl : t' = t := Option.some.inj ((plaintext_of_value hplain).symm.trans h)
      rw [hplain] at hsealed
      rw [plaintext_encrypted hsealed, hmark hplain, filter_of_plaintext h]
  | none =>
      rw [hplain] at hsealed
      rw [plaintext_of_none (plaintext_sealSecret key randomBytes ms s), hsealed]
      rw [plaintext_of_none hplain] at h
      exact h

theorem plaintext_unsealSecret {keys : List (Option SecretKey)} {ms : Members F} {t : Text}
    (hnone : plaintext host [] ms = none) (h : plaintext host keys ms = some t) :
    plaintext host [] (unsealSecret host keys ms) = some t := by
  have hnoValue : ¬((secretString ms).value.any fun t => !isBlankText t) = true := by
    cases hvalue : (secretString ms).value with
    | none => simp
    | some t' => simp [isBlankText_of_value hnone hvalue]
  have hfilter := filter_of_plaintext h
  have hblank := isBlankText_of_plaintext h
  have hne : t.isEmpty = false := by
    cases t with
    | nil => exact absurd hblank (by decide)
    | cons => rfl
  rw [plaintext_of_none hnone, Option.filter_eq_some_iff, Option.bind_eq_some_iff] at h
  obtain ⟨⟨enc, henc, hopened⟩, -⟩ := h
  rw [unsealSecret, if_neg hnoValue, henc]
  simp only [hopened, hne, Bool.false_eq_true, if_false]
  rw [plaintext_nil, secretString_unsealed]
  exact hfilter

theorem plaintext_resealSecret_value {writeKey : SecretKey} {readKeys : List (Option SecretKey)}
    {ms : Members F} {t : Text} (h : plaintext host [] ms = some t)
    (randomBytes : R → Nonce × R) (s : R) :
    plaintext host [some writeKey] (resealSecret host readKeys writeKey randomBytes ms s).1 =
      (some (trim t)).filter fun t => !isBlankText t := by
  have hne : (trim t).isEmpty = false := isBlankText_of_plaintext h
  rw [resealSecret, value_of_plaintext h]
  simp only [Option.map_some, Option.getD_some, hne, Bool.not_false, if_true]
  rw [plaintext_encrypted
    (secretString_sealed (encrypted_ne_nil host _ writeKey randomBytes s) ms), dropMark_trim]

theorem trimmed_value_isEmpty {ms : Members F} (h : plaintext host [] ms = none) :
    (((secretString ms).value.map trim).getD []).isEmpty = true := by
  cases hvalue : (secretString ms).value with
  | none => rfl
  | some t => exact isBlankText_of_value h hvalue

theorem resealSecret_eq_self {writeKey : SecretKey} (readKeys : List (Option SecretKey))
    {ms : Members F} (h : plaintext host [] ms = none)
    (hwrite : ∀ enc, (secretString ms).encryptedValue = some enc →
      (decryptSecretStringV1 host enc writeKey).isSome = true) (randomBytes : R → Nonce × R) (s : R) :
    resealSecret host readKeys writeKey randomBytes ms s = (ms, s, false) := by
  rw [resealSecret]
  simp only [trimmed_value_isEmpty h, Bool.not_true, Bool.false_eq_true, if_false]
  cases henc : (secretString ms).encryptedValue with
  | none => rfl
  | some enc => exact if_pos (hwrite enc henc)

theorem plaintext_resealSecret_read {writeKey : SecretKey} {readKeys : List (Option SecretKey)}
    {ms : Members F} {enc : EncryptedStringV1} {t : Text} (h : plaintext host [] ms = none)
    (henc : (secretString ms).encryptedValue = some enc)
    (hwrite : decryptSecretStringV1 host enc writeKey = none)
    (hread : decryptSecretStringWithKeysV1 host enc readKeys = some t)
    (randomBytes : R → Nonce × R) (s : R) :
    plaintext host [some writeKey] (resealSecret host readKeys writeKey randomBytes ms s).1 =
      (some (dropMark t)).filter fun t => !isBlankText t := by
  rw [resealSecret]
  simp only [trimmed_value_isEmpty h, Bool.not_true, Bool.false_eq_true, if_false, henc, hwrite,
    Option.isSome_none, hread]
  have hstring := secretString_resealed
    (encrypted_ne_nil host t writeKey randomBytes s) ms
  have hnone : plaintext host [] (Members.insert "encryptedValue"
      (encryptSecretStringV1 host t writeKey randomBytes s).1.json ms) = none := by
    rw [plaintext_nil, hstring]
    rw [plaintext_nil] at h
    exact h
  rw [plaintext_of_none hnone, hstring, Option.bind_some, keys_singleton, decrypt_encrypt]

theorem plaintextAt_secret {ms : Members F} (hm : isSecret ms = true)
    (keys : List (Option SecretKey)) :
    plaintextAt host keys (.obj ms) [] = plaintext host keys ms := by
  rw [plaintextAt, Json.at?_nil, Option.bind_some, Json.marked?_eq_some_iff.mpr ⟨rfl, hm⟩,
    Option.bind_some]

theorem plaintextAt_eq_some {keys : List (Option SecretKey)} {v : Json F} {path : JsonPath}
    {t : Text} (h : plaintextAt host keys v path = some t) :
    ∃ ms, v.at? path = some (.obj ms) ∧ isSecret ms = true ∧ plaintext host keys ms = some t := by
  rw [plaintextAt, Option.bind_eq_some_iff] at h
  obtain ⟨ms, hms, h⟩ := h
  obtain ⟨w, hw, hms⟩ := Option.bind_eq_some_iff.mp hms
  obtain ⟨rfl, hm⟩ := Json.marked?_eq_some_iff.mp hms
  exact ⟨ms, hw, hm, h⟩

theorem plaintextAt_of_value {v : Json F} {path : JsonPath} {t : Text}
    (h : plaintextAt host [] v path = some t) (keys : List (Option SecretKey)) :
    plaintextAt host keys v path = some t := by
  obtain ⟨ms, hat, hm, hplain⟩ := plaintextAt_eq_some h
  rw [plaintextAt, hat, Option.bind_some, Json.marked?_eq_some_iff.mpr ⟨rfl, hm⟩, Option.bind_some,
    plaintext_of_value hplain]

theorem plaintextAt_outermost {v : Json F} {path q : JsonPath} {ms : Members F}
    (h : outermost isSecret v path = some (ms, q)) (keys : List (Option SecretKey)) :
    plaintextAt host keys v path = plaintextAt host keys (.obj ms) q := by
  rw [plaintextAt, plaintextAt, at?_of_outermost h]

theorem plaintextAt_none {v : Json F} {path : JsonPath} (h : outermost isSecret v path = none)
    (keys : List (Option SecretKey)) : plaintextAt host keys v path = none := by
  by_contra hne
  obtain ⟨t, ht⟩ := Option.ne_none_iff_exists'.mp hne
  obtain ⟨ms, hat, hm, -⟩ := plaintextAt_eq_some ht
  obtain ⟨ms', q', hout, -⟩ := outermost_of_at? hat hm []
  rw [List.append_nil, h] at hout
  cases hout

theorem plaintextAt_str (keys : List (Option SecretKey)) (k : String) (path : JsonPath) :
    plaintextAt host keys (.str k : Json F) path = none := by
  cases path <;> rfl

theorem plaintextAt_encrypted (keys : List (Option SecretKey)) (enc : EncryptedStringV1)
    (path : JsonPath) : plaintextAt host keys (enc.json : Json F) path = none := by
  by_contra hne
  obtain ⟨t, ht⟩ := Option.ne_none_iff_exists'.mp hne
  obtain ⟨ms, hat, hm, -⟩ := plaintextAt_eq_some ht
  cases path with
  | nil =>
      cases hat
      cases hm
  | cons step path =>
      rw [Json.at?_cons, Option.bind_eq_some_iff] at hat
      obtain ⟨w, hw, hat⟩ := hat
      have hstr : ∃ k, w = .str k := by
        cases step with
        | index i => cases hw
        | key k =>
            have hw : List.lookup k [("t", Json.str "enc-v1"), ("c", Text.json enc.c)] = some w := hw
            rcases List.mem_cons.mp (Members.mem_of_lookup hw) with h | h
            · exact ⟨_, (Prod.mk.inj h).2⟩
            · exact ⟨_, (Prod.mk.inj (List.mem_singleton.mp h)).2⟩
      obtain ⟨k, rfl⟩ := hstr
      cases path <;> cases hat

theorem plaintextAt_below {ms ms' : Members F} {keys : List (Option SecretKey)}
    (h : ∀ k w, ms'.lookup k = some w →
      ms.lookup k = some w ∨ ∀ path, plaintextAt host keys w path = none)
    {q : JsonPath} (hq : q ≠ []) {t : Text} (ht : plaintextAt host keys (.obj ms') q = some t) :
    plaintextAt host keys (.obj ms) q = some t := by
  obtain ⟨step, q, rfl⟩ := List.exists_cons_of_ne_nil hq
  rw [plaintextAt, Json.at?_cons] at ht ⊢
  cases step with
  | index i => cases ht
  | key k =>
      cases hlookup : ms'.lookup k with
      | none =>
          rw [show (Json.obj ms').child? (.key k) = none from hlookup] at ht
          cases ht
      | some w =>
          rw [show (Json.obj ms').child? (.key k) = some w from hlookup] at ht
          rcases h k w hlookup with hms | hnone
          · rw [show (Json.obj ms).child? (.key k) = some w from hms]
            exact ht
          · exact absurd ((hnone q).symm.trans ht) nofun

theorem lookup_sealSecret {key : SecretKey} {randomBytes : R → Nonce × R} {ms : Members F} {s : R}
    {k : String} {w : Json F} (h : (sealSecret host key randomBytes ms s).1.lookup k = some w) :
    ms.lookup k = some w ∨ ∃ enc : EncryptedStringV1, w = enc.json := by
  have hwithout {w : Json F} (h : (Members.without "value" ms).lookup k = some w) :
      ms.lookup k = some w := by
    rw [Members.lookup_without] at h
    split_ifs at h
    exact h
  rw [sealSecret] at h
  split at h
  · split_ifs at h
    · by_cases hk : k = "encryptedValue"
      · rw [hk, Members.lookup_insert_self] at h
        exact .inr ⟨_, (Option.some.inj h).symm⟩
      · rw [Members.lookup_insert_ne hk] at h
        exact .inl (hwithout h)
    · exact .inl (hwithout h)
  · exact .inl h

theorem lookup_unsealSecret {keys : List (Option SecretKey)} {ms : Members F}
    {k : String} {w : Json F} (h : (unsealSecret host keys ms).lookup k = some w) :
    ms.lookup k = some w ∨ ∃ t : String, w = .str t := by
  have hwithout {w : Json F} (h : (Members.without "encryptedValue" ms).lookup k = some w) :
      ms.lookup k = some w := by
    rw [Members.lookup_without] at h
    split_ifs at h
    exact h
  rw [unsealSecret] at h
  split_ifs at h
  · exact .inl h
  · exact .inl (hwithout h)
  · split at h
    · exact .inl h
    · split at h
      · exact .inl h
      · split_ifs at h
        · exact .inl h
        · by_cases hk : k = "value"
          · rw [hk, Members.lookup_insert_self] at h
            exact .inr ⟨_, (Option.some.inj h).symm⟩
          · rw [Members.lookup_insert_ne hk] at h
            exact .inl (hwithout h)

theorem below_seal {key : SecretKey} {randomBytes : R → Nonce × R} {ms : Members F} {s : R}
    {keys : List (Option SecretKey)} {q : JsonPath} (hq : q ≠ []) {t : Text}
    (h : plaintextAt host keys (.obj (sealSecret host key randomBytes ms s).1) q = some t) :
    plaintextAt host keys (.obj ms) q = some t := by
  refine plaintextAt_below (fun k w hw => ?_) hq h
  rcases lookup_sealSecret hw with hms | ⟨enc, rfl⟩
  · exact .inl hms
  · exact .inr fun path => plaintextAt_encrypted keys enc path

theorem below_unseal {keys keys' : List (Option SecretKey)} {ms : Members F} {q : JsonPath}
    (hq : q ≠ []) {t : Text}
    (h : plaintextAt host keys (.obj (unsealSecret host keys' ms)) q = some t) :
    plaintextAt host keys (.obj ms) q = some t := by
  refine plaintextAt_below (fun k w hw => ?_) hq h
  rcases lookup_unsealSecret hw with hms | ⟨t, rfl⟩
  · exact .inl hms
  · exact .inr fun path => plaintextAt_str keys t path

theorem isSecret_mapMembers {S : Type} {f : Members F → S → Members F × S} (ms : Members F) (s : S)
    (h : isSecret ms = false) : isSecret (mapMarkedMembers isSecret f ms s).1 = false := by
  rcases lookup_mapMarkedMembers isSecret f ms s "_isSecretValue" with
    ⟨hnone, hnone'⟩ | ⟨v, s', hv, hv'⟩
  · rw [isSecret, hnone']
  · rw [isSecret, hv] at h
    rw [isSecret, hv']
    cases v with
    | bool b => exact h
    | null | int | float | str | arr => rfl
    | obj ms => rw [mapMarked]; split_ifs <;> rfl

variable (host) in
theorem outermost_seal (key : SecretKey) (randomBytes : R → Nonce × R) (v : Json F) (s : R)
    (path : JsonPath) :
    (outermost isSecret v path = none ∧
        outermost isSecret (sealSecretsDeepV1 host (some key) randomBytes v s).1 path = none) ∨
      ∃ ms q s', outermost isSecret v path = some (ms, q) ∧
        outermost isSecret (sealSecretsDeepV1 host (some key) randomBytes v s).1 path =
          some ((sealSecret host key randomBytes ms s').1, q) :=
  outermost_mapMarked (fun ms s h => by rw [isSecret_sealSecret, h]) isSecret_mapMembers v s path

variable (host) in
theorem outermost_unseal (key : SecretKey) (v : Json F) (path : JsonPath) :
    (outermost isSecret v path = none ∧
        outermost isSecret (unsealSecretsDeepV1 host (some key) v) path = none) ∨
      ∃ ms q, outermost isSecret v path = some (ms, q) ∧
        outermost isSecret (unsealSecretsDeepV1 host (some key) v) path =
          some (unsealSecret host [some key] ms, q) := by
  rcases outermost_mapMarked (f := fun ms (s : Unit) => (unsealSecret host [some key] ms, s))
    (fun ms s h => by rw [isSecret_unsealSecret, h]) isSecret_mapMembers v () path with
    h | ⟨ms, q, s', h⟩
  · exact .inl h
  · exact .inr ⟨ms, q, h⟩

variable (host) in
theorem outermost_reseal (readKeys : List (Option SecretKey)) (writeKey : SecretKey)
    (randomBytes : R → Nonce × R) (v : Json F) (s : R) (path : JsonPath) :
    (outermost isSecret v path = none ∧ outermost isSecret
        (resealSecretsDeepV1 host readKeys writeKey randomBytes v s).1.value path = none) ∨
      ∃ ms q s', outermost isSecret v path = some (ms, q) ∧ outermost isSecret
        (resealSecretsDeepV1 host readKeys writeKey randomBytes v s).1.value path =
          some ((resealSecret host readKeys writeKey randomBytes ms s').1, q) := by
  rcases outermost_mapMarked (f := fun ms (s : R × Bool) =>
      let r := resealSecret host readKeys writeKey randomBytes ms s.1
      (r.1, (r.2.1, s.2 || r.2.2)))
    (fun ms s h => by rw [isSecret_resealSecret, h]) isSecret_mapMembers v (s, false) path with
    h | ⟨ms, q, s', h⟩
  · exact .inl h
  · exact .inr ⟨ms, q, s'.1, h⟩

variable (host) in
theorem outermost_sealed_unsealed {v : Json F} {path q : JsonPath} {ms : Members F}
    (h : outermost isSecret v path = some (ms, q)) (key : SecretKey)
    (randomBytes : R → Nonce × R) (s : R) :
    ∃ s', outermost isSecret (sealSecretsDeepV1 host (some key) randomBytes v s).1 path =
        some ((sealSecret host key randomBytes ms s').1, q) ∧
      outermost isSecret (unsealSecretsDeepV1 host (some key)
        (sealSecretsDeepV1 host (some key) randomBytes v s).1) path =
        some (unsealSecret host [some key] (sealSecret host key randomBytes ms s').1, q) := by
  rcases outermost_seal host key randomBytes v s path with ⟨hnone, -⟩ | ⟨ms', q', s', hv, hs⟩
  · rw [h] at hnone
    cases hnone
  · obtain ⟨rfl, rfl⟩ := Prod.mk.inj (Option.some.inj (h.symm.trans hv))
    rcases outermost_unseal host key (sealSecretsDeepV1 host (some key) randomBytes v s).1 path with
      ⟨hnone, -⟩ | ⟨ms', q', hs', hu⟩
    · rw [hs] at hnone
      cases hnone
    · obtain ⟨rfl, rfl⟩ := Prod.mk.inj (Option.some.inj (hs.symm.trans hs'))
      exact ⟨s', hs, hu⟩

section

variable {writeKey : SecretKey} {readKeys : List (Option SecretKey)} {v : Json F}

theorem Apart.outermost (h : Apart host writeKey readKeys v) {key : SecretKey}
    (hkey : some key ∈ some writeKey :: readKeys) {path : JsonPath} {t : Text}
    (ht : plaintextAt host [some key] v path = some t) :
    ∃ ms, outermost isSecret v path = some (ms, []) ∧ isSecret ms = true ∧
      v.at? path = some (.obj ms) := by
  obtain ⟨ms, hat, hm, -⟩ := plaintextAt_eq_some ht
  obtain ⟨ms', q, hout, hbelow⟩ := outermost_of_at? hat hm []
  rw [List.append_nil, List.append_nil] at hout
  by_cases hq : q = []
  · subst hq
    obtain rfl := Json.obj.inj (Option.some.inj hbelow)
    exact ⟨ms', hout, hm, hat⟩
  · obtain ⟨before, rfl, hbefore, hm'⟩ := outermost_split hout
    rw [h before ms' q hbefore hm' hq key hkey] at ht
    cases ht

theorem exists_key {keys : List (Option SecretKey)} {ms : Members F} {t : Text}
    (hplain : plaintext host [] ms = none) (h : plaintext host keys ms = some t) :
    ∃ key, some key ∈ keys ∧ plaintext host [some key] ms = some t := by
  rw [plaintext_of_none hplain, Option.filter_eq_some_iff, Option.bind_eq_some_iff] at h
  obtain ⟨⟨enc, henc, hopened⟩, hblank⟩ := h
  obtain ⟨key?, hkey, hfound⟩ := List.exists_of_findSome?_eq_some hopened
  obtain ⟨key, rfl, hopens⟩ := Option.bind_eq_some_iff.mp hfound
  refine ⟨key, hkey, ?_⟩
  rw [plaintext_of_none hplain, henc, Option.bind_some, keys_singleton, hopens, Option.filter_some,
    if_pos hblank]

theorem Apart.outermost_keys (h : Apart host writeKey readKeys v) {path : JsonPath}
    {t : Text} (ht : plaintextAt host (some writeKey :: readKeys) v path = some t) :
    ∃ ms, PyJson.outermost isSecret v path = some (ms, []) ∧ isSecret ms = true ∧
      v.at? path = some (.obj ms) := by
  obtain ⟨ms, hat, hm, hms⟩ := plaintextAt_eq_some ht
  have hat' (keys : List (Option SecretKey)) :
      plaintextAt host keys v path = plaintext host keys ms := by
    rw [plaintextAt, hat, Option.bind_some, Json.marked?_eq_some_iff.mpr ⟨rfl, hm⟩,
      Option.bind_some]
  cases hplain : plaintext host [] ms with
  | some t' =>
      exact h.outermost List.mem_cons_self
        ((hat' [some writeKey]).trans (plaintext_of_value hplain))
  | none =>
      obtain ⟨key, hkey, hopened⟩ := exists_key hplain hms
      exact h.outermost hkey ((hat' _).trans hopened)

theorem Resealable.unsealed (h : Resealable host writeKey readKeys v) {key : SecretKey}
    (hkey : some key ∈ some writeKey :: readKeys) (randomBytes : R → Nonce × R) (s : R)
    {path : JsonPath} {t : Text} (ht : plaintextAt host [some key] v path = some t) :
    plaintextAt host [] (unsealSecretsDeepV1 host (some key)
      (sealSecretsDeepV1 host (some key) randomBytes v s).1) path = some t := by
  obtain ⟨ms, hout, hm, hat⟩ := h.apart.outermost hkey ht
  obtain ⟨s', -, hu⟩ := outermost_sealed_unsealed host hout key randomBytes s
  rw [plaintextAt_outermost hout, plaintextAt_secret hm] at ht
  rw [plaintextAt_outermost hu, plaintextAt_secret (by
    rw [isSecret_unsealSecret, isSecret_sealSecret, hm])]
  refine plaintext_unsealSecret (plaintext_sealSecret key randomBytes ms s')
    (plaintext_sealed ht (fun hplain => ?_) randomBytes s')
  have htrim := h.trimmed path t (by rw [plaintextAt_outermost hout, plaintextAt_secret hm, hplain])
  rw [← htrim, dropMark_trim]

theorem Resealable.hidden (h : Resealable host writeKey readKeys v) {key : SecretKey}
    (randomBytes : R → Nonce × R) (s : R) (path : JsonPath) :
    plaintextAt host [] (sealSecretsDeepV1 host (some key) randomBytes v s).1 path = none := by
  by_contra hne
  obtain ⟨t, ht⟩ := Option.ne_none_iff_exists'.mp hne
  rcases outermost_seal host key randomBytes v s path with ⟨-, hnone⟩ | ⟨ms, q, s', hout, hs⟩
  · rw [plaintextAt_none hnone] at ht
    cases ht
  · obtain ⟨before, rfl, hbefore, hm⟩ := outermost_split hout
    rw [plaintextAt_outermost hs] at ht
    by_cases hq : q = []
    · subst hq
      rw [plaintextAt_secret (by rw [isSecret_sealSecret, hm]), plaintext_sealSecret] at ht
      cases ht
    · have hbelow := plaintextAt_of_value (below_seal hq ht) [some writeKey]
      rw [← plaintextAt_outermost hout,
        h.apart before ms q hbefore hm hq writeKey List.mem_cons_self] at hbelow
      cases hbelow

theorem Resealable.resealed (h : Resealable host writeKey readKeys v)
    (randomBytes : R → Nonce × R) (s : R) {path : JsonPath} {t : Text}
    (ht : plaintextAt host (some writeKey :: readKeys) v path = some t) :
    plaintextAt host [some writeKey]
      (resealSecretsDeepV1 host readKeys writeKey randomBytes v s).1.value path = some t := by
  obtain ⟨ms, hout, hm, hat⟩ := h.apart.outermost_keys ht
  have hat' (keys : List (Option SecretKey)) :
      plaintextAt host keys v path = plaintext host keys ms := by
    rw [plaintextAt_outermost hout, plaintextAt_secret hm]
  rcases outermost_reseal host readKeys writeKey randomBytes v s path with
    ⟨hnone, -⟩ | ⟨ms', q, s', hout', hr⟩
  · rw [hout] at hnone
    cases hnone
  · obtain ⟨rfl, rfl⟩ := Prod.mk.inj (Option.some.inj (hout.symm.trans hout'))
    rw [plaintextAt_outermost hr, plaintextAt_secret (by rw [isSecret_resealSecret, hm])]
    have hms := (hat' _).symm.trans ht
    cases hplain : plaintext host [] ms with
    | some t' =>
        obtain rfl : t' = t := Option.some.inj ((plaintext_of_value hplain).symm.trans hms)
        rw [plaintext_resealSecret_value hplain, h.trimmed path t' ((hat' _).trans hplain),
          filter_of_plaintext hplain]
    | none =>
        have hopened := hms
        rw [plaintext_of_none hplain, Option.filter_eq_some_iff, Option.bind_eq_some_iff] at hopened
        obtain ⟨⟨enc, henc, hopened⟩, -⟩ := hopened
        rw [keys_cons] at hopened
        cases hwrite : decryptSecretStringV1 host enc writeKey with
        | some t' =>
            rw [hwrite, Option.some_or] at hopened
            have hsome (enc' : EncryptedStringV1) (henc' : (secretString ms).encryptedValue = some enc') :
                (decryptSecretStringV1 host enc' writeKey).isSome = true := by
              obtain rfl := Option.some.inj (henc.symm.trans henc')
              rw [hwrite]
              rfl
            rw [resealSecret_eq_self readKeys hplain hsome, plaintext_of_none hplain, henc,
              Option.bind_some, keys_singleton, hwrite, hopened, filter_of_plaintext hms]
        | none =>
            rw [hwrite, Option.none_or] at hopened
            have hclosed : plaintextAt host [some writeKey] v path = none := by
              rw [hat', plaintext_of_none hplain, henc, Option.bind_some, keys_singleton, hwrite]
              rfl
            rw [plaintext_resealSecret_read hplain henc hwrite hopened,
              h.unmarked path t ((hat' _).trans hplain) hclosed ht, filter_of_plaintext hms]

theorem reseal_unchanged (hwf : v.wf = true) (h : SealedWith host writeKey v)
    (randomBytes : R → Nonce × R) (s : R) :
    resealSecretsDeepV1 host readKeys writeKey randomBytes v s = (⟨v, false⟩, s) := by
  rw [resealSecretsDeepV1, mapMarked_eq_self v hwf fun path ms hat hm => by
    obtain ⟨hplain, hwrite⟩ := h path ms hat hm
    rw [resealSecret_eq_self readKeys hplain hwrite]
    rfl]

theorem SecretsSurvive.apart (h : SecretsSurvive host writeKey readKeys v) :
    Apart host writeKey readKeys v := by
  intro path ms q hat hm hq key hkey
  by_contra hne
  obtain ⟨t, ht⟩ := Option.ne_none_iff_exists'.mp hne
  obtain ⟨ms', q', hout, -⟩ := outermost_of_at? hat hm q
  have hq' : q' ++ q ≠ [] := fun h => hq (List.append_eq_nil_iff.mp h).2
  let randomBytes : Unit → Nonce × Unit := fun _ => (⟨List.replicate 24 0, rfl⟩, ())
  obtain ⟨s', hs, hu⟩ := outermost_sealed_unsealed host hout key randomBytes ()
  have hback := h.unsealed key hkey Unit randomBytes () (path ++ q) t ht
  have hgone := h.hidden key hkey Unit randomBytes () (path ++ q)
  rw [plaintextAt_outermost hu] at hback
  rw [plaintextAt_outermost hs, below_unseal hq' hback] at hgone
  cases hgone

theorem SecretsSurvive.resealed_secret (h : SecretsSurvive host writeKey readKeys v)
    {path : JsonPath} {ms : Members F} (hout : outermost isSecret v path = some (ms, []))
    (hm : isSecret ms = true) {t : Text}
    (ht : plaintextAt host (some writeKey :: readKeys) v path = some t) :
    ∃ s : Unit, plaintext host [some writeKey] (resealSecret host readKeys writeKey
      (fun _ => (⟨List.replicate 24 0, rfl⟩, ())) ms s).1 = some t := by
  have hback := h.resealed Unit (fun _ => (⟨List.replicate 24 0, rfl⟩, ())) () path t ht
  rcases outermost_reseal host readKeys writeKey (fun _ => (⟨List.replicate 24 0, rfl⟩, ())) v ()
    path with ⟨hnone, -⟩ | ⟨ms', q, s', hout', hr⟩
  · rw [hout] at hnone
    cases hnone
  · obtain ⟨rfl, rfl⟩ := Prod.mk.inj (Option.some.inj (hout.symm.trans hout'))
    rw [plaintextAt_outermost hr, plaintextAt_secret (by rw [isSecret_resealSecret, hm])] at hback
    exact ⟨s', hback⟩

theorem SecretsSurvive.trimmed (h : SecretsSurvive host writeKey readKeys v) {path : JsonPath}
    {t : Text} (ht : plaintextAt host [] v path = some t) : trim t = t := by
  have hall := plaintextAt_of_value ht (some writeKey :: readKeys)
  obtain ⟨ms, hout, hm, -⟩ := h.apart.outermost_keys hall
  rw [plaintextAt_outermost hout, plaintextAt_secret hm] at ht
  obtain ⟨s, hback⟩ := h.resealed_secret hout hm hall
  rw [plaintext_resealSecret_value ht, Option.filter_eq_some_iff] at hback
  exact Option.some.inj hback.1

theorem SecretsSurvive.unmarked (h : SecretsSurvive host writeKey readKeys v) {path : JsonPath}
    {t : Text} (hvalue : plaintextAt host [] v path = none)
    (hclosed : plaintextAt host [some writeKey] v path = none)
    (ht : plaintextAt host (some writeKey :: readKeys) v path = some t) : dropMark t = t := by
  obtain ⟨ms, hout, hm, -⟩ := h.apart.outermost_keys ht
  obtain ⟨s, hback⟩ := h.resealed_secret hout hm ht
  rw [plaintextAt_outermost hout, plaintextAt_secret hm] at hvalue hclosed ht
  have hfilter := filter_of_plaintext ht
  rw [plaintext_of_none hvalue, Option.filter_eq_some_iff, Option.bind_eq_some_iff] at ht
  obtain ⟨⟨enc, henc, hopened⟩, -⟩ := ht
  rw [keys_cons] at hopened
  rw [plaintext_of_none hvalue, henc, Option.bind_some, keys_singleton] at hclosed
  cases hwrite : decryptSecretStringV1 host enc writeKey with
  | some t' =>
      rw [hwrite, Option.some_or] at hopened
      rw [hwrite, hopened, hfilter] at hclosed
      cases hclosed
  | none =>
      rw [hwrite, Option.none_or] at hopened
      rw [plaintext_resealSecret_read hvalue henc hwrite hopened, Option.filter_eq_some_iff] at hback
      exact Option.some.inj hback.1

theorem SecretsSurvive.resealable (h : SecretsSurvive host writeKey readKeys v) :
    Resealable host writeKey readKeys v :=
  ⟨fun _ _ ht => h.trimmed ht, fun _ _ hvalue hclosed ht => h.unmarked hvalue hclosed ht,
    h.apart⟩

/-- Secrets survive if and only if they lie apart, have no outer blanks and
begin with no byte order mark that is decoded twice. -/
theorem secretsSurvive_iff (hwf : v.wf = true) :
    SecretsSurvive host writeKey readKeys v ↔ Resealable host writeKey readKeys v :=
  ⟨fun h => h.resealable, fun h => ⟨fun _ hkey _ randomBytes s _ _ ht =>
    h.unsealed hkey randomBytes s ht, fun _ _ _ randomBytes s path => h.hidden randomBytes s path,
    fun _ randomBytes s _ _ ht => h.resealed randomBytes s ht,
    fun hs _ randomBytes s => reseal_unchanged hwf hs randomBytes s⟩⟩

end

/-- A secretbox that marks a message with its key and hides nothing. -/
def markingHost : SecretHost where
  secretbox message _ key := key.bytes.take 16 ++ message
  secretboxOpen box _ key := if box.take 16 = key.bytes.take 16 then some (box.drop 16) else none
  decodeMalformed _ := []
  open_secretbox message _ key := by
    have hlength : (key.bytes.take 16).length = 16 := by
      rw [List.length_take, key.length_eq]
      rfl
    rw [List.take_left' hlength, if_pos rfl, List.drop_left' hlength]
  length_secretbox message _ key := by
    rw [List.length_append, List.length_take, key.length_eq]
    omega

def someKey : SecretKey := ⟨List.replicate 32 1, rfl⟩

def secretValue (t : Text) : Json Empty :=
  .obj [("_isSecretValue", .bool true), ("value", Text.json t)]

theorem plaintextAt_secretValue (keys : List (Option SecretKey)) {t : Text}
    (h : isBlankText t = false) : plaintextAt host keys (secretValue t) [] = some t := by
  have hvalue : secretString [("_isSecretValue", Json.bool true), ("value", (Text.json t : Json Empty))] =
      ⟨some t, none⟩ := by
    rw [secretString]
    simp [List.lookup_cons, text?_json]
  refine plaintextAt_of_value ?_ keys
  rw [secretValue, plaintextAt_secret rfl, plaintext_nil, hvalue, Option.filter_some,
    if_pos (by simp [h])]

theorem plaintextAt_secretValue_cons (keys : List (Option SecretKey)) (t : Text) (step : PathStep)
    (path : JsonPath) : plaintextAt host keys (secretValue t) (step :: path) = none := by
  rw [plaintextAt, Json.at?_cons]
  cases hchild : (secretValue t).child? step with
  | none => rfl
  | some w =>
      have hw : w = .bool true ∨ w = Text.json t := by
        cases step with
        | index i => cases hchild
        | key k =>
            have hlookup : List.lookup k
              [("_isSecretValue", .bool true), ("value", Text.json t)] = some w := hchild
            rcases List.mem_cons.mp (Members.mem_of_lookup hlookup) with h | h
            · exact .inl (Prod.mk.inj h).2
            · exact .inr (Prod.mk.inj (List.mem_singleton.mp h)).2
      rcases hw with rfl | rfl <;> cases path <;> rfl

theorem abc_survives : SecretsSurvive markingHost someKey [] (secretValue "abc".toList) := by
  have hat (keys : List (Option SecretKey)) :
      plaintextAt markingHost keys (secretValue "abc".toList) [] = some "abc".toList :=
    plaintextAt_secretValue keys (by decide)
  refine (secretsSurvive_iff (by decide)).mpr ⟨fun path t ht => ?_, fun path t hvalue _ ht => ?_,
    fun path ms q _ _ hq key _ => ?_⟩
  · cases path with
    | nil =>
        obtain rfl := Option.some.inj ((hat []).symm.trans ht)
        decide
    | cons step path =>
        rw [plaintextAt_secretValue_cons] at ht
        cases ht
  · cases path with
    | nil =>
        rw [hat] at hvalue
        cases hvalue
    | cons step path =>
        rw [plaintextAt_secretValue_cons] at ht
        cases ht
  · obtain ⟨step, rest, hpath⟩ :=
      List.exists_cons_of_ne_nil (fun h => hq (List.append_eq_nil_iff.mp h).2 : path ++ q ≠ [])
    rw [hpath, plaintextAt_secretValue_cons]

theorem outer_blank_dropped :
    ¬SecretsSurvive markingHost someKey [] (secretValue " abc".toList) := by
  intro h
  have htrim := h.trimmed (plaintextAt_secretValue [] (by decide))
  exact absurd htrim (by decide)

end DevPilot.Protocol
