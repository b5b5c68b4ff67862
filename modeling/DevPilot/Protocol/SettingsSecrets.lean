import DevPilot.Lib.Base64
import DevPilot.Lib.JsonPaths
import DevPilot.Lib.PathText

/-!
`settingsSecretStringsV1`: the secrets of a settings value, encrypted with a
key, and the traversals that seal, unseal and reseal them.
-/

namespace DevPilot.Protocol

open Bytes PathText PyJson

def normalizeBase64ForDecoding (input : Text) : Text :=
  if (Base64.canonicalLength? input).isSome then input
  else
    let normalized := input.filter Base64.inAlphabet
    let normalized := if normalized.length % 4 = 1 then normalized.dropLast else normalized
    normalized ++ List.replicate ((4 - normalized.length % 4) % 4) '='

def decodeBase64 (base64 : Text) : Option ByteString :=
  Base64.decode (normalizeBase64ForDecoding base64)

structure SecretKey where
  bytes : ByteString
  length_eq : bytes.length = 32

structure Nonce where
  bytes : ByteString
  length_eq : bytes.length = 24

/-- `tweetnacl`'s secretbox, and `TextDecoder` where bytes are no UTF-8. -/
structure SecretHost where
  secretbox : ByteString → Nonce → SecretKey → ByteString
  secretboxOpen : ByteString → Nonce → SecretKey → Option ByteString
  decodeMalformed : ByteString → Text
  open_secretbox : ∀ message nonce key,
    secretboxOpen (secretbox message nonce key) nonce key = some message
  length_secretbox : ∀ message nonce key, (secretbox message nonce key).length = message.length + 16

variable (host : SecretHost)

def byteOrderMark : Char := '\uFEFF'

def dropMark : Text → Text
  | [] => []
  | c :: t => if c = byteOrderMark then t else c :: t

def textEncode (t : Text) : ByteString := t.flatMap String.utf8EncodeChar

/-- `new TextDecoder().decode(bytes)`, which drops a byte order mark. -/
def textDecode (bytes : ByteString) : Text :=
  match bytes.toByteArray.utf8Decode? with
  | some t => dropMark t.toList
  | none => host.decodeMalformed bytes

structure EncryptedStringV1 where
  c : Text
deriving DecidableEq, Repr

variable {F R : Type}

def encryptSecretStringV1 (value : Text) (key : SecretKey) (randomBytes : R → Nonce × R) (s : R) :
    EncryptedStringV1 × R :=
  let nonce := (randomBytes s).1
  (⟨Base64.encode (nonce.bytes ++ host.secretbox (textEncode value) nonce key)⟩,
    (randomBytes s).2)

def decryptSecretStringV1 (enc : EncryptedStringV1) (key : SecretKey) : Option Text := do
  let combined ← decodeBase64 enc.c
  if h : combined.length < 24 + 16 then none
  else
    let nonce : Nonce := ⟨combined.take 24, by rw [List.length_take]; omega⟩
    let opened ← host.secretboxOpen (combined.drop 24) nonce key
    some (textDecode host opened)

def decryptSecretStringWithKeysV1 (enc : EncryptedStringV1) (keys : List (Option SecretKey)) :
    Option Text :=
  keys.findSome? fun key => key.bind fun key => decryptSecretStringV1 host enc key

structure SecretStringV1 where
  value : Option Text
  encryptedValue : Option EncryptedStringV1
deriving DecidableEq, Repr

def isBlankText (t : Text) : Bool := (trim t).isEmpty

def decryptSecretValueWithKeysV1 (input : SecretStringV1) (keys : List (Option SecretKey)) :
    Option Text :=
  match input.value.filter fun t => !isBlankText t with
  | some plaintext => some plaintext
  | none => input.encryptedValue.bind fun enc => decryptSecretStringWithKeysV1 host enc keys

def Text.json (t : Text) : Json F := .str (String.ofList t)

def text? (v : Json F) : Option Text := v.str?.map String.toList

def EncryptedStringV1.json (enc : EncryptedStringV1) : Json F :=
  .obj [("t", .str "enc-v1"), ("c", Text.json enc.c)]

def EncryptedStringV1Schema (v : Json F) : Option EncryptedStringV1 :=
  if v.getStr? "t" = some "enc-v1" then
    (((v.get? "c").bind text?).filter fun c => !c.isEmpty).map EncryptedStringV1.mk
  else none

def isSecret (ms : Members F) : Bool :=
  match ms.lookup "_isSecretValue" with
  | some (.bool true) => true
  | _ => false

def secretString (ms : Members F) : SecretStringV1 where
  value := (ms.lookup "value").bind text?
  encryptedValue := (ms.lookup "encryptedValue").bind EncryptedStringV1Schema

def sealSecret (key : SecretKey) (randomBytes : R → Nonce × R) (ms : Members F) (s : R) :
    Members F × R :=
  match (secretString ms).value with
  | some rawValue =>
      if !isBlankText rawValue then
        let r := encryptSecretStringV1 host rawValue key randomBytes s
        (Members.insert "encryptedValue" r.1.json (Members.without "value" ms), r.2)
      else (Members.without "value" ms, s)
  | none => (ms, s)

def sealSecretsDeepV1 (key : Option SecretKey) (randomBytes : R → Nonce × R) (input : Json F)
    (s : R) : Json F × R :=
  match key with
  | none => (input, s)
  | some key => mapMarked isSecret (sealSecret host key randomBytes) input s

def unsealSecret (keys : List (Option SecretKey)) (ms : Members F) : Members F :=
  if (secretString ms).value.any fun t => !isBlankText t then
    if (ms.lookup "encryptedValue").isNone then ms else Members.without "encryptedValue" ms
  else
    match (secretString ms).encryptedValue with
    | none => ms
    | some enc =>
        match decryptSecretStringWithKeysV1 host enc keys with
        | none => ms
        | some opened =>
            if opened.isEmpty then ms
            else Members.insert "value" (Text.json opened) (Members.without "encryptedValue" ms)

def unsealSecretsDeepWithKeysV1 (keys : List (Option SecretKey)) (input : Json F) : Json F :=
  if keys.isEmpty then input
  else (mapMarked isSecret (fun ms (s : Unit) => (unsealSecret host keys ms, s)) input ()).1

def unsealSecretsDeepV1 (key : Option SecretKey) (input : Json F) : Json F :=
  unsealSecretsDeepWithKeysV1 host (if key.isSome then [key] else []) input

/-- The secret, the state of the source of nonces, and whether it changed. -/
def resealSecret (readKeys : List (Option SecretKey)) (writeKey : SecretKey)
    (randomBytes : R → Nonce × R) (ms : Members F) (s : R) : Members F × R × Bool :=
  let plaintext := ((secretString ms).value.map trim).getD []
  if !plaintext.isEmpty then
    let r := encryptSecretStringV1 host plaintext writeKey randomBytes s
    (Members.insert "encryptedValue" r.1.json (Members.without "value" ms), r.2, true)
  else
    match (secretString ms).encryptedValue with
    | none => (ms, s, false)
    | some enc =>
        if (decryptSecretStringV1 host enc writeKey).isSome then (ms, s, false)
        else
          match decryptSecretStringWithKeysV1 host enc readKeys with
          | none => (ms, s, false)
          | some opened =>
              let r := encryptSecretStringV1 host opened writeKey randomBytes s
              (Members.insert "encryptedValue" r.1.json ms, r.2, true)

structure ResealSecretsDeepV1Result (F : Type) where
  value : Json F
  changed : Bool

def resealSecretsDeepV1 (readKeys : List (Option SecretKey)) (writeKey : SecretKey)
    (randomBytes : R → Nonce × R) (input : Json F) (s : R) : ResealSecretsDeepV1Result F × R :=
  let r := mapMarked isSecret (fun ms (s : R × Bool) =>
    let r := resealSecret host readKeys writeKey randomBytes ms s.1
    (r.1, (r.2.1, s.2 || r.2.2))) input (s, false)
  (⟨r.1, r.2.2⟩, r.2.1)

end DevPilot.Protocol
