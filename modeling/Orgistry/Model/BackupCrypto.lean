import Orgistry.Text.Json

/-!
# Backup encryption

`encryptFile` and `decryptFile` of `tooling/lib/backup-crypto.mjs` on the bytes
of the files.  The functions of `node:crypto` are a parameter.
-/

namespace Orgistry.Model

open Text

structure EncryptionKey where
  bytes : List Byte
  length_eq : bytes.length = 32
  deriving DecidableEq

structure InitializationVector where
  bytes : List Byte
  length_eq : bytes.length = 12
  deriving DecidableEq

/-- What the module uses of `node:crypto` and `Buffer`.  AES-256-GCM comes in
three parts, because a decipher gives out what it has deciphered before `final`
checks the tag; `decipher` is `none` where `createDecipheriv` throws.  The last
function is `Buffer.from` of a value that is no string. -/
structure NodeCrypto where
  sha256 : List Byte → List Byte
  hmacSha256 : List Byte → List Byte → List Byte
  cipher : EncryptionKey → List Byte → List Byte → List Byte → List Byte × List Byte
  decipher : EncryptionKey → List Byte → List Byte → Option (List Byte)
  authenticates : EncryptionKey → List Byte → List Byte → List Byte → List Byte → Bool
  bufferFrom : Json → Option (List Byte)

def magic : List Byte := encodeUtf8 "ORGBK1".toList

def cipherName : String := "aes-256-gcm"

def tagBytes : ℕ := 16

/-- Magic and length field. -/
def headerOffset : ℕ := 10

def maxHeaderBytes : ℕ := 8 * 1024

/-- `writeUInt32BE`. -/
def writeUInt32BE (n : ℕ) : List Byte :=
  [byte (n / 16777216 % 256), byte (n / 65536 % 256), byte (n / 256 % 256), byte (n % 256)]

/-- `readUInt32BE`. -/
def readUInt32BE (bytes : List Byte) : ℕ := bytes.foldl (fun value b => value * 256 + b.val) 0

section Files

variable (crypto : NodeCrypto)

/-- The fingerprint of a key. -/
def encryptionKeyId (key : EncryptionKey) : List Char :=
  (encodeHex (crypto.hmacSha256 key.bytes (encodeUtf8 "orgistry-backup-key-id".toList))).take 16

/-- A call of `encryptFile`, with the random bytes that it draws, the size that
`stat` gives and the content that is then read. -/
structure EncryptCall where
  key : EncryptionKey
  iv : InitializationVector
  plaintextSha256 : List Char
  plaintextName : List Char
  size : ℕ
  content : List Byte
  deriving DecidableEq

def EncryptCall.header (call : EncryptCall) : List (String × Json.Scalar) :=
  [("version", .natural 1), ("cipher", .text cipherName.toList),
    ("keyId", .text (encryptionKeyId crypto call.key)),
    ("iv", .text (encodeBase64 call.iv.bytes)),
    ("plaintextSha256", .text call.plaintextSha256),
    ("plaintextBytes", .natural call.size),
    ("plaintextName", .text call.plaintextName)]

/-- `Buffer.from(JSON.stringify(header), 'utf8')`, the additional data. -/
def EncryptCall.aad (call : EncryptCall) : List Byte :=
  encodeUtf8 (Json.stringify (call.header crypto))

/-- `encodeHeader`, or `none` when the header is implausibly large. -/
def encodeHeader (json : List Byte) : Option (List Byte) :=
  if maxHeaderBytes < json.length then none
  else some (magic ++ writeUInt32BE json.length ++ json)

/-- `encryptFile`, as the bytes of the destination. -/
def encryptFile (call : EncryptCall) : Option (List Byte) :=
  (encodeHeader (call.aad crypto)).map fun framed =>
    let (ciphertext, tag) :=
      crypto.cipher call.key call.iv.bytes (call.aad crypto) call.content
    framed ++ ciphertext ++ tag

inductive DecryptError
  | truncated
  | badMagic
  | implausibleHeaderLength
  | headerPastEnd
  | malformedHeader
  | unsupportedCipher
  | otherKey
  | malformedIv
  | stream
  | authentication
  | digest
  deriving DecidableEq

structure ArtifactHeader where
  header : Json
  aad : List Byte
  dataStart : ℕ

def readHeader (artifact : List Byte) : Except DecryptError ArtifactHeader :=
  let fileSize := artifact.length
  if fileSize < headerOffset + tagBytes then .error .truncated
  else if artifact.take magic.length ≠ magic then .error .badMagic
  else
    let headerLength := readUInt32BE ((artifact.take headerOffset).drop magic.length)
    if headerLength = 0 ∨ maxHeaderBytes < headerLength then .error .implausibleHeaderLength
    else
      let dataStart := headerOffset + headerLength
      if fileSize < dataStart + tagBytes then .error .headerPastEnd
      else
        let raw := (artifact.drop headerOffset).take headerLength
        match Json.parse (decodeUtf8 raw) with
        | none | some .null => .error .malformedHeader
        | some header =>
            match header.member "cipher" with
            | some (.string name) =>
                if name = cipherName.toList then .ok { header, aad := raw, dataStart }
                else .error .unsupportedCipher
            | _ => .error .unsupportedCipher

/-- `Buffer.from(header.iv, 'base64')`. -/
def headerIv (header : Json) : Option (List Byte) :=
  match header.member "iv" with
  | none => none
  | some (.string text) => some (decodeBase64 text)
  | some other => crypto.bufferFrom other

/-- The header names another key; one that is no string is not looked at. -/
def namesOtherKey (header : Json) (key : EncryptionKey) : Bool :=
  match header.member "keyId" with
  | some (.string keyId) => keyId ≠ encryptionKeyId crypto key
  | _ => false

/-- The header records another digest. -/
def recordsOtherDigest (header : Json) (digest : List Byte) : Bool :=
  match header.member "plaintextSha256" with
  | some (.string expected) => decodeHex expected ≠ digest
  | _ => false

/-- Refused before the destination is opened, failed after so much has been
written to it, or done. -/
inductive DecryptOutcome
  | refused (error : DecryptError)
  | failed (error : DecryptError) (written : List Byte)
  | decrypted (header : Json) (content : List Byte) (plaintextSha256 : List Char)

/-- How the stream from the artifact to the destination runs: where reading or
writing fails, and how much of the plaintext has been written when the tag is
checked and does not fit. -/
structure Streaming where
  breaksAfter : Option ℕ
  flushed : ℕ

/-- `decryptFile`. -/
def decryptFile (key : EncryptionKey) (artifact : List Byte) (streaming : Streaming) :
    DecryptOutcome :=
  match readHeader artifact with
  | .error error => .refused error
  | .ok { header, aad, dataStart } =>
      let tag := artifact.drop (artifact.length - tagBytes)
      if namesOtherKey crypto header key then .refused .otherKey
      else
        match headerIv crypto header with
        | none => .refused .malformedIv
        | some iv =>
            let ciphertext :=
              (artifact.drop dataStart).take (artifact.length - tagBytes - dataStart)
            match crypto.decipher key iv ciphertext with
            | none => .refused .malformedIv
            | some content =>
                match streaming.breaksAfter with
                | some bytes => .failed .stream (content.take bytes)
                | none =>
                    if !crypto.authenticates key iv aad ciphertext tag then
                      .failed .authentication (content.take streaming.flushed)
                    else
                      let digest := crypto.sha256 content
                      if recordsOtherDigest header digest then .failed .digest content
                      else .decrypted header content (encodeHex digest)

end Files

end Orgistry.Model
