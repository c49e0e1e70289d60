import Orgistry.Model.BackupCrypto
import Orgistry.Text.JsonRoundTrip

/-!
# Encrypted backups are what was encrypted

An artifact is a magic, a length, a header that the cipher authenticates, the
ciphertext and the tag.  Magic and length are not authenticated and the tag is
found from the size of the file, so the frame has to be shown to leave no room:
a file whose parts pass every check is the concatenation of those parts.
-/

namespace Orgistry.Backups

open Text Model

/-- One use of the cipher. -/
structure Sealing where
  key : EncryptionKey
  iv : List Byte
  aad : List Byte
  content : List Byte

/-- Each of the sealings opens again. -/
structure CorrectCipher (crypto : NodeCrypto) (sealings : Set Sealing) : Prop where
  tag_length : ∀ use ∈ sealings,
    (crypto.cipher use.key use.iv use.aad use.content).2.length = tagBytes
  deciphers : ∀ use ∈ sealings,
    crypto.decipher use.key use.iv (crypto.cipher use.key use.iv use.aad use.content).1 =
      some use.content
  accepts : ∀ use ∈ sealings,
    crypto.authenticates use.key use.iv use.aad
      (crypto.cipher use.key use.iv use.aad use.content).1
      (crypto.cipher use.key use.iv use.aad use.content).2 = true

/-- An authenticated cipher used for nothing but `sealings`: whatever passes the
tag check is one of them. -/
structure IdealCipher (crypto : NodeCrypto) (sealings : Set Sealing) : Prop
    extends CorrectCipher crypto sealings where
  rejects : ∀ key iv aad ciphertext tag,
    crypto.authenticates key iv aad ciphertext tag = true →
      ∃ use ∈ sealings, use.key = key ∧ use.iv = iv ∧ use.aad = aad ∧
        crypto.cipher key iv aad use.content = (ciphertext, tag)

/-- What `encryptFile` does with the cipher. -/
def sealing (crypto : NodeCrypto) (call : EncryptCall) : Sealing :=
  { key := call.key, iv := call.iv.bytes, aad := call.aad crypto, content := call.content }

@[simp]
theorem length_writeUInt32BE (n : ℕ) : (writeUInt32BE n).length = 4 := rfl

theorem readUInt32BE_writeUInt32BE {n : ℕ} (h : n < 2 ^ 32) :
    readUInt32BE (writeUInt32BE n) = n := by
  have h₃ := val_byte (Nat.mod_lt (n / 16777216) (show 0 < 256 by decide))
  have h₂ := val_byte (Nat.mod_lt (n / 65536) (show 0 < 256 by decide))
  have h₁ := val_byte (Nat.mod_lt (n / 256) (show 0 < 256 by decide))
  have h₀ := val_byte (Nat.mod_lt n (show 0 < 256 by decide))
  simp only [readUInt32BE, writeUInt32BE, List.foldl_cons, List.foldl_nil, h₀, h₁, h₂, h₃]
  omega

theorem writeUInt32BE_readUInt32BE {field : List Byte} (h : field.length = 4) :
    writeUInt32BE (readUInt32BE field) = field := by
  match field, h with
  | [a, b, c, d], _ =>
      have ha := a.isLt
      have hb := b.isLt
      have hc := c.isLt
      have hd := d.isLt
      simp only [readUInt32BE, writeUInt32BE, List.foldl_cons, List.foldl_nil]
      rw [byte_eq (b := a) (by omega), byte_eq (b := b) (by omega),
        byte_eq (b := c) (by omega), byte_eq (b := d) (by omega)]

@[simp]
theorem length_magic : magic.length = 6 := by decide

/-- The frame around a header: magic, length and header. -/
def frame (json : List Byte) : List Byte := magic ++ writeUInt32BE json.length ++ json

theorem length_frame (json : List Byte) : (frame json).length = headerOffset + json.length := by
  simp only [frame, headerOffset, List.length_append, length_magic, length_writeUInt32BE]

/-- A file whose header starts after the length field and is as long as it says is
the frame of that header and what follows. -/
theorem frame_append_drop {artifact raw : List Byte} {length : ℕ}
    (hmagic : artifact.take magic.length = magic)
    (hlength : readUInt32BE ((artifact.take headerOffset).drop magic.length) = length)
    (hsize : headerOffset + length ≤ artifact.length)
    (hraw : (artifact.drop headerOffset).take length = raw) :
    raw.length = length ∧ frame raw ++ artifact.drop (headerOffset + length) = artifact := by
  have hrawLength : raw.length = length := by
    rw [← hraw, List.length_take, List.length_drop]
    omega
  have hoffset : headerOffset = magic.length + 4 := by
    rw [length_magic, headerOffset]
  have hfield : writeUInt32BE length = (artifact.drop magic.length).take 4 := by
    have hdrop : (artifact.take headerOffset).drop magic.length =
        (artifact.drop magic.length).take 4 := by
      rw [List.drop_take, hoffset, Nat.add_sub_cancel_left]
    rw [← hlength, hdrop, writeUInt32BE_readUInt32BE]
    rw [List.length_take, List.length_drop]
    omega
  refine ⟨hrawLength, ?_⟩
  calc frame raw ++ artifact.drop (headerOffset + length)
      = artifact.take magic.length ++ ((artifact.drop magic.length).take 4 ++
          ((artifact.drop headerOffset).take length ++
            artifact.drop (headerOffset + length))) := by
        rw [frame, hrawLength, hfield, hmagic, hraw]
        simp only [List.append_assoc]
    _ = artifact.take magic.length ++ ((artifact.drop magic.length).take 4 ++
          artifact.drop headerOffset) := by
        rw [← List.drop_drop, List.take_append_drop]
    _ = artifact := by
        rw [hoffset, ← List.drop_drop, List.take_append_drop, List.take_append_drop]

section Encryption

variable {crypto : NodeCrypto}

theorem encryptFile_eq {call : EncryptCall} (hfits : (call.aad crypto).length ≤ maxHeaderBytes) :
    encryptFile crypto call = some (frame (call.aad crypto) ++
      (crypto.cipher call.key call.iv.bytes (call.aad crypto) call.content).1 ++
      (crypto.cipher call.key call.iv.bytes (call.aad crypto) call.content).2) := by
  rw [encryptFile, encodeHeader, if_neg (by omega)]
  rfl

/-- What `readHeader` accepts is the frame of a header that names the cipher and
whatever follows it, the tag at least. -/
theorem readHeader_ok {artifact : List Byte} {found : ArtifactHeader}
    (h : readHeader artifact = .ok found) :
    found.aad.length ≤ maxHeaderBytes ∧ found.dataStart = headerOffset + found.aad.length ∧
      found.dataStart + tagBytes ≤ artifact.length ∧
      frame found.aad ++ artifact.drop found.dataStart = artifact := by
  unfold readHeader at h
  simp only at h
  split at h
  · cases h
  split at h
  · cases h
  next hmagic =>
  split at h
  · cases h
  next hlength =>
  split at h
  · cases h
  next hsize =>
  split at h
  · cases h
  · cases h
  next =>
  split at h
  next =>
    split at h
    next =>
      cases h
      obtain ⟨hraw, hwhole⟩ := frame_append_drop (not_not.mp hmagic) rfl (by omega) rfl
      simp only
      rw [hraw]
      exact ⟨by omega, rfl, by omega, hwhole⟩
    · cases h
  · cases h

theorem aad_ne_nil (call : EncryptCall) : call.aad crypto ≠ [] := by
  rw [EncryptCall.aad, Json.stringify, encodeUtf8, List.flatMap_cons]
  exact List.append_ne_nil_of_left_ne_nil (by decide) _

/-- The parts of a framed header are found again, whatever follows it. -/
theorem frame_append_parts (json rest : List Byte) :
    (frame json ++ rest).take magic.length = magic ∧
      ((frame json ++ rest).take headerOffset).drop magic.length = writeUInt32BE json.length ∧
      ((frame json ++ rest).drop headerOffset).take json.length = json ∧
      (frame json ++ rest).drop (headerOffset + json.length) = rest := by
  have hoffset : headerOffset = (magic ++ writeUInt32BE json.length).length := by
    rw [List.length_append, length_magic, length_writeUInt32BE, headerOffset]
  have hmagic : frame json ++ rest = magic ++ (writeUInt32BE json.length ++ (json ++ rest)) := by
    simp only [frame, List.append_assoc]
  have hfield : frame json ++ rest = (magic ++ writeUInt32BE json.length) ++ (json ++ rest) := by
    simp only [frame, List.append_assoc]
  refine ⟨?_, ?_, ?_, ?_⟩
  · rw [hmagic, List.take_left]
  · rw [hfield, hoffset, List.take_left, List.drop_left]
  · rw [hfield, hoffset, List.drop_left, List.take_left]
  · rw [← length_frame, List.drop_left]

theorem member_members (name : String) (printed : List (String × Json.Scalar)) :
    (Json.object (Json.members printed)).member name =
      (printed.reverse.find? fun member => member.1 = name).map fun member => member.2.toJson := by
  simp only [Json.member, Json.members, ← List.map_reverse, List.find?_map, Option.map_map,
    String.toList_inj, Function.comp_def]

/-- The members of a header, as they are read back. -/
theorem header_members (crypto : NodeCrypto) (call : EncryptCall) :
    let header := Json.object (Json.members (call.header crypto))
    header.member "cipher" = some (.string cipherName.toList) ∧
      header.member "keyId" = some (.string (encryptionKeyId crypto call.key)) ∧
      header.member "iv" = some (.string (encodeBase64 call.iv.bytes)) ∧
      header.member "plaintextSha256" = some (.string call.plaintextSha256) := by
  simp only [member_members, EncryptCall.header]
  exact ⟨rfl, rfl, rfl, rfl⟩

/-- `readHeader` finds the header that was framed. -/
theorem readHeader_frame {call : EncryptCall} (hfits : (call.aad crypto).length ≤ maxHeaderBytes)
    {rest : List Byte} (hrest : tagBytes ≤ rest.length) :
    readHeader (frame (call.aad crypto) ++ rest) =
      .ok { header := .object (Json.members (call.header crypto)), aad := call.aad crypto,
            dataStart := headerOffset + (call.aad crypto).length } := by
  obtain ⟨hmagic, hfield, hraw, -⟩ := frame_append_parts (call.aad crypto) rest
  have hmax : maxHeaderBytes < 2 ^ 32 := by decide
  have hlength := readUInt32BE_writeUInt32BE (n := (call.aad crypto).length) (by omega)
  have hpos : (call.aad crypto).length ≠ 0 := fun hzero =>
    aad_ne_nil call (List.length_eq_zero_iff.mp hzero)
  have hsize : (frame (call.aad crypto) ++ rest).length =
      headerOffset + (call.aad crypto).length + rest.length := by
    rw [List.length_append, length_frame]
  have hparse : Json.parse (decodeUtf8 (call.aad crypto)) =
      some (.object (Json.members (call.header crypto))) := by
    rw [EncryptCall.aad, decodeUtf8_encodeUtf8]
    exact Json.parse_stringify (by simp [EncryptCall.header])
  unfold readHeader
  simp only [hfield, hlength, hraw, hparse, hmagic, (header_members crypto call).1, hsize]
  rw [if_neg (by omega), if_neg (by simp), if_neg (by omega), if_neg (by omega), if_pos trivial]

/-! ## Both directions -/

/-- What `decryptFile` accepts passed the tag check, on the parts that lie where
the frame puts them. -/
theorem decryptFile_decrypted {key : EncryptionKey} {artifact : List Byte} {streaming : Streaming}
    {header : Json} {content : List Byte} {digest : List Char}
    (h : decryptFile crypto key artifact streaming = .decrypted header content digest) :
    ∃ iv aad ciphertext tag, aad.length ≤ maxHeaderBytes ∧
      artifact = frame aad ++ ciphertext ++ tag ∧
      crypto.decipher key iv ciphertext = some content ∧
      crypto.authenticates key iv aad ciphertext tag = true := by
  unfold decryptFile at h
  split at h
  · cases h
  next found haad dataStart hfound =>
  obtain ⟨hfits, hstart, hsize, hwhole⟩ := readHeader_ok hfound
  simp only at hfits hstart hsize hwhole h
  split at h
  · cases h
  split at h
  · cases h
  next iv hiv =>
  split at h
  · cases h
  next plain hopens =>
  split at h
  · cases h
  split at h
  · cases h
  next hpasses =>
  split at h
  · cases h
  cases h
  refine ⟨iv, _, _, _, hfits, ?_, hopens, by simpa using hpasses⟩
  have hrest : artifact.drop (artifact.length - tagBytes) =
      (artifact.drop dataStart).drop (artifact.length - tagBytes - dataStart) := by
    rw [List.drop_drop]
    congr 1
    omega
  rw [hrest, List.append_assoc, List.take_append_drop, hwhole]

/-- What was encrypted under a key is read back under it, however the bytes are flushed. -/
theorem decryptFile_encryptFile {sealings : Set Sealing} (hcipher : CorrectCipher crypto sealings)
    {call : EncryptCall} (hcall : sealing crypto call ∈ sealings)
    (hfits : (call.aad crypto).length ≤ maxHeaderBytes)
    (hdigest : call.plaintextSha256 = encodeHex (crypto.sha256 call.content)) :
    ∃ artifact header, encryptFile crypto call = some artifact ∧
      ∀ flushed, decryptFile crypto call.key artifact ⟨none, flushed⟩ =
        .decrypted header call.content call.plaintextSha256 := by
  set made := crypto.cipher call.key call.iv.bytes (call.aad crypto) call.content with hmade
  have htag : made.2.length = tagBytes := hcipher.tag_length _ hcall
  have hopens : crypto.decipher call.key call.iv.bytes made.1 = some call.content :=
    hcipher.deciphers _ hcall
  have haccepts : crypto.authenticates call.key call.iv.bytes (call.aad crypto) made.1 made.2 =
      true := hcipher.accepts _ hcall
  refine ⟨frame (call.aad crypto) ++ made.1 ++ made.2,
    .object (Json.members (call.header crypto)), encryptFile_eq hfits, fun flushed => ?_⟩
  have hrest : tagBytes ≤ (made.1 ++ made.2).length := by
    rw [List.length_append]
    omega
  have hread := readHeader_frame hfits hrest
  rw [← List.append_assoc] at hread
  obtain ⟨-, hkeyId, hiv, hsha⟩ := header_members crypto call
  have hend : (frame (call.aad crypto) ++ made.1 ++ made.2).length - tagBytes =
      (frame (call.aad crypto) ++ made.1).length := by
    rw [List.length_append, htag, Nat.add_sub_cancel]
  have hciphertext : ((frame (call.aad crypto) ++ made.1 ++ made.2).drop
      (headerOffset + (call.aad crypto).length)).take
        ((frame (call.aad crypto) ++ made.1).length - (headerOffset + (call.aad crypto).length)) =
      made.1 := by
    rw [← length_frame, List.append_assoc, List.drop_left, List.length_append,
      Nat.add_sub_cancel_left, List.take_left]
  unfold decryptFile
  rw [hread]
  simp only [namesOtherKey, recordsOtherDigest, hkeyId, headerIv, hiv, decodeBase64_encodeBase64,
    hsha, hend, hciphertext, hopens, List.drop_left, haccepts, hdigest, decodeHex_encodeHex]
  simp

/-- Whatever is accepted was encrypted under this key: the cipher gives nothing else out. -/
theorem encryptFile_of_decryptFile {calls : Set EncryptCall}
    (hcipher : IdealCipher crypto (sealing crypto '' calls)) {key : EncryptionKey}
    {artifact : List Byte} {streaming : Streaming} {header : Json} {content : List Byte}
    {digest : List Char}
    (h : decryptFile crypto key artifact streaming = .decrypted header content digest) :
    ∃ call ∈ calls, call.key = key ∧ encryptFile crypto call = some artifact ∧
      call.content = content := by
  obtain ⟨iv, aad, ciphertext, tag, hfits, rfl, hopens, hpasses⟩ := decryptFile_decrypted h
  obtain ⟨_, ⟨call, hcall, rfl⟩, hkey, hiv, haad, hmade⟩ :=
    hcipher.rejects key iv aad ciphertext tag hpasses
  simp only [sealing] at hkey hiv haad hmade
  subst hkey hiv haad
  have hreads := hcipher.deciphers _ ⟨call, hcall, rfl⟩
  simp only [sealing, hmade, hopens, Option.some.injEq] at hreads
  refine ⟨call, hcall, rfl, ?_, hreads.symm⟩
  rw [encryptFile_eq hfits, hmade]

/-- The cipher being ideal and used by `encryptFile` alone: what was encrypted is
recovered, and nothing else is accepted. -/
theorem decryptFile_exact {calls : Set EncryptCall}
    (hcipher : IdealCipher crypto (sealing crypto '' calls)) :
    (∀ call ∈ calls, (call.aad crypto).length ≤ maxHeaderBytes →
      call.plaintextSha256 = encodeHex (crypto.sha256 call.content) →
        ∃ artifact header, encryptFile crypto call = some artifact ∧
          ∀ flushed, decryptFile crypto call.key artifact ⟨none, flushed⟩ =
            .decrypted header call.content call.plaintextSha256) ∧
      ∀ key artifact streaming header content digest,
        decryptFile crypto key artifact streaming = .decrypted header content digest →
          ∃ call ∈ calls, call.key = key ∧ encryptFile crypto call = some artifact ∧
            call.content = content :=
  ⟨fun _ hcall hfits hdigest =>
      decryptFile_encryptFile hcipher.toCorrectCipher (Set.mem_image_of_mem _ hcall) hfits hdigest,
    fun _ _ _ _ _ _ h => encryptFile_of_decryptFile hcipher h⟩

end Encryption

def zeroKey : EncryptionKey := ⟨List.replicate 32 (byte 0), by decide⟩

def zeroIv : InitializationVector := ⟨List.replicate 12 (byte 0), by decide⟩

/-- The digests of no bytes and of the three bytes `WAL`. -/
def emptyDigest : List Byte :=
  [227, 176, 196, 66, 152, 252, 28, 20, 154, 251, 244, 200, 153, 111, 185, 36,
    39, 174, 65, 228, 100, 155, 147, 76, 164, 149, 153, 27, 120, 82, 184, 85].map byte

def recordedDigest : List Byte :=
  [138, 204, 15, 216, 220, 97, 131, 37, 80, 233, 124, 33, 24, 49, 7, 213,
    126, 98, 229, 181, 66, 33, 146, 202, 111, 104, 146, 48, 47, 4, 190, 216].map byte

def recordedContent : List Byte := [87, 65, 76].map byte

def recordedName : String := "000000010000000000000001"

def callOf (digest content : List Byte) : EncryptCall :=
  { key := zeroKey, iv := zeroIv, plaintextSha256 := encodeHex digest,
    plaintextName := recordedName.toList, size := content.length, content }

/-- A file of three bytes, encrypted with a key and an iv of zeros, and an empty
one. -/
def recordedCall : EncryptCall := callOf recordedDigest recordedContent

def emptyCall : EncryptCall := callOf emptyDigest []

def aadOf (digest : List Byte) (size : ℕ) : List Byte := encodeUtf8 (Json.stringify
  [("version", .natural 1), ("cipher", .text "aes-256-gcm".toList),
    ("keyId", .text "7f70bcd268a88508".toList), ("iv", .text "AAAAAAAAAAAAAAAA".toList),
    ("plaintextSha256", .text (encodeHex digest)), ("plaintextBytes", .natural size),
    ("plaintextName", .text recordedName.toList)])

/-- The keystream of AES-256-CTR for that key and iv, as far as it is needed. -/
def mask : List Byte → List Byte
  | a :: b :: c :: rest =>
      byte (206 ^^^ a.val) :: byte (167 ^^^ b.val) :: byte (64 ^^^ c.val) :: rest
  | short => short

def recordedTag : List Byte :=
  [31, 54, 234, 44, 79, 101, 177, 30, 168, 150, 195, 70, 145, 6, 188, 185].map byte

def emptyTag : List Byte :=
  [27, 212, 81, 93, 69, 143, 187, 69, 81, 153, 2, 139, 183, 197, 157, 232].map byte

def tagOf (key : EncryptionKey) (iv aad content : List Byte) : List Byte :=
  if key = zeroKey ∧ iv = zeroIv.bytes ∧ aad = aadOf recordedDigest 3 ∧
      content = recordedContent then recordedTag
  else if key = zeroKey ∧ iv = zeroIv.bytes ∧ aad = aadOf emptyDigest 0 ∧ content = [] then
    emptyTag
  else List.replicate tagBytes (byte 0)

/-- SHA-256, HMAC-SHA-256 and AES-256-GCM where those files need them. -/
def recordedCrypto : NodeCrypto where
  sha256 content :=
    if content = [] then emptyDigest
    else if content = recordedContent then recordedDigest else content
  hmacSha256 key _ :=
    if key = zeroKey.bytes then
      [127, 112, 188, 210, 104, 168, 133, 8, 234, 33, 96, 102, 51, 159, 134, 223,
        96, 4, 78, 150, 120, 63, 245, 166, 209, 239, 57, 234, 25, 81, 22, 228].map byte
    else key
  cipher key iv aad content := (mask content, tagOf key iv aad content)
  decipher _ _ ciphertext := some (mask ciphertext)
  authenticates key iv aad ciphertext tag := tag = tagOf key iv aad (mask ciphertext)
  bufferFrom _ := none

theorem mask_mask (content : List Byte) : mask (mask content) = content := by
  match content with
  | a :: b :: c :: rest =>
      have hxor : ∀ k ∈ [206, 167, 64], ∀ b : Byte, byte (k ^^^ (byte (k ^^^ b.val)).val) = b := by
        decide +kernel
      simp only [mask, hxor 206 (by simp), hxor 167 (by simp), hxor 64 (by simp)]
  | [] => rfl
  | [_] => rfl
  | [_, _] => rfl

theorem length_tagOf (key : EncryptionKey) (iv aad content : List Byte) :
    (tagOf key iv aad content).length = tagBytes := by
  unfold tagOf
  split
  · rfl
  split
  · rfl
  · exact List.length_replicate

theorem recordedCrypto_correct (sealings : Set Sealing) :
    CorrectCipher recordedCrypto sealings where
  tag_length use _ := length_tagOf _ _ _ _
  deciphers use _ := congrArg some (mask_mask use.content)
  accepts use _ := by
    simp only [recordedCrypto, mask_mask, decide_eq_true_eq]

theorem callOf_aad {digest content : List Byte} :
    (callOf digest content).aad recordedCrypto = aadOf digest content.length := by
  have hkeyId : encryptionKeyId recordedCrypto zeroKey = "7f70bcd268a88508".toList := by
    decide +kernel
  have hiv : encodeBase64 zeroIv.bytes = "AAAAAAAAAAAAAAAA".toList := by
    decide +kernel
  rw [EncryptCall.aad, EncryptCall.header]
  simp only [callOf, hkeyId, hiv]
  rfl

/-- The same for a key that has encrypted nothing else. -/
def usedOnce : NodeCrypto :=
  { recordedCrypto with
    authenticates := fun key iv aad ciphertext tag =>
      key = zeroKey ∧ iv = zeroIv.bytes ∧ aad = aadOf recordedDigest 3 ∧
        ciphertext = mask recordedContent ∧ tag = recordedTag }

theorem usedOnce_aad : recordedCall.aad usedOnce = aadOf recordedDigest 3 := callOf_aad

theorem usedOnce_ideal : IdealCipher usedOnce (sealing usedOnce '' {recordedCall}) := by
  have hmade : usedOnce.cipher zeroKey zeroIv.bytes (aadOf recordedDigest 3) recordedContent =
      (mask recordedContent, recordedTag) := by
    simp only [usedOnce, recordedCrypto, tagOf, true_and, if_true]
  have hcall : ∀ use ∈ sealing usedOnce '' {recordedCall}, use =
      { key := zeroKey, iv := zeroIv.bytes, aad := aadOf recordedDigest 3,
        content := recordedContent } := by
    rintro _ ⟨_, rfl, rfl⟩
    rw [sealing, usedOnce_aad]
    rfl
  refine ⟨⟨?_, ?_, ?_⟩, ?_⟩
  · intro use hsealed
    rw [hcall use hsealed, hmade]
    rfl
  · intro use hsealed
    rw [hcall use hsealed, hmade]
    exact congrArg some (mask_mask recordedContent)
  · intro use hsealed
    rw [hcall use hsealed, hmade]
    simp [usedOnce]
  · intro key iv aad ciphertext tag h
    obtain ⟨hkey, hiv, haad, hciphertext, htag⟩ := of_decide_eq_true h
    refine ⟨_, ⟨recordedCall, rfl, rfl⟩, hkey.symm, hiv.symm, usedOnce_aad.trans haad.symm, ?_⟩
    rw [hkey, hiv, haad, hciphertext, htag]
    exact hmade

theorem aad_recordedCall_fits : (aadOf recordedDigest 3).length ≤ maxHeaderBytes := by
  decide +kernel

theorem decryptFile_exact_recorded :
    (∃ artifact header, encryptFile usedOnce recordedCall = some artifact ∧
      ∀ flushed, decryptFile usedOnce zeroKey artifact ⟨none, flushed⟩ =
        .decrypted header recordedContent recordedCall.plaintextSha256) ∧
      ∀ artifact streaming header content digest,
        decryptFile usedOnce zeroKey artifact streaming = .decrypted header content digest →
          encryptFile usedOnce recordedCall = some artifact := by
  obtain ⟨hround, htamper⟩ := decryptFile_exact usedOnce_ideal
  refine ⟨hround recordedCall rfl ?_ (by decide +kernel), ?_⟩
  · rw [usedOnce_aad]
    exact aad_recordedCall_fits
  · intro artifact streaming header content digest h
    obtain ⟨_, rfl, -, hmade, -⟩ := htamper zeroKey artifact streaming header content digest h
    exact hmade

end Orgistry.Backups
