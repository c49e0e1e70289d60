import Orgistry.Text.Cutting
import Orgistry.Text.Encodings

/-!
# Random strings and API-key secrets

`random-alphabet.ts` and `api-key-secret.ts`.  The bytes of the random generator are
given, and so is SHA-256.
-/

namespace Orgistry.Model

open Text

variable {α : Type}

/-- `randomAlphabetString`, with the bytes drawn.  The letters are UTF-16 units, or the
characters of an alphabet in which each is one unit. -/
def randomAlphabetString (alphabet : List α) (bytes : List Byte) : List α :=
  bytes.filterMap fun b => alphabet[b.val % alphabet.length]?

theorem mem_randomAlphabetString {alphabet : List α} {bytes : List Byte} {c : α}
    (h : c ∈ randomAlphabetString alphabet bytes) : c ∈ alphabet := by
  obtain ⟨b, -, hc⟩ := List.mem_filterMap.mp h
  exact List.mem_of_getElem? hc

theorem length_randomAlphabetString {alphabet : List α} (halphabet : alphabet ≠ [])
    (bytes : List Byte) : (randomAlphabetString alphabet bytes).length = bytes.length := by
  have hpos : 0 < alphabet.length := List.length_pos_iff.mpr halphabet
  induction bytes with
  | nil => rfl
  | cons b bytes ih =>
      have hin : alphabet[b.val % alphabet.length]? = some _ :=
        List.getElem?_eq_getElem (Nat.mod_lt b.val hpos)
      rw [randomAlphabetString] at ih ⊢
      rw [List.filterMap_cons, hin, List.length_cons, List.length_cons, ih]

namespace ApiKeySecret

def scheme : List Char := "orgistry".toList

def separator : Char := '_'

def displayAlphabet : List Char := "0123456789ABCDEFGHJKMNPQRSTVWXYZ".toList

def displayIdLength : ℕ := 8

def secretBytes : ℕ := 32

structure GeneratedApiKey where
  raw : List Char
  displayPrefix : List Char
  secretHash : List Char
  deriving DecidableEq

structure ParsedApiKey where
  displayPrefix : List Char
  secretComponent : List Char
  deriving DecidableEq

/-- The bytes of both draws of a key. -/
structure KeyRandomness where
  displayId : Fin displayIdLength → Byte
  secret : Fin secretBytes → Byte

/-- `hashApiKeySecret` -/
def hashApiKeySecret (sha256 : List Byte → List Byte) (secretComponent : List Char) : List Char :=
  encodeHex (sha256 (encodeUtf8 secretComponent))

/-- `randomBytes(SECRET_BYTES).toString('base64url')` -/
def KeyRandomness.secretText (random : KeyRandomness) : List Char :=
  encodeBase64Url (List.ofFn random.secret)

/-- `generateApiKeySecret` -/
def generateApiKeySecret (sha256 : List Byte → List Byte) (random : KeyRandomness) :
    GeneratedApiKey :=
  let displayId := randomAlphabetString displayAlphabet (List.ofFn random.displayId)
  let secret := random.secretText
  let displayPrefix := scheme ++ separator :: displayId
  { raw := displayPrefix ++ separator :: secret,
    displayPrefix,
    secretHash := hashApiKeySecret sha256 secret }

/-- `parseApiKey`; no credential is `null`. -/
def parseApiKey (raw : Option (List Char)) : Option ParsedApiKey :=
  match raw with
  | none | some [] => none
  | some text =>
      let schemePrefix := scheme ++ [separator]
      if schemePrefix.isPrefixOf text then
        match cut separator (text.drop schemePrefix.length) with
        | none => none
        | some (displayId, secretComponent) =>
            if displayId = [] ∨ secretComponent = [] then none
            else some ⟨scheme ++ separator :: displayId, secretComponent⟩
      else none

end ApiKeySecret

end Orgistry.Model
