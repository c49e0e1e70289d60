import Orgistry.Text.Json
import Orgistry.Text.Regex

/-!
# The credential guard

`iterateStrings`, `CREDENTIAL_PATTERNS` and `findEmbeddedCredential` of
`tooling/lib/release-manifest.mjs`.  The members of an object stand in the order of
`Object.entries`.
-/

namespace Orgistry.Model

open Text

mutual

/-- Every string with its path. -/
def iterateStrings : Json → List Char → List (List Char × List Char)
  | .string text, path => [(path, text)]
  | .array items, path => iterateItems items path 0
  | .object members, path => iterateMembers members path
  | _, _ => []

def iterateItems : List Json → List Char → ℕ → List (List Char × List Char)
  | [], _, _ => []
  | item :: items, path, index =>
      iterateStrings item (path ++ '[' :: Json.decimal index ++ [']']) ++
        iterateItems items path (index + 1)

def iterateMembers : List (List Char × Json) → List Char → List (List Char × List Char)
  | [], _ => []
  | (key, item) :: members, path =>
      iterateStrings item (path ++ '.' :: key) ++ iterateMembers members path

end

structure CredentialPattern where
  name : String
  pattern : Regex

/-- `[^/\s:@]` -/
def isUserCharacter (c : Char) : Bool := !(c = '/' || isWhiteSpace c || c = ':' || c = '@')

/-- `[^/\s@]` -/
def isPasswordCharacter (c : Char) : Bool := !(c = '/' || isWhiteSpace c || c = '@')

/-- `/:\/\/[^/\s:@]+:[^/\s@]+@/` -/
def urlPattern : Regex :=
  .seq (.literal "://".toList) (.seq (.plus (.char isUserCharacter))
    (.seq (.char (· = ':')) (.seq (.plus (.char isPasswordCharacter)) (.char (· = '@')))))

/-- `password|passwd|secret|api[_-]?key|…` under the flag `i`. -/
def credentialWord : Regex :=
  .oneOf [.caseless "password".toList, .caseless "passwd".toList, .caseless "secret".toList,
    .seq (.caseless "api".toList)
      (.seq (.optional (.char fun c => c = '_' || c = '-')) (.caseless "key".toList)),
    .caseless "JWT_SECRET".toList, .caseless "JWT_PREVIOUS_SECRET".toList,
    .caseless "SMTP_PASSWORD".toList, .caseless "DATABASE_URL".toList,
    .caseless "REDIS_URL".toList]

/-- `/\b(…)\b\s*[=:]\s*\S/i` -/
def assignmentPattern : Regex :=
  .seq .boundary (.seq credentialWord (.seq .boundary (.seq (.star (.char isWhiteSpace))
    (.seq (.char fun c => c = '=' || c = ':') (.seq (.star (.char isWhiteSpace))
      (.char fun c => !isWhiteSpace c))))))

def credentialPatterns : List CredentialPattern :=
  [⟨"a URL with embedded credentials", urlPattern⟩,
    ⟨"an inline credential assignment", assignmentPattern⟩]

structure CredentialFinding where
  path : List Char
  reason : String

/-- The first string that has the shape of a credential. -/
def findEmbeddedCredential (record : Json) : Option CredentialFinding :=
  (iterateStrings record ['$']).findSome? fun (path, value) =>
    credentialPatterns.findSome? fun { name, pattern } =>
      if pattern.test value then some ⟨path, name⟩ else none

end Orgistry.Model
