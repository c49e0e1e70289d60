import Orgistry.Text.CodeUnits
import Mathlib.Data.List.Basic
import Mathlib.Tactic.Common

/-!
# Security metadata

`security-metadata.ts`.  A string is its UTF-16 code units, which the truncation counts
and may cut between two surrogates; an object is its entries in the order of
`Object.entries`.  What is neither string, array nor object is `primitive`.  Lower case is
given.
-/

namespace Orgistry.Model.SecurityMetadata

open Text (CodeUnits codeUnits)

inductive Value (P : Type)
  | string (text : CodeUnits)
  | array (items : List (Value P))
  | object (entries : List (CodeUnits × Value P))
  | primitive (value : P)

def forbiddenKeySubstrings : List CodeUnits :=
  ["password", "token", "secret", "authorization", "cookie", "hash", "credential", "otp", "apikey",
    "api_key", "ipaddress", "useragent", "sessionid"].map codeUnits

def safeIdentifierKeys : List CodeUnits :=
  ["apikeyid", "targetapikeyid", "actorapikeyid", "targetkeyid", "membershipid",
    "actormembershipid", "targetmembershipid", "userid", "actoruserid", "targetuserid",
    "projectid", "targetprojectid", "invitationid", "targetinvitationid", "organizationid",
    "targetorganizationid"].map codeUnits

def maxDepth : ℕ := 4

def maxStringLength : ℕ := 1024

/-- `'…'` -/
def ellipsis : UInt16 := 0x2026

def truncatedText : CodeUnits := codeUnits "[TRUNCATED]"

/-- `text.includes(needle)` -/
def includes (text needle : CodeUnits) : Bool := text.tails.any fun rest => needle.isPrefixOf rest

section Sanitize

variable {P : Type} (toLowerCase : CodeUnits → CodeUnits)

def isForbiddenKey (key : CodeUnits) : Bool :=
  let lower := toLowerCase key
  if safeIdentifierKeys.contains lower then false
  else forbiddenKeySubstrings.any fun needle => includes lower needle

/-- The branch for strings. -/
def sanitizeString (text : CodeUnits) : CodeUnits :=
  if maxStringLength < text.length then text.take maxStringLength ++ [ellipsis] else text

mutual

def sanitizeValue (depth : ℕ) : Value P → Value P
  | .string text =>
      if maxDepth < depth then .string truncatedText else .string (sanitizeString text)
  | .array items =>
      if maxDepth < depth then .string truncatedText
      else .array (sanitizeItems (depth + 1) items)
  | .object entries =>
      if maxDepth < depth then .string truncatedText
      else .object (sanitizeObject (depth + 1) entries)
  | .primitive value => if maxDepth < depth then .string truncatedText else .primitive value

/-- `value.map((item) => sanitizeValue(item, depth))` -/
def sanitizeItems (depth : ℕ) : List (Value P) → List (Value P)
  | [] => []
  | item :: items => sanitizeValue depth item :: sanitizeItems depth items

/-- The entries of the output.  An assignment to `__proto__` sets the prototype, and the
output has no such entry. -/
def sanitizeObject (depth : ℕ) : List (CodeUnits × Value P) → List (CodeUnits × Value P)
  | [] => []
  | (key, value) :: entries =>
      if isForbiddenKey toLowerCase key then sanitizeObject depth entries
      else if key = codeUnits "__proto__" then sanitizeObject depth entries
      else (key, sanitizeValue depth value) :: sanitizeObject depth entries

end

def sanitizeSecurityMetadata (metadata : List (CodeUnits × Value P)) : List (CodeUnits × Value P) :=
  sanitizeObject toLowerCase 1 metadata

/-- The metadata of `toAuditEvent`: `sanitizeSecurityMetadata(record.metadata ?? {})`. -/
def auditMetadata (stored : Option (List (CodeUnits × Value P))) : List (CodeUnits × Value P) :=
  sanitizeSecurityMetadata toLowerCase (stored.getD [])

end Sanitize

end Orgistry.Model.SecurityMetadata
