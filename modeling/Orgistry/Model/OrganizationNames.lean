import Orgistry.Model.Secrets
import Orgistry.Text.CodeUnits
import Orgistry.Text.Slugs

/-!
# Names and slugs of organizations

The naming part of `organization.provisioning.ts` with the limits of the contracts.  Texts
are their UTF-16 code units, on which the replacements and the limits work.
-/

namespace Orgistry.Model.OrganizationNames

open Text

def maxOrganizationNameLength : ℕ := 100

def maxOrganizationSlugLength : ℕ := 48

/-- The maximum of `displayNameSchema`. -/
def maxDisplayNameLength : ℕ := 100

def hyphen : UInt16 := 45

/-- `[a-z0-9]` -/
def isSlugUnit (unit : UInt16) : Bool :=
  (97 ≤ unit && unit ≤ 122) || (48 ≤ unit && unit ≤ 57)

/-- `ORGANIZATION_SLUG_PATTERN`: `/^[a-z0-9]+(?:-[a-z0-9]+)*$/`. -/
def matchesSlugPattern (slug : CodeUnits) : Bool := isSlug isSlugUnit hyphen slug

def maxSlugBaseLength : ℕ := 40

def maxSlugSuffixAttempts : ℕ := 50

section Generation

variable (unicode : UnicodeStrings)

/-- `slugify` up to the cut: the runs of other characters are single hyphens, and none
stands at an end. -/
def slugText (input : CodeUnits) : CodeUnits :=
  trimEnds hyphen (collapse isSlugUnit hyphen false (unicode.nfkd (unicode.toLowerCase input)))

/-- `slugify` with its default fallback. -/
def slugify (input : CodeUnits) : CodeUnits :=
  let slug := ((slugText unicode input).take maxSlugBaseLength).rdropWhile (· = hyphen)
  if 0 < slug.length then slug else codeUnits "workspace"

/-- The alphabet of `createId`. -/
def idAlphabet : List Char := "0123456789ABCDEFGHJKMNPQRSTVWXYZ".toList

/-- `shortSlugToken`, with the bytes drawn by `createId`. -/
def shortSlugToken (bytes : Fin 26 → Byte) : CodeUnits :=
  let randomTail := (randomAlphabetString idAlphabet (List.ofFn bytes)).map codeUnit
  unicode.toLowerCase (randomTail.take 6)

/-- The candidate with the suffix `-n`. -/
def numbered (base : CodeUnits) (n : ℕ) : CodeUnits := base ++ hyphen :: codeUnits (toString n)

/-- The slug that is resolved, and all candidates made on the way, itself included. -/
structure Resolution where
  slug : CodeUnits
  candidates : List CodeUnits

/-- The loop of `resolveUniqueSlug` from the round of `suffix` on, with as many rounds left
before the random token. -/
def resolveFrom (taken : CodeUnits → Bool) (base token : CodeUnits) :
    ℕ → ℕ → CodeUnits → Resolution
  | left, suffix, candidate =>
      if taken candidate then
        match left with
        | 0 => ⟨base ++ hyphen :: token, [candidate, base ++ hyphen :: token]⟩
        | left + 1 =>
            let rest := resolveFrom taken base token left (suffix + 1) (numbered base suffix)
            { rest with candidates := candidate :: rest.candidates }
      else ⟨candidate, [candidate]⟩

/-- `resolveUniqueSlug` -/
def resolveUniqueSlug (taken : CodeUnits → Bool) (base token : CodeUnits) : Resolution :=
  resolveFrom taken base token (maxSlugSuffixAttempts - 1) 2 base

/-- `personalWorkspaceSlugBase` -/
def personalWorkspaceSlugBase (displayName : CodeUnits) (bytes : Fin 26 → Byte) : CodeUnits :=
  slugify unicode displayName ++ hyphen :: shortSlugToken unicode bytes

/-- `personalWorkspaceName` -/
def personalWorkspaceName (displayName : CodeUnits) : CodeUnits :=
  displayName ++ codeUnits "'s Workspace"

/-- The three draws of random bytes. -/
structure Draws where
  base : Fin 26 → Byte
  team : Fin 26 → Byte
  personal : Fin 26 → Byte

/-- The slugs of a team and of a personal workspace, with all candidates. -/
def teamSlug (taken : CodeUnits → Bool) (name : CodeUnits)
    (draws : Draws) : Resolution :=
  resolveUniqueSlug taken (slugify unicode name) (shortSlugToken unicode draws.team)

def personalSlug (taken : CodeUnits → Bool) (displayName : CodeUnits)
    (draws : Draws) : Resolution :=
  resolveUniqueSlug taken (personalWorkspaceSlugBase unicode displayName draws.base)
    (shortSlugToken unicode draws.personal)

end Generation

end Orgistry.Model.OrganizationNames
