import Orgistry.Model.OrganizationNames

/-!
# Public identifiers

`ids.ts`, and the guard of `random-alphabet.ts`.  Random bytes are given.
-/

namespace Orgistry.Model

open Text OrganizationNames

def byteDomainSize : ℕ := 256

def assertUniformAlphabet {α : Type} (alphabet : List α) (label : List Char) :
    Except (List Char) Unit :=
  if alphabet.length = 0 || byteDomainSize % alphabet.length != 0 then
    throw (label ++ ": alphabet length ".toList ++ (toString alphabet.length).toList ++
      " does not divide 256, so modulo reduction would bias the output. ".toList ++
      "Use a length that divides 256 (e.g. 32) or switch to rejection sampling.".toList)
  else return

namespace Ids

/-- `ID_PREFIXES` -/
def idPrefixes : List (List Char) :=
  ["user".toList, "org".toList, "mem".toList, "role".toList, "perm".toList, "inv".toList,
    "prj".toList, "oplan".toList, "key".toList, "sess".toList, "rtok".toList, "evtok".toList,
    "prtok".toList, "preg".toList, "evt".toList, "sevt".toList]

def isValidPrefix (kind : List Char) : Bool := idPrefixes.contains kind

def defaultRandomLength : ℕ := 26

/-- `createId`, with the bytes drawn for its random part. -/
def createId (kind : List Char) (bytes : List Byte) : Except (List Char) (List Char) :=
  if isValidPrefix kind then
    return kind ++ '_' :: randomAlphabetString idAlphabet bytes
  else throw ("Unknown ID prefix: \"".toList ++ kind ++ "\"".toList)

structure ParsedId where
  kind : List Char
  random : List Char
  deriving DecidableEq

/-- The separator at the first place makes no prefix either. -/
def parseId (id : List Char) : Option ParsedId :=
  match cut '_' id with
  | none => none
  | some (kind, random) =>
      if kind.length = 0 then none
      else if !isValidPrefix kind || random.length = 0 then none
      else some ⟨kind, random⟩

def isValidId (id : List Char) (expectedPrefix : Option (List Char)) : Bool :=
  match parseId id with
  | none => false
  | some parsed => expectedPrefix = none || expectedPrefix = some parsed.kind

end Ids

end Orgistry.Model
