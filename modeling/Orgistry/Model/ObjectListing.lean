import Orgistry.Text.Markup
import Orgistry.Text.Regex

/-!
# Listing a bucket

`parseListObjectsResponse` and the method `list` of `tooling/lib/object-store.mjs`.  What
the server answers is a parameter.
-/

namespace Orgistry.Model

open Text

namespace ObjectStore

/-- An entry; of its size the text that `Number` reads. -/
structure ListedObject where
  key : List Char
  size : List Char
  lastModified : List Char
  etag : List Char

structure ListPage where
  objects : List ListedObject
  continuationToken : List Char

/-- `read(block, tag)`: the empty text when there is no such element. -/
def read (block : List Char) (tag : String) : List Char := (matchElement tag.toList block).getD []

/-- `.replace(/(^"|"$|^&quot;|&quot;$)/g, '')` -/
def stripQuotation (text : List Char) : List Char :=
  let opened :=
    match text with
    | '"' :: rest => rest
    | text => (after "&quot;".toList text).getD text
  if opened.getLast? = some '"' then opened.dropLast
  else if "&quot;".toList.isSuffixOf opened then opened.take (opened.length - 6)
  else opened

def parseListObjectsResponse (xml : List Char) : ListPage :=
  let objects := (matchAllBlocks "Contents".toList xml).map fun block =>
    { key := read block "Key"
      size := if read block "Size" = [] then ['0'] else read block "Size"
      lastModified := read block "LastModified"
      etag := stripQuotation (read block "ETag") : ListedObject }
  let truncated := (breakAt (openTag "IsTruncated".toList ++
    ("true".toList ++ closeTag "IsTruncated".toList)) xml).isSome
  { objects, continuationToken := if truncated then read xml "NextContinuationToken" else [] }

/-- The query of a list request, beside `list-type=2` and `max-keys=1000`. -/
structure ListQuery where
  keyPrefix : List Char
  continuationToken : Option (List Char)

/-- A response that is not `ok`. -/
structure Refusal where
  status : ℕ
  body : List Char

/-- `.replace(/\s+/g, ' ')` -/
def collapseSpace : Bool → List Char → List Char
  | _, [] => []
  | afterSpace, c :: text =>
      if isWhiteSpace c then
        if afterSpace then collapseSpace true text else ' ' :: collapseSpace true text
      else c :: collapseSpace false text

/-- The message of the error that `failure` makes. -/
def failure (operation : String) (key : List Char) (refusal : Refusal) : List Char :=
  operation.toList ++ ' ' :: (if key = [] then "(bucket)".toList else key) ++
    " failed: HTTP ".toList ++ Nat.toDigits 10 refusal.status ++
    ' ' :: (collapseSpace false refusal.body).take 400

section List

variable (answer : ListQuery → Except Refusal (List Char)) (fullPrefix : List Char)

/-- The loop, with the token to continue from and what was found so far, for a number
of requests at most. -/
def listFrom : ℕ → List Char → List ListedObject →
    Option (Except (List Char) (List ListedObject))
  | 0, _, _ => none
  | limit + 1, token, found =>
      match answer ⟨fullPrefix, if token = [] then none else some token⟩ with
      | .error refusal => some (.error (failure "LIST" fullPrefix refusal))
      | .ok xml =>
          let parsed := parseListObjectsResponse xml
          if parsed.continuationToken = [] then some (.ok (found ++ parsed.objects))
          else listFrom limit parsed.continuationToken (found ++ parsed.objects)

end List

/-- The key under the prefix of the client. -/
def resolveKey (normalizedPrefix key : List Char) : List Char :=
  if normalizedPrefix = [] then key else normalizedPrefix ++ '/' :: key

def list (answer : ListQuery → Except Refusal (List Char))
    (normalizedPrefix keyPrefix : List Char) (limit : ℕ) :
    Option (Except (List Char) (List ListedObject)) :=
  listFrom answer (resolveKey normalizedPrefix keyPrefix) limit [] []

end ObjectStore

end Orgistry.Model
