import Orgistry.Model.ConfigFile
import Orgistry.Model.ObjectRequests

/-!
# The refresh cookie

`cookies.ts`: the `Set-Cookie` header that sets the cookie, and the reader of the
`Cookie` header.
-/

namespace Orgistry.Model.Cookies

open Text

/-- The cookie is always `HttpOnly` and `SameSite=Lax`. -/
structure RefreshCookieAttributes where
  name : List Char
  path : List Char
  secure : Bool
  maxAgeSeconds : ℕ

/-- The pair of name and value, the first part of the header. -/
def cookiePair (name value : List Char) : List Char :=
  name ++ '=' :: ObjectStore.encodeURIComponent value

def serializeCookie (value : List Char) (attributes : RefreshCookieAttributes)
    (maxAgeSeconds : ℕ) : List Char :=
  let parts :=
    [cookiePair attributes.name value, "Path=".toList ++ attributes.path, "SameSite=Lax".toList,
      "Max-Age=".toList ++ (toString maxAgeSeconds).toList, "HttpOnly".toList] ++
    (if attributes.secure then ["Secure".toList] else []) ++
    (if maxAgeSeconds = 0 then ["Expires=Thu, 01 Jan 1970 00:00:00 GMT".toList] else [])
  ("; ".toList).intercalate parts

/-- The header of `setRefreshCookie`. -/
def setRefreshCookie (rawToken : List Char) (attributes : RefreshCookieAttributes) : List Char :=
  serializeCookie rawToken attributes attributes.maxAgeSeconds

/-- What `decodeURIComponent` throws. -/
inductive URIError
  | malformed
  deriving DecidableEq

def decodeURIComponent (text : List Char) : Except URIError (List Char) :=
  match strictPercentDecode text with
  | none => .error .malformed
  | some decoded => .ok decoded

/-- The loop of `readCookie`. -/
def readPairs (name : List Char) : List (List Char) → Except URIError (Option (List Char))
  | [] => .ok none
  | pair :: pairs =>
      match cut '=' pair with
      | none => readPairs name pairs
      | some (front, back) =>
          if front = [] then readPairs name pairs
          else if BackupConfig.trim front = name then
            (decodeURIComponent (BackupConfig.trim back)).map some
          else readPairs name pairs

/-- `readCookie` -/
def readCookie (header : Option (List Char)) (name : List Char) :
    Except URIError (Option (List Char)) :=
  match header with
  | none | some [] => .ok none
  | some text => readPairs name (splitOn ';' text)

end Orgistry.Model.Cookies
