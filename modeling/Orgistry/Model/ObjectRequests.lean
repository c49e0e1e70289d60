import Mathlib.Data.List.Lex
import Orgistry.Model.ObjectListing
import Orgistry.Text.Url

/-!
# Requests to the object store

Signing and sending in `tooling/lib/object-store.mjs`.  The hash functions are
parameters, and so are the clock and what comes of each attempt to send a request.
-/

namespace Orgistry.Model

open Text

namespace ObjectStore

def uriKeep (c : Char) : Bool := c.isAlphanum || c ∈ "-_.!~*'()".toList

def encodeURIComponent (value : List Char) : List Char := percentEncode uriKeep value

def encodeRfc3986 (value : List Char) : List Char :=
  (encodeURIComponent value).flatMap fun c =>
    if c ∈ "!'()*".toList then percentByte (byte c.toNat) else [c]

def encodeObjectKey (key : List Char) : List Char :=
  joinWith '/' ((splitOn '/' key).map encodeRfc3986)

/-- The code units by which strings are compared. -/
def utf16 (text : List Char) : List ℕ :=
  text.flatMap fun c =>
    if c.toNat < 0x10000 then [c.toNat]
    else [0xD800 + (c.toNat - 0x10000) / 0x400, 0xDC00 + (c.toNat - 0x10000) % 0x400]

/-- An object with the value under the name. -/
def assign (name value : List Char) : List (List Char × List Char) → List (List Char × List Char)
  | [] => [(name, value)]
  | pair :: pairs =>
      if pair.1 = name then (name, value) :: pairs.filter (·.1 ≠ name)
      else pair :: assign name value pairs

/-- The properties of an object have different names. -/
structure Query where
  pairs : List (List Char × List Char)
  nodup : (pairs.map Prod.fst).Nodup

namespace Query

/-- `Object.keys(query).sort()` -/
def sortedNames (query : Query) : List (List Char) :=
  (query.pairs.map Prod.fst).mergeSort fun a b => utf16 a ≤ utf16 b

/-- `query[name]` -/
def get (query : Query) (name : List Char) : List Char :=
  ((query.pairs.find? fun pair => pair.1 = name).map Prod.snd).getD "undefined".toList

end Query

structure DateStamps where
  amzDate : List Char
  dateStamp : List Char

/-- `.replace(/\.\d{3}/, '')` -/
def dropMilliseconds : List Char → List Char
  | [] => []
  | c :: rest =>
      if c = '.' ∧ 3 ≤ (rest.takeWhile Char.isDigit).length then rest.drop 3
      else c :: dropMilliseconds rest

/-- From what `toISOString` gives. -/
def amazonDateStamps (isoString : List Char) : DateStamps :=
  let iso := dropMilliseconds (isoString.filter fun c => c ≠ '-' ∧ c ≠ ':')
  { amzDate := iso, dateStamp := iso.take 8 }

/-- `.trim()` -/
def trim (text : List Char) : List Char := (text.dropWhile isWhiteSpace).rdropWhile isWhiteSpace

def buildCanonicalRequest (method path : List Char) (query : Query)
    (headers : List (List Char × List Char)) (payloadSha256 : List Char) :
    List Char × List Char :=
  let canonicalQuery := joinWith '&' (query.sortedNames.map fun name =>
    encodeRfc3986 name ++ '=' :: encodeRfc3986 (query.get name))
  let lowercased := (headers.map fun (name, value) =>
      (name.map Char.toLower, collapseSpace false (trim value))).mergeSort
    fun left right => utf16 left.1 ≤ utf16 right.1
  let canonicalHeaders := lowercased.flatMap fun (name, value) => name ++ ':' :: value ++ ['\n']
  let signedHeaders := joinWith ';' (lowercased.map Prod.fst)
  (joinWith '\n' [method, path, canonicalQuery, canonicalHeaders, signedHeaders, payloadSha256],
    signedHeaders)

/-- SHA-256 and the code that it makes with a key. -/
structure Hashing where
  sha256 : List Byte → List Byte
  hmac : List Byte → List Byte → List Byte

section Signing

variable (hashing : Hashing)

def deriveSigningKey (secretAccessKey dateStamp region : List Char) : List Byte :=
  let date := hashing.hmac (encodeUtf8 ("AWS4".toList ++ secretAccessKey)) (encodeUtf8 dateStamp)
  let regional := hashing.hmac date (encodeUtf8 region)
  let service := hashing.hmac regional (encodeUtf8 "s3".toList)
  hashing.hmac service (encodeUtf8 "aws4_request".toList)

structure Credentials where
  accessKeyId : List Char
  secretAccessKey : List Char
  region : List Char

/-- What `signRequest` returns, and the canonical request it signs. -/
structure Signature where
  amzDate : List Char
  authorization : List Char
  canonicalRequest : List Char

def signRequest (method path : List Char) (query : Query)
    (headers : List (List Char × List Char)) (payloadSha256 : List Char)
    (credentials : Credentials) (isoString : List Char) : Signature :=
  let stamps := amazonDateStamps isoString
  let signedHeaderSet := assign "x-amz-content-sha256".toList payloadSha256
    (assign "x-amz-date".toList stamps.amzDate headers)
  let (canonicalRequest, signedHeaders) :=
    buildCanonicalRequest method path query signedHeaderSet payloadSha256
  let scope := joinWith '/'
    [stamps.dateStamp, credentials.region, "s3".toList, "aws4_request".toList]
  let stringToSign := joinWith '\n'
    ["AWS4-HMAC-SHA256".toList, stamps.amzDate, scope,
      encodeHex (hashing.sha256 (encodeUtf8 canonicalRequest))]
  let signature := encodeHex (hashing.hmac
    (deriveSigningKey hashing credentials.secretAccessKey stamps.dateStamp credentials.region)
    (encodeUtf8 stringToSign))
  { amzDate := stamps.amzDate
    authorization := "AWS4-HMAC-SHA256 Credential=".toList ++ credentials.accessKeyId ++
      '/' :: scope ++ ",SignedHeaders=".toList ++ signedHeaders ++ ",Signature=".toList ++
      signature
    canonicalRequest }

end Signing

/-- A name that the protocol allows for a bucket. -/
structure Bucket where
  name : List Char
  chars : ∀ c ∈ name, (c.isAlphanum ∨ c = '.' ∨ c = '-')
  start : ∃ c rest, name = c :: rest ∧ c.isAlphanum

/-- The options of `createObjectStore`; of the endpoint its protocol and host. -/
structure StoreOptions where
  protocol : List Char
  host : List Char
  bucket : Bucket
  credentials : Credentials
  forcePathStyle : Bool
  retryWindowMs : ℤ
  retryDelayMs : ℤ
  retryMaxAttempts : ℕ

structure RequestTarget where
  host : List Char
  path : List Char
  origin : List Char

def buildRequestTarget (options : StoreOptions) (fullKey : List Char) : RequestTarget :=
  if options.forcePathStyle then
    { host := options.host
      path := '/' :: options.bucket.name ++
        if fullKey = [] then [] else '/' :: encodeObjectKey fullKey
      origin := options.protocol ++ "//".toList ++ options.host }
  else
    let host := options.bucket.name ++ '.' :: options.host
    { host
      path := '/' :: if fullKey = [] then [] else encodeObjectKey fullKey
      origin := options.protocol ++ "//".toList ++ host }

inductive Method
  | put
  | get
  | head
  | delete

def Method.text : Method → List Char
  | put => "PUT".toList
  | get => "GET".toList
  | head => "HEAD".toList
  | delete => "DELETE".toList

/-- What `send` is called with; of the factory for the body the bodies it makes. -/
structure SendOptions where
  method : Method
  fullKey : List Char
  query : Query
  payloadSha256 : List Char
  body : Option (List Byte)
  extraHeaders : List (List Char × List Char)
  contentLength : Option ℕ

/-- An URL as it is used here, with the parameters of its query and their text. -/
structure RequestUrl where
  origin : List Char
  path : List (List Char)
  searchParams : List (List Char × List Char)
  search : List Char

namespace RequestUrl

/-- `new URL(origin + path)`, for a path without a query. -/
def parse (origin path : List Char) : RequestUrl :=
  { origin, path := parsePath path, searchParams := [], search := [] }

/-- `url.searchParams.set(name, value)` -/
def set (url : RequestUrl) (name value : List Char) : RequestUrl :=
  let searchParams := assign name value url.searchParams
  { url with searchParams, search := joinPairs formEncode searchParams }

end RequestUrl

/-- A request that is given to `fetch`, and the canonical request its signature is for. -/
structure SentRequest where
  url : RequestUrl
  method : Method
  headers : List (List Char × List Char)
  body : Option (List Byte)
  canonicalRequest : List Char

/-- What the attempts meet, by their number: the time as `toISOString` gives it, what
`fetch` does and `Date.now()` after it failed; and `Date.now()` before the first. -/
structure Surroundings (Response Error : Type) where
  now : ℕ → List Char
  fetch : ℕ → Except Error Response
  clock : ℕ → ℤ
  started : ℤ

section Sending

variable {Response Error : Type} (hashing : Hashing) (store : StoreOptions)
  (surroundings : Surroundings Response Error) (options : SendOptions)

def requestHeaders : List (List Char × List Char) :=
  let headers := options.extraHeaders.foldl (fun headers (name, value) => assign name value headers)
    [("host".toList, (buildRequestTarget store options.fullKey).host)]
  match options.contentLength with
  | none => headers
  | some length => assign "content-length".toList (Nat.toDigits 10 length) headers

def requestUrl : RequestUrl :=
  let target := buildRequestTarget store options.fullKey
  options.query.sortedNames.foldl (fun url name => url.set name (options.query.get name))
    (RequestUrl.parse target.origin target.path)

/-- The request of one attempt. -/
def signedRequest (attempt : ℕ) : SentRequest :=
  let headers := requestHeaders store options
  let signature := signRequest hashing options.method.text
    (buildRequestTarget store options.fullKey).path options.query headers options.payloadSha256
    store.credentials (surroundings.now attempt)
  { url := requestUrl store options
    method := options.method
    headers := assign "authorization".toList signature.authorization
      (assign "x-amz-content-sha256".toList options.payloadSha256
        (assign "x-amz-date".toList signature.amzDate headers))
    body := options.body
    canonicalRequest := signature.canonicalRequest }

/-- The loop from an attempt on, with the number of attempts left and the last error:
the requests it makes and how it ends. -/
def sendFrom : ℕ → ℕ → Option Error → List SentRequest × Except (Option Error) Response
  | 0, _, lastTransportError => ([], .error lastTransportError)
  | left + 1, attempt, _ =>
      let request := signedRequest hashing store surroundings options attempt
      match surroundings.fetch attempt with
      | .ok response => ([request], .ok response)
      | .error error =>
          if attempt = store.retryMaxAttempts ∨
              surroundings.clock attempt + store.retryDelayMs >
                surroundings.started + store.retryWindowMs then
            ([request], .error (some error))
          else
            let (sent, result) := sendFrom left (attempt + 1) (some error)
            (request :: sent, result)

def send : List SentRequest × Except (Option Error) Response :=
  sendFrom hashing store surroundings options store.retryMaxAttempts 1 none

end Sending

end ObjectStore

end Orgistry.Model
