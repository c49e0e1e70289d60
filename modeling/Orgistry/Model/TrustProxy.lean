import Orgistry.Model.ConfigFile
import Orgistry.Numbers.Literals
import Orgistry.Text.IpAddress
import Orgistry.Text.LowerCase

/-!
# Trusted proxies

`TRUST_PROXY` of the configuration schema, and what `buildApp` hands to Fastify.  How
Fastify resolves the address of a request is given: by its documentation the closest
address that is not trusted, the peer of the socket being the closest.
-/

namespace Orgistry.Model

open Text

/-- `TrustProxySetting` -/
inductive TrustProxySetting
  | direct
  | hops (count : ℕ)
  | proxies (entries : List (List Char))
  deriving DecidableEq

/-- `TRUST_PROXY_MAX_HOPS` -/
def trustProxyMaxHops : ℕ := 16

def isZoneChar (c : Char) : Bool := c.isAlphanum || c = '-' || c = '.' || c = ':'

/-- An IPv6 address may have a zone behind a percent sign. -/
def zonedIpv6 (text : List Char) : Option ℕ :=
  match cut '%' text with
  | none => ipv6 text
  | some (address, zone) => if zone ≠ [] ∧ zone.all isZoneChar then ipv6 address else none

/-- `isIP` of `node:net`. -/
def isIP (text : List Char) : ℕ :=
  if (ipv4 text).isSome then 4 else if (zonedIpv6 text).isSome then 6 else 0

/-- `isIpOrCidr` -/
def isIpOrCidr (entry : List Char) : Bool :=
  let (address, suffix) :=
    match cut '/' entry with
    | none => (entry, none)
    | some (address, suffix) => (address, some suffix)
  let family := isIP address
  if family = 0 then false
  else
    match suffix with
    | none => true
    | some suffix =>
        -- `/^(0|[1-9]\d{0,2})$/`
        if !(isUnpadded suffix && suffix.length ≤ 3) then false
        else Json.digitsValue suffix ≤ if family = 4 then 32 else 128

/-- `Number.isSafeInteger` -/
def isSafeInteger (value : ℚ) : Bool := value.den = 1 && |value| ≤ 2 ^ 53 - 1

/-- The count that a row of digits stands for. -/
def parseHops (value : List Char) : Option TrustProxySetting :=
  match Numbers.numberOf value with
  | .finite hops =>
      if !isSafeInteger hops ∨ hops < 1 ∨ trustProxyMaxHops < hops then none
      else some (.hops hops.num.toNat)
  | _ => none

/-- `parseTrustProxy`; none is `undefined`. -/
def parseTrustProxy (lowerCase : LowerCase) (raw : List Char) : Option TrustProxySetting :=
  let value := BackupConfig.trim raw
  if value = [] ∨ lowerCase.lower value = "true".toList then none
  else if lowerCase.lower value = "false".toList then some .direct
  else if value.all Char.isDigit then parseHops value
  else
    let entries := (splitOn ',' value).map BackupConfig.trim
    if entries.all fun entry => !entry.isEmpty && isIpOrCidr entry then some (.proxies entries)
    else none

/-- Where a request may come from: an address of 128 bits, IPv4 addresses as IPv4-mapped
ones, or a text in a forwarded header that is no address. -/
abbrev Hop := Option ℕ

/-- The IPv4-mapped address. -/
def mappedIpv4 (address : ℕ) : ℕ := 0xFFFF * 2 ^ 32 + address

/-- What Fastify uses of `proxy-addr`: the trust in a list of proxies, and the hop that a
request is from, by the trust in each hop and in its distance.  The closest hop is first. -/
structure ProxyAddr where
  compile : List (List Char) → Hop → Bool
  resolve : (Hop → ℕ → Bool) → List Hop → Hop

/-- What `buildApp` passes as `trustProxy`; the option is left out for `false`. -/
def trustProxyOption : TrustProxySetting → Option (ℕ ⊕ List (List Char))
  | .direct => none
  | .hops count => some (.inl count)
  | .proxies entries => some (.inr entries)

/-- `request.ip` -/
def requestIp (proxyAddr : ProxyAddr) (setting : TrustProxySetting) (peer : ℕ)
    (forwarded : List Hop) : Hop :=
  match trustProxyOption setting with
  | none => some peer
  | some (.inl count) => proxyAddr.resolve (fun _ distance => distance < count)
      (some peer :: forwarded)
  | some (.inr entries) => proxyAddr.resolve (fun hop _ => proxyAddr.compile entries hop)
      (some peer :: forwarded)

end Orgistry.Model
