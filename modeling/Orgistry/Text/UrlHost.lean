import Orgistry.Numbers.Literals
import Orgistry.Text.IpAddress
import Orgistry.Text.Url

/-!
# Hosts of URLs

The scheme and the host that the parser of the URL standard finds in a text without a
base, and how the host is written again.  The mapping of names beyond ASCII is given.
-/

namespace Orgistry.Text

inductive Host
  | domain (name : List Char)
  | ipv4 (address : ℕ)
  | ipv6 (groups : List ℕ)
  | other (text : List Char)
  | empty
  deriving DecidableEq

structure Url where
  scheme : List Char
  host : Host
  deriving DecidableEq

def isForbiddenHost (c : Char) : Bool :=
  c.toNat ∈ [0x0, 0x9, 0xA, 0xD] || c ∈ " #/:<>?@[\\]^|".toList

def isForbiddenDomain (c : Char) : Bool :=
  isForbiddenHost c || c.toNat ≤ 0x1F || c = '%' || c.toNat = 0x7F

/-- A part of an IPv4 address: hexadecimal behind `0x`, octal behind `0`, and else
decimal. -/
def ipv4Number : List Char → Option ℕ
  | [] => none
  | ['0'] => some 0
  | '0' :: c :: rest =>
      if c = 'x' ∨ c = 'X' then Numbers.ofBase 16 rest else Numbers.ofBase 8 (c :: rest)
  | digits => Numbers.ofBase 10 digits

/-- The parts, without an empty one at the end. -/
def ipv4Parts (domain : List Char) : List (List Char) :=
  let parts := splitOn '.' domain
  if parts.getLast? = some [] ∧ 1 < parts.length then parts.dropLast else parts

def endsInNumber (domain : List Char) : Bool :=
  match (ipv4Parts domain).getLast? with
  | none => false
  | some last => last ≠ [] && (last.all Char.isDigit || (ipv4Number last).isSome)

/-- Up to four parts, the last one for all bytes that remain. -/
def hostIpv4 (domain : List Char) : Option ℕ := do
  let parts := ipv4Parts domain
  if 4 < parts.length then none
  else
    let numbers ← parts.mapM ipv4Number
    let last ← numbers.getLast?
    let leading := numbers.dropLast
    if leading.any (255 < ·) || 256 ^ (4 - leading.length) ≤ last then none
    else
      return leading.foldl (fun n part => 256 * n + part) 0 * 256 ^ (4 - leading.length) + last

def hasPunycode (domain : List Char) : Bool :=
  (splitOn '.' domain).any fun label => (label.take 4).map Char.toLower = "xn--".toList

section Parser

variable (idna : List Char → Option (List Char))

def domainToAscii (domain : List Char) : Option (List Char) :=
  if domain.all (·.toNat < 0x80) && !hasPunycode domain then
    if domain = [] then none else some (domain.map Char.toLower)
  else idna domain

/-- The host of a URL whose scheme is special. -/
def parseDomain (text : List Char) : Option Host := do
  let domain ← domainToAscii idna (percentDecode text)
  if domain = [] ∨ domain.any isForbiddenDomain then none
  else if endsInNumber domain then (hostIpv4 domain).map .ipv4
  else return .domain domain

def parseHost (special : Bool) (text : List Char) : Option Host :=
  match text with
  | '[' :: rest =>
      if rest.getLast? = some ']' then (ipv6Groups rest.dropLast).map .ipv6 else none
  | _ =>
      if special then parseDomain idna text
      else if text.any isForbiddenHost then none
      else some (.other text)

/-- The first colon outside of brackets. -/
def cutPort : Bool → List Char → Option (List Char × List Char)
  | _, [] => none
  | bracket, c :: rest =>
      if c = ':' ∧ !bracket then some ([], rest)
      else
        let inside := if c = '[' then true else if c = ']' then false else bracket
        (cutPort inside rest).map fun (front, back) => (c :: front, back)

def isPort (text : List Char) : Bool := text.all Char.isDigit && Json.digitsValue text ≤ 65535

/-- The host between the credentials and the port. -/
def parseAuthority (special : Bool) (authority : List Char) : Option Host :=
  let hostPort := (splitOn '@' authority).getLast?.getD []
  if '@' ∈ authority ∧ hostPort = [] then none
  else
    match cutPort false hostPort with
    | some (host, port) =>
        if host = [] ∨ !isPort port then none else parseHost idna special host
    | none =>
        if hostPort = [] then if special then none else some .empty
        else parseHost idna special hostPort

/-- What ends an authority. -/
def endsAuthority (special : Bool) (c : Char) : Bool :=
  c = '/' || c = '?' || c = '#' || (special && c = '\\')

def isSlash (c : Char) : Bool := c = '/' || c = '\\'

def isDriveLetter : List Char → Bool
  | [letter, mark] => letter.isAlpha && (mark = ':' || mark = '|')
  | _ => false

/-- The host of a file URL. -/
def parseFileHost (rest : List Char) : Option Host :=
  match rest with
  | c :: d :: rest =>
      if isSlash c && isSlash d then
        let buffer := rest.takeWhile fun c => !endsAuthority true c
        if isDriveLetter buffer || buffer.isEmpty then some .empty
        else (parseHost idna true buffer).map fun host =>
          if host = .domain "localhost".toList then .empty else host
      else some .empty
  | _ => some .empty

def specialSchemes : List (List Char) :=
  ["http".toList, "https".toList, "ws".toList, "wss".toList, "ftp".toList]

def isScheme : List Char → Bool
  | [] => false
  | c :: rest => c.isAlpha && rest.all fun c => c.isAlphanum || c ∈ ['+', '-', '.']

/-- Controls and blanks are taken off the ends, tabs and newlines out of the text. -/
def urlText (text : List Char) : List Char :=
  ((text.dropWhile fun c => c.toNat ≤ 0x20).rdropWhile fun c => c.toNat ≤ 0x20).filter
    fun c => c ∉ ['\t', '\n', '\r']

/-- `new URL(text)`; none is the exception. -/
def parseUrl (text : List Char) : Option Url :=
  match cut ':' (urlText text) with
  | none => none
  | some (name, rest) =>
      if !isScheme name then none
      else
        let scheme := name.map Char.toLower
        if scheme = "file".toList then (parseFileHost idna rest).map (Url.mk scheme)
        else if specialSchemes.contains scheme then
          (parseAuthority idna true
            ((rest.dropWhile isSlash).takeWhile fun c => !endsAuthority true c)).map (Url.mk scheme)
        else
          match rest with
          | '/' :: '/' :: rest =>
              (parseAuthority idna false (rest.takeWhile fun c => !endsAuthority false c)).map
                (Url.mk scheme)
          | _ => some ⟨scheme, .empty⟩

end Parser

/-- A group without leading zeros. -/
def groupText (n : ℕ) : List Char := Nat.toDigits 16 n

/-- The zeros at the beginning. -/
def zeroRun (groups : List ℕ) : ℕ := (groups.takeWhile (· = 0)).length

/-- The beginning and the length of the first longest run of zeros. -/
def longestRun : ℕ → List ℕ → ℕ × ℕ
  | _, [] => (0, 0)
  | index, n :: groups =>
      let run := zeroRun (n :: groups)
      let later := longestRun (index + 1) groups
      if later.2 ≤ run then (index, run) else later

def ipv6Text (groups : List ℕ) : List Char :=
  let (start, run) := longestRun 0 groups
  if 1 < run then
    joinWith ':' ((groups.take start).map groupText) ++ ':' :: ':' ::
      joinWith ':' ((groups.drop (start + run)).map groupText)
  else joinWith ':' (groups.map groupText)

/-- `hostname` -/
def hostname : Host → List Char
  | .domain name => name
  | .ipv4 address => dotted (address / 2 ^ 24 % 256) (address / 2 ^ 16 % 256)
      (address / 2 ^ 8 % 256) (address % 256)
  | .ipv6 groups => '[' :: ipv6Text groups ++ [']']
  | .other text => text
  | .empty => []

/-- `protocol` -/
def Url.protocol (url : Url) : List Char := url.scheme ++ [':']

/-- The scheme stands before the first colon. -/
theorem scheme_of_parseUrl {idna : List Char → Option (List Char)} {text : List Char} {url : Url}
    (h : parseUrl idna text = some url) :
    ∃ name rest, cut ':' (urlText text) = some (name, rest) ∧
      url.scheme = name.map Char.toLower := by
  unfold parseUrl at h
  split at h
  · exact absurd h nofun
  · next name rest hcut =>
      refine ⟨name, rest, hcut, ?_⟩
      split at h
      · exact absurd h nofun
      · dsimp only at h
        split at h
        · obtain ⟨host, -, rfl⟩ := Option.map_eq_some_iff.mp h
          rfl
        · split at h
          · obtain ⟨host, -, rfl⟩ := Option.map_eq_some_iff.mp h
            rfl
          · split at h
            · obtain ⟨host, -, rfl⟩ := Option.map_eq_some_iff.mp h
              rfl
            · obtain rfl := Option.some.inj h
              rfl

/-! ## Domains are ASCII -/

def Host.IsAscii : Host → Prop
  | .domain name => ∀ c ∈ name, c.toNat < 0x80
  | _ => True

section Ascii

variable {idna : List Char → Option (List Char)} {text : List Char} {host : Host} {special : Bool}

theorem toLower_lt {c : Char} (h : c.toNat < 0x80) : c.toLower.toNat < 0x80 := by
  unfold Char.toLower
  split
  · next hupper =>
      have hle : c.toNat ≤ 90 := hupper.2
      have hvalue : (c.val + 32).toNat = c.toNat + 32 := by
        rw [UInt32.toNat_add]
        exact Nat.mod_eq_of_lt (by change c.toNat + 32 < _; omega)
      calc (Char.toNat _) = (c.val + 32).toNat := rfl
        _ = c.toNat + 32 := hvalue
        _ < 0x80 := by omega
  · exact h

theorem domainToAscii_ascii
    (hidna : ∀ domain name, idna domain = some name → ∀ c ∈ name, c.toNat < 0x80)
    {domain name : List Char} (h : domainToAscii idna domain = some name) :
    ∀ c ∈ name, c.toNat < 0x80 := by
  unfold domainToAscii at h
  split at h
  · next hplain =>
      split at h
      · exact absurd h nofun
      · obtain rfl := Option.some.inj h
        intro c hc
        obtain ⟨d, hd, rfl⟩ := List.mem_map.mp hc
        have hall := List.all_eq_true.mp (Bool.and_eq_true_iff.mp hplain).1
        exact toLower_lt (of_decide_eq_true (hall d hd))
  · exact hidna domain name h

theorem parseDomain_isAscii
    (hidna : ∀ domain name, idna domain = some name → ∀ c ∈ name, c.toNat < 0x80)
    (h : parseDomain idna text = some host) : host.IsAscii := by
  obtain ⟨name, hname, h⟩ := Option.bind_eq_some_iff.mp h
  split at h
  · exact absurd h nofun
  · split at h
    · obtain ⟨address, -, rfl⟩ := Option.map_eq_some_iff.mp h
      trivial
    · obtain rfl := Option.some.inj h
      exact domainToAscii_ascii hidna hname

/-- Hosts are ASCII if the mapping of domains gives ASCII. -/
theorem parseHost_isAscii
    (hidna : ∀ domain name, idna domain = some name → ∀ c ∈ name, c.toNat < 0x80)
    (h : parseHost idna special text = some host) : host.IsAscii := by
  unfold parseHost at h
  split at h
  · split at h
    · obtain ⟨groups, -, rfl⟩ := Option.map_eq_some_iff.mp h
      trivial
    · exact absurd h nofun
  · split at h
    · exact parseDomain_isAscii hidna h
    · split at h
      · exact absurd h nofun
      · obtain rfl := Option.some.inj h
        trivial

theorem parseAuthority_isAscii
    (hidna : ∀ domain name, idna domain = some name → ∀ c ∈ name, c.toNat < 0x80)
    (h : parseAuthority idna special text = some host) : host.IsAscii := by
  unfold parseAuthority at h
  dsimp only at h
  split at h
  · exact absurd h nofun
  · split at h
    · split at h
      · exact absurd h nofun
      · exact parseHost_isAscii hidna h
    · split at h
      · split at h
        · exact absurd h nofun
        · obtain rfl := Option.some.inj h
          trivial
      · exact parseHost_isAscii hidna h

theorem parseFileHost_isAscii
    (hidna : ∀ domain name, idna domain = some name → ∀ c ∈ name, c.toNat < 0x80)
    (h : parseFileHost idna text = some host) : host.IsAscii := by
  have hempty : Host.empty.IsAscii := trivial
  unfold parseFileHost at h
  split at h
  · split at h
    · dsimp only at h
      split at h
      · obtain rfl := Option.some.inj h
        exact hempty
      · obtain ⟨named, hnamed, rfl⟩ := Option.map_eq_some_iff.mp h
        split
        · exact hempty
        · exact parseHost_isAscii hidna hnamed
    · obtain rfl := Option.some.inj h
      exact hempty
  · obtain rfl := Option.some.inj h
    exact hempty

/-- When the mapping of names gives ASCII, every domain is ASCII. -/
theorem parseUrl_isAscii
    (hidna : ∀ domain name, idna domain = some name → ∀ c ∈ name, c.toNat < 0x80)
    {url : Url} (h : parseUrl idna text = some url) : url.host.IsAscii := by
  unfold parseUrl at h
  split at h
  · exact absurd h nofun
  · split at h
    · exact absurd h nofun
    · dsimp only at h
      split at h
      · obtain ⟨host, hhost, rfl⟩ := Option.map_eq_some_iff.mp h
        exact parseFileHost_isAscii hidna hhost
      · split at h
        · obtain ⟨host, hhost, rfl⟩ := Option.map_eq_some_iff.mp h
          exact parseAuthority_isAscii hidna hhost
        · split at h
          · obtain ⟨host, hhost, rfl⟩ := Option.map_eq_some_iff.mp h
            exact parseAuthority_isAscii hidna hhost
          · obtain rfl := Option.some.inj h
            trivial

end Ascii

end Orgistry.Text
