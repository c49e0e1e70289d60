import Orgistry.Text.Encodings
import Mathlib.Data.Nat.Digits.Defs

/-!
# JSON

A parser of the grammar, with `JSON.parse`'s reading of strings, and
`JSON.stringify` of an object of strings and natural numbers.  A number is kept
as it is written.  A surrogate that has no partner, which is no character, is
read as the replacement character.
-/

namespace Orgistry.Text

inductive Json
  | null
  | bool (value : Bool)
  | number (literal : List Char)
  | string (text : List Char)
  | array (items : List Json)
  | object (members : List (List Char × Json))

/-- The last member of the name; only an object has any. -/
def Json.member (name : String) : Json → Option Json
  | .object members => (members.reverse.find? fun member => member.1 = name.toList).map Prod.snd
  | _ => none

namespace Json

def isSpace (c : Char) : Bool := c = ' ' || c = '\t' || c = '\n' || c = '\r'

def skipSpace (text : List Char) : List Char := text.dropWhile isSpace

def hex4 (a b c d : Char) : Option ℕ := do
  let a ← hexValue a
  let b ← hexValue b
  let c ← hexValue c
  let d ← hexValue d
  return ((a * 16 + b) * 16 + c) * 16 + d

def simpleEscape : Char → Option Char
  | '"' => some '"'
  | '\\' => some '\\'
  | '/' => some '/'
  | 'b' => some (Char.ofNat 8)
  | 'f' => some (Char.ofNat 12)
  | 'n' => some '\n'
  | 'r' => some '\r'
  | 't' => some '\t'
  | _ => none

/-- The code units and code points of a string after its opening quote, and what
follows the closing one. -/
def scanString : List Char → Option (List ℕ × List Char)
  | [] => none
  | '"' :: rest => some ([], rest)
  | '\\' :: 'u' :: a :: b :: c :: d :: rest =>
      (hex4 a b c d).bind fun unit =>
        (scanString rest).map fun (units, rest) => (unit :: units, rest)
  | '\\' :: c :: rest =>
      (simpleEscape c).bind fun char =>
        (scanString rest).map fun (units, rest) => (char.toNat :: units, rest)
  | c :: rest =>
      if c.toNat < 0x20 ∨ c = '\\' then none
      else (scanString rest).map fun (units, rest) => (c.toNat :: units, rest)

def isHighSurrogate (n : ℕ) : Bool := 0xD800 ≤ n && n ≤ 0xDBFF

def isLowSurrogate (n : ℕ) : Bool := 0xDC00 ≤ n && n ≤ 0xDFFF

def charOfUnit (n : ℕ) : Char :=
  if isHighSurrogate n || isLowSurrogate n then Utf8State.replacement else Char.ofNat n

/-- Two surrogates that belong together are one character. -/
def joinSurrogates : List ℕ → List Char
  | high :: low :: rest =>
      if isHighSurrogate high && isLowSurrogate low then
        Char.ofNat (0x10000 + (high - 0xD800) * 0x400 + (low - 0xDC00)) :: joinSurrogates rest
      else charOfUnit high :: joinSurrogates (low :: rest)
  | [unit] => [charOfUnit unit]
  | [] => []

def parseString (text : List Char) : Option (List Char × List Char) :=
  (scanString text).map fun (units, rest) => (joinSurrogates units, rest)

/-- One digit at least. -/
def parseDigits (text : List Char) : Option (List Char × List Char) :=
  let digits := text.takeWhile Char.isDigit
  if digits = [] then none else some (digits, text.dropWhile Char.isDigit)

def parseInteger : List Char → Option (List Char × List Char)
  | '0' :: rest => some (['0'], rest)
  | text => parseDigits text

def parseFraction : List Char → Option (List Char × List Char)
  | '.' :: rest => (parseDigits rest).map fun (digits, rest) => ('.' :: digits, rest)
  | text => some ([], text)

def parseSignedDigits : List Char → Option (List Char × List Char)
  | '+' :: rest => (parseDigits rest).map fun (digits, rest) => ('+' :: digits, rest)
  | '-' :: rest => (parseDigits rest).map fun (digits, rest) => ('-' :: digits, rest)
  | text => parseDigits text

def parseExponent : List Char → Option (List Char × List Char)
  | e :: rest =>
      if e = 'e' ∨ e = 'E' then
        (parseSignedDigits rest).map fun (digits, rest) => (e :: digits, rest)
      else some ([], e :: rest)
  | [] => some ([], [])

def parseUnsigned (text : List Char) : Option (List Char × List Char) := do
  let (integer, rest) ← parseInteger text
  let (fraction, rest) ← parseFraction rest
  let (exponent, rest) ← parseExponent rest
  return (integer ++ fraction ++ exponent, rest)

def parseNumber : List Char → Option (List Char × List Char)
  | '-' :: rest => (parseUnsigned rest).map fun (literal, rest) => ('-' :: literal, rest)
  | text => parseUnsigned text

mutual

/-- A value after white space, within a number of nested steps. -/
def parseValue : ℕ → List Char → Option (Json × List Char)
  | 0, _ => none
  | fuel + 1, text =>
      match skipSpace text with
      | 'n' :: 'u' :: 'l' :: 'l' :: rest => some (.null, rest)
      | 't' :: 'r' :: 'u' :: 'e' :: rest => some (.bool true, rest)
      | 'f' :: 'a' :: 'l' :: 's' :: 'e' :: rest => some (.bool false, rest)
      | '"' :: rest => (parseString rest).map fun (text, rest) => (.string text, rest)
      | '[' :: rest =>
          match skipSpace rest with
          | ']' :: rest => some (.array [], rest)
          | _ => (parseItems fuel rest).map fun (items, rest) => (.array items, rest)
      | '{' :: rest =>
          match skipSpace rest with
          | '}' :: rest => some (.object [], rest)
          | _ => (parseMembers fuel rest).map fun (members, rest) => (.object members, rest)
      | text => (parseNumber text).map fun (literal, rest) => (.number literal, rest)

def parseItems : ℕ → List Char → Option (List Json × List Char)
  | 0, _ => none
  | fuel + 1, text => do
      let (item, rest) ← parseValue fuel text
      match skipSpace rest with
      | ',' :: rest =>
          let (items, rest) ← parseItems fuel rest
          return (item :: items, rest)
      | ']' :: rest => return ([item], rest)
      | _ => none

def parseMembers : ℕ → List Char → Option (List (List Char × Json) × List Char)
  | 0, _ => none
  | fuel + 1, text =>
      match skipSpace text with
      | '"' :: rest => do
          let (name, rest) ← parseString rest
          match skipSpace rest with
          | ':' :: rest =>
              let (value, rest) ← parseValue fuel rest
              match skipSpace rest with
              | ',' :: rest =>
                  let (members, rest) ← parseMembers fuel rest
                  return ((name, value) :: members, rest)
              | '}' :: rest => return ([(name, value)], rest)
              | _ => none
          | _ => none
      | _ => none

end

/-- `JSON.parse`. -/
def parse (text : List Char) : Option Json := do
  let (value, rest) ← parseValue (text.length + 1) text
  if skipSpace rest = [] then return value else none

def escapeChar (c : Char) : List Char :=
  if c = '"' then ['\\', '"']
  else if c = '\\' then ['\\', '\\']
  else if c.toNat = 8 then ['\\', 'b']
  else if c = '\t' then ['\\', 't']
  else if c = '\n' then ['\\', 'n']
  else if c.toNat = 12 then ['\\', 'f']
  else if c = '\r' then ['\\', 'r']
  else if c.toNat < 0x20 then
    ['\\', 'u', '0', '0', lowerHexDigit (c.toNat / 16), lowerHexDigit (c.toNat % 16)]
  else [c]

def quote (text : List Char) : List Char := '"' :: (text.flatMap escapeChar ++ ['"'])

def decimal (n : ℕ) : List Char :=
  if n = 0 then ['0'] else (Nat.digits 10 n).reverse.map fun d => Char.ofNat (48 + d)

/-- A member that is a string or a natural number. -/
inductive Scalar
  | text (value : List Char)
  | natural (value : ℕ)
  deriving DecidableEq

def Scalar.toJson : Scalar → Json
  | .text value => .string value
  | .natural value => .number (decimal value)

def Scalar.print : Scalar → List Char
  | .text value => quote value
  | .natural value => decimal value

def printMember (member : String × Scalar) : List Char :=
  quote member.1.toList ++ ':' :: member.2.print

def printMembers : List (String × Scalar) → List Char
  | [] => []
  | [member] => printMember member
  | member :: members => printMember member ++ ',' :: printMembers members

/-- `JSON.stringify` of an object. -/
def stringify (members : List (String × Scalar)) : List Char :=
  '{' :: (printMembers members ++ ['}'])

end Json

end Orgistry.Text
