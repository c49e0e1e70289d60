import Orgistry.Text.Cutting
import Orgistry.Text.Json

/-!
# JSON values in JavaScript

What JavaScript does with values that are made of JSON: access to members, strict
equality, printing and integers.  `none` is `undefined`, and a number stands as it is
printed.
-/

namespace Orgistry.Text.Json

/-- `value?.name` -/
def get (value : Option Json) (name : String) : Option Json := value.bind (member name)

/-- `typeof value === 'object'`, and not `null`. -/
def isObject : Option Json → Bool
  | some (.array _) => true
  | some (.object _) => true
  | _ => false

/-- The elements of an array; another value has none. -/
def items : Option Json → List Json
  | some (.array items) => items
  | _ => []

/-- `typeof value === 'string'` -/
def textOf : Option Json → Option (List Char)
  | some (.string text) => some text
  | _ => none

/-- A string that is not empty. -/
def nonEmptyText : Option Json → Option (List Char)
  | some (.string (c :: text)) => some (c :: text)
  | _ => none

/-- `===`, where two arrays or objects of a document are never the same. -/
def strictEquals : Option Json → Option Json → Bool
  | none, none => true
  | some .null, some .null => true
  | some (.bool a), some (.bool b) => a = b
  | some (.number a), some (.number b) => a = b
  | some (.string a), some (.string b) => a = b
  | _, _ => false

/-- `allowed.includes(value)` -/
def isOneOf (value : Option Json) (allowed : List String) : Bool :=
  allowed.any fun text => strictEquals value (some (.string text.toList))

theorem strictEquals_string_iff {value : Option Json} {text : List Char} :
    strictEquals value (some (.string text)) ↔ value = some (.string text) := by
  constructor
  · intro h
    unfold strictEquals at h
    split at h <;> simp_all
  · rintro rfl
    exact decide_eq_true rfl

theorem isOneOf_iff {value : Option Json} {allowed : List String} :
    isOneOf value allowed ↔ ∃ text ∈ allowed, value = some (.string text.toList) := by
  unfold isOneOf
  rw [List.any_eq_true]
  simp only [strictEquals_string_iff]

/-- `Object.keys(value)` -/
def keys : Option Json → List (List Char)
  | some (.object members) => members.map Prod.fst
  | some (.array items) => (List.range items.length).map decimal
  | _ => []

mutual

/-- `JSON.stringify(value)`; infinity is printed as `null`. -/
def render : Json → List Char
  | .null => "null".toList
  | .bool true => "true".toList
  | .bool false => "false".toList
  | .number literal => if literal.any Char.isDigit then literal else "null".toList
  | .string text => quote text
  | .array items => '[' :: (renderItems items ++ [']'])
  | .object members => '{' :: (renderMembers members ++ ['}'])

def renderItems : List Json → List Char
  | [] => []
  | item :: items =>
      render item ++ if items.isEmpty then [] else ',' :: renderItems items

def renderMembers : List (List Char × Json) → List Char
  | [] => []
  | (name, value) :: members =>
      quote name ++ ':' :: render value ++
        if members.isEmpty then [] else ',' :: renderMembers members

end

/-- `JSON.stringify(value)` within a text. -/
def got : Option Json → List Char
  | none => "undefined".toList
  | some value => render value

mutual

/-- `String(value)`, which fails on an object with a member `toString`, since no member
is a function. -/
def toText : Json → Option (List Char)
  | .null => some "null".toList
  | .bool true => some "true".toList
  | .bool false => some "false".toList
  | .number literal => some literal
  | .string text => some text
  | .array items => itemsText items
  | .object members =>
      if (members.map Prod.fst).contains "toString".toList then none
      else some "[object Object]".toList

/-- `items.join(',')` -/
def itemsText : List Json → Option (List Char)
  | [] => some []
  | item :: items => do
      let text ← match item with
        | .null => some []
        | item => toText item
      if items.isEmpty then return text
      return text ++ ',' :: (← itemsText items)

end

/-- A value within a template literal. -/
def printed : Option Json → Option (List Char)
  | none => some "undefined".toList
  | some value => toText value

def digitsValue (digits : List Char) : ℕ := digits.foldl (fun n c => 10 * n + (c.toNat - 48)) 0

def exponentValue : List Char → ℤ
  | _ :: '-' :: digits => -digitsValue digits
  | _ :: '+' :: digits => digitsValue digits
  | _ :: digits => digitsValue digits
  | [] => 0

/-- The magnitude of a number without its sign, where it is an integer. -/
def naturalOf (text : List Char) : Option ℕ := do
  let (whole, text) ← parseDigits text
  let (fraction, text) ← parseFraction text
  let (exponent, text) ← parseExponent text
  let decimals := fraction.drop 1
  let mantissa := digitsValue (whole ++ decimals)
  let shift := exponentValue exponent - decimals.length
  if text ≠ [] then none
  else if 0 ≤ shift then return mantissa * 10 ^ shift.toNat
  else if mantissa % 10 ^ (-shift).toNat = 0 then return mantissa / 10 ^ (-shift).toNat
  else none

/-- The integer that a value is. -/
def integerOf : Option Json → Option ℤ
  | some (.number ('-' :: literal)) => (naturalOf literal).map fun n => -n
  | some (.number literal) => (naturalOf literal).map fun n => n
  | _ => none

end Orgistry.Text.Json
