import PolicyAudit.Calendar.Rfc3339
import PolicyAudit.Text.Character

/-! Tags: the kinds of nodes.
A plain scalar without a tag has the kind its text looks like; the tests go by the text's first
character, in a fixed order. -/

namespace PolicyAudit.Yaml

inductive Tag
  | null | bool | int | float | binary | timestamp | str
  | seq | map | omap | pairs | set
  /-- The key under which other mappings are merged. -/
  | merge
  /-- The default value of a mapping. -/
  | value
  | unknown
  deriving DecidableEq, Repr

namespace Tag

def vocabulary : List (String × Tag) :=
  [("null", null), ("bool", bool), ("int", int), ("float", float), ("binary", binary),
    ("timestamp", timestamp), ("str", str), ("seq", seq), ("map", map), ("omap", omap),
    ("pairs", pairs), ("set", set), ("merge", merge), ("value", value)]

def space : String := "tag:yaml.org,2002:"

def ofName (name : String) : Tag :=
  ((vocabulary.find? fun (word, _) => space ++ word = name).map (·.2)).getD unknown

def falseWords : List String := ["false", "False", "FALSE"]

def trueWords : List String := ["true", "True", "TRUE"]

def legacyWords : List String :=
  ["y", "Y", "yes", "Yes", "YES", "n", "N", "no", "No", "NO", "on", "On", "ON", "off", "Off", "OFF"]

def nullWords : List String := ["~", "null", "Null", "NULL", ""]

def unsigned (cs : List Char) : List Char :=
  match cs with
  | c :: rest => if c = '-' ∨ c = '+' then rest else cs
  | [] => []

def isDigitOrLine (c : Char) : Bool := c.isDigit || c = '_'

def isExponent (signed : Bool) (cs : List Char) : Bool :=
  match cs with
  | e :: rest =>
    (e = 'e' || e = 'E') &&
      (let ds := unsigned rest
       !ds.isEmpty && ds.all Char.isDigit && (!signed || ds.length < rest.length))
  | [] => false

def infinityWords : List String := [".inf", ".Inf", ".INF"]

def nanWords : List String := [".nan", ".NaN", ".NAN"]

def sixties? : List Char → Option (List Char)
  | ':' :: a :: b :: rest =>
    if a.isDigit ∧ b.isDigit then
      if a ≤ '5' then some ((sixties? rest).getD rest) else none
    else if a.isDigit then some ((sixties? (b :: rest)).getD (b :: rest))
    else none
  | [':', a] => if a.isDigit then some [] else none
  | _ => none

def isFloat (legacy : Bool) (cs : List Char) : Bool :=
  let body := unsigned cs
  let whole := body.takeWhile isDigitOrLine
  let rest := body.drop whole.length
  if body.head?.any Char.isDigit then
    match rest with
    | '.' :: rest =>
      let rest := rest.dropWhile isDigitOrLine
      rest.isEmpty || isExponent false rest
    | rest =>
      isExponent false rest ||
        (legacy && (sixties? rest).any fun rest =>
          rest.head? == some '.' && (rest.drop 1).all isDigitOrLine)
  else if infinityWords.contains (String.ofList body) then true
  else if nanWords.contains (String.ofList cs) then true
  else
    match body with
    | '.' :: rest =>
      let after := rest.dropWhile isDigitOrLine
      (!legacy || body.length = cs.length) && after.length < rest.length &&
        (after.isEmpty || isExponent true after)
    | _ => false

def isDigitsOf (p : Char → Bool) (cs : List Char) : Bool :=
  !cs.isEmpty && cs.all fun c => p c || c = '_'

def isOctal (c : Char) : Bool := '0' ≤ c && c ≤ '7'

def isInt (legacy : Bool) (cs : List Char) : Bool :=
  let body := unsigned cs
  match body with
  | '0' :: 'b' :: ds => isDigitsOf (fun c => c = '0' || c = '1') ds
  | '0' :: 'x' :: ds => isDigitsOf (fun c => (Hex.value? c).isSome) ds
  | '0' :: 'o' :: ds => !legacy && isDigitsOf isOctal ds
  | _ =>
    if legacy then
      isDigitsOf isOctal body || body = ['0'] ||
        (body.head?.any (fun c => '1' ≤ c && c ≤ '9') &&
          (let rest := body.dropWhile isDigitOrLine
           rest.isEmpty || sixties? rest == some []))
    else isDigitsOf Char.isDigit body

def shortNumber? : List Char → Option (Nat × List Char)
  | a :: b :: rest =>
    if !a.isDigit then none
    else if b.isDigit then some (10 * (a.toNat - 48) + (b.toNat - 48), rest)
    else some (a.toNat - 48, b :: rest)
  | [a] => if a.isDigit then some (a.toNat - 48, []) else none
  | [] => none

end Tag

/-- A date, perhaps with a time of day, as written; the numbers need not be in range. -/
structure Stamp where
  year : Nat
  month : Nat
  day : Nat
  time : Option (Nat × Nat × Nat)
  fraction : List Char
  /-- The sign, the hours and the minutes of the offset. -/
  offset : Option (Bool × Nat × Nat)
  deriving DecidableEq, Repr

namespace Stamp

def offset? : List Char → Option (Option (Bool × Nat × Nat))
  | [] => some none
  | ['Z'] => some (some (false, 0, 0))
  | sign :: cs => do
    if sign ≠ '+' ∧ sign ≠ '-' then none
    else
      let (hour, rest) ← Tag.shortNumber? cs
      match rest with
      | [] => some (some (sign = '-', hour, 0))
      | ':' :: rest =>
        let (minute, rest) ← Moment.two? rest
        if rest.isEmpty then some (some (sign = '-', hour, minute)) else none
      | _ => none

def isBlank (c : Char) : Bool := c = ' ' || c = '\t'

def time? (cs : List Char) :
    Option ((Nat × Nat × Nat) × List Char × Option (Bool × Nat × Nat)) := do
  let cs ← match cs with
    | c :: rest =>
      if c = 'T' ∨ c = 't' then some rest
      else if isBlank c then some (rest.dropWhile isBlank)
      else none
    | [] => none
  let (hour, cs) ← Tag.shortNumber? cs
  let ':' :: cs := cs | none
  let (minute, cs) ← Moment.two? cs
  let ':' :: cs := cs | none
  let (second, cs) ← Moment.two? cs
  let (fraction, cs) := match cs with
    | '.' :: rest => (rest.takeWhile Char.isDigit, rest.dropWhile Char.isDigit)
    | rest => ([], rest)
  let after := cs.dropWhile isBlank
  let offset ← offset? after
  if after.isEmpty ∧ !cs.isEmpty then none else return ((hour, minute, second), fraction, offset)

/-- A date alone may be written with short numbers only when `short` says so. -/
def ofText? (short : Bool) (cs : List Char) : Option Stamp := do
  let (century, cs) ← Moment.two? cs
  let (year, cs) ← Moment.two? cs
  let year := 100 * century + year
  let '-' :: cs := cs | none
  let (month, afterMonth) ← Tag.shortNumber? cs
  let '-' :: rest := afterMonth | none
  let (day, afterDay) ← Tag.shortNumber? rest
  if afterDay.isEmpty then
    if short ∨ (afterMonth.length + 2 = cs.length ∧ rest.length = 2) then
      return ⟨year, month, day, none, [], none⟩
    else none
  else
    let (time, fraction, offset) ← time? afterDay
    return ⟨year, month, day, some time, fraction, offset⟩

end Stamp

namespace Tag

def ofPlain (legacy : Bool) (text : String) : Tag :=
  let cs := text.toList
  let first := cs.head?
  let numeric := first.any fun c => c = '-' || c = '+' || c.isDigit
  if trueWords.contains text || falseWords.contains text then bool
  else if legacy && legacyWords.contains text then bool
  else if (numeric || first == some '.') && isFloat legacy cs then float
  else if numeric && isInt legacy cs then int
  else if text = "<<" then merge
  else if nullWords.contains text then null
  else if (Stamp.ofText? false cs).isSome then timestamp
  else if text = "=" then value
  else str

end Tag

end PolicyAudit.Yaml
