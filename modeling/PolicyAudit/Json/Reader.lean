import PolicyAudit.Document.Value
import PolicyAudit.Text.Character

/-! Reading JSON text.
Beyond the standard grammar, `NaN` and signed `Infinity` are numbers. Of a repeated key the last
value counts, at the place of the first. Whole numbers have at most 4300 digits. -/

namespace PolicyAudit.Json

def isBlank (c : Char) : Bool := c = ' ' || c = '\t' || c = '\n' || c = '\r'

def skipBlanks (cs : List Char) : List Char := cs.dropWhile isBlank

def unit? (a b c d : Char) : Option Nat := Hex.number? [a, b, c, d]

/-- Two halves of a pair make one character; a half alone is replaced. -/
def joinUnits (high low : Nat) : Option Char :=
  if 0xd800 ≤ high ∧ high < 0xdc00 ∧ 0xdc00 ≤ low ∧ low < 0xe000 then
    some (Char.ofNat (0x10000 + (high - 0xd800) * 0x400 + (low - 0xdc00)))
  else none

def ofUnit (n : Nat) : Char :=
  if 0xd800 ≤ n ∧ n < 0xe000 then Char.ofNat 0xfffd else Char.ofNat n

def shortEscape? : Char → Option Char
  | '"' => some '"'
  | '\\' => some '\\'
  | '/' => some '/'
  | 'b' => some '\x08'
  | 'f' => some '\x0c'
  | 'n' => some '\n'
  | 'r' => some '\r'
  | 't' => some '\t'
  | _ => none

/-- The rest of a quoted text, characters read so far in reverse. -/
def readQuoted (acc : List Char) : List Char → Option (List Char × List Char)
  | [] => none
  | '"' :: cs => some (acc.reverse, cs)
  | '\\' :: 'u' :: a :: b :: c :: d :: '\\' :: 'u' :: e :: f :: g :: h :: cs =>
    match unit? a b c d with
    | none => none
    | some high =>
      match (unit? e f g h).bind (joinUnits high) with
      | some x => readQuoted (x :: acc) cs
      | none => readQuoted (ofUnit high :: acc) ('\\' :: 'u' :: e :: f :: g :: h :: cs)
  | '\\' :: 'u' :: a :: b :: c :: d :: cs =>
    match unit? a b c d with
    | some n => readQuoted (ofUnit n :: acc) cs
    | none => none
  | '\\' :: c :: cs =>
    match shortEscape? c with
    | some x => readQuoted (x :: acc) cs
    | none => none
  | c :: cs => if c.toNat < 0x20 ∨ c = '\\' then none else readQuoted (c :: acc) cs

def digitsIn (cs : List Char) : Nat := Nat.ofDigitChars 10 cs 0

def readExponent (cs : List Char) : Option (Int × List Char) :=
  match cs with
  | e :: rest =>
    if e = 'e' ∨ e = 'E' then
      let (negative, rest) := match rest with
        | '-' :: r => (true, r)
        | '+' :: r => (false, r)
        | r => (false, r)
      let ds := rest.takeWhile Char.isDigit
      if ds.isEmpty then none
      else
        let n : Int := digitsIn ds
        some (if negative then -n else n, rest.drop ds.length)
    else none
  | [] => none

def readFraction (cs : List Char) : Option (List Char × List Char) :=
  match cs with
  | '.' :: rest =>
    let ds := rest.takeWhile Char.isDigit
    if ds.isEmpty then none else some (ds, rest.drop ds.length)
  | _ => none

/-- A leading zero stands alone. -/
def readWhole (cs : List Char) : Option (List Char × List Char) :=
  match cs with
  | '0' :: rest => some (['0'], rest)
  | _ =>
    let ds := cs.takeWhile Char.isDigit
    if ds.isEmpty then none else some (ds, cs.drop ds.length)

def readNumber (negative : Bool) (cs : List Char) : Option (Value × List Char) := do
  let (whole, rest) ← readWhole cs
  match readFraction rest, readExponent rest with
  | none, none =>
    if 4300 < whole.length then none
    else
      let n : Int := digitsIn whole
      some (.int (if negative then -n else n), rest)
  | some (fraction, rest), _ =>
    let (e, rest) := (readExponent rest).getD (0, rest)
    some (.real (.ofDecimal negative (digitsIn (whole ++ fraction)) (e - fraction.length)), rest)
  | none, some (e, rest) => some (.real (.ofDecimal negative (digitsIn whole) e), rest)

def after? : List Char → List Char → Option (List Char)
  | [], cs => some cs
  | _ :: _, [] => none
  | w :: ws, c :: cs => if w = c then after? ws cs else none

def words : List (String × Value) :=
  [("null", .null), ("true", .bool true), ("false", .bool false), ("NaN", .real .nan),
    ("Infinity", .real (.infinite false)), ("-Infinity", .real (.infinite true))]

def readWord (cs : List Char) : Option (Value × List Char) :=
  words.findSome? fun (word, v) => (after? word.toList cs).map (v, ·)

mutual

/-- A value at the head of `cs`; `fuel` bounds the values still to be read. -/
def readValue (fuel : Nat) (cs : List Char) : Option (Value × List Char) :=
  match fuel with
  | 0 => none
  | fuel + 1 =>
    match cs with
    | '"' :: rest => (readQuoted [] rest).map fun (s, rest) => (.text (String.ofList s), rest)
    | '[' :: rest =>
      match skipBlanks rest with
      | ']' :: rest => some (.list [], rest)
      | rest => (readItems fuel rest).map fun (vs, rest) => (.list vs, rest)
    | '{' :: rest =>
      match skipBlanks rest with
      | '}' :: rest => some (.map [], rest)
      | rest => (readEntries fuel rest).map fun (es, rest) => (.map (Entries.ofList es), rest)
    | cs =>
      match readWord cs with
      | some found => some found
      | none =>
        match cs with
        | '-' :: rest => readNumber true rest
        | cs => readNumber false cs

def readItems (fuel : Nat) (cs : List Char) : Option (List Value × List Char) :=
  match fuel with
  | 0 => none
  | fuel + 1 => do
    let (v, rest) ← readValue fuel cs
    match skipBlanks rest with
    | ',' :: rest => do
      let (vs, rest) ← readItems fuel (skipBlanks rest)
      return (v :: vs, rest)
    | ']' :: rest => return ([v], rest)
    | _ => none

def readEntries (fuel : Nat) (cs : List Char) : Option (List (Key × Value) × List Char) :=
  match fuel with
  | 0 => none
  | fuel + 1 =>
    match cs with
    | '"' :: rest => do
      let (k, rest) ← readQuoted [] rest
      match skipBlanks rest with
      | ':' :: rest => do
        let (v, rest) ← readValue fuel (skipBlanks rest)
        match skipBlanks rest with
        | ',' :: rest => do
          let (es, rest) ← readEntries fuel (skipBlanks rest)
          return ((.text (String.ofList k), v) :: es, rest)
        | '}' :: rest => return ([(.text (String.ofList k), v)], rest)
        | _ => none
      | _ => none
    | _ => none

end

def read? (text : String) : Option Value := do
  let cs := text.toList
  let (v, rest) ← readValue (2 * cs.length + 2) (skipBlanks cs)
  if (skipBlanks rest).isEmpty then some v else none

end PolicyAudit.Json
