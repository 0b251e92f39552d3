import PolicyAudit.Json.Reader

/-! Decoding JSON text by the standard alone.
Where `read?` takes further words for numbers, bounds the length of whole numbers and merges repeated
keys, `decode?` takes the standard's three words, whole numbers of any length and the entries of an
object as they are written. What a repeated key means the standard leaves open: `decode?` refuses it. -/

namespace PolicyAudit.Json

def word? : Char → Option (String × Value)
  | 'n' => some ("null", .null)
  | 't' => some ("true", .bool true)
  | 'f' => some ("false", .bool false)
  | _ => none

/-- A number with neither fraction nor exponent is whole. -/
def decodeNumber (negative : Bool) (cs : List Char) : Option (Value × List Char) := do
  let (whole, rest) ← readWhole cs
  let fraction := readFraction rest
  let (places, rest) := fraction.getD ([], rest)
  let exponent := readExponent rest
  let (e, rest) := exponent.getD (0, rest)
  if fraction.isNone ∧ exponent.isNone then
    let n : Int := digitsIn whole
    return (.int (if negative then -n else n), rest)
  else
    return (.real (.ofDecimal negative (digitsIn (whole ++ places)) (e - places.length)), rest)

/-- One or more items with commas between them, up to the closing mark; `fuel` bounds their number. -/
def decodeItems (item : List Char → Option (α × List Char)) (close : Char) (fuel : Nat)
    (cs : List Char) : Option (List α × List Char) :=
  match fuel with
  | 0 => none
  | fuel + 1 => do
    let (a, rest) ← item cs
    match skipBlanks rest with
    | [] => none
    | c :: rest =>
      if c = ',' then
        let (as, rest) ← decodeItems item close fuel (skipBlanks rest)
        return (a :: as, rest)
      else if c = close then return ([a], rest)
      else none

def decodeAll (item : List Char → Option (α × List Char)) (close : Char) (cs : List Char) :
    Option (List α × List Char) :=
  match skipBlanks cs with
  | [] => none
  | c :: rest =>
    if c = close then some ([], rest)
    else decodeItems item close (c :: rest).length (c :: rest)

def decodeEntry (value : List Char → Option (Value × List Char)) (cs : List Char) :
    Option ((Key × Value) × List Char) :=
  match cs with
  | '"' :: rest => do
    let (name, rest) ← readQuoted [] rest
    match skipBlanks rest with
    | ':' :: rest => do
      let (v, rest) ← value (skipBlanks rest)
      return ((.text (String.ofList name), v), rest)
    | _ => none
  | _ => none

/-- A value at the head of `cs`; `fuel` bounds the depth. -/
def decodeValue (fuel : Nat) (cs : List Char) : Option (Value × List Char) :=
  match fuel with
  | 0 => none
  | fuel + 1 =>
    match cs with
    | [] => none
    | c :: rest =>
      if c = '"' then (readQuoted [] rest).map fun (s, rest) => (.text (String.ofList s), rest)
      else if c = '[' then
        (decodeAll (decodeValue fuel) ']' rest).map fun (vs, rest) => (.list vs, rest)
      else if c = '{' then
        (decodeAll (decodeEntry (decodeValue fuel)) '}' rest).bind fun (es, rest) =>
          if (es.map Prod.fst).Nodup then some (.map es, rest) else none
      else
        match word? c with
        | some (word, v) => (after? word.toList (c :: rest)).map (v, ·)
        | none => if c = '-' then decodeNumber true rest else decodeNumber false (c :: rest)

def decode? (text : String) : Option Value := do
  let cs := skipBlanks text.toList
  let (v, rest) ← decodeValue (cs.length + 1) cs
  if (skipBlanks rest).isEmpty then some v else none

end PolicyAudit.Json
