import PolicyAudit.Document.Literal

/-! JSON text of a document, in ASCII.
`render` puts each item on a line of its own, two columns deeper than its container; `line` puts
all on one line. Text beyond ASCII is written in units of UTF-16. -/

namespace PolicyAudit.Json

def unit (n : Nat) : List Char := '\\' :: 'u' :: Quoted.hex 4 n

def escape (c : Char) : List Char :=
  if c = '"' then ['\\', '"']
  else if c = '\\' then ['\\', '\\']
  else if c = '\n' then ['\\', 'n']
  else if c = '\r' then ['\\', 'r']
  else if c = '\t' then ['\\', 't']
  else if c = '\x0c' then ['\\', 'f']
  else if c = '\x08' then ['\\', 'b']
  else if 0x20 ≤ c.toNat ∧ c.toNat < 0x7f then [c]
  else if c.toNat < 0x10000 then unit c.toNat
  else unit (0xd800 + (c.toNat - 0x10000) / 0x400) ++ unit (0xdc00 + (c.toNat - 0x10000) % 0x400)

def quote (cs : List Char) : List Char := '"' :: cs.flatMap escape ++ ['"']

def real : Binary64 → List Char
  | .nan => "NaN".toList
  | .infinite s => (if s then "-Infinity" else "Infinity").toList
  | x => x.literal

/-- Anything that is neither a container nor JSON's own is written as text. -/
def scalar : Value → List Char
  | .null => "null".toList
  | .bool b => (if b then "true" else "false").toList
  | .int n => intDigits n
  | .real x => real x
  | .text s => quote s.toList
  | v => quote v.literal

def newline (depth : Nat) : List Char := '\n' :: List.replicate (2 * depth) ' '

mutual

def render (depth : Nat) : Value → List Char
  | .list [] => "[]".toList
  | .list (v :: vs) =>
    '[' :: newline (depth + 1) ++ render (depth + 1) v ++ renderItems (depth + 1) vs ++
      newline depth ++ [']']
  | .map [] => "{}".toList
  | .map ((k, v) :: es) =>
    '{' :: newline (depth + 1) ++ quote k.shown.toList ++ ": ".toList ++ render (depth + 1) v ++
      renderEntries (depth + 1) es ++ newline depth ++ ['}']
  | v => scalar v

def renderItems (depth : Nat) : List Value → List Char
  | [] => []
  | v :: vs => ',' :: newline depth ++ render depth v ++ renderItems depth vs

def renderEntries (depth : Nat) : List (Key × Value) → List Char
  | [] => []
  | (k, v) :: es =>
    ',' :: newline depth ++ quote k.shown.toList ++ ": ".toList ++ render depth v ++
      renderEntries depth es

end

mutual

def line : Value → List Char
  | .list [] => "[]".toList
  | .list (v :: vs) => '[' :: line v ++ lineItems vs ++ [']']
  | .map [] => "{}".toList
  | .map ((k, v) :: es) =>
    '{' :: quote k.shown.toList ++ ": ".toList ++ line v ++ lineEntries es ++ ['}']
  | v => scalar v

def lineItems : List Value → List Char
  | [] => []
  | v :: vs => ", ".toList ++ line v ++ lineItems vs

def lineEntries : List (Key × Value) → List Char
  | [] => []
  | (k, v) :: es =>
    ", ".toList ++ quote k.shown.toList ++ ": ".toList ++ line v ++ lineEntries es

end

def toText (v : Value) : String := String.ofList (render 0 v)

def toLine (v : Value) : String := String.ofList (line v)

end PolicyAudit.Json
