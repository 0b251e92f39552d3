import PolicyAudit.Text.Character
import PolicyAudit.Yaml.Spot

/-! Quoted scalars.
Between single quotes a doubled quote stands for one; between double quotes a backslash begins an
escape. Breaks are folded: one counts as a space, of more the first is dropped, and a break after a
backslash does not count. -/

namespace PolicyAudit.Yaml.QuotedScalar

def hex? (width : Nat) (t : Text) : Option Nat :=
  if t.length < width then none else Hex.number? ((t.take width).map Spot.char)

/-- Half of a surrogate pair is no character and is replaced. -/
def character? (code : Nat) : Option Char :=
  if 0x10ffff < code then none
  else if 0xd800 ≤ code ∧ code < 0xe000 then some '\ufffd'
  else some (Char.ofNat code)

def escaped? : Char → Option Char
  | '0' => some '\x00'
  | 'a' => some '\x07'
  | 'b' => some '\x08'
  | 't' => some '\t'
  | '\t' => some '\t'
  | 'n' => some '\n'
  | 'v' => some '\x0b'
  | 'f' => some '\x0c'
  | 'r' => some '\r'
  | 'e' => some '\x1b'
  | ' ' => some ' '
  | '"' => some '"'
  | '/' => some '/'
  | '\\' => some '\\'
  | 'N' => some '\u0085'
  | '_' => some '\u00a0'
  | 'L' => some '\u2028'
  | 'P' => some '\u2029'
  | _ => none

def escapeWidth? : Char → Option Nat
  | 'x' => some 2
  | 'u' => some 4
  | 'U' => some 8
  | _ => none

/-- Further breaks before the text goes on; a document marker must not come first. -/
def moreBreaks : (atStart : Bool) → Text → Option (List Char × Text)
  | _, [] => some ([], [])
  | atStart, s :: t =>
    if atStart ∧ Text.isMarker (s :: t) then none
    else if isWhite s.char then moreBreaks false t
    else if isBreak s.char then do
      let (cs, rest) ← moreBreaks true t
      return (breakValue s.char :: cs, rest)
    else some ([], s :: t)

def fold? (t : Text) : Option (List Char × Text) :=
  let (blanks, t) := t.span isWhite
  match t with
  | [] => none
  | s :: rest =>
    if isBreak s.char then do
      let (more, rest) ← moreBreaks true rest
      return (folded (breakValue s.char) more, rest)
    else some (blanks, s :: rest)

def escape? (t : Text) : Option (List Char × Text) :=
  match t with
  | [] => none
  | s :: rest =>
    match escaped? s.char, escapeWidth? s.char with
    | some c, _ => some ([c], rest)
    | none, some width => do
      let c ← character? (← hex? width rest)
      return ([c], rest.drop width)
    | none, none => if isBreak s.char then moreBreaks true rest else none

/-- The text up to the closing quote; `fuel` bounds its pieces. -/
def readFrom (double : Bool) (fuel : Nat) (t : Text) : Option (List Char × Text) :=
  match fuel, t with
  | fuel + 1, s :: rest => do
    let go (cs : List Char) (rest : Text) : Option (List Char × Text) := do
      let (more, rest) ← readFrom double fuel rest
      return (cs ++ more, rest)
    if isWhite s.char ∨ isBreak s.char then
      let (cs, rest) ← fold? (s :: rest)
      go cs rest
    else if double ∧ s.char = '"' then return ([], rest)
    else if double ∧ s.char = '\\' then
      let (cs, rest) ← escape? rest
      go cs rest
    else if !double ∧ s.char = '\'' then
      match rest with
      | s' :: rest' => if s'.char = '\'' then go ['\''] rest' else return ([], rest)
      | [] => return ([], [])
    else go [s.char] rest
  | _, _ => none

def read? (double : Bool) (t : Text) : Option (List Char × Text) :=
  readFrom double (t.length + 1) t

end PolicyAudit.Yaml.QuotedScalar
