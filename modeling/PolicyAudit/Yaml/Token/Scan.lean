import PolicyAudit.Yaml.Token
import PolicyAudit.Yaml.Scalar.Plain
import PolicyAudit.Yaml.Scalar.Block
import PolicyAudit.Yaml.Scalar.Quoted

/-! Scanning: from text to tokens.
That a token is a key shows only at the colon after it, so each token at which a key may start is
kept as a candidate; there is at most one on every level of brackets. A key fits on one line and in
1024 characters. -/

namespace PolicyAudit.Yaml

/-- A place at which a key may have started. -/
structure Candidate where
  /-- Tokens before it. -/
  number : Nat
  /-- It starts a line of a block mapping, so it has to be a key. -/
  required : Bool
  spot : Spot
  deriving Repr

structure Scan where
  text : Text
  /-- The last token first. -/
  tokens : List Token := []
  candidate : Option Candidate := none
  /-- The open brackets, innermost first, each with the candidate outside of it. -/
  levels : List (Bracket × Option Candidate) := []
  /-- The columns of the open block collections, innermost first. -/
  columns : List Nat := []
  keyAllowed : Bool := true
  legacy : Bool := false

namespace Scan

def inFlow (s : Scan) : Bool := !s.levels.isEmpty

def margin (s : Scan) : Nat :=
  match s.columns with
  | [] => 0
  | c :: _ => c + 1

def emit (k : Token) (s : Scan) : Scan := { s with tokens := k :: s.tokens }

def insert (n : Nat) (k : Token) (s : Scan) : Scan :=
  { s with tokens := s.tokens.insertIdx (s.tokens.length - n) k }

/-! Keys -/

def isStale (t : Text) (c : Candidate) : Bool :=
  match t with
  | [] => false
  | p :: _ => c.spot.line ≠ p.line || 1024 < p.index - c.spot.index

/-- Gives up a candidate, which must not be a required key. -/
def giveUp? : Option Candidate → Option (Option Candidate)
  | some c => if c.required then none else some none
  | none => some none

def refresh? (t : Text) (c : Option Candidate) : Option (Option Candidate) :=
  if c.any (isStale t) then giveUp? c else some c

def forgetStale? (s : Scan) : Option Scan := do
  let candidate ← refresh? s.text s.candidate
  let levels ← s.levels.mapM fun (b, c) => (refresh? s.text c).map (b, ·)
  return { s with candidate := candidate, levels := levels }

def dropCandidate? (s : Scan) : Option Scan := do
  return { s with candidate := ← giveUp? s.candidate }

def nominate? (s : Scan) : Option Scan :=
  match s.text with
  | [] => some s
  | p :: _ => do
    if !s.keyAllowed then some s
    else
      let s ← s.dropCandidate?
      return { s with
        candidate := some
          ⟨s.tokens.length, !s.inFlow && s.columns.head? == some p.column, p⟩ }

/-! Indentation -/

/-- Ends the block collections for which `stays` fails; brackets suspend indentation. -/
def unwind (stays : Nat → Bool) (s : Scan) : Scan :=
  if s.inFlow then s
  else
    let ended := s.columns.takeWhile (!stays ·)
    { s with
      columns := s.columns.drop ended.length
      tokens := List.replicate ended.length .blockEnd ++ s.tokens }

/-- Begins a block collection after the first `n` tokens, unless one is open at the column. -/
def indent (column n : Nat) (k : Token) (s : Scan) : Scan :=
  if !s.inFlow && s.margin ≤ column then
    { s.insert n k with columns := column :: s.columns }
  else s

/-! Between tokens -/

def skipSpace (inFlow : Bool) : (inComment : Bool) → Text → Bool × Text
  | _, [] => (false, [])
  | inComment, p :: t =>
    if inComment && !endsLine p.char then skipSpace inFlow true t
    else if isBreak p.char then (true, (skipSpace inFlow false t).2)
    else if p.char = ' ' || (inFlow && p.char = '\t') then skipSpace inFlow false t
    else if p.char = '#' then skipSpace inFlow true t
    else (false, p :: t)

/-- Goes to the next token. Outside of brackets a key may start on a new line. -/
def advance? (s : Scan) : Option Scan := do
  let (broken, t) := skipSpace s.inFlow false s.text
  let s ← forgetStale? { s with text := t, keyAllowed := s.keyAllowed || (broken && !s.inFlow) }
  match t with
  | [] => some s
  | p :: _ => return s.unwind (· ≤ p.column)

/-! Tokens -/

def take (k : Token) (width : Nat) (keyAllowed : Bool) (s : Scan) : Scan :=
  { s.emit k with text := s.text.drop width, keyAllowed := keyAllowed }

def takeRead (k : Token) (rest : Text) (s : Scan) : Scan := { s.emit k with text := rest }

def endBlocks? (s : Scan) : Option Scan := do
  let s ← (s.unwind fun _ => false).dropCandidate?
  return { s with keyAllowed := false }

def directive? (s : Scan) : Option Scan := do
  let s ← s.endBlocks?
  let (d, rest) ← Directive.read? s.legacy (s.text.drop 1)
  let legacy := match d with
    | .version major minor => major == 1 && minor == 1
    | _ => s.legacy
  return { s.takeRead (.directive d) rest with legacy := legacy }

def marker? (k : Token) (s : Scan) : Option Scan := do
  return (← s.endBlocks?).take k 3 false

def opening? (b : Bracket) (s : Scan) : Option Scan := do
  let s ← s.nominate?
  return { s.take (.opening b) 1 true with
    levels := (b, s.candidate) :: s.levels
    candidate := none }

def closing? (b : Bracket) (s : Scan) : Option Scan := do
  let s ← s.dropCandidate?
  let s := s.take (.closing b) 1 false
  match s.levels with
  | [] => some s
  | (_, c) :: outer => some { s with levels := outer, candidate := c }

def comma? (s : Scan) : Option Scan := do
  return (← s.dropCandidate?).take .comma 1 true

/-- An entry of a block sequence, or a key marked as such; in a block it starts a line. -/
def marked? (collection k : Token) (column : Nat) (keyAllowed : Bool) (s : Scan) : Option Scan := do
  if !s.inFlow && !s.keyAllowed then none
  else
    let s ← (s.indent column s.tokens.length collection).dropCandidate?
    return s.take k 1 keyAllowed

/-- The colon: what it follows is a key, the candidate if there is one. -/
def value? (column : Nat) (s : Scan) : Option Scan :=
  match s.candidate with
  | some c =>
    let s := (s.insert c.number .key).indent c.spot.column c.number .blockMapping
    some { s.take .value 1 false with candidate := none }
  | none => s.marked? .blockMapping .value column (!s.inFlow)

def isValue (pending : Bool) (after : Option Char) (s : Scan) : Bool :=
  match s.levels with
  | [] => isGap after
  | (b, _) :: _ =>
    s.legacy || isGap after ||
      !(b = .square || (pending && s.tokens.head? == some .value))

def content? (read : Text → Option (Token × Text)) (s : Scan) : Option Scan := do
  let s ← s.nominate?
  let (k, rest) ← read s.text
  return { s.takeRead k rest with keyAllowed := false }

def plain? (s : Scan) : Option Scan := do
  let s ← s.nominate?
  let r := Plain.read ⟨s.inFlow, s.legacy⟩ s.margin s.text
  return { s.takeRead (.scalar (String.ofList r.text) true) r.rest with keyAllowed := r.broken }

def block? (folded : Bool) (s : Scan) : Option Scan := do
  let s ← s.dropCandidate?
  let (cs, rest) ← BlockScalar.read? folded s.margin (s.text.drop 1)
  return { s.takeRead (.scalar (String.ofList cs) false) rest with keyAllowed := true }

def quoted (double : Bool) (t : Text) : Option (Token × Text) := do
  let (cs, rest) ← QuotedScalar.read? double (t.drop 1)
  return (.scalar (String.ofList cs) false, rest)

def named (k : String → Token) (t : Text) : Option (Token × Text) := do
  let (name, rest) ← Property.name? (t.drop 1)
  return (k name, rest)

def tagged (legacy : Bool) (t : Text) : Option (Token × Text) := do
  let (tag, rest) ← Property.tag? legacy t
  return (.tag tag, rest)

def token? (pending : Bool) (s : Scan) : Option Scan :=
  match s.text with
  | [] => none
  | p :: rest =>
    let after := Text.next rest
    if p.column = 0 && p.char = '%' then s.directive?
    else if p.column = 0 && s.text.isMarkerOf '-' then s.marker? .documentStart
    else if p.column = 0 && s.text.isMarkerOf '.' then s.marker? .documentEnd
    else if p.char = '-' && isGap after then s.marked? .blockSequence .entry p.column true
    else if p.char = '?' && (s.inFlow || isGap after) then
      s.marked? .blockMapping .key p.column (!s.inFlow)
    else if p.char = ':' && s.isValue pending after then s.value? p.column
    else if Plain.mayStart ⟨s.inFlow, s.legacy⟩ p.char after then s.plain?
    else
      match p.char with
      | '[' => s.opening? .square
      | '{' => s.opening? .curly
      | ']' => s.closing? .square
      | '}' => s.closing? .curly
      | ',' => s.comma?
      | '*' => s.content? (named .alias)
      | '&' => s.content? (named .anchor)
      | '!' => s.content? (tagged s.legacy)
      | '\'' => s.content? (quoted false)
      | '"' => s.content? (quoted true)
      | '|' => if s.inFlow then none else s.block? false
      | '>' => if s.inFlow then none else s.block? true
      | _ => none

def finish? (s : Scan) : Option Scan := do
  return (← (s.unwind fun _ => false).dropCandidate?).emit .streamEnd

/-- The tokens that no key can come before any more. -/
def settled (s : Scan) : Nat :=
  let numbers := (s.candidate :: s.levels.map (·.2)).filterMap (·.map Candidate.number)
  numbers.foldl min s.tokens.length

/-- The first `n` tokens of a text that makes no sense after them. -/
def cut (n : Nat) (s : Scan) : List Token := s.tokens.reverse.take n ++ [.broken]

/-- `fuel` bounds the tokens still to be read, and `sure` says how many were settled when the last
one was. -/
def run (fuel sure : Nat) (s : Scan) : List Token :=
  match fuel with
  | 0 => s.cut sure
  | fuel + 1 =>
    match s.forgetStale? with
    | none => s.cut sure
    | some s =>
      let sure := s.settled
      match s.advance? with
      | none => s.cut sure
      | some t =>
        if t.text.isEmpty then
          match t.finish? with
          | none => s.cut sure
          | some t => t.tokens.reverse
        else
          match t.token? (sure < s.tokens.length) with
          | none => s.cut sure
          | some t => run fuel sure t

end Scan

/-- The tokens of a text; a byte order mark in front of it is skipped. -/
def Token.ofText (t : Text) : List Token :=
  let t := match t with
    | s :: rest => if s.char = '\ufeff' then rest else s :: rest
    | [] => []
  ({ text := t } : Scan).run (t.length + 1) 0

end PolicyAudit.Yaml
