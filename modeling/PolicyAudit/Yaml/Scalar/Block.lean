import PolicyAudit.Yaml.Spot

/-! Block scalars: lines of text by indentation.
A header says whether lines are folded, how far they are indented and what becomes of the breaks
at the end. -/

namespace PolicyAudit.Yaml.BlockScalar

inductive Chomping
  /-- One break stays. -/
  | clip
  | strip
  | keep
  deriving DecidableEq, Repr

structure Header where
  chomping : Chomping
  /-- The indentation beyond the surrounding one, if given. -/
  indent : Option Nat
  deriving DecidableEq, Repr

def chomping? (c : Char) : Option Chomping :=
  if c = '+' then some .keep else if c = '-' then some .strip else none

def indent? (c : Char) : Option Nat :=
  if '1' ≤ c ∧ c ≤ '9' then some (c.toNat - 48) else none

def Header.ofIndicators? : List Char → Option Header
  | [] => some ⟨.clip, none⟩
  | [c] =>
    match chomping? c with
    | some chomping => some ⟨chomping, none⟩
    | none => (indent? c).map fun n => ⟨.clip, some n⟩
  | [c, d] =>
    match chomping? c with
    | some chomping => (indent? d).map fun n => ⟨chomping, some n⟩
    | none => (indent? c).bind fun n => (chomping? d).map fun chomping => ⟨chomping, some n⟩
  | _ => none

def header? (t : Text) : Option (Header × Text) := do
  let indicators := t.span fun c => c = '+' || c = '-' || c.isDigit
  let header ← Header.ofIndicators? indicators.1
  if !isClosed (Text.next indicators.2) then none
  else return (header, ← indicators.2.finishLine?)

/-- The breaks of the empty lines in front, the greatest column blanks reach among them and the
column of the first break. -/
structure Lead where
  breaks : List Char
  reach : Nat
  first : Option Nat
  rest : Text

def lead : Text → Lead
  | [] => ⟨[], 0, none, []⟩
  | s :: t =>
    if s.char = ' ' then
      let l := lead t
      { l with reach := max (s.column + 1) l.reach }
    else if isBreak s.char then
      let l := lead t
      { l with breaks := breakValue s.char :: l.breaks, first := some s.column }
    else ⟨[], 0, none, s :: t⟩

def breaks (indent : Nat) : Text → List Char × Text
  | [] => ([], [])
  | s :: t =>
    if isBreak s.char then ((breaks indent t).1.cons (breakValue s.char), (breaks indent t).2)
    else if s.char = ' ' ∧ s.column < indent then breaks indent t
    else ([], s :: t)

def isAt (indent : Nat) : Text → Bool
  | s :: _ => s.column = indent
  | [] => false

def line (t : Text) : List Char × Option Char × Text :=
  let (cs, t) := t.span (!endsLine ·)
  match t with
  | s :: rest => (cs, some (breakValue s.char), rest)
  | [] => (cs, none, [])

structure Shape where
  folded : Bool
  indent : Nat
  /-- Whether a document marker ends the text. -/
  atMargin : Bool

/-- What a break counts as between a line and the next, `empty` being the lines between them. -/
def join (folds : Bool) (broken : Option Char) (empty : List Char) : List Char :=
  if folds && broken == some '\n' then if empty.isEmpty then [' '] else [] else broken.toList

/-- The text of the lines at `t`, the break of the last of them and the breaks after it. -/
structure Body where
  text : List Char
  last : Option Char
  trailing : List Char
  rest : Text

/-- `empty` are the breaks in front of `t`; `fuel` bounds the lines. -/
def body (s : Shape) (fuel : Nat) (empty : List Char) (t : Text) : Body :=
  match fuel with
  | 0 => ⟨[], none, empty, t⟩
  | fuel + 1 =>
    if !isAt s.indent t then ⟨[], none, empty, t⟩
    else
      let (cs, broken, rest) := line t
      let (between, rest) := breaks s.indent rest
      let ends := s.atMargin && rest.atMargin && rest.isMarker
      if ends || !isAt s.indent rest then ⟨empty ++ cs, broken, between, rest⟩
      else
        let folds := s.folded && !t.startsWith isWhite && !rest.startsWith isWhite
        let more := body s fuel between rest
        { more with text := empty ++ cs ++ join folds broken between ++ more.text }

def chomp (c : Chomping) (b : Body) : List Char :=
  match c with
  | .strip => b.text
  | .clip => b.text ++ b.last.toList
  | .keep => b.text ++ b.last.toList ++ b.trailing

def read? (folded : Bool) (margin : Nat) (t : Text) : Option (List Char × Text) := do
  let (header, t) ← header? t
  let run (indent : Nat) (atMargin : Bool) (empty : List Char) (rest : Text) :=
    let b := body ⟨folded, indent, atMargin⟩ (rest.length + 1) empty rest
    (chomp header.chomping b, b.rest)
  match header.indent with
  | some n =>
    let indent := max margin 1 + n - 1
    let (empty, rest) := breaks indent t
    return run indent false empty rest
  | none =>
    let l := lead t
    if l.first.any fun first => 0 < first ∧ first < l.reach then none
    else return run (max margin l.reach) (margin = 0) l.breaks l.rest

end PolicyAudit.Yaml.BlockScalar
