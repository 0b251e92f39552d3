import PolicyAudit.Yaml.Spot

/-! Plain scalars: text without quotes.
Where such a text ends depends on the characters after it and on whether it stands between
brackets. Over several lines it is folded: one break counts as a space, of more breaks the first is
dropped. -/

namespace PolicyAudit.Yaml

structure Setting where
  /-- Between brackets. -/
  inFlow : Bool
  /-- By the rules of version 1.1. -/
  legacy : Bool
  deriving DecidableEq, Repr

namespace Plain

def indicators : List Char := "-?:,[]\x7b\x7d#&*!|>'\"%@\x60".toList

def mayStart (s : Setting) (c : Char) (after : Option Char) : Bool :=
  !(isWhite c || isBreak c || indicators.contains c) ||
    (!s.legacy && c = ':' && s.inFlow && !after.any isWhite) ||
    (!isGap after && (c = '-' || (!s.inFlow && (c = '?' || c = ':'))))

def flowEnds : List Char := [',', ':', '?', '[', ']', '{', '}']

def endsAt (s : Setting) (c : Char) (after : Option Char) : Bool :=
  if c = ':' && !isGap after then false
  else if c = '?' && !s.legacy then false
  else isGap (some c) || (!s.inFlow && c = ':') || (s.inFlow && flowEnds.contains c)

def word (s : Setting) : Text → List Char × Text
  | [] => ([], [])
  | p :: t =>
    if endsAt s p.char (Text.next t) then ([], p :: t) else ((word s t).1.cons p.char, (word s t).2)

/-- The breaks before the next line that is not empty; none if a document marker comes first. -/
def emptyLines : Text → Option (List Char) × Text
  | [] => (some [], [])
  | p :: t =>
    if p.char = ' ' then emptyLines t
    else if isBreak p.char then
      if Text.isMarker t then (none, t)
      else ((emptyLines t).1.map (breakValue p.char :: ·), (emptyLines t).2)
    else (some [], p :: t)

structure Gap where
  /-- The characters the gap counts as; none where the scalar ends. -/
  filler : List Char
  /-- Whether a new line was begun. -/
  broken : Bool
  rest : Text

def gap (t : Text) : Gap :=
  let (blanks, t) := t.span (· = ' ')
  match t with
  | p :: rest =>
    if isBreak p.char then
      if Text.isMarker rest then ⟨[], true, rest⟩
      else
        match emptyLines rest with
        | (some more, rest) => ⟨folded (breakValue p.char) more, true, rest⟩
        | (none, rest) => ⟨[], true, rest⟩
    else ⟨blanks, false, t⟩
  | [] => ⟨blanks, false, []⟩

structure Reading where
  text : List Char
  /-- Whether the scalar's last line is over. -/
  broken : Bool
  rest : Text

/-- Whether `t` can go on with a scalar whose lines start at `margin` or to the right of it. -/
def continues (s : Setting) (margin : Int) : Text → Bool
  | [] => false
  | p :: t =>
    p.char ≠ '#' && (s.inFlow || margin ≤ p.column) && !endsAt s p.char (Text.next t)

def readFrom (s : Setting) (margin : Int) (fuel : Nat) (t : Text) : Reading :=
  match fuel with
  | 0 => ⟨[], false, t⟩
  | fuel + 1 =>
    let (cs, rest) := word s t
    let g := gap rest
    if !g.filler.isEmpty && continues s margin g.rest then
      let more := readFrom s margin fuel g.rest
      { more with text := cs ++ g.filler ++ more.text }
    else ⟨cs, g.broken, g.rest⟩

def read (s : Setting) (margin : Int) (t : Text) : Reading := readFrom s margin (t.length + 1) t

end Plain

end PolicyAudit.Yaml
