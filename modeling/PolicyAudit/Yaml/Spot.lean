/-! Text with the place of every character.
Only a line feed begins a new line of places; the other breaks are characters of their line. A
byte order mark takes no column. -/

namespace PolicyAudit.Yaml

def isAllowed (c : Char) : Bool :=
  c = '\t' || c = '\n' || (' ' ≤ c && c ≤ '~') || c = '\u0085' ||
    ('\u00a0' ≤ c && c ≤ '\ufffd') || 0x10000 ≤ c.toNat

def isBreak (c : Char) : Bool := c = '\n' || c = '\u0085' || c = '\u2028' || c = '\u2029'

def breakValue (c : Char) : Char := if c = '\u0085' then '\n' else c

/-- What a break and the further breaks after it count as within a text: one line feed is a space,
and of more the first is dropped. -/
def folded (first : Char) (more : List Char) : List Char :=
  if first ≠ '\n' then first :: more else if more.isEmpty then [' '] else more

def endsLine (c : Char) : Bool := c = '\n' || c = '\u0085'

def isWhite (c : Char) : Bool := c = ' ' || c = '\t'

/-- What has to follow an indicator: a blank, an end of line or the end of the text. -/
def isGap : Option Char → Bool
  | none => true
  | some c => isWhite c || endsLine c

def isClosed : Option Char → Bool
  | none => true
  | some c => c = ' ' || isBreak c

structure Spot where
  char : Char
  index : Nat
  line : Nat
  column : Nat
  deriving DecidableEq, Repr, Inhabited

namespace Spot

def markFrom (index line column : Nat) : List Char → List Spot
  | [] => []
  | c :: cs =>
    ⟨c, index, line, column⟩ ::
      if c = '\n' then markFrom (index + 1) (line + 1) 0 cs
      else markFrom (index + 1) line (if c = '\ufeff' then column else column + 1) cs

def mark (cs : List Char) : List Spot := markFrom 0 0 0 cs

theorem map_char_markFrom (index line column : Nat) (cs : List Char) :
    (markFrom index line column cs).map char = cs := by
  induction cs generalizing index line column with
  | nil => rfl
  | cons c cs ih => simp only [markFrom, List.map_cons]; split <;> simp [ih]

@[simp] theorem map_char_mark (cs : List Char) : (mark cs).map char = cs :=
  map_char_markFrom 0 0 0 cs

end Spot

abbrev Text := List Spot

namespace Text

def next (t : Text) : Option Char := t.head?.map Spot.char

def startsWith (t : Text) (p : Char → Bool) : Bool := t.next.any p

def span (p : Char → Bool) : Text → List Char × Text
  | [] => ([], [])
  | s :: t => if p s.char then ((span p t).1.cons s.char, (span p t).2) else ([], s :: t)

def skip (p : Char → Bool) (t : Text) : Text := t.dropWhile fun s => p s.char

def skipBreak (t : Text) : Text :=
  match t with
  | s :: rest => if isBreak s.char then rest else t
  | [] => []

def skipComment (t : Text) : Text :=
  if t.startsWith (· = '#') then t.skip (!endsLine ·) else t

def isMarkerOf (c : Char) : Text → Bool
  | x :: y :: z :: rest =>
    x.char = c && y.char = c && z.char = c && isGap (next rest)
  | _ => false

def isMarker (t : Text) : Bool := t.isMarkerOf '-' || t.isMarkerOf '.'

def atMargin (t : Text) : Bool :=
  match t with
  | s :: _ => s.column = 0
  | [] => false

def finishLine? (t : Text) : Option Text :=
  let t := (t.skip (· = ' ')).skipComment
  match t with
  | [] => some []
  | s :: rest => if isBreak s.char then some rest else none

end Text

end PolicyAudit.Yaml
