import PolicyAudit.Text.Character

/-! Layout of a text in a field of given width.
A layout is written `[[fill]align][sign][z][#][0][width][grouping][.precision][type]`. Only
fill, alignment, width and precision mean something for text; the rest is read and refused. -/

namespace PolicyAudit

inductive Align
  | left | right | center | afterSign
  deriving DecidableEq, Repr

structure Layout where
  fill : Char := ' '
  align : Align := .left
  sign : Option Char := none
  positiveZero : Bool := false
  alternate : Bool := false
  width : Nat := 0
  grouping : Option Char := none
  precision : Option Nat := none
  type : Char := 's'
  deriving DecidableEq, Repr

inductive LayoutError
  | tooManyDigits
  | noPrecision
  | bothGroupings
  | grouping (mark type : Char)
  | trailing (written : String)
  | unknownType (type : Char)
  | signed
  | spaced
  | positiveZero
  | alternate
  | afterSign
  deriving DecidableEq, Repr

namespace LayoutError

def shownType (c : Char) : String :=
  if 32 < c.toNat ∧ c.toNat < 128 then String.singleton c
  else "\\x" ++ String.ofList (Nat.toDigits 16 c.toNat)

def message : LayoutError → String
  | tooManyDigits => "Too many decimal digits in format string"
  | noPrecision => "Format specifier missing precision"
  | bothGroupings => "Cannot specify both ',' and '_'."
  | grouping mark type => "Cannot specify '" ++ mark.toString ++ "' with '" ++ shownType type ++ "'."
  | trailing written => "Invalid format specifier '" ++ written ++ "' for object of type 'str'"
  | unknownType type => "Unknown format code '" ++ shownType type ++ "' for object of type 'str'"
  | signed => "Sign not allowed in string format specifier"
  | spaced => "Space not allowed in string format specifier"
  | positiveZero => "Negative zero coercion (z) not allowed in string format specifier"
  | alternate => "Alternate form (#) not allowed in string format specifier"
  | afterSign => "'=' alignment not allowed in string format specifier"

end LayoutError

namespace Layout

def align? : Char → Option Align
  | '<' => some .left
  | '>' => some .right
  | '^' => some .center
  | '=' => some .afterSign
  | _ => none

def skip (c : Char) : List Char → Bool × List Char
  | d :: cs => if d = c then (true, cs) else (false, d :: cs)
  | [] => (false, [])

def number (cs : List Char) : Except LayoutError (Option Nat × List Char) :=
  let ds := (cs.takeWhile fun c => (Digit.value? c).isSome).filterMap Digit.value?
  let n := ds.foldl (fun n d => 10 * n + d) 0
  if Nat.pow 2 63 ≤ n then .error .tooManyDigits
  else .ok (if ds.isEmpty then none else some n, cs.drop ds.length)

/-- Fill and alignment; a character counts as fill only in front of an alignment. -/
def parseAlign : List Char → Option Char × Option Align × List Char
  | c :: d :: cs =>
    match align? d, align? c with
    | some a, _ => (some c, some a, cs)
    | none, some a => (none, some a, d :: cs)
    | none, none => (none, none, c :: d :: cs)
  | [c] =>
    match align? c with
    | some a => (none, some a, [])
    | none => (none, none, [c])
  | [] => (none, none, [])

def parseSign : List Char → Option Char × List Char
  | c :: cs => if c = ' ' ∨ c = '+' ∨ c = '-' then (some c, cs) else (none, c :: cs)
  | [] => (none, [])

def parseGrouping (cs : List Char) : Except LayoutError (Option Char × List Char) :=
  let (comma, cs) := skip ',' cs
  let (underscore, cs) := skip '_' cs
  if underscore && (comma || cs.head? == some ',') then .error .bothGroupings
  else .ok (if comma then some ',' else if underscore then some '_' else none, cs)

def parsePrecision (cs : List Char) : Except LayoutError (Option Nat × List Char) :=
  match skip '.' cs with
  | (false, cs) => .ok (none, cs)
  | (true, cs) => do
    match ← number cs with
    | (none, _) => .error .noPrecision
    | (some n, cs) => .ok (some n, cs)

/-- Commas go with decimal types only, underscores also with the other bases. -/
def groupingAllowed (mark type : Char) : Bool :=
  "defgEG%F".toList.contains type || (mark == '_' && "boxX".toList.contains type)

def parse (spec : List Char) : Except LayoutError Layout := do
  let (fill, align, cs) := parseAlign spec
  let (sign, cs) := parseSign cs
  let (positiveZero, cs) := skip 'z' cs
  let (alternate, cs) := skip '#' cs
  let (zero, cs) := if fill.isSome then (false, cs) else skip '0' cs
  let (width, cs) ← number cs
  let (grouping, cs) ← parseGrouping cs
  let (precision, cs) ← parsePrecision cs
  let type ← match cs with
    | [] => .ok 's'
    | [c] => .ok c
    | _ => .error (.trailing (String.ofList spec))
  if let some mark := grouping then
    unless groupingAllowed mark type do throw (.grouping mark type)
  return {
    fill := fill.getD (if zero then '0' else ' ')
    align := align.getD .left
    sign, positiveZero, alternate, grouping, precision, type
    width := width.getD 0 }

def refusal? (l : Layout) : Option LayoutError :=
  if l.type ≠ 's' then some (.unknownType l.type)
  else if l.sign = some ' ' then some .spaced
  else if l.sign.isSome then some .signed
  else if l.positiveZero then some .positiveZero
  else if l.alternate then some .alternate
  else if l.align = .afterSign then some .afterSign
  else none

/-- Cuts to the precision, then fills up to the width; an odd place of a centred text goes right. -/
def lay (l : Layout) (text : List Char) : List Char :=
  let shown := match l.precision with
    | none => text
    | some n => text.take n
  let gap := l.width - shown.length
  let before := match l.align with
    | .left => 0
    | .center => gap / 2
    | .right | .afterSign => gap
  List.replicate before l.fill ++ shown ++ List.replicate (gap - before) l.fill

def format (spec text : String) : Except LayoutError String := do
  let l ← parse spec.toList
  match l.refusal? with
  | some e => throw e
  | none => return String.ofList (l.lay text.toList)

end Layout

end PolicyAudit
