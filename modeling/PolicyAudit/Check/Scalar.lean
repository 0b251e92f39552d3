import PolicyAudit.Check.Checked
import PolicyAudit.Document.Value
import PolicyAudit.Calendar.Rfc3339
import PolicyAudit.Text.Character

/-! Lenient readings of single values.
Numbers may be written as text, truth values as words or as 0 and 1, and bytes stand for the
text they encode. -/

namespace PolicyAudit.Check

def decoded? (bs : List UInt8) : Option String := String.fromUTF8? ⟨bs.toArray⟩

def text : Value → Checked String
  | .text s => .accepted s
  | .bytes bs =>
    match decoded? bs with
    | some s => .accepted s
    | none => .fail .notUtf8
  | _ => .fail .notText

def groupedDigits? (cs : List Char) : Option (List Char) :=
  let groups := cs.splitOn '_'
  if groups.all fun g => !g.isEmpty && g.all Char.isDigit then some groups.flatten else none

/-- The part before a point that only zeros follow. -/
def wholePart (cs : List Char) : List Char :=
  match cs.splitOn '.' with
  | [whole, zeros] => if !zeros.isEmpty && zeros.all (· == '0') then whole else cs
  | _ => cs

def intOfText (s : String) : Checked Int :=
  let (negative, cs) := match Blank.trim s.toList with
    | '-' :: cs => (true, cs)
    | '+' :: cs => (false, cs)
    | cs => (false, cs)
  match groupedDigits? (wholePart cs) with
  | none => .fail .unreadableInt
  | some ds =>
    if 4300 < (ds.dropWhile (· == '0')).length then .fail .oversizedInt
    else
      let n : Int := Nat.ofDigitChars 10 ds 0
      .accepted (if negative then -n else n)

def intOfReal (x : Binary64) : Checked Int :=
  if !x.isFinite then .fail .infiniteInt
  else
    match x.toInt? with
    | none => .fail .fractionalInt
    | some n => if n.natAbs < Nat.pow 2 63 then .accepted n else .fail .oversizedInt

def int : Value → Checked Int
  | .int n => .accepted n
  | .bool b => .accepted (if b then 1 else 0)
  | .real x => intOfReal x
  | .text s => intOfText s
  | .bytes bs =>
    match decoded? bs with
    | some s => intOfText s
    | none => .fail .unreadableInt
  | _ => .fail .notInt

def nat (v : Value) : Checked Nat :=
  match int v with
  | .accepted (.ofNat n) => .accepted n
  | .accepted (.negSucc _) => .fail .negative
  | .rejected is => .rejected is

def trueWords : List String := ["1", "true", "t", "yes", "y", "on"]

def falseWords : List String := ["0", "false", "f", "no", "n", "off"]

def boolOfText (s : String) : Checked Bool :=
  let word := s.map Char.toLower
  if trueWords.contains word then .accepted true
  else if falseWords.contains word then .accepted false
  else .fail .unreadableBool

def boolOfInt (n : Int) : Checked Bool :=
  if n = 1 then .accepted true
  else if n = 0 then .accepted false
  else .fail .unreadableBool

def bool : Value → Checked Bool
  | .bool b => .accepted b
  | .int n => boolOfInt n
  | .real x =>
    match x.toInt? with
    | some n => if n.natAbs < Nat.pow 2 63 then boolOfInt n else .fail .notBool
    | none => .fail .notBool
  | .text s => boolOfText s
  | .bytes bs =>
    match decoded? bs with
    | some s => boolOfText s
    | none => .fail .unreadableBool
  | _ => .fail .notBool

def momentOfText (s : String) : Checked Moment :=
  match Moment.ofText? s.toList with
  | some m => .accepted m
  | none => .fail .unreadableMoment

def moment : Value → Checked Moment
  | .moment m => .accepted m
  | .text s => momentOfText s
  | .bytes bs =>
    match decoded? bs with
    | some s => momentOfText s
    | none => .fail .unreadableMoment
  | .int n =>
    match Moment.ofNumber? n 0 with
    | some m => .accepted m
    | none => .fail .momentOutOfRange
  | .real x =>
    match Moment.ofReal? x with
    | some m => .accepted m
    | none => .fail .momentOutOfRange
  | _ => .fail .notMoment

end PolicyAudit.Check
