import PolicyAudit.Calendar.Moment
import PolicyAudit.Number.Binary64

/-! Moments from text and numbers.
Text is `YYYY-MM-DD`, alone or with a time after `T`, `t`, a space or `_`; the time is
`HH:MM[:SS[.fraction]]` with an optional offset, and digits beyond the microsecond are cut.
A number counts seconds since 1970 began in UTC, or milliseconds when it exceeds 2e10 in size. -/

namespace PolicyAudit.Moment

def two? : List Char → Option (Nat × List Char)
  | a :: b :: cs =>
    if a.isDigit ∧ b.isDigit then some (10 * (a.toNat - 48) + (b.toNat - 48), cs) else none
  | _ => none

def date? (cs : List Char) : Option (Date × List Char) := do
  let (century, cs) ← two? cs
  let (year, cs) ← two? cs
  let '-' :: cs := cs | none
  let (month, cs) ← two? cs
  let '-' :: cs := cs | none
  let (day, cs) ← two? cs
  let d ← Date.make? (100 * century + year : Nat) month day
  if d.year = 0 then none else some (d, cs)

def micros (ds : List Char) : Nat :=
  let ds := ds.take 6
  Nat.ofDigitChars 10 ds 0 * Nat.pow 10 (6 - ds.length)

/-- Seconds and their fraction, both zero when no colon follows. -/
def seconds? : List Char → Option (Nat × Nat × List Char)
  | ':' :: cs => do
    let (second, cs) ← two? cs
    if 59 < second then none
    else
      match cs with
      | c :: rest =>
        if c = '.' ∨ c = ',' then
          let ds := rest.takeWhile Char.isDigit
          if ds.isEmpty then none else some (second, micros ds, rest.drop ds.length)
        else some (second, 0, c :: rest)
      | [] => some (second, 0, [])
  | cs => some (0, 0, cs)

def signedOffset? (negative : Bool) (cs : List Char) : Option Int := do
  let (hour, cs) ← two? cs
  let (minute, rest) ← two? (match cs with
    | ':' :: cs => cs
    | cs => cs)
  let n : Int := (3600 * hour + 60 * minute : Nat)
  if rest.isEmpty ∧ minute < 60 ∧ hour < 24 then some (if negative then -n else n) else none

/-- The offset that ends a text, in seconds; a minus may be the mathematical sign. -/
def offset? : List Char → Option (Option Int)
  | [] => some none
  | [c] => if c = 'Z' ∨ c = 'z' then some (some 0) else none
  | sign :: cs =>
    if sign = '+' then (signedOffset? false cs).map some
    else if sign = '-' ∨ sign = '\u2212' then (signedOffset? true cs).map some
    else none

def ofRfc3339? (cs : List Char) : Option Moment := do
  let (date, cs) ← date? cs
  match cs with
  | [] => return atMidnight date
  | c :: cs =>
    if c = 'T' ∨ c = 't' ∨ c = ' ' ∨ c = '_' then do
      let (hour, cs) ← two? cs
      let ':' :: cs := cs | none
      let (minute, cs) ← two? cs
      let (second, micro, cs) ← seconds? cs
      let offset ← offset? cs
      if hour < 24 ∧ minute < 60 then return ⟨date, hour, minute, second, micro, offset⟩ else none
    else none

/-- Whole units and extra microseconds since 1970 began; years 1 to 9999 only. -/
def ofNumber? (n : Int) (micro : Nat) : Option Moment :=
  let (seconds, extra) :=
    if n.natAbs ≤ 20000000000 then (n, 0) else (n / 1000, (n % 1000).toNat * 1000)
  let total := micro + extra
  let seconds := seconds + (total / 1000000 : Nat)
  if -62135596800 ≤ seconds ∧ seconds ≤ 253402300799 then
    some (ofUnix seconds (total % 1000000))
  else none

/-- The nearest whole number, a half going away from zero. -/
def roundAway (x : Binary64) : Option Nat := do
  let n ← x.numerator?
  return (2 * n.natAbs + x.denominator) / (2 * x.denominator)

def ofReal? (x : Binary64) : Option Moment := do
  let whole ← x.floor?
  let micro ← (← x.fraction?).mulNat? 1000000
  ofNumber? whole (← roundAway micro)

/-- A number with a point is in seconds up to 2e10 in size, in milliseconds above. -/
def ofPointed? (x : Binary64) : Option Moment := do
  let n ← x.numerator?
  let x ← if n.natAbs ≤ 20000000000 * x.denominator then some x else x.divNat? 1000
  let whole ← x.floor?
  let rest ← x.add? (.ofRatio (-whole) 1)
  ofNumber? whole (← roundAway (← rest.mulNat? 1000000))

def ofDigits? (cs : List Char) : Option Moment :=
  let (negative, cs) := match cs with
    | '-' :: cs => (true, cs)
    | '+' :: cs => (false, cs)
    | cs => (false, cs)
  let whole := cs.takeWhile Char.isDigit
  if whole.isEmpty then none
  else
    match cs.drop whole.length with
    | [] =>
      let n : Int := Nat.ofDigitChars 10 whole 0
      ofNumber? (if negative then -n else n) 0
    | '.' :: fraction =>
      if fraction.all Char.isDigit then
        ofPointed? (.ofDecimal negative (Nat.ofDigitChars 10 (whole ++ fraction) 0)
          (-(fraction.length : Int)))
      else none
    | _ => none

def ofText? (cs : List Char) : Option Moment := (ofRfc3339? cs).or (ofDigits? cs)

end PolicyAudit.Moment
