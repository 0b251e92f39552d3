import PolicyAudit.Check.Record
import PolicyAudit.Document.Literal

/-! When a result was found: seconds and nanoseconds since 1970 began.
Both are combined in binary64 arithmetic, `seconds + nanos / 10⁹`, and the sum is then rounded to
whole microseconds, a half going to the even one. -/

namespace PolicyAudit

open Check

structure Timestamp where
  seconds : Int
  nanos : Int
  deriving DecidableEq, Repr, Inhabited

inductive TimeError
  | beyondReals
  | beyondSeconds
  | beyondYears
  | year (y : Int)
  deriving DecidableEq, Repr

namespace TimeError

def message : TimeError → String
  | beyondReals => "int too large to convert to float"
  | beyondSeconds => "timestamp out of range for platform time_t"
  | beyondYears => ""
  | year y => "year " ++ String.ofList (intDigits y) ++ " is out of range"

end TimeError

namespace Timestamp

def ofValue : Value → Checked Timestamp :=
  record fun es =>
    Timestamp.mk <$> withDefault es "seconds" 0 int <*> withDefault es "nanos" 0 int

def toValue (t : Timestamp) : Value :=
  .record [("seconds", .int t.seconds), ("nanos", .int t.nanos)]

def toReal (t : Timestamp) : Except TimeError Binary64 :=
  match Binary64.ofInt? t.nanos, Binary64.ofInt? t.seconds with
  | some nanos, some seconds =>
    match (nanos.divNat? 1000000000).bind seconds.add? with
    | some x => .ok x
    | none => .error .beyondSeconds
  | _, _ => .error .beyondReals

/-- Whole part and fraction of a number of seconds, in microseconds together. The fraction is
scaled in binary64 before it is rounded. -/
def microseconds? (x : Binary64) : Option Int := do
  let whole ← x.truncate?
  let fraction ← (← (← x.fraction?).mulNat? 1000000).round?
  return whole * 1000000 + fraction

/-- The year of a date as a 32-bit count from 1900 can hold it. -/
def shownYear (year : Int) : Except TimeError Int :=
  if (year - 1900).bmod (Nat.pow 2 32) = year - 1900 then .ok (year.bmod (Nat.pow 2 32))
  else .error .beyondYears

def momentOf (micros : Int) : Except TimeError Moment := do
  let seconds := micros / 1000000
  -- Compared in binary64, where the greatest 64-bit count is `2 ^ 63` itself, so that one goes on.
  if Nat.pow 2 63 < seconds.natAbs then throw .beyondSeconds
  let m := Moment.ofUnix seconds (micros % 1000000).toNat
  let year ← shownYear m.date.year
  if 1 ≤ year ∧ year ≤ 9999 then return m else throw (.year year)

def toMoment (t : Timestamp) : Except TimeError Moment := do
  match microseconds? (← t.toReal) with
  | some micros => momentOf micros
  | none => throw .beyondSeconds

def iso (t : Timestamp) : Except TimeError String := Moment.iso <$> t.toMoment

end Timestamp

end PolicyAudit
