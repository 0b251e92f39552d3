import PolicyAudit.Calendar.Date

/-! A date and time of day to the microsecond, with or without an offset from UTC. -/

namespace PolicyAudit

structure Moment where
  date : Date
  hour : Nat
  minute : Nat
  second : Nat
  micro : Nat
  /-- Seconds east of UTC. -/
  offset : Option Int
  deriving DecidableEq, Repr, Inhabited

namespace Moment

def padded (width n : Nat) : List Char :=
  let ds := Nat.toDigits 10 n
  List.replicate (width - ds.length) '0' ++ ds

def atMidnight (d : Date) : Moment := ⟨d, 0, 0, 0, 0, none⟩

def ofUnix (seconds : Int) (micro : Nat) : Moment :=
  let clock := (seconds % 86400).toNat
  { date := Date.ofDays (seconds / 86400)
    hour := clock / 3600
    minute := clock / 60 % 60
    second := clock % 60
    micro := micro
    offset := some 0 }

/-- Seconds since 1970 began, read without regard to the offset. -/
def toUnix (m : Moment) : Int :=
  m.date.toDays * 86400 + (m.hour * 3600 + m.minute * 60 + m.second : Nat)

/-- `YYYY-MM-DDTHH:MM:SS`, and six digits of fraction unless it is zero. -/
def stem (m : Moment) : List Char :=
  padded 4 m.date.year.toNat ++ '-' :: padded 2 m.date.month ++ '-' :: padded 2 m.date.day ++
    'T' :: padded 2 m.hour ++ ':' :: padded 2 m.minute ++ ':' :: padded 2 m.second ++
    (if m.micro = 0 then [] else '.' :: padded 6 m.micro)

def offsetText (seconds : Int) : List Char :=
  (if seconds < 0 then '-' else '+') ::
    padded 2 (seconds.natAbs / 3600) ++ ':' :: padded 2 (seconds.natAbs / 60 % 60)

/-- The offset is always a signed hour and minute. -/
def iso (m : Moment) : String :=
  String.ofList (m.stem ++ (m.offset.map offsetText).getD [])

/-- An offset of zero is written `Z`. -/
def zulu (m : Moment) : String :=
  String.ofList (m.stem ++
    match m.offset with
    | none => []
    | some o => if o = 0 then ['Z'] else offsetText o)

end Moment

end PolicyAudit
