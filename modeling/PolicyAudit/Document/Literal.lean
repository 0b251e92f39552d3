import PolicyAudit.Document.Value
import PolicyAudit.Number.Shortest
import PolicyAudit.Text.Quoted

/-! One-line literals of document values, for messages and for the keys that are not text. -/

namespace PolicyAudit

def intDigits (n : Int) : List Char :=
  if n < 0 then '-' :: Nat.toDigits 10 n.natAbs else Nat.toDigits 10 n.natAbs

namespace Moment

/-- Date and time as a call of their constructor; trailing zeros of the time are left out. -/
def literal (m : Moment) : List Char :=
  let nat n := Nat.toDigits 10 n
  let date := intDigits m.date.year ++ ", ".toList ++ nat m.date.month ++ ", ".toList ++ nat m.date.day
  let time := ", ".toList ++ nat m.hour ++ ", ".toList ++ nat m.minute ++
    (if m.second = 0 ∧ m.micro = 0 then [] else ", ".toList ++ nat m.second) ++
    (if m.micro = 0 then [] else ", ".toList ++ nat m.micro)
  let zone := if m.offset.isSome then ", tzinfo=datetime.timezone.utc".toList else []
  "datetime.datetime(".toList ++ date ++ time ++ zone ++ [')']

end Moment

namespace Value

mutual

def literal : Value → List Char
  | .null => "None".toList
  | .bool b => (if b then "True" else "False").toList
  | .int n => intDigits n
  | .real x => x.literal
  | .text s => Quoted.quote s.toList
  | .bytes bs => 'b' :: Quoted.quote (bs.map fun b => Char.ofNat b.toNat)
  | .moment m => m.literal
  | .list [v] => '(' :: literal v ++ ",)".toList
  | .list items => '(' :: literals items ++ [')']
  | .pair v w => '(' :: literal v ++ ", ".toList ++ literal w ++ [')']
  | .map _ => "{}".toList

def literals : List Value → List Char
  | [] => []
  | [v] => literal v
  | v :: vs => literal v ++ ", ".toList ++ literals vs

end

/-- A key as paths show it: truth values count as numbers there. -/
def toKey : Value → Key
  | .text s => .text s
  | .bool b => .other (if b then "1" else "0")
  | v => .other (String.ofList v.literal)

end Value

end PolicyAudit
