/-! Bytes written in base 64.
Characters outside the alphabet are passed over, and padding that completes a group of four ends
the text. -/

namespace PolicyAudit.Base64

def digit? (c : Char) : Option Nat :=
  if 'A' ≤ c ∧ c ≤ 'Z' then some (c.toNat - 65)
  else if 'a' ≤ c ∧ c ≤ 'z' then some (c.toNat - 71)
  else if c.isDigit then some (c.toNat + 4)
  else if c = '+' then some 62
  else if c = '/' then some 63
  else none

def bytes? : List Nat → Option (List UInt8)
  | [] => some []
  | [a, b] => some [.ofNat (a * 4 + b / 16)]
  | [a, b, c] => some [.ofNat (a * 4 + b / 16), .ofNat (b * 16 + c / 4)]
  | [a, b, c, d] =>
    some [.ofNat (a * 4 + b / 16), .ofNat (b * 16 + c / 4), .ofNat (c * 64 + d)]
  | _ => none

/-- `group` holds the digits of the unfinished group, `pads` the padding met since its last one. -/
def decodeFrom (group : List Nat) (pads : Nat) : List Char → Option (List UInt8)
  | [] => if group.isEmpty then some [] else none
  | c :: cs =>
    if c = '=' then
      if 2 ≤ group.length then
        if 4 ≤ group.length + pads + 1 then bytes? group else decodeFrom group (pads + 1) cs
      else decodeFrom group pads cs
    else
      match digit? c with
      | none => decodeFrom group pads cs
      | some d =>
        if group.length = 3 then do return (← bytes? (group ++ [d])) ++ (← decodeFrom [] 0 cs)
        else decodeFrom (group ++ [d]) 0 cs

def decode? (cs : List Char) : Option (List UInt8) := decodeFrom [] 0 cs

example : decode? "UG9s\nIGE=".toList = some [80, 111, 108, 32, 97] := by decide

end PolicyAudit.Base64
