/-! Classes of characters: white space, digits and line ends.
Each script that writes numbers in tens has its ten digits in a row, so the zeros suffice to tell a
digit's value. Hexadecimal digits may be of either case. -/

namespace PolicyAudit

namespace Blank

def isBlank (c : Char) : Bool :=
  let n := c.toNat
  (9 ≤ n && n ≤ 13) || n = 0x20 || n = 0x85 || n = 0xa0 || n = 0x1680 ||
    (0x2000 ≤ n && n ≤ 0x200a) || n = 0x2028 || n = 0x2029 || n = 0x202f || n = 0x205f || n = 0x3000

def trim (cs : List Char) : List Char :=
  ((cs.dropWhile isBlank).reverse.dropWhile isBlank).reverse

end Blank

namespace Lines

/-- A carriage return, with or without a line feed after it, is one line feed. -/
def unify : List Char → List Char
  | '\r' :: '\n' :: cs => '\n' :: unify cs
  | '\r' :: cs => '\n' :: unify cs
  | c :: cs => c :: unify cs
  | [] => []

end Lines

namespace Digit

def zeros : List Nat := [
  0x30, 0x660, 0x6f0, 0x7c0, 0x966, 0x9e6, 0xa66, 0xae6, 0xb66, 0xbe6, 0xc66, 0xce6, 0xd66, 0xde6,
  0xe50, 0xed0, 0xf20, 0x1040, 0x1090, 0x17e0, 0x1810, 0x1946, 0x19d0, 0x1a80, 0x1a90, 0x1b50,
  0x1bb0, 0x1c40, 0x1c50, 0xa620, 0xa8d0, 0xa900, 0xa9d0, 0xa9f0, 0xaa50, 0xabf0, 0xff10, 0x104a0,
  0x10d30, 0x11066, 0x110f0, 0x11136, 0x111d0, 0x112f0, 0x11450, 0x114d0, 0x11650, 0x116c0,
  0x11730, 0x118e0, 0x11950, 0x11c50, 0x11d50, 0x11da0, 0x11f50, 0x16a60, 0x16ac0, 0x16b50,
  0x1d7ce, 0x1d7d8, 0x1d7e2, 0x1d7ec, 0x1d7f6, 0x1e140, 0x1e2f0, 0x1e4f0, 0x1e950, 0x1fbf0]

def value? (c : Char) : Option Nat :=
  (zeros.find? fun z => z ≤ c.toNat && c.toNat < z + 10).map (c.toNat - ·)

example : value? '7' = some 7 ∧ value? 'x' = none := by decide

end Digit

namespace Hex

def value? (c : Char) : Option Nat :=
  let n := c.toNat
  if 0x30 ≤ n ∧ n ≤ 0x39 then some (n - 0x30)
  else if 0x61 ≤ n ∧ n ≤ 0x66 then some (n - 0x57)
  else if 0x41 ≤ n ∧ n ≤ 0x46 then some (n - 0x37)
  else none

def byte? (a b : Char) : Option UInt8 := do
  return .ofNat (16 * (← value? a) + (← value? b))

def number? (cs : List Char) : Option Nat :=
  cs.foldlM (fun n c => do return 16 * n + (← value? c)) 0

example : number? "1F".toList = some 31 ∧ number? "g".toList = none := by decide

end Hex

end PolicyAudit
