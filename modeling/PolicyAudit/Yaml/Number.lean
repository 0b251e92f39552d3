import PolicyAudit.Number.Binary64
import PolicyAudit.Text.Character

/-! Numbers as scalars write them.
Underscores do not count. By the rules of version 1.1 a leading zero makes a whole number octal and
colons separate sixties. -/

namespace PolicyAudit.Yaml.Number

inductive Failure
  | malformed
  /-- Nothing is left to read. -/
  | empty
  deriving DecidableEq, Repr

def digitIn? (base : Nat) (c : Char) : Option Nat := do
  let n ← (Digit.value? c).or
    (if 'a' ≤ c ∧ c ≤ 'z' then some (c.toNat - 87)
    else if 'A' ≤ c ∧ c ≤ 'Z' then some (c.toNat - 55) else none)
  if n < base then some n else none

def splitSign (cs : List Char) : Bool × List Char :=
  match cs with
  | '-' :: rest => (true, rest)
  | '+' :: rest => (false, rest)
  | rest => (false, rest)

def signed (negative : Bool) (n : Int) : Int := if negative then -n else n

/-- Digits with a sign and blanks around them; of decimal digits at most 4300. -/
def whole? (base : Nat) (cs : List Char) : Option Int := do
  let (negative, ds) := splitSign (Blank.trim cs)
  if ds.isEmpty ∨ (base = 10 ∧ 4300 < ds.length) then none
  else
    let n ← ds.foldlM (fun n c => do return base * n + (← digitIn? base c)) 0
    return signed negative (n : Nat)

def sixties (parts : List Int) : Int := parts.foldl (60 * · + ·) 0

def unsignedInt (legacy : Bool) (cs : List Char) : Except Failure Int :=
  let orMalformed (n : Option Int) : Except Failure Int := n.elim (.error .malformed) .ok
  match cs with
  | '0' :: 'b' :: ds => orMalformed (whole? 2 ds)
  | '0' :: 'x' :: ds => orMalformed (whole? 16 ds)
  | '0' :: 'o' :: ds => orMalformed (whole? 8 ds)
  | cs =>
    if !legacy then orMalformed (whole? 10 cs)
    else
      match cs with
      | [] => .error .empty
      | '0' :: _ => orMalformed (whole? 8 cs)
      | cs =>
        if cs.contains ':' then orMalformed ((cs.splitOn ':').mapM (whole? 10) |>.map sixties)
        else orMalformed (whole? 10 cs)

def int (legacy : Bool) (text : String) : Except Failure Int :=
  match text.toList.filter (· ≠ '_') with
  | [] => .error .empty
  | cs => let (negative, cs) := splitSign cs; (unsignedInt legacy cs).map (signed negative)

def decimal? (negative : Bool) (cs : List Char) : Option Binary64 := do
  let whole := cs.takeWhile fun c => (digitIn? 10 c).isSome
  let rest := cs.drop whole.length
  let (fraction, rest) := match rest with
    | '.' :: rest => (rest.takeWhile (fun c => (digitIn? 10 c).isSome),
        rest.dropWhile (fun c => (digitIn? 10 c).isSome))
    | rest => ([], rest)
  if whole.isEmpty ∧ fraction.isEmpty then none
  else
    let e ← match rest with
      | [] => some 0
      | 'e' :: ds => if ds.any Blank.isBlank then none else whole? 10 ds
      | _ => none
    let n ← (whole ++ fraction).foldlM (fun n c => do return 10 * n + (← digitIn? 10 c)) 0
    return .ofDecimal negative n (e - fraction.length)

def signedReal? (cs : List Char) : Option Binary64 :=
  let (negative, cs) := splitSign (Blank.trim cs)
  let word := String.ofList cs
  if word = "inf" ∨ word = "infinity" then some (.infinite negative)
  else if word = "nan" then some .nan
  else decimal? negative cs

def negate (x : Binary64) : Binary64 :=
  match x with
  | .finite s m e => .finite (!s) m e
  | .infinite s => .infinite (!s)
  | .nan => .nan

def realSixties? (parts : List Binary64) : Option Binary64 := do
  let rec go (base : Nat) (sum : Binary64) : List Binary64 → Option Binary64
    | [] => some sum
    | x :: xs => do go (base * 60) (← sum.add? (← x.mulNat? base)) xs
  go 1 (.finite false 0 0) parts.reverse

def real (legacy : Bool) (text : String) : Except Failure Binary64 :=
  match (text.toList.filter (· ≠ '_')).map Char.toLower with
  | [] => .error .empty
  | cs =>
    let (negative, cs) := splitSign cs
    let x :=
      if String.ofList cs = ".inf" then some (.infinite false)
      else if String.ofList cs = ".nan" then some .nan
      else if legacy && cs.contains ':' then (cs.splitOn ':').mapM signedReal? |>.bind realSixties?
      else signedReal? cs
    (x.map fun x => if negative then negate x else x).elim (.error .malformed) .ok

end PolicyAudit.Yaml.Number
