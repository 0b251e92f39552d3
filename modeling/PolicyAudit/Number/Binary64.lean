/-! IEEE 754 binary64 data as exact dyadic numbers.
A finite datum is `± mantissa * 2 ^ exponent`; every operation is the exact one on rationals
followed by one rounding to nearest, ties to even. -/

namespace PolicyAudit

inductive Binary64
  | finite (negative : Bool) (mantissa : Nat) (exponent : Int)
  | infinite (negative : Bool)
  | nan
  deriving DecidableEq, Repr, Inhabited

namespace Binary64

/-- The whole number nearest to `num / den`, a half going to the even neighbour. -/
def roundQuotient (num den : Nat) : Nat :=
  let q := num / den
  let r := num % den
  if 2 * r < den then q
  else if den < 2 * r then q + 1
  else if q % 2 = 0 then q else q + 1

/-- Signed form of `roundQuotient`; the rule for a half does not depend on the sign. -/
def roundHalfEven (num : Int) (den : Nat) : Int :=
  if num < 0 then -(roundQuotient num.natAbs den : Int) else roundQuotient num.natAbs den

def scaleUp (n : Nat) (e : Int) : Nat := n * Nat.pow 2 e.toNat

/-- `⌊log₂ (num / den)⌋` for a positive quotient. -/
def binaryOrder (num den : Nat) : Int :=
  let k : Int := num.log2 - den.log2
  if scaleUp den k ≤ scaleUp num (-k) then k else k - 1

/-- The datum nearest to `num / den`: 53 binary digits, fewer below `2 ^ -1022`. -/
def ofQuotient (negative : Bool) (num den : Nat) : Binary64 :=
  if num = 0 then finite negative 0 0
  else
    let e := max (binaryOrder num den - 52) (-1074)
    let m := roundQuotient (scaleUp num (-e)) (scaleUp den e)
    if m = Nat.pow 2 53 then
      if e < 971 then finite negative (Nat.pow 2 52) (e + 1) else infinite negative
    else if e ≤ 971 then finite negative m e else infinite negative

def ofRatio (num : Int) (den : Nat) : Binary64 := ofQuotient (num < 0) num.natAbs den

/-- Integers that round beyond the finite range have no datum. -/
def ofInt? (n : Int) : Option Binary64 :=
  match ofRatio n 1 with
  | infinite _ => none
  | x => some x

/-- `digits * 10 ^ exponent`. Exponents that leave the range whatever the digits are settled
without forming the power. -/
def ofDecimal (negative : Bool) (digits : Nat) (exponent : Int) : Binary64 :=
  if digits = 0 then finite negative 0 0
  else
    let order : Int := (Nat.toDigits 10 digits).length + exponent
    if 400 < order then infinite negative
    else if order < -400 then finite negative 0 0
    else ofQuotient negative (digits * Nat.pow 10 exponent.toNat) (Nat.pow 10 (-exponent).toNat)

def numerator? : Binary64 → Option Int
  | finite s m e => some (if s then -(scaleUp m e : Int) else scaleUp m e)
  | _ => none

def denominator : Binary64 → Nat
  | finite _ _ e => scaleUp 1 (-e)
  | _ => 1

def add? (x y : Binary64) : Option Binary64 := do
  let a ← x.numerator?
  let b ← y.numerator?
  return ofRatio (a * y.denominator + b * x.denominator) (x.denominator * y.denominator)

def divNat? (x : Binary64) (n : Nat) : Option Binary64 := do
  return ofRatio (← x.numerator?) (x.denominator * n)

def mulNat? (x : Binary64) (n : Nat) : Option Binary64 := do
  return ofRatio ((← x.numerator?) * n) x.denominator

def truncate? (x : Binary64) : Option Int := do
  return (← x.numerator?).tdiv x.denominator

def floor? (x : Binary64) : Option Int := do
  return (← x.numerator?).fdiv x.denominator

/-- What `truncate?` leaves, with the sign of the whole; it is exact. -/
def fraction? (x : Binary64) : Option Binary64 := do
  return ofRatio ((← x.numerator?).tmod x.denominator) x.denominator

def toInt? (x : Binary64) : Option Int := do
  let n ← x.numerator?
  if n % x.denominator = 0 then some (n / x.denominator) else none

def round? (x : Binary64) : Option Int := do
  return roundHalfEven (← x.numerator?) x.denominator

def isZero : Binary64 → Bool
  | finite _ m _ => m == 0
  | _ => false

def isFinite : Binary64 → Bool
  | finite .. => true
  | _ => false

end Binary64

end PolicyAudit
