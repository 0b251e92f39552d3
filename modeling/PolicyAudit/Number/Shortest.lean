import PolicyAudit.Number.Binary64

/-! Decimal text of a binary64 datum: the fewest digits that read back as it.
Grids of spacing `10 ^ k` are tried from coarse to fine. If any point of a grid rounds to the
datum, one of the datum's two neighbours on that grid does, so two tests settle a grid. -/

namespace PolicyAudit.Binary64

/-- A positive datum in quarters of its unit in the last place, with the ends of the interval
of reals that round to it. -/
structure Quarters where
  value : Nat
  low : Nat
  high : Nat
  closed : Bool
  exponent : Int

/-- The gap below a power of two is half the gap above it. -/
def quarters (mantissa : Nat) (exponent : Int) : Quarters where
  value := 4 * mantissa
  low := 4 * mantissa - (if mantissa = Nat.pow 2 52 ∧ -1074 < exponent then 1 else 2)
  high := 4 * mantissa + 2
  closed := mantissa % 2 = 0
  exponent := exponent - 2

namespace Quarters

def aligned (q : Quarters) (quarter c : Nat) (k : Int) : Nat × Nat :=
  (quarter * Nat.pow 2 q.exponent.toNat * Nat.pow 10 (-k).toNat,
    c * Nat.pow 10 k.toNat * Nat.pow 2 (-q.exponent).toNat)

def contains (q : Quarters) (c : Nat) (k : Int) : Bool :=
  let (low, x) := q.aligned q.low c k
  let (high, _) := q.aligned q.high c k
  if q.closed then low ≤ x && x ≤ high else low < x && x < high

/-- The neighbour of the datum on the grid `10 ^ k` that reads back as it, the nearer of two. -/
def neighbour? (q : Quarters) (k : Int) : Option Nat :=
  let (v, unit) := q.aligned q.value 1 k
  let c := v / unit
  let up := c + 1
  match q.contains c k, q.contains up k with
  | true, true =>
    let below := v - c * unit
    let above := up * unit - v
    some (if below < above ∨ (below = above ∧ c % 2 = 0) then c else up)
  | true, false => some c
  | false, true => some up
  | false, false => none

end Quarters

def shortest (mantissa : Nat) (exponent : Int) : Nat × Int :=
  if mantissa = 0 then (0, 0)
  else
    let top : Int := (mantissa.log2 + 1 + exponent) * 30103 / 100000 + 1
    let grids := (List.range 24).map fun (i : Nat) => top - (i : Int)
    (grids.findSome? fun k => ((quarters mantissa exponent).neighbour? k).map (·, k)).getD
      (mantissa, exponent)

/-- Positional from `1e-4` up to below `1e16`, with a point always; otherwise one digit before
the point and an exponent of at least two digits. -/
def literal : Binary64 → List Char
  | nan => "nan".toList
  | infinite s => (if s then "-inf" else "inf").toList
  | finite s m e =>
    let (c, k) := shortest m e
    let ds := Nat.toDigits 10 c
    let point : Int := ds.length + k
    let body : List Char :=
      if c = 0 then "0.0".toList
      else if -4 < point ∧ point ≤ 16 then
        if point ≤ 0 then "0.".toList ++ List.replicate (-point).toNat '0' ++ ds
        else if point < ds.length then ds.take point.toNat ++ '.' :: ds.drop point.toNat
        else ds ++ List.replicate (point - ds.length).toNat '0' ++ ".0".toList
      else
        let x := point - 1
        let tail := Nat.toDigits 10 x.natAbs
        ds.take 1 ++ (if ds.length = 1 then [] else '.' :: ds.drop 1) ++
          'e' :: (if x < 0 then '-' else '+') :: (if tail.length < 2 then '0' :: tail else tail)
    if s then '-' :: body else body

end PolicyAudit.Binary64
