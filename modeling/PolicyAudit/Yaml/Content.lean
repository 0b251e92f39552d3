import PolicyAudit.Document.Literal
import PolicyAudit.Text.Base64
import PolicyAudit.Yaml.Node
import PolicyAudit.Yaml.Number

/-! The values that nodes stand for.
A mapping must not have a key twice, unless entries were merged into it; its own entries then come
after the merged ones. Keys are single values, or lists of such. -/

namespace PolicyAudit.Yaml

inductive Failure
  | malformed
  /-- A key of a compound sort. -/
  | unfitKey
  /-- A number without a character. -/
  | emptyNumber
  /-- A word that is tagged as a truth value and is none. -/
  | unknownWord
  deriving DecidableEq, Repr

namespace Content

def ratio? : Value → Option (Int × Nat)
  | .bool b => some (b.toNat, 1)
  | .int n => some (n, 1)
  | .real x => x.numerator?.map (·, x.denominator)
  | _ => none

def isSameSingle : Value → Value → Bool
  | .null, .null => true
  | .real x, .real y => x = y
  | .text s, .text t => s = t
  | .bytes bs, .bytes cs => bs = cs
  | .moment m, .moment n => m = n
  | _, _ => false

mutual

/-- Whether two values are the same key: numbers go by their size. -/
def isSameKey : Value → Value → Bool
  | .list vs, .list ws => areSameKeys vs ws
  | .pair v w, .pair v' w' => isSameKey v v' && isSameKey w w'
  | v, w =>
    match ratio? v, ratio? w with
    | some (n, d), some (m, e) => n * e == m * d
    | _, _ => isSameSingle v w

def areSameKeys : List Value → List Value → Bool
  | [], [] => true
  | v :: vs, w :: ws => isSameKey v w && areSameKeys vs ws
  | _, _ => false

end

def isSimple : Value → Bool
  | .list _ | .map _ => false
  | .pair v w => isSimple v && isSimple w
  | _ => true

/-- Whether `k` may be one more key; `earlier` are the keys that it must not repeat. -/
def checkKey (earlier : List Value) (k : Value) : Except Failure Unit :=
  match k with
  | .map _ => .error .malformed
  | .list vs =>
    if !vs.all isSimple then .error .unfitKey
    else if earlier.any (isSameKey k) then .error .malformed else .ok ()
  | k => if earlier.any (isSameKey k) then .error .malformed else .ok ()

/-- An entry of a known key keeps its place and takes the new value; a new key goes last. -/
def put (k v : Value) : List (Value × Value) → List (Value × Value)
  | [] => [(k, v)]
  | (k', v') :: es => if isSameKey k' k then (k', v) :: es else (k', v') :: put k v es

def distinct (es : List (Value × Value)) : List (Value × Value) :=
  es.foldl (fun acc (k, v) => put k v acc) []

def entries (es : List (Value × Value)) : Entries :=
  Entries.ofList ((distinct es).map fun (k, v) => (k.toKey, v))

def boolWords : List (String × Bool) :=
  [("yes", true), ("no", false), ("y", true), ("n", false), ("true", true), ("false", false),
    ("on", true), ("off", false)]

/-- The fraction in microseconds: six digits, the seventh rounding them. -/
def micros (fraction : List Char) : Nat :=
  Moment.micros fraction + if (fraction[6]?).any ('4' < ·) then 1 else 0

def moment? (s : Stamp) : Option Moment := do
  let date ← Date.make? s.year s.month s.day
  if s.year = 0 then none
  else
    match s.time with
    | none => some (.atMidnight date)
    | some (hour, minute, second) =>
      let offset := s.offset.map fun (negative, h, m) =>
        let n : Int := (3600 * h + 60 * m : Nat)
        if negative then -n else n
      if 23 < hour ∨ 59 < minute ∨ 59 < second then none
      else if offset.any fun o => 86400 ≤ o.natAbs then none
      else
        let m : Moment := ⟨date, hour, minute, second, 0, offset⟩
        let micro := micros s.fraction
        let carried := Moment.ofUnix (m.toUnix + (micro / 1000000 : Nat)) (micro % 1000000)
        if 9999 < carried.date.year then none else some { carried with offset := offset }

def number (n : Except Number.Failure α) (value : α → Value) : Except Failure Value :=
  match n with
  | .ok n => .ok (value n)
  | .error .malformed => .error .malformed
  | .error .empty => .error .emptyNumber

def orMalformed (v : Option Value) : Except Failure Value := v.elim (.error .malformed) .ok

def scalar (legacy : Bool) (tag : Tag) (text : String) : Except Failure Value :=
  match tag with
  | .null => .ok .null
  | .bool =>
    match boolWords.lookup (text.map Char.toLower) with
    | some b => .ok (.bool b)
    | none => .error .unknownWord
  | .int => number (Number.int legacy text) .int
  | .float => number (Number.real legacy text) .real
  | .str => .ok (.text text)
  | .binary =>
    if text.toList.all (·.toNat < 128) then orMalformed ((Base64.decode? text.toList).map .bytes)
    else .error .malformed
  | .timestamp => orMalformed ((Stamp.ofText? true text.toList).bind moment? |>.map .moment)
  | _ => .error .malformed

mutual

def value (legacy : Bool) : Node → Except Failure Value
  | .scalar tag text => scalar legacy tag text
  | .sequence tag items =>
    match tag with
    | .seq => do return .list (← values legacy items)
    | .omap => do return .map (entries (← singles legacy items))
    | .pairs => do return .list ((← singles legacy items).map fun (k, v) => .pair k v)
    | _ => .error .malformed
  | .mapping tag merged own =>
    match tag with
    | .map => do
      let first ← pairs legacy false [] merged
      return .map (entries (first ++ (← pairs legacy merged.isEmpty [] own)))
    | .set => do
      let first ← pairs legacy false [] merged
      return .list ((distinct (first ++ (← pairs legacy merged.isEmpty [] own))).map Prod.fst)
    | _ => .error .malformed

def values (legacy : Bool) : List Node → Except Failure (List Value)
  | [] => .ok []
  | n :: ns => do return (← value legacy n) :: (← values legacy ns)

/-- The entries after those with the keys `earlier`, all of them `distinct` if asked for. -/
def pairs (legacy distinct : Bool) (earlier : List Value) :
    List (Node × Node) → Except Failure (List (Value × Value))
  | [] => .ok []
  | (k, v) :: es => do
    let k ← value legacy k
    let v ← value legacy v
    checkKey (if distinct then earlier else []) k
    return (k, v) :: (← pairs legacy distinct (k :: earlier) es)

def singles (legacy : Bool) : List Node → Except Failure (List (Value × Value))
  | [] => .ok []
  | .mapping _ [] [(k, v)] :: ns => do
    return (← value legacy k, ← value legacy v) :: (← singles legacy ns)
  | _ :: _ => .error .malformed

end

end Content

end PolicyAudit.Yaml
