import PolicyAudit.Number.Binary64
import PolicyAudit.Calendar.Moment

/-! Documents: what a manifest or an answer of the cluster holds once its text has been read.
A mapping keeps its entries in the order written. `get?` is the view of a mapping: the value of
the first entry of a name. A pair is one value, and no list of two. -/

namespace PolicyAudit

/-- A mapping's key: text, or something else known by how it is shown. -/
inductive Key
  | text (s : String)
  | other (shown : String)
  deriving DecidableEq, Repr, Inhabited

inductive Value
  | null
  | bool (b : Bool)
  | int (n : Int)
  | real (x : Binary64)
  | text (s : String)
  | bytes (bs : List UInt8)
  | moment (m : Moment)
  | list (items : List Value)
  | pair (first second : Value)
  | map (entries : List (Key × Value))
  deriving Repr, Inhabited

abbrev Entries := List (Key × Value)

namespace Key

def shown : Key → String
  | text s => s
  | other s => s

end Key

namespace Entries

def get? (es : Entries) (name : String) : Option Value :=
  es.lookup (.text name)

/-- An entry of a known key keeps its place and takes the new value; a new key goes last. -/
def put (es : Entries) (k : Key) (v : Value) : Entries :=
  match es with
  | [] => [(k, v)]
  | (k', v') :: rest => if k' = k then (k, v) :: rest else (k', v') :: put rest k v

def ofList (es : List (Key × Value)) : Entries :=
  es.foldl (fun acc (k, v) => acc.put k v) []

theorem get?_put_self (es : Entries) (name : String) (v : Value) :
    (es.put (.text name) v).get? name = some v := by
  induction es with
  | nil => simp [put, get?]
  | cons e rest ih =>
    obtain ⟨k', v'⟩ := e
    by_cases h : k' = .text name
    · simp [put, get?, h]
    · have h' : (Key.text name == k') = false := by simp [Ne.symm h]
      simpa [put, get?, h, List.lookup_cons, h'] using ih

theorem get?_put_ne (es : Entries) {k : Key} {name : String} (v : Value) (h : k ≠ .text name) :
    (es.put k v).get? name = es.get? name := by
  have hk : (Key.text name == k) = false := by simp [Ne.symm h]
  induction es with
  | nil => simp [put, get?, List.lookup_cons, hk]
  | cons e rest ih =>
    obtain ⟨k', v'⟩ := e
    by_cases h' : k' = k
    · subst h'; simp [put, get?, List.lookup_cons, hk]
    · cases hn : (Key.text name == k') <;> simp_all [put, get?, List.lookup_cons]

end Entries

namespace Value

def get? (v : Value) (name : String) : Option Value :=
  match v with
  | .map es => Entries.get? es name
  | _ => none

/-- Zero, empty and absent count as nothing. -/
def isNothing : Value → Bool
  | .null => true
  | .bool b => !b
  | .int n => n == 0
  | .real x => x.isZero
  | .text s => s.isEmpty
  | .bytes bs => bs.isEmpty
  | .moment _ => false
  | .list items => items.isEmpty
  | .pair .. => false
  | .map es => es.isEmpty

def orElse (v : Option Value) (fallback : Value) : Value :=
  match v with
  | some v => if v.isNothing then fallback else v
  | none => fallback

def ofText? (s : Option String) : Value := (s.map .text).getD .null

def record (fields : List (String × Value)) : Value :=
  .map (fields.map fun (name, v) => (.text name, v))

mutual

/-- Drops the entries that hold null, at every depth. -/
def compact : Value → Value
  | .list items => .list (compactItems items)
  | .map es => .map (compactEntries es)
  | v => v

def compactItems : List Value → List Value
  | [] => []
  | v :: vs => compact v :: compactItems vs

def compactEntries : List (Key × Value) → List (Key × Value)
  | [] => []
  | (_, .null) :: es => compactEntries es
  | (k, v) :: es => (k, compact v) :: compactEntries es

end

theorem compactItems_eq_map (vs : List Value) : compactItems vs = vs.map compact := by
  induction vs with
  | nil => rfl
  | cons v vs ih => simp [compactItems, ih]

end Value

end PolicyAudit
