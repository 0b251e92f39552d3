import PolicyAudit.Check.Scalar
import PolicyAudit.Labels

/-! Reading records, lists and maps.
A record's fields are looked up by name: the documented name first, then an alternative one. What
a reader sees of a record is only these look-ups, so other entries and the order of entries never
matter. -/

namespace PolicyAudit

def Labels.toValue (l : Labels) : Value :=
  .record (l.entries.map fun (k, v) => (k, .text v))

namespace Check

structure Name where
  documented : String
  alternative : Option String := none
  deriving DecidableEq, Repr

instance : Coe String Name := ⟨fun s => ⟨s, none⟩⟩

/-- The name a field is found under, the documented one if it is nowhere, and its value. -/
def find (es : Entries) (n : Name) : String × Option Value :=
  match es.get? n.documented, n.alternative with
  | some v, _ => (n.documented, some v)
  | none, none => (n.documented, none)
  | none, some other =>
    match es.get? other with
    | some v => (other, some v)
    | none => (n.documented, none)

def required (es : Entries) (n : Name) (read : Value → Checked α) : Checked α :=
  match find es n with
  | (name, some v) => (read v).under (.field name)
  | (name, none) => (Checked.fail .missing).under (.field name)

/-- The default stands for a missing field only. -/
def withDefault (es : Entries) (n : Name) (default : α) (read : Value → Checked α) : Checked α :=
  match find es n with
  | (name, some v) => (read v).under (.field name)
  | (_, none) => .accepted default

def nullable (read : Value → Checked α) : Value → Checked (Option α)
  | .null => .accepted none
  | v => some <$> read v

def optional (es : Entries) (n : Name) (read : Value → Checked α) : Checked (Option α) :=
  withDefault es n none (nullable read)

def record (read : Entries → Checked α) : Value → Checked α
  | .map es => read es
  | _ => .fail .notRecord

def items (read : Value → Checked α) (i : Nat) : List Value → Checked (List α)
  | [] => .accepted []
  | v :: vs => List.cons <$> (read v).under (.index i) <*> items read (i + 1) vs

def listOf (read : Value → Checked α) : Value → Checked (List α)
  | .list vs => items read 0 vs
  | _ => .fail .notList

/-- Text keys and text values; a key of another sort is reported before its value. -/
def labelEntries : Entries → Checked (List (String × String))
  | [] => .accepted []
  | (k, v) :: es =>
    let key : Checked String := match k with
      | .text s => .accepted s
      | .other _ => (Checked.fail .notText).under (.key "[key]")
    List.cons <$> (Prod.mk <$> key.under (.key k.shown) <*> (text v).under (.key k.shown))
      <*> labelEntries es

def labels : Value → Checked Labels
  | .map es => Labels.ofList <$> labelEntries es
  | _ => .fail .notMapping

/-- Null, or any text; other values fail both as a member of the vocabulary and as text. -/
def vocabulary (name : String) : Value → Checked (Option String)
  | .null => .accepted none
  | v =>
    match text v with
    | .accepted s => .accepted (some s)
    | .rejected is =>
      .rejected (⟨[.field ("str-enum[" ++ name ++ "]")], .otherMember⟩ ::
        is.map (Issue.under (.field "str")))

theorem find_congr {es es' : Entries} {n : Name} (h : es.get? n.documented = es'.get? n.documented)
    (h' : ∀ other, n.alternative = some other → es.get? other = es'.get? other) :
    find es n = find es' n := by
  unfold find
  rw [h]
  cases es'.get? n.documented <;> cases ha : n.alternative <;> simp_all

theorem find_documented {es : Entries} {n : Name} {v : Value} (h : es.get? n.documented = some v) :
    find es n = (n.documented, some v) := by
  simp [find, h]

end Check

end PolicyAudit
