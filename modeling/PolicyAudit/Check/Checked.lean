/-! Checking with all faults reported.
A `Checked` value is accepted or comes with its issues. Combining two checks accepts if both do
and otherwise lists the issues of the first and then those of the second. -/

namespace PolicyAudit

inductive Place
  | field (name : String)
  | index (i : Nat)
  | key (shown : String)
  deriving DecidableEq, Repr

inductive Fault
  | missing
  | notRecord
  | notText
  | notUtf8
  | notList
  | notMapping
  | notInt
  | unreadableInt
  | oversizedInt
  | fractionalInt
  | infiniteInt
  | negative
  | notBool
  | unreadableBool
  | otherLiteral
  | otherMember
  | notMoment
  | unreadableMoment
  | momentOutOfRange
  | unknownLevel
  deriving DecidableEq, Repr

structure Issue where
  path : List Place
  fault : Fault
  deriving DecidableEq, Repr

namespace Place

def text : Place → String
  | field name => name
  | index i => toString i
  | key shown => shown

end Place

namespace Fault

def code : Fault → String
  | missing => "missing"
  | notRecord => "model_type"
  | notText => "string_type"
  | notUtf8 => "string_unicode"
  | notList => "list_type"
  | notMapping => "dict_type"
  | notInt => "int_type"
  | unreadableInt => "int_parsing"
  | oversizedInt => "int_parsing_size"
  | fractionalInt => "int_from_float"
  | infiniteInt => "finite_number"
  | negative => "greater_than_equal"
  | notBool => "bool_type"
  | unreadableBool => "bool_parsing"
  | otherLiteral => "literal_error"
  | otherMember => "enum"
  | notMoment => "datetime_type"
  | unreadableMoment => "datetime_from_date_parsing"
  | momentOutOfRange => "datetime_parsing"
  | unknownLevel => "value_error"

end Fault

namespace Issue

def text (i : Issue) : String :=
  ".".intercalate (i.path.map Place.text) ++ ":" ++ i.fault.code

def under (p : Place) (i : Issue) : Issue := { i with path := p :: i.path }

def listText (is : List Issue) : String := "; ".intercalate (is.map text)

end Issue

inductive Checked (α : Type u)
  | accepted (value : α)
  | rejected (issues : List Issue)
  deriving Repr

namespace Checked

def map (f : α → β) : Checked α → Checked β
  | accepted a => accepted (f a)
  | rejected is => rejected is

/-- Issues of the left check come before those of the right one. -/
def seq : Checked (α → β) → Checked α → Checked β
  | accepted f, accepted a => accepted (f a)
  | accepted _, rejected js => rejected js
  | rejected is, accepted _ => rejected is
  | rejected is, rejected js => rejected (is ++ js)

instance : Functor Checked := ⟨map, fun a => map fun _ => a⟩

instance : Pure Checked := ⟨accepted⟩

instance : Seq Checked := ⟨fun f a => seq f (a ())⟩

def fail (f : Fault) : Checked α := rejected [⟨[], f⟩]

def under (p : Place) : Checked α → Checked α
  | accepted a => accepted a
  | rejected is => rejected (is.map (Issue.under p))

def toExcept : Checked α → Except (List Issue) α
  | accepted a => .ok a
  | rejected is => .error is

def value? : Checked α → Option α
  | accepted a => some a
  | rejected _ => none

def issues : Checked α → List Issue
  | accepted _ => []
  | rejected is => is

@[simp] theorem map_accepted (f : α → β) (a : α) : f <$> accepted a = accepted (f a) := rfl

@[simp] theorem seq_accepted (f : α → β) (a : α) :
    accepted f <*> accepted a = accepted (f a) := rfl

@[simp] theorem under_accepted (p : Place) (a : α) : (accepted a).under p = accepted a := rfl

theorem seq_eq_accepted_iff {f : Checked (α → β)} {a : Checked α} {b : β} :
    f <*> a = accepted b ↔ ∃ g x, f = accepted g ∧ a = accepted x ∧ g x = b := by
  show seq f a = accepted b ↔ _
  cases f <;> cases a <;> simp [seq]

theorem map_eq_accepted_iff {f : α → β} {a : Checked α} {b : β} :
    f <$> a = accepted b ↔ ∃ x, a = accepted x ∧ f x = b := by
  show map f a = accepted b ↔ _
  cases a <;> simp [map]

theorem under_eq_accepted_iff {p : Place} {a : Checked α} {x : α} :
    a.under p = accepted x ↔ a = accepted x := by
  cases a <;> simp [under]

end Checked

end PolicyAudit
