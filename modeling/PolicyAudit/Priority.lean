/-! How much attention a result deserves.
Six levels in a fixed order; each but the lowest has a label of its own. A label that names
no level reads as the lowest one, and a severity that names no level weighs `debug`. -/

namespace PolicyAudit

inductive Priority
  | unset | debug | info | warning | critical | error
  deriving DecidableEq, Repr, Inhabited

namespace Priority

def all : List Priority := [unset, debug, info, warning, critical, error]

def ordinal : Priority → Nat
  | unset => 0
  | debug => 1
  | info => 2
  | warning => 3
  | critical => 4
  | error => 5

def label : Priority → String
  | unset => ""
  | debug => "debug"
  | info => "info"
  | warning => "warning"
  | critical => "critical"
  | error => "error"

def name : Priority → String
  | unset => "DEFAULT"
  | debug => "DEBUG"
  | info => "INFO"
  | warning => "WARNING"
  | critical => "CRITICAL"
  | error => "ERROR"

instance : LE Priority := ⟨fun p q => p.ordinal ≤ q.ordinal⟩

instance : DecidableLE Priority := fun p q => inferInstanceAs (Decidable (p.ordinal ≤ q.ordinal))

theorem le_iff {p q : Priority} : p ≤ q ↔ p.ordinal ≤ q.ordinal := Iff.rfl

def ofLabel (s : String) : Priority := (all.find? (·.label == s)).getD unset

def ofLabel? (s : Option String) : Priority := ofLabel (s.getD "")

def ofOrdinal? (n : Nat) : Option Priority := all[n]?

/-- `high` is above `critical`. -/
def ofSeverity (s : Option String) : Priority :=
  match s with
  | some "critical" => critical
  | some "high" => error
  | some "medium" => warning
  | some "low" => info
  | some "info" => info
  | _ => debug

def highest? : List Priority → Option Priority
  | [] => none
  | p :: ps => some (ps.foldl (fun m q => if m ≤ q then q else m) p)

def ascending (ps : List Priority) : List Priority := ps.mergeSort (fun p q => p ≤ q)

@[simp] theorem ofLabel_label (p : Priority) : ofLabel p.label = p := by
  cases p <;> decide

@[simp] theorem ofOrdinal_ordinal (p : Priority) : ofOrdinal? p.ordinal = some p := by
  cases p <;> rfl

theorem ordinal_injective {p q : Priority} (h : p.ordinal = q.ordinal) : p = q := by
  cases p <;> cases q <;> simp_all [ordinal]

end Priority

end PolicyAudit
