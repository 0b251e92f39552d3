import PolicyAudit.Hash
import PolicyAudit.Priority
import PolicyAudit.Report.Reference
import PolicyAudit.Report.Tally
import PolicyAudit.Report.Timestamp

/-! A finding: the outcome of one policy rule on no, one or more resources.
Its identity is the `resultID` among its properties or else the fingerprint of seven of its
texts, and once shown it stays. Its priority comes from the severity unless it is given; neither
is part of the written form. -/

namespace PolicyAudit

open Check

structure Finding where
  source : Option String := none
  policy : Option String := none
  rule : Option String := none
  resources : List Reference := []
  selector : Option Selector := none
  message : Option String := none
  status : Option String := none
  scored : Bool := false
  properties : Labels := .empty
  timestamp : Option Timestamp := none
  category : Option String := none
  severity : Option String := none
  priority : Priority := .debug
  /-- The identity shown first, if one has been shown. -/
  settled : Option String := none
  deriving DecidableEq, Repr, Inhabited

namespace Priority

def ofNumber? : Value → Option Priority
  | .int (.ofNat n) => ofOrdinal? n
  | .bool b => ofOrdinal? b.toNat
  | .real x =>
    match x.toInt? with
    | some (.ofNat n) => ofOrdinal? n
    | _ => none
  | _ => none

def ofValue : Value → Checked Priority
  | .text s => .accepted (ofLabel s)
  | v =>
    match ofNumber? v with
    | some p => .accepted p
    | none => .fail .unknownLevel

end Priority

namespace Finding

def ofValue : Value → Checked Finding :=
  record fun es =>
    (fun source policy rule resources selector message status scored properties timestamp
        category severity priority =>
      { source, policy, rule, resources, selector, message, status, scored, properties,
        timestamp, category, severity
        priority := priority.getD (.ofSeverity severity) })
      <$> optional es "source" text
      <*> (some <$> required es "policy" text)
      <*> optional es "rule" text
      <*> withDefault es "resources" [] (listOf Reference.ofValue)
      <*> optional es ⟨"resourceSelector", some "resource_selector"⟩ Selector.ofValue
      <*> optional es "message" text
      <*> withDefault es "result" none (vocabulary "PolicyResult")
      <*> withDefault es "scored" false bool
      <*> withDefault es "properties" .empty labels
      <*> optional es "timestamp" Timestamp.ofValue
      <*> optional es "category" text
      <*> withDefault es "severity" none (vocabulary "PolicySeverity")
      <*> optional es "priority" Priority.ofValue

def toValue (f : Finding) : Value :=
  .record [
    ("source", .ofText? f.source),
    ("policy", .ofText? f.policy),
    ("rule", .ofText? f.rule),
    ("resources", .list (f.resources.map Reference.toValue)),
    ("resourceSelector", (f.selector.map Selector.toValue).getD .null),
    ("message", .ofText? f.message),
    ("result", .ofText? f.status),
    ("scored", .bool f.scored),
    ("properties", f.properties.toValue),
    ("timestamp", (f.timestamp.map Timestamp.toValue).getD .null),
    ("category", .ofText? f.category),
    ("severity", .ofText? f.severity)]

def resource? (f : Finding) : Option Reference := f.resources.head?

/-- The texts that make a finding what it is, in hashing order. -/
def content (f : Finding) : List (Option String) :=
  [f.resource?.bind (·.name), f.resource?.bind (·.uid), f.policy, f.rule, f.status, f.category,
    f.message]

def decimal (n : Int) : String := String.ofList (intDigits n)

def fingerprint (f : Finding) : String := decimal (Hash.ofTexts f.content)

/-- An identity asserted by the producer; an empty one asserts nothing. -/
def asserted? (f : Finding) : Option String :=
  (f.properties.get? "resultID").filter (· ≠ "")

/-- The identity to show: the one shown before, the asserted one, or the fingerprint. -/
def identity (f : Finding) : String :=
  f.settled.getD (f.asserted?.getD f.fingerprint)

def settle (f : Finding) : Finding := { f with settled := some f.identity }

inductive TextField
  | source | policy | rule | message | status | category | severity
  deriving DecidableEq, Repr

/-- An assignment changes one text and nothing that was derived from it. -/
def assign (f : Finding) (field : TextField) (s : Option String) : Finding :=
  match field with
  | .source => { f with source := s }
  | .policy => { f with policy := s }
  | .rule => { f with rule := s }
  | .message => { f with message := s }
  | .status => { f with status := s }
  | .category => { f with category := s }
  | .severity => { f with severity := s }

def textAt (f : Finding) : TextField → Option String
  | .source => f.source
  | .policy => f.policy
  | .rule => f.rule
  | .message => f.message
  | .status => f.status
  | .category => f.category
  | .severity => f.severity

theorem textAt_assign (f : Finding) (field other : TextField) (s : Option String) :
    (f.assign field s).textAt other = if other = field then s else f.textAt other := by
  cases field <;> cases other <;> rfl

@[simp] theorem identity_settle (f : Finding) : f.settle.identity = f.identity := rfl

@[simp] theorem settle_settle (f : Finding) : f.settle.settle = f.settle := rfl

@[simp] theorem fingerprint_settle (f : Finding) : f.settle.fingerprint = f.fingerprint := rfl

@[simp] theorem toValue_settle (f : Finding) : f.settle.toValue = f.toValue := rfl

end Finding

end PolicyAudit
