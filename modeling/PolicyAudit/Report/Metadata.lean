import PolicyAudit.Check.Record

/-! The metadata of a report. -/

namespace PolicyAudit

open Check

structure Metadata where
  name : Option String
  /-- The namespace. -/
  ns : Option String := none
  uid : Option String := none
  resourceVersion : Option String := none
  creation : Option Moment := none
  labels : Labels := .empty
  annotations : Labels := .empty
  deriving DecidableEq, Repr, Inhabited

namespace Metadata

def ofValue : Value → Checked Metadata :=
  record fun es =>
    Metadata.mk <$> (some <$> required es "name" text)
      <*> optional es "namespace" text
      <*> optional es "uid" text
      <*> optional es ⟨"resourceVersion", some "resource_version"⟩ text
      <*> optional es ⟨"creationTimestamp", some "creation_timestamp"⟩ moment
      <*> withDefault es "labels" .empty Check.labels
      <*> withDefault es "annotations" .empty Check.labels

def toValue (m : Metadata) : Value :=
  .record [
    ("name", .ofText? m.name),
    ("namespace", .ofText? m.ns),
    ("uid", .ofText? m.uid),
    ("resourceVersion", .ofText? m.resourceVersion),
    ("creationTimestamp", .ofText? (m.creation.map Moment.zulu)),
    ("labels", m.labels.toValue),
    ("annotations", m.annotations.toValue)]

inductive TextField
  | name | ns | uid | resourceVersion
  deriving DecidableEq, Repr

def assign (m : Metadata) (field : TextField) (s : Option String) : Metadata :=
  match field with
  | .name => { m with name := s }
  | .ns => { m with ns := s }
  | .uid => { m with uid := s }
  | .resourceVersion => { m with resourceVersion := s }

def textAt (m : Metadata) : TextField → Option String
  | .name => m.name
  | .ns => m.ns
  | .uid => m.uid
  | .resourceVersion => m.resourceVersion

theorem textAt_assign (m : Metadata) (field other : TextField) (s : Option String) :
    (m.assign field s).textAt other = if other = field then s else m.textAt other := by
  cases field <;> cases other <;> rfl

end Metadata

end PolicyAudit
