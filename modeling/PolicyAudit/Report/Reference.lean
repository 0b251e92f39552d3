import PolicyAudit.Check.Record

/-! What a result is about: references to objects and selectors of objects by label.
Each type is read by `ofValue` and written by `toValue`, all fields in a fixed order. -/

namespace PolicyAudit

open Check

structure Reference where
  kind : Option String := none
  /-- The namespace. -/
  ns : Option String := none
  name : Option String := none
  uid : Option String := none
  apiVersion : Option String := none
  resourceVersion : Option String := none
  fieldPath : Option String := none
  deriving DecidableEq, Repr, Inhabited

structure Requirement where
  key : String
  operator : String
  values : List String
  deriving DecidableEq, Repr, Inhabited

structure Selector where
  matchLabels : Labels
  matchExpressions : List Requirement
  deriving DecidableEq, Repr, Inhabited

namespace Reference

def ofValue : Value → Checked Reference :=
  record fun es =>
    Reference.mk <$> optional es "kind" text
      <*> optional es "namespace" text
      <*> optional es "name" text
      <*> optional es "uid" text
      <*> optional es ⟨"apiVersion", some "api_version"⟩ text
      <*> optional es ⟨"resourceVersion", some "resource_version"⟩ text
      <*> optional es ⟨"fieldPath", some "field_path"⟩ text

def toValue (r : Reference) : Value :=
  .record [
    ("kind", .ofText? r.kind),
    ("namespace", .ofText? r.ns),
    ("name", .ofText? r.name),
    ("uid", .ofText? r.uid),
    ("apiVersion", .ofText? r.apiVersion),
    ("resourceVersion", .ofText? r.resourceVersion),
    ("fieldPath", .ofText? r.fieldPath)]

end Reference

namespace Requirement

def ofValue : Value → Checked Requirement :=
  record fun es =>
    Requirement.mk <$> required es "key" text
      <*> required es "operator" text
      <*> withDefault es "values" [] (listOf text)

def toValue (r : Requirement) : Value :=
  .record [
    ("key", .text r.key),
    ("operator", .text r.operator),
    ("values", .list (r.values.map .text))]

end Requirement

namespace Selector

def ofValue : Value → Checked Selector :=
  record fun es =>
    Selector.mk <$> withDefault es ⟨"matchLabels", some "match_labels"⟩ .empty labels
      <*> withDefault es ⟨"matchExpressions", some "match_expressions"⟩ []
        (listOf Requirement.ofValue)

def toValue (s : Selector) : Value :=
  .record [
    ("matchLabels", s.matchLabels.toValue),
    ("matchExpressions", .list (s.matchExpressions.map Requirement.toValue))]

end Selector

end PolicyAudit
