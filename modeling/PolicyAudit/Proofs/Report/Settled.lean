import PolicyAudit.Report.Json
import PolicyAudit.Report.Text

/-! What is shown of findings whose identities are settled.
To settle an identity changes nothing that is shown: a finding's payload and line, a report's view,
its payload and its lines are those of the finding and the report before. -/

namespace PolicyAudit

namespace Finding

@[simp] theorem payload_settle (f : Finding) : f.settle.payload = f.payload := rfl

@[simp] theorem findingLine_settle (f : Finding) :
    Report.findingLine f.settle = Report.findingLine f := rfl

variable (fs : List Finding)

theorem sourceOf_settle : sourceOf (fs.map settle) = sourceOf fs := by
  cases fs <;> rfl

theorem kindsOf_settle : kindsOf (fs.map settle) = kindsOf fs := by
  rw [kindsOf, List.map_map]
  rfl

theorem severitiesOf_settle : severitiesOf (fs.map settle) = severitiesOf fs := by
  rw [severitiesOf, List.map_map]
  rfl

theorem tallyOf_settle : tallyOf (fs.map settle) = tallyOf fs := by
  rw [tallyOf, List.map_map]
  rfl

end Finding

namespace Report

structure View where
  variant : Variant
  id : String
  name : Option String
  ns : String
  source : String
  scope : Option Reference
  kinds : List String
  severities : List String
  tally : Tally Nat
  identities : List String
  deriving DecidableEq, Repr

def view (r : Audit) : View where
  variant := r.variant
  id := r.id
  name := r.metadata.name
  ns := r.ns
  source := r.source
  scope := r.scope
  kinds := r.kinds
  severities := r.severities
  tally := r.tally
  identities := r.findings.map Finding.identity

variable (r : Audit)

@[simp] theorem source_settle : r.settle.source = r.source := Finding.sourceOf_settle r.findings

@[simp] theorem kinds_settle : r.settle.kinds = r.kinds := Finding.kindsOf_settle r.findings

@[simp] theorem severities_settle : r.settle.severities = r.severities :=
  Finding.severitiesOf_settle r.findings

@[simp] theorem tally_settle : r.settle.tally = r.tally := Finding.tallyOf_settle r.findings

@[simp] theorem view_settle : r.settle.view = r.view := by
  have hidentities : r.settle.findings.map Finding.identity = r.findings.map Finding.identity := by
    rw [settle, mapBoth, List.map_map]
    rfl
  rw [view, source_settle, kinds_settle, severities_settle, tally_settle, hidentities]
  rfl

@[simp] theorem payload_settle : r.settle.payload = r.payload := by
  have hpayloads : r.settle.findings.map Finding.payload = r.findings.map Finding.payload := by
    rw [settle, mapBoth, List.map_map]
    rfl
  rw [payload, source_settle, kinds_settle, severities_settle, tally_settle, hpayloads]
  rfl

@[simp] theorem header_settle : header r.settle = header r := by
  rw [header, source_settle, tally_settle]
  rfl

theorem findingLines_settle (fs : List Finding) :
    findingLines (fs.map Finding.settle) = findingLines fs := by
  induction fs with
  | nil => rfl
  | cons f fs ih => rw [List.map_cons, findingLines, findingLines, ih, Finding.findingLine_settle]

theorem lines_settle (rs : List Audit) : lines (rs.map settle) = lines rs := by
  induction rs with
  | nil => rfl
  | cons r rs ih =>
    have hbody : findingLines r.settle.findings = findingLines r.findings :=
      findingLines_settle r.findings
    rw [List.map_cons, lines, lines, ih, hbody, header_settle]

theorem toText_settle (rs : List Audit) : toText (rs.map settle) = toText rs := by
  rw [toText, lines_settle, toText]

theorem toJson_settle (rs : List Audit) : toJson (rs.map settle) = toJson rs := by
  have hpayload : payload ∘ settle = payload := funext payload_settle
  rw [toJson, List.map_map, hpayload, toJson]

end Report

end PolicyAudit
