import PolicyAudit.Json.Printer
import PolicyAudit.Report.Basic

/-! Reports as JSON: a list of payloads, two columns of indentation for each level.
A payload has what a consumer reads of a report or a finding, its identity among it. -/

namespace PolicyAudit

/-- The written form without nulls, followed by identity and priority. -/
def Finding.payload (f : Finding) : Value :=
  match f.toValue.compact with
  | .map es => .map (es ++ [(.text "id", .text f.identity), (.text "priority", .text f.priority.label)])
  | v => v

namespace Report

def payload (r : Audit) : Value :=
  .record [
    ("id", .text r.id),
    ("kind", .text r.variant.kind),
    ("name", .ofText? r.metadata.name),
    ("namespace", if r.ns = "" then .null else .text r.ns),
    ("source", .text r.source),
    ("kinds", .list (r.kinds.map .text)),
    ("severities", .list (r.severities.map .text)),
    ("summary", r.tally.toValue),
    ("results", .list (r.findings.map Finding.payload))]

def toJson (rs : List Audit) : String := Json.toText (.list (rs.map payload))

end Report

end PolicyAudit
