import PolicyAudit.Proofs.Document.Form
import PolicyAudit.Report.Json

/-! The payload of a finding as one record in compact form.
Identity and priority are two more fields of the record, never null, so leaving nulls out and
adding them may change places. -/

namespace PolicyAudit.Finding

def written (f : Finding) : List (String × Value) := [
  ("source", .ofText? f.source),
  ("policy", .ofText? f.policy),
  ("rule", .ofText? f.rule),
  ("resources", .list (f.resources.map Reference.toValue)),
  ("resourceSelector", (f.selector.map Selector.toValue).getD .null),
  ("message", .ofText? f.message),
  ("result", .ofText? f.status),
  ("scored", .bool f.scored),
  ("properties", f.properties.toValue),
  ("timestamp", (f.timestamp.map Timestamp.toValue).getD .null),
  ("category", .ofText? f.category),
  ("severity", .ofText? f.severity)]

def derived (f : Finding) : List (String × Value) :=
  [("id", .text f.identity), ("priority", .text f.priority.label)]

theorem nodup_names (f : Finding) : ((f.written ++ f.derived).map Prod.fst).Nodup := by
  show ["source", "policy", "rule", "resources", "resourceSelector", "message", "result", "scored",
    "properties", "timestamp", "category", "severity", "id", "priority"].Nodup
  decide

theorem payload_eq_write (f : Finding) :
    f.payload = Form.compact.write (.record (f.written ++ f.derived)) := by
  have hc : f.toValue.compact = .map (Form.compact.entries (Value.fields f.written)) :=
    Form.write_map .compact _
  have hd : Form.compact.entries (Value.fields f.derived) = Value.fields f.derived := by
    simp [Form.entries, Value.fields, derived, Value.compactEntries, Value.compact]
  rw [payload, hc, Value.record, Form.write_map, List.map_append]
  show Value.map (Form.compact.entries (Value.fields f.written) ++ Value.fields f.derived) = _
  rw [← hd, ← Form.entries_append]
  rfl

theorem get?_payload (f : Finding) (name : String) :
    f.payload.get? name =
      ((f.written ++ f.derived).lookup name).bind Form.compact.field? := by
  rw [payload_eq_write, Value.record, Form.write_map]
  exact Form.get?_write_record f.nodup_names .compact name

@[simp] theorem get?_payload_id (f : Finding) : f.payload.get? "id" = some (.text f.identity) := by
  rw [get?_payload]
  rfl

end PolicyAudit.Finding
